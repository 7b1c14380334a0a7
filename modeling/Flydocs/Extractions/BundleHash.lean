import Flydocs.Extractions.SubmitExtraction
import Flydocs.Foundation.Traverse

/-!
# The hash of a bundle

Of several files a submit hashes the names and the bytes, one after the other
and with nothing in between.  Two bundles with one concatenation have one hash,
so the hash tells them apart only where both are cut at the same places.
-/

namespace Flydocs

open Foundation

/-! ## Bytes of a text -/

section

variable (bytes : ByteArray)

theorem drop_eq_get_cons {index : Nat} (h : index < bytes.size) :
    bytes.data.toList.drop index =
      bytes.get! index :: bytes.data.toList.drop (index + 1) := by
  have hget : bytes.get! index = bytes.data[index] :=
    getElem!_pos bytes.data index h
  rw [List.drop_eq_getElem_cons (by simpa using h), hget,
    Array.getElem_toList]

theorem toList_loop_eq (index : Nat) (seen : List UInt8) :
    ByteArray.toList.loop bytes index seen =
      seen.reverse ++ bytes.data.toList.drop index := by
  fun_induction ByteArray.toList.loop bytes index seen with
  | case1 index seen hlt ih =>
      rw [ih, drop_eq_get_cons bytes hlt]
      simp
  | case2 index seen hge =>
      have hnone : bytes.data.toList.drop index = [] :=
        List.drop_eq_nil_of_le (by simpa using hge)
      rw [hnone, List.append_nil]

theorem toList_eq_data : bytes.toList = bytes.data.toList := by
  rw [ByteArray.toList, toList_loop_eq]
  simp

end

theorem utf8_injective :
    Function.Injective fun text : String => text.toUTF8.toList := by
  intro first second h
  simp only [toList_eq_data] at h
  exact String.toByteArray_inj.mp (ByteArray.ext (Array.toList_inj.mp h))

namespace SubmitExtractionHandler

/-! ## Bundles -/

def bundle (files : List Interfaces.FileInput) :
    List (String × List UInt8) :=
  match decodeAll files with
  | .ok perFileBytes => (files.map fun file => file.filename).zip perFileBytes
  | .error _ => []

/-- What is fed to the hash, piece by piece. -/
def pieces (files : List (String × List UInt8)) : List (List UInt8) :=
  files.flatMap fun (filename, bytes) => [filename.toUTF8.toList, bytes]

theorem pieces_injective : Function.Injective pieces := by
  intro first second h
  induction first generalizing second with
  | nil =>
      cases second with
      | nil => rfl
      | cons file files => simp [pieces] at h
  | cons file files ih =>
      cases second with
      | nil => simp [pieces] at h
      | cons other others =>
          simp only [pieces, List.flatMap_cons, List.cons_append,
            List.nil_append, List.cons.injEq] at h
          obtain ⟨hname, hbytes, hrest⟩ := h
          rw [ih hrest, Prod.ext (utf8_injective hname) hbytes]

/-- One concatenation with cuts at the same places is one bundle. -/
theorem bundle_eq_iff {first second : List (String × List UInt8)} :
    first = second ↔
      (pieces first).flatten = (pieces second).flatten ∧
        (pieces first).map List.length = (pieces second).map List.length := by
  rw [← pieces_injective.eq_iff, List.eq_iff_flatten_eq]

variable {self : SubmitExtractionHandler}

theorem rolled_eq (files : List Interfaces.FileInput)
    (perFileBytes : List (List UInt8)) :
    ((files.zip perFileBytes).flatMap fun (file, bytes) =>
        file.filename.toUTF8.toList ++ bytes) =
      (pieces ((files.map fun file => file.filename).zip
        perFileBytes)).flatten := by
  rw [pieces, ← List.flatMap_id, List.flatMap_assoc, List.zip_map_left,
    List.flatMap_map]
  simp

theorem summarise_of_two_le {files : List Interfaces.FileInput}
    (hmany : 2 ≤ files.length) (perFileBytes : List (List UInt8)) :
    ∃ filename, self.summarise files perFileBytes =
      .ok (filename, self.sha256 (pieces ((files.map fun file =>
        file.filename).zip perFileBytes)).flatten) := by
  match files, hmany with
  | first :: second :: rest, _ =>
      exact ⟨_, by rw [← rolled_eq]; rfl⟩

/-- Two files or more are hashed in pieces. -/
theorem contentSha256_of_buildEntity {command : SubmitExtractionCommand}
    {entity : ExtractionEntity} (h : self.buildEntity command = .ok entity)
    (hmany : 2 ≤ command.request.files.length) :
    entity.contentSha256 =
      self.sha256 (pieces (bundle command.request.files)).flatten := by
  simp only [buildEntity] at h
  split at h
  · cases h
  · cases hdecode : decodeAll command.request.files with
    | error failure => simp [hdecode] at h
    | ok perFileBytes =>
        obtain ⟨filename, hsummary⟩ := self.summarise_of_two_le hmany
          perFileBytes
        simp only [hdecode, hsummary] at h
        cases h
        rw [bundle, hdecode]

/-- Distinct digests for distinct bundles, unless both have one concatenation
and are cut at different places. -/
theorem contentSha256_discriminates_iff
    (hsha : Function.Injective self.sha256)
    {first second : SubmitExtractionCommand}
    {firstEntity secondEntity : ExtractionEntity}
    (hfirst : self.buildEntity first = .ok firstEntity)
    (hsecond : self.buildEntity second = .ok secondEntity)
    (hmany : 2 ≤ first.request.files.length)
    (hmany' : 2 ≤ second.request.files.length) :
    (firstEntity.contentSha256 = secondEntity.contentSha256 →
        bundle first.request.files = bundle second.request.files) ↔
      ((pieces (bundle first.request.files)).flatten =
          (pieces (bundle second.request.files)).flatten →
        (pieces (bundle first.request.files)).map List.length =
          (pieces (bundle second.request.files)).map List.length) := by
  rw [contentSha256_of_buildEntity hfirst hmany,
    contentSha256_of_buildEntity hsecond hmany', hsha.eq_iff, bundle_eq_iff]
  exact ⟨fun h hsame => (h hsame).2, fun h hsame => ⟨hsame, h hsame⟩⟩

/-! ### Two bundles of notes -/

/-- A digest that forgets nothing: each byte as the character of its code. -/
def byteText (bytes : List UInt8) : String :=
  String.ofList (bytes.map fun byte => Char.ofNat byte.toNat)

theorem byteText_injective : Function.Injective byteText := by
  intro first second h
  refine List.map_injective_iff.mpr ?_ (String.ofList_injective h)
  intro byte other hsame
  have hcode : ∀ byte : UInt8, (Char.ofNat byte.toNat).toNat = byte.toNat := by
    intro byte
    rw [Char.ofNat, dif_pos (Or.inl (byte.toNat_lt.trans (by decide)))]
    rfl
  have hnat := congrArg Char.toNat hsame
  rw [hcode, hcode] at hnat
  exact UInt8.toNat_inj.mp hnat

def bundleHandler : SubmitExtractionHandler where
  validator := ⟨fun _ => true, .peeling⟩
  scalars := .json
  sha256 := byteText
  correlation := []

def bundleCommand (files : List (String × String)) :
    SubmitExtractionCommand where
  request :=
    { files := files.map fun (filename, content) =>
        ⟨filename, some content, none, none⟩
      documentTypes :=
        [{ id := "note",
           fieldGroups :=
             [{ name := "totals", fields := [{ name := "net" }] }] }] }

def firstNotes : SubmitExtractionCommand :=
  bundleCommand [("a.txt", "MTI="), ("3.txt", "eg==")]

theorem exists_entity_firstNotes :
    ∃ entity, bundleHandler.buildEntity firstNotes = .ok entity :=
  ⟨_, rfl⟩

theorem bundle_firstNotes :
    bundle firstNotes.request.files =
      [("a.txt", [49, 50]), ("3.txt", [122])] := by
  rfl

def otherNotes : SubmitExtractionCommand :=
  bundleCommand [("a.txt", "MTI="), ("4.txt", "eg==")]

theorem contentSha256_discriminates_notes :
    ∃ firstEntity otherEntity,
      bundleHandler.buildEntity firstNotes = .ok firstEntity ∧
      bundleHandler.buildEntity otherNotes = .ok otherEntity ∧
      (firstEntity.contentSha256 = otherEntity.contentSha256 →
        bundle firstNotes.request.files =
          bundle otherNotes.request.files) := by
  have hother : ∃ entity, bundleHandler.buildEntity otherNotes = .ok entity :=
    ⟨_, rfl⟩
  obtain ⟨first, hfirst⟩ := exists_entity_firstNotes
  obtain ⟨other, hother⟩ := hother
  refine ⟨first, other, hfirst, hother, ?_⟩
  refine (contentSha256_discriminates_iff byteText_injective hfirst hother
    (by decide) (by decide)).mpr fun _ => ?_
  have hbundle : bundle otherNotes.request.files =
      [("a.txt", [49, 50]), ("4.txt", [122])] := by
    rfl
  rw [bundle_firstNotes, hbundle]
  simp only [pieces, toList_eq_data]
  decide

/-! ### A byte on the other side of a cut -/

def movedCut : SubmitExtractionCommand :=
  bundleCommand [("a.txt", "MQ=="), ("23.txt", "eg==")]

theorem bundle_movedCut :
    bundle movedCut.request.files =
      [("a.txt", [49]), ("23.txt", [122])] := by
  rfl

theorem flatten_pieces_cut :
    (pieces (bundle firstNotes.request.files)).flatten =
      (pieces (bundle movedCut.request.files)).flatten := by
  rw [bundle_firstNotes, bundle_movedCut]
  simp only [pieces, toList_eq_data]
  decide

theorem not_contentSha256_discriminates :
    ¬ ∀ self : SubmitExtractionHandler, Function.Injective self.sha256 →
      ∀ (first second : SubmitExtractionCommand)
        (firstEntity secondEntity : ExtractionEntity),
        self.buildEntity first = .ok firstEntity →
        self.buildEntity second = .ok secondEntity →
        2 ≤ first.request.files.length → 2 ≤ second.request.files.length →
        firstEntity.contentSha256 = secondEntity.contentSha256 →
          bundle first.request.files = bundle second.request.files := by
  intro h
  have hafter : ∃ entity, bundleHandler.buildEntity movedCut = .ok entity :=
    ⟨_, rfl⟩
  obtain ⟨before, hbefore⟩ := exists_entity_firstNotes
  obtain ⟨after, hafter⟩ := hafter
  have hsame := h bundleHandler byteText_injective firstNotes movedCut before
    after hbefore hafter (by decide) (by decide) (by
      rw [contentSha256_of_buildEntity hbefore (by decide),
        contentSha256_of_buildEntity hafter (by decide), flatten_pieces_cut])
  rw [bundle_firstNotes, bundle_movedCut] at hsame
  revert hsame
  decide

end SubmitExtractionHandler

end Flydocs

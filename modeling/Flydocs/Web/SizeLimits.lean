import Mathlib.Algebra.Order.Ring.Int
import Flydocs.Dtos.Request
import Flydocs.Interfaces.Base64Encoding

/-!
# The size gate of the synchronous endpoint

`_enforce_size_limits` estimates the size of a file from the length of its
base64 text and then decodes the text once more.  A file that passed the field
validator is measured in whole groups of three bytes and always decodes.
-/

namespace Flydocs

open Dtos

structure HttpProblem where
  statusCode : Nat
  code : String
  title : String
  detail : String
  deriving DecidableEq, Repr

namespace ExtractController

def fileTooLarge (filename : String) (decodedSize : Nat) (maxBytes : Int) :
    HttpProblem where
  statusCode := 413
  code := "file_too_large"
  title := "File too large"
  detail := filename ++ " is " ++ toString decodedSize ++ " bytes (max " ++
    toString maxBytes ++ ")"

def invalidBase64 (filename : String) (failure : Failure) : HttpProblem where
  statusCode := 422
  code := "invalid_base64"
  title := "Invalid base64 content"
  detail := filename ++ ": " ++ failure.message

def enforceSizeLimits (maxBytes : Int) :
    List Interfaces.FileInput → Except HttpProblem Unit
  | [] => .ok ()
  | file :: files =>
      let encoded := file.contentBase64.getD ""
      let decodedSize := encoded.length * 3 / 4
      if maxBytes < decodedSize then
        .error (fileTooLarge file.filename decodedSize maxBytes)
      else if encoded = "" then enforceSizeLimits maxBytes files
      else
        match Base64.b64decodeStrict encoded with
        | .ok _ => enforceSizeLimits maxBytes files
        | .error failure => .error (invalidBase64 file.filename failure)

/-! ## What the gate measures -/

/-- As many bytes as the base64 groups of a file have room for. -/
def roundedSize (size : Nat) : Nat := 3 * ((size + 2) / 3)

/-- The bytes a reader gets, none in multipart mode. -/
def decodedSize (file : Interfaces.FileInput) : Nat :=
  match file.decodedBytes with
  | .ok bytes => bytes.length
  | .error _ => 0

def tooLarge (maxBytes : Int) (file : Interfaces.FileInput) : Bool :=
  maxBytes < roundedSize (decodedSize file)

def refuseFirst (maxBytes : Int) (files : List Interfaces.FileInput) :
    Except HttpProblem Unit :=
  (files.find? (tooLarge maxBytes)).elim (.ok ()) fun file =>
    .error (fileTooLarge file.filename (roundedSize (decodedSize file))
      maxBytes)

theorem strict_of_wellFormed {file : Interfaces.FileInput} {content : String}
    (h : FileInput.WellFormed file) (hcontent : file.contentBase64 = some content) :
    ∃ bytes, Base64.b64decodeStrict content = .ok bytes := by
  obtain ⟨-, given, hgiven⟩ := h
  cases given with
  | none =>
      rw [hcontent] at hgiven
      cases hgiven
  | some value =>
      simp only [validateBase64] at hgiven
      cases hdecode : Base64.b64decodeStrict (stripDataUrl value) with
      | error failure => simp [hdecode] at hgiven
      | ok bytes =>
          simp only [hdecode, hcontent, Except.ok.injEq, Option.some.injEq]
            at hgiven
          exact ⟨bytes, hgiven ▸ hdecode⟩

theorem decodedBytes_of_strict {file : Interfaces.FileInput} {content : String}
    {bytes : List UInt8} (hcontent : file.contentBase64 = some content)
    (h : Base64.b64decodeStrict content = .ok bytes) :
    file.decodedBytes = .ok bytes := by
  rw [Interfaces.FileInput.decodedBytes, hcontent]
  exact Base64.b64decode_of_strict h

theorem estimate_of_strict {content : String} {bytes : List UInt8}
    (h : Base64.b64decodeStrict content = .ok bytes) :
    content.length * 3 / 4 = roundedSize bytes.length := by
  rw [Base64.length_of_strict h, roundedSize]
  omega

theorem enforceSizeLimits_cons (maxBytes : Int) {file : Interfaces.FileInput}
    (files : List Interfaces.FileInput) (h : FileInput.WellFormed file) :
    enforceSizeLimits maxBytes (file :: files) =
      if tooLarge maxBytes file then
        .error (fileTooLarge file.filename (roundedSize (decodedSize file))
          maxBytes)
      else enforceSizeLimits maxBytes files := by
  rw [enforceSizeLimits, tooLarge]
  cases hcontent : file.contentBase64 with
  | none =>
      have hsize : decodedSize file = 0 := by
        rw [decodedSize, Interfaces.FileInput.decodedBytes, hcontent]
      simp [hsize, roundedSize]
  | some content =>
      obtain ⟨bytes, hbytes⟩ := strict_of_wellFormed h hcontent
      have hsize : decodedSize file = bytes.length := by
        rw [decodedSize, decodedBytes_of_strict hcontent hbytes]
      simp only [Option.getD_some, estimate_of_strict hbytes, hsize, hbytes,
        ite_self, decide_eq_true_eq]

/--
Past the field validator every file decodes, and the gate refuses the first
one whose groups of three bytes exceed the limit: it never answers that the
base64 is invalid.
-/
theorem enforceSizeLimits_wellFormed (maxBytes : Int)
    {files : List Interfaces.FileInput}
    (h : ∀ file ∈ files, FileInput.WellFormed file) :
    enforceSizeLimits maxBytes files = refuseFirst maxBytes files := by
  induction files with
  | nil => rfl
  | cons file files ih =>
      rw [List.forall_mem_cons] at h
      rw [enforceSizeLimits_cons maxBytes files h.1, ih h.2, refuseFirst,
        refuseFirst, List.find?_cons]
      cases tooLarge maxBytes file <;> rfl

theorem size_le_roundedSize (size : Nat) :
    size ≤ roundedSize size ∧ roundedSize size ≤ size + 2 := by
  unfold roundedSize
  omega

theorem refuseFirst_eq_ok (maxBytes : Int) (files : List Interfaces.FileInput) :
    refuseFirst maxBytes files = .ok () ↔
      ∀ file ∈ files, (roundedSize (decodedSize file) : Int) ≤ maxBytes := by
  unfold refuseFirst
  cases hfind : files.find? (tooLarge maxBytes) with
  | none =>
      rw [List.find?_eq_none] at hfind
      simpa [tooLarge] using hfind
  | some found =>
      have hlarge := List.find?_some hfind
      have hmem := List.mem_of_find?_eq_some hfind
      rw [tooLarge, decide_eq_true_eq] at hlarge
      simp only [Option.elim_some, reduceCtorEq, false_iff, not_forall]
      exact ⟨found, hmem, by omega⟩

/--
Of files that passed the field validator, the gate refuses the first one whose
groups of three bytes exceed the limit, as too large and never for its base64.
So it lets no file over the limit pass, and it stops nobody who stays two bytes
under it; in between a file that fits may be refused.
-/
theorem sizes_enforced (maxBytes : Int) {files : List Interfaces.FileInput}
    (h : ∀ file ∈ files, FileInput.WellFormed file) :
    (∀ file ∈ files, file.contentBase64 ≠ none →
      ∃ bytes, file.decodedBytes = .ok bytes) ∧
    enforceSizeLimits maxBytes files = refuseFirst maxBytes files ∧
    (enforceSizeLimits maxBytes files = .ok () →
      ∀ file ∈ files, (decodedSize file : Int) ≤ maxBytes) ∧
    ((∀ file ∈ files, (decodedSize file : Int) + 2 ≤ maxBytes) →
      enforceSizeLimits maxBytes files = .ok ()) := by
  have hgate := enforceSizeLimits_wellFormed maxBytes h
  refine ⟨fun file hfile hcontent => ?_, hgate, fun hok file hfile => ?_,
    fun hfits => ?_⟩
  · obtain ⟨content, hcontent⟩ := Option.ne_none_iff_exists'.mp hcontent
    obtain ⟨bytes, hbytes⟩ := strict_of_wellFormed (h file hfile) hcontent
    exact ⟨bytes, decodedBytes_of_strict hcontent hbytes⟩
  · rw [hgate, refuseFirst_eq_ok] at hok
    have hsize := size_le_roundedSize (decodedSize file)
    have hle := hok file hfile
    omega
  · rw [hgate, refuseFirst_eq_ok]
    intro file hfile
    have hsize := size_le_roundedSize (decodedSize file)
    have hle := hfits file hfile
    omega

/-- Four bytes are measured as six: a limit of five refuses them. -/
theorem sizes_enforced_note :
    FileInput.WellFormed ⟨"note.txt", some "bm90ZQ==", none, none⟩ ∧
      decodedSize ⟨"note.txt", some "bm90ZQ==", none, none⟩ = 4 ∧
      enforceSizeLimits 5 [⟨"note.txt", some "bm90ZQ==", none, none⟩] =
        .error (fileTooLarge "note.txt" 6 5) := by
  have hwell : FileInput.WellFormed
      ⟨"note.txt", some "bm90ZQ==", none, none⟩ :=
    ⟨by decide, some "bm90ZQ==", by decide +kernel⟩
  refine ⟨hwell, by decide +kernel, ?_⟩
  have hgate := (sizes_enforced 5 (List.forall_mem_singleton.mpr hwell)).2.1
  rw [hgate]
  decide +kernel

end ExtractController

end Flydocs

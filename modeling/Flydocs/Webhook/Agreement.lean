import Mathlib.Data.List.Forall2
import Flydocs.Webhook.Signature

/-!
# Where the two verifiers agree

Both verifiers accept what the publisher sends.  On any other header they
agree, and reject it with their own error, unless it is one of the kinds
listed by `Mishandled`.
-/

namespace Flydocs

open Foundation PythonText

namespace Webhook

/-! ## Signatures as texts -/

def hexAlphabet : List Char := "0123456789abcdef".toList

theorem hexDigit_mem (digit : Nat) (h : digit < 16) :
    hexDigit digit ∈ hexAlphabet := by
  revert digit
  decide

structure SignatureText (text : List Char) : Prop where
  ne_nil : text ≠ []
  hex : ∀ char ∈ text, char ∈ hexAlphabet

theorem hexdigest_signatureText (digest : Vector UInt8 32) :
    SignatureText (hexdigest digest) where
  ne_nil := by
    have hlength : digest.toList.length = 32 := by simp
    intro hnil
    cases hbytes : digest.toList with
    | nil => simp [hbytes] at hlength
    | cons byte bytes => simp [hexdigest, hbytes, hexDigits] at hnil
  hex := by
    intro char hchar
    obtain ⟨byte, -, hdigit⟩ := List.mem_flatMap.mp hchar
    simp only [hexDigits, List.nil_append, List.cons_append, List.mem_cons,
      List.not_mem_nil, or_false] at hdigit
    rcases hdigit with rfl | rfl
    · exact hexDigit_mem _ (Nat.mod_lt _ (by decide))
    · exact hexDigit_mem _ (Nat.mod_lt _ (by decide))

theorem hexAlphabet_plain : ∀ char ∈ hexAlphabet,
    isAscii char = true ∧ isSpace char = false ∧ isTrimmed char = false ∧
      char ≠ '=' ∧ char ≠ '?' :=
  List.forall_iff_forall_mem.mp (by decide)

namespace SignatureText

variable {signature : List Char} (h : SignatureText signature)

include h

theorem isAscii : signature.all Webhook.isAscii = true := by
  simp only [List.all_eq_true]
  exact fun char hchar => (hexAlphabet_plain char (h.hex char hchar)).1

theorem inked_isSpace : Inked isSpace signature :=
  ⟨h.ne_nil, fun char hchar => (hexAlphabet_plain char (h.hex char hchar)).2.1⟩

theorem inked_isTrimmed : Inked isTrimmed signature :=
  ⟨h.ne_nil, fun char hchar =>
    (hexAlphabet_plain char (h.hex char hchar)).2.2.1⟩

theorem equals_not_mem : '=' ∉ signature := fun hmem =>
  (hexAlphabet_plain '=' (h.hex '=' hmem)).2.2.2.1 rfl

theorem asciiBytes_eq_iff {candidate : List Char} :
    asciiBytes candidate = asciiBytes signature ↔ candidate = signature := by
  constructor
  · intro hbytes
    have hkept : asciiBytes signature = signature := by
      refine (List.map_congr_left fun char hchar => ?_).trans (List.map_id _)
      simp [(hexAlphabet_plain char (h.hex char hchar)).1]
    rw [hkept] at hbytes
    rw [← hbytes]
    refine ((List.map_congr_left fun char hchar => ?_).trans
      (List.map_id _)).symm
    have hmem : (if Webhook.isAscii char then char else '?') ∈ signature := by
      rw [← hbytes]
      exact List.mem_map_of_mem hchar
    split at hmem
    · rename_i hascii
      simp [hascii]
    · exact absurd rfl (hexAlphabet_plain '?' (h.hex '?' hmem)).2.2.2.2
  · rintro rfl
    rfl

theorem padding_unique {left right left' right' : List Char}
    {blank blank' : Char → Bool} (hblank : Inked blank signature)
    (hblank' : Inked blank' signature) (hleft : Blanks blank left)
    (hleft' : Blanks blank' left')
    (heq : left ++ signature ++ right = left' ++ signature ++ right') :
    left = left' ∧ right = right' := by
  refine PythonText.padding_unique h.ne_nil ?_ ?_ heq
  · intro char hchar hmem
    have hink := hblank.2 char hmem
    rw [hleft char hchar] at hink
    cases hink
  · intro char hchar hmem
    have hink := hblank'.2 char hmem
    rw [hleft' char hchar] at hink
    cases hink

end SignatureText

/-! ## Schemes -/

def Sha256Name (name : List Char) : Prop :=
  name.map Char.toLower = "sha256".toList

theorem toLower_of_not_ascii {char : Char} (h : isAscii char = false) :
    char.toLower = char := by
  have hcode : 128 ≤ char.toNat := by simpa [isAscii] using h
  unfold Char.toLower
  rw [dif_neg]
  rintro ⟨-, hupper⟩
  have hle : char.toNat ≤ 90 := hupper
  omega

theorem ascii_cases (P : Char → Prop) (h : ∀ code < 128, P (Char.ofNat code))
    {char : Char} (hascii : isAscii char = true) : P char := by
  have hcode := h char.toNat (by simpa [isAscii] using hascii)
  rwa [Char.ofNat_toNat] at hcode

def sha256Letters : List Char := "sha256".toList

theorem sha256Letters_ascii : ∀ letter ∈ sha256Letters,
    isAscii letter = true ∧ letter.toUpper.toLower = letter ∧
      (letter.toUpper = 'S' ↔ letter = 's') ∧ isAscii letter.toUpper = true :=
  List.forall_iff_forall_mem.mp (by decide)

theorem ascii_fold {char : Char} (hascii : isAscii char = true) :
    isAscii char.toUpper = true ∧ ∀ letter ∈ sha256Letters,
      (letter = char ∨ letter.toUpper = char.toUpper ∨
        letter.toUpper.toLower = char.toUpper.toLower) ↔
      char.toLower = letter := by
  have hfold := ascii_cases
    (fun char => isAscii char.toUpper = true ∧
      sha256Letters.Forall fun letter =>
        (letter = char ∨ letter.toUpper = char.toUpper ∨
          letter.toUpper.toLower = char.toUpper.toLower) ↔
        char.toLower = letter)
    (by decide +kernel) hascii
  exact ⟨hfold.1, List.forall_iff_forall_mem.mp hfold.2⟩

theorem Sha256Name.ascii {name : List Char} (h : Sha256Name name) :
    ∀ char ∈ name, isAscii char = true := by
  intro char hchar
  by_contra hforeign
  have hforeign : isAscii char = false := by simpa using hforeign
  have hfolded : name.map Char.toLower = sha256Letters := h
  have hmem : char.toLower ∈ name.map Char.toLower :=
    List.mem_map_of_mem hchar
  rw [hfolded, toLower_of_not_ascii hforeign] at hmem
  rw [(sha256Letters_ascii char hmem).1] at hforeign
  cases hforeign

namespace UnicodeTables

variable {tables : UnicodeTables} (h : tables.Standard)

include h

theorem Standard.letter_iff {letter : Char}
    (hletter : letter ∈ sha256Letters) (char : Char) :
    (letter = char ∨ tables.javaUpper letter = tables.javaUpper char ∨
      tables.javaLower (tables.javaUpper letter) =
        tables.javaLower (tables.javaUpper char)) ↔
      char.toLower = letter ∨ (letter = 's' ∧ char = 'ſ') := by
  obtain ⟨hascii, hfold, hupperS, hupper⟩ := sha256Letters_ascii letter hletter
  have hletterUpper : tables.javaUpper letter = letter.toUpper := by
    simp [javaUpper, hascii]
  have hletterFold : tables.javaLower (tables.javaUpper letter) = letter := by
    rw [hletterUpper, javaLower, if_pos hupper, hfold]
  by_cases hchar : isAscii char = true
  · obtain ⟨hcharUpper, hsame⟩ := ascii_fold hchar
    have hlong : char ≠ 'ſ' := by
      rintro rfl
      revert hchar
      decide
    rw [hletterFold, hletterUpper, javaUpper, if_pos hchar, javaLower,
      if_pos hcharUpper]
    have hsame := hsame letter hletter
    rw [hfold] at hsame
    rw [hsame]
    simp [hlong]
  · have hforeign : isAscii char = false := by simpa using hchar
    have hne : letter ≠ char := by
      rintro rfl
      simp [hascii] at hforeign
    have hlower : char.toLower ≠ letter := by
      rw [toLower_of_not_ascii hforeign]
      exact hne.symm
    by_cases hlong : char = 'ſ'
    · subst hlong
      have hS : tables.javaUpper 'ſ' = 'S' := by
        rw [javaUpper, if_neg hchar, h.longS]
      have hs : tables.javaLower 'S' = 's' := by
        rw [javaLower, if_pos (by decide)]
        decide
      rw [hletterFold, hletterUpper, hS, hs, hupperS]
      simp [hne, hne.symm]
    · have hfar := h.fold_foreign char hforeign hlong
      have hfold' : letter ≠ tables.javaLower (tables.javaUpper char) := by
        intro heq
        exact hfar (heq ▸ hletter)
      have hupper' : letter.toUpper ≠ tables.javaUpper char := by
        intro heq
        apply hfold'
        rw [← heq, ← hletterUpper, hletterFold]
      rw [hletterFold, hletterUpper]
      simp [hne, hlower, hlong, hfold', hupper']

omit h in
theorem lowerText_of_ascii {name : List Char}
    (hascii : ∀ char ∈ name, isAscii char = true) :
    tables.lowerText name = name.map Char.toLower := by
  induction name with
  | nil => rfl
  | cons char name ih =>
      have hhead := hascii char (by simp)
      have htail := ih fun other hother => hascii other (by simp [hother])
      simp only [lowerText, List.flatMap_cons, hhead, ↓reduceIte,
        List.map_cons, List.singleton_append] at htail ⊢
      rw [htail]

theorem Standard.lowerText_eq_iff {name : List Char} :
    tables.lowerText name = "sha256".toList ↔ Sha256Name name := by
  constructor
  · intro hlower
    have hascii : ∀ char ∈ name, isAscii char = true := by
      intro char hchar
      by_contra hforeign
      have hforeign : isAscii char = false := by simpa using hforeign
      obtain ⟨other, hother, hfar⟩ := h.lower_foreign char hforeign
      apply hfar
      rw [← hlower]
      exact List.mem_flatMap.mpr ⟨char, hchar, by simpa [hforeign] using hother⟩
    rw [Sha256Name, ← lowerText_of_ascii hascii, hlower]
  · intro hname
    rw [lowerText_of_ascii hname.ascii, hname]

theorem Standard.equalsIgnoreCase_forall₂ {letters name : List Char}
    (hletters : ∀ letter ∈ letters, letter ∈ sha256Letters) :
    tables.equalsIgnoreCase letters name = true ↔
      List.Forall₂ (fun letter char =>
        char.toLower = letter ∨ (letter = 's' ∧ char = 'ſ')) letters name := by
  induction letters generalizing name with
  | nil => cases name <;> simp [equalsIgnoreCase, List.forall₂_nil_left_iff]
  | cons letter letters ih =>
      cases name with
      | nil => simp [equalsIgnoreCase, List.forall₂_nil_right_iff]
      | cons char name =>
          have hhead := h.letter_iff (hletters letter (by simp)) char
          have htail : tables.equalsIgnoreCase letters name = true ↔ _ :=
            ih fun other hother => hletters other (by simp [hother])
          rw [List.forall₂_cons, ← hhead, ← htail]
          simp only [equalsIgnoreCase, List.length_cons, List.zip_cons_cons,
            List.all_cons, Bool.and_eq_true, Bool.or_eq_true,
            decide_eq_true_eq, Nat.add_right_cancel_iff, or_assoc]
          exact and_left_comm

/-- The upper-case mapping of the long s lets one more scheme through. -/
theorem Standard.equalsIgnoreCase_iff {name : List Char} :
    tables.equalsIgnoreCase "sha256".toList name = true ↔
      Sha256Name name ∨
        ∃ rest, name = 'ſ' :: rest ∧ Sha256Name ('s' :: rest) := by
  have hpositions : tables.equalsIgnoreCase "sha256".toList name = true ↔ _ :=
    h.equalsIgnoreCase_forall₂ fun letter hletter => hletter
  rw [hpositions]
  have hs : 's'.toLower = 's' := by decide
  constructor
  · intro hmatch
    have hmatch : List.Forall₂ (fun letter char =>
        char.toLower = letter ∨ (letter = 's' ∧ char = 'ſ'))
        ['s', 'h', 'a', '2', '5', '6'] name := hmatch
    cases hmatch with
    | cons hfirst hrest =>
      rename_i first rest
      have hother : rest.map Char.toLower = ['h', 'a', '2', '5', '6'] := by
        simp only [List.forall₂_cons_left_iff, List.forall₂_nil_left_iff,
          Char.reduceEq, false_and, or_false] at hrest
        obtain ⟨_, _, ha, ⟨_, _, hb, ⟨_, _, hc, ⟨_, _, hd, ⟨_, _, he, rfl, rfl⟩,
          rfl⟩, rfl⟩, rfl⟩, rfl⟩ := hrest
        simp [ha, hb, hc, hd, he]
      rcases hfirst with hfirst | ⟨-, rfl⟩
      · left
        have hall : (first :: rest).map Char.toLower =
            's' :: ['h', 'a', '2', '5', '6'] := by
          simp only [List.map_cons, hfirst, hother]
        exact hall
      · right
        refine ⟨rest, rfl, ?_⟩
        have hall : ('s' :: rest).map Char.toLower =
            's' :: ['h', 'a', '2', '5', '6'] := by
          simp only [List.map_cons, hs, hother]
        exact hall
  · have hplain : ∀ name : List Char, Sha256Name name →
        List.Forall₂ (fun letter char =>
          char.toLower = letter ∨ (letter = 's' ∧ char = 'ſ'))
          "sha256".toList name := by
      intro name hname
      rw [← hname, List.forall₂_map_left_iff, List.forall₂_same]
      exact fun char _ => .inl rfl
    rintro (hname | ⟨rest, rfl, hname⟩)
    · exact hplain name hname
    · have hmatch : List.Forall₂ (fun letter char =>
          char.toLower = letter ∨ (letter = 's' ∧ char = 'ſ'))
          ('s' :: ['h', 'a', '2', '5', '6']) ('s' :: rest) := hplain _ hname
      exact (List.forall₂_cons.mp hmatch).2.cons (.inr ⟨rfl, rfl⟩)

end UnicodeTables

/-! ## What each verifier does with a header -/

theorem mem_of_mem_stripWhile {blank : Char → Bool} {char : Char}
    {text : List Char} (h : char ∈ stripWhile blank text) : char ∈ text :=
  (List.dropWhile_suffix blank).subset ((List.rdropWhile_prefix blank _).subset h)

theorem partition_append {before : List Char} (hbefore : '=' ∉ before)
    (after : List Char) : partition (before ++ '=' :: after) = (before, after) := by
  have hkept : ∀ char ∈ before, decide (char ≠ '=') = true := by
    intro char hchar
    have hne : char ≠ '=' := fun heq => hbefore (heq ▸ hchar)
    simpa using hne
  unfold partition
  rw [List.takeWhile_append_of_pos hkept, List.dropWhile_append_of_pos hkept]
  simp

section

variable {hmac : Hmac} {tables : UnicodeTables} {secret : String}
  {body : List UInt8}

theorem expectedSignature_text (hmac : Hmac) (secret : String)
    (body : List UInt8) : SignatureText (expectedSignature hmac secret body) :=
  hexdigest_signatureText _

theorem compareDigest_accepted_iff {candidate signature : List Char}
    (hsignature : SignatureText signature) :
    compareDigest candidate signature = .accepted ↔ candidate = signature := by
  unfold compareDigest
  split
  · split <;> simp_all
  · rename_i hforeign
    simp only [reduceCtorEq, false_iff]
    rintro rfl
    exact hforeign hsignature.isAscii

theorem compareDigest_raised_iff {candidate signature : List Char} :
    (∃ message, compareDigest candidate signature = .raised message) ↔
      candidate.all isAscii = false := by
  unfold compareDigest
  split
  · split <;> simp_all
  · simp_all

theorem lowerText_sha256 (tables : UnicodeTables) :
    tables.lowerText "sha256".toList = "sha256".toList :=
  UnicodeTables.lowerText_of_ascii
    (List.forall_iff_forall_mem.mp (by decide))

namespace PythonVerifier

variable {verifier : PythonVerifier} {header : String}

theorem verify_bare (hbare : '=' ∉ header.toList) :
    (verifier.verify hmac tables body header = .accepted ↔
      stripWhile isSpace header.toList =
        expectedSignature hmac verifier.secret body) ∧
    ((∃ message, verifier.verify hmac tables body header = .raised message) ↔
      (stripWhile isSpace header.toList).all isAscii = false) := by
  have hsignature := expectedSignature_text hmac verifier.secret body
  by_cases hempty : header = ""
  · subst hempty
    have hne := hsignature.ne_nil.symm
    simp [verify, stripWhile, lstripWhile, rstripWhile, hne]
  · have hprovided : '=' ∉ stripWhile isSpace header.toList := fun hmem =>
      hbare (mem_of_mem_stripWhile hmem)
    simp only [verify, if_neg hempty, if_neg hprovided,
      compareDigest_accepted_iff hsignature, compareDigest_raised_iff, and_self]

theorem verify_scheme (hscheme : verifier.headerScheme = "sha256")
    (hstandard : tables.Standard) {before after : List Char}
    (hbefore : '=' ∉ before) (hheader : header.toList = before ++ '=' :: after) :
    (verifier.verify hmac tables body header = .accepted ↔
      Sha256Name (lstripWhile isSpace before) ∧
        rstripWhile isSpace after =
          expectedSignature hmac verifier.secret body) ∧
    ((∃ message, verifier.verify hmac tables body header = .raised message) ↔
      Sha256Name (lstripWhile isSpace before) ∧
        (rstripWhile isSpace after).all isAscii = false) := by
  have hsignature := expectedSignature_text hmac verifier.secret body
  have hempty : header ≠ "" := by
    rintro rfl
    simp at hheader
  have hkept : '=' ∉ lstripWhile isSpace before := fun hmem =>
    hbefore ((List.dropWhile_suffix isSpace).subset hmem)
  have hprovided : stripWhile isSpace header.toList =
      lstripWhile isSpace before ++ '=' :: rstripWhile isSpace after := by
    rw [hheader, stripWhile_append_cons (by decide)]
  simp only [verify, if_neg hempty, hprovided, partition_append hkept, hscheme,
    lowerText_sha256, ← hstandard.lowerText_eq_iff]
  simp only [List.mem_append, List.mem_cons, true_or, or_true, ↓reduceIte]
  split
  · simp_all
  · simp_all [compareDigest_accepted_iff hsignature, compareDigest_raised_iff]

end PythonVerifier

namespace JavaVerifier

variable {verifier : JavaVerifier} {header : String}

theorem verify_bare (hbare : '=' ∉ header.toList) :
    verifier.verify hmac tables body header = .accepted ↔
      stripWhile isTrimmed header.toList =
        expectedSignature hmac verifier.secret body := by
  have hsignature := expectedSignature_text hmac verifier.secret body
  by_cases hempty : header = ""
  · subst hempty
    have hne := hsignature.ne_nil.symm
    simp [verify, stripWhile, lstripWhile, rstripWhile, hne]
  · simp only [verify, if_neg hempty, if_neg hbare,
      hsignature.asciiBytes_eq_iff]
    split <;> simp_all

theorem verify_scheme (hstandard : tables.Standard) {before after : List Char}
    (hbefore : '=' ∉ before) (hheader : header.toList = before ++ '=' :: after) :
    verifier.verify hmac tables body header = .accepted ↔
      (Sha256Name before ∨
        ∃ rest, before = 'ſ' :: rest ∧ Sha256Name ('s' :: rest)) ∧
      stripWhile isTrimmed after =
        expectedSignature hmac verifier.secret body := by
  have hsignature := expectedSignature_text hmac verifier.secret body
  have hempty : header ≠ "" := by
    rintro rfl
    simp at hheader
  simp only [verify, if_neg hempty, hheader, partition_append hbefore,
    hsignature.asciiBytes_eq_iff, ← hstandard.equalsIgnoreCase_iff]
  simp only [List.mem_append, List.mem_cons, true_or, or_true, ↓reduceIte]
  split
  · split <;> simp_all
  · simp_all

theorem verify_ne_raised (message : String) :
    verifier.verify hmac tables body header ≠ .raised message := by
  unfold verify
  split
  · simp
  · simp only
    split
    · split
      · split <;> simp
      · simp
    · split <;> simp

end JavaVerifier

end

end Webhook

end Flydocs

import Flydocs.Webhook.Agreement

/-!
# The headers the verifiers disagree on

Python strips all Unicode white space around the whole header and compares
texts, which it does for ASCII only.  Java trims control characters and blanks
around the signature part alone and takes the long s for an `s`.
-/

namespace Flydocs

open Foundation PythonText

namespace Webhook

inductive Mishandled (signature : List Char) : List Char → Prop
  /-- The signature part is not ASCII: Python raises `TypeError`. -/
  | foreign {text} : '=' ∉ text →
      (stripWhile isSpace text).all isAscii = false → Mishandled signature text
  | foreignAfterScheme {lead name after} : Blanks isSpace lead →
      Sha256Name name → (rstripWhile isSpace after).all isAscii = false →
      Mishandled signature (lead ++ name ++ '=' :: after)
  /-- Around a bare signature, white space that only Python strips. -/
  | unicodePadding {left right} : Blanks isSpace left → Blanks isSpace right →
      ¬ Blanks isTrimmed (left ++ right) →
      Mishandled signature (left ++ signature ++ right)
  /-- Around a bare signature, control characters that only Java trims. -/
  | controlPadding {left right} : Blanks isTrimmed left →
      Blanks isTrimmed right → ¬ Blanks isSpace (left ++ right) →
      Mishandled signature (left ++ signature ++ right)
  /-- White space before the scheme, which only Python strips. -/
  | paddedScheme {lead name right} : lead ≠ [] → Blanks isSpace lead →
      Sha256Name name → Blanks isSpace right →
      Mishandled signature (lead ++ name ++ '=' :: (signature ++ right))
  /-- After a schemed signature, white space that only Python strips. -/
  | unicodeTrail {name right} : Sha256Name name → Blanks isSpace right →
      ¬ Blanks isTrimmed right →
      Mishandled signature (name ++ '=' :: (signature ++ right))
  /-- Padding after the `=` sign, or a control character at the end, which
  only Java trims. -/
  | paddedSignature {name left right} : Sha256Name name →
      Blanks isTrimmed left → Blanks isTrimmed right →
      left ≠ [] ∨ ¬ Blanks isSpace right →
      Mishandled signature (name ++ '=' :: (left ++ signature ++ right))
  /-- A scheme that starts with the long s, which only Java accepts. -/
  | longS {name left right} : Sha256Name ('s' :: name) →
      Blanks isTrimmed left → Blanks isTrimmed right →
      Mishandled signature ('ſ' :: name ++ '=' :: (left ++ signature ++ right))

/-- Both accept or both reject, and neither raises anything else. -/
structure Agree (python java : SignatureCheck) : Prop where
  accepted : python = .accepted ↔ java = .accepted
  python_ne_raised : ∀ message, python ≠ .raised message
  java_ne_raised : ∀ message, java ≠ .raised message

/-! ## Bare headers -/

variable {signature : List Char}

theorem mishandled_bare_iff (hsignature : SignatureText signature)
    {text : List Char} (hbare : '=' ∉ text) :
    Mishandled signature text ↔
      (stripWhile isSpace text).all isAscii = false ∨
        ¬ (stripWhile isSpace text = signature ↔
          stripWhile isTrimmed text = signature) := by
  have hspace := hsignature.inked_isSpace
  have htrim := hsignature.inked_isTrimmed
  rw [stripWhile_eq_iff hspace, stripWhile_eq_iff htrim]
  constructor
  · intro h
    cases h with
    | foreign _ hforeign => exact .inl hforeign
    | @unicodePadding left right hleft hright huntrimmed =>
        right
        intro hiff
        obtain ⟨left', right', hleft', hright', heq⟩ :=
          hiff.mp ⟨left, right, hleft, hright, rfl⟩
        obtain ⟨rfl, rfl⟩ :=
          hsignature.padding_unique hspace htrim hleft hleft' heq
        exact huntrimmed (hleft'.append hright')
    | @controlPadding left right hleft hright hunspaced =>
        right
        intro hiff
        obtain ⟨left', right', hleft', hright', heq⟩ :=
          hiff.mpr ⟨left, right, hleft, hright, rfl⟩
        obtain ⟨rfl, rfl⟩ :=
          hsignature.padding_unique htrim hspace hleft hleft' heq
        exact hunspaced (hleft'.append hright')
    | _ => simp at hbare
  · rintro (hforeign | hdiffer)
    · exact .foreign hbare hforeign
    · by_contra hgood
      apply hdiffer
      constructor
      · rintro ⟨left, right, hleft, hright, rfl⟩
        refine ⟨left, right, ?_, ?_, rfl⟩
        all_goals
          by_contra huntrimmed
          refine hgood (.unicodePadding hleft hright fun htrimmed => ?_)
          exact huntrimmed fun char hchar => htrimmed char (by simp [hchar])
      · rintro ⟨left, right, hleft, hright, rfl⟩
        refine ⟨left, right, ?_, ?_, rfl⟩
        all_goals
          by_contra hunspaced
          refine hgood (.controlPadding hleft hright fun hspaced => ?_)
          exact hunspaced fun char hchar => hspaced char (by simp [hchar])

/-! ## Headers with a scheme -/

theorem split_unique {before after before' after' : List Char}
    (hbefore : '=' ∉ before) (hbefore' : '=' ∉ before')
    (h : before ++ '=' :: after = before' ++ '=' :: after') :
    before = before' ∧ after = after' := by
  have hparts := congrArg partition h
  rw [partition_append hbefore, partition_append hbefore'] at hparts
  simpa using hparts

theorem equals_not_mem_blanks {blank : Char → Bool} {text : List Char}
    (hblank : blank '=' = false) (h : Blanks blank text) : '=' ∉ text := by
  intro hmem
  rw [h '=' hmem] at hblank
  cases hblank

namespace Sha256Name

theorem mem_of_lower {name : List Char} (h : Sha256Name name) {char : Char}
    (hchar : char ∈ name) : char.toLower ∈ sha256Letters := by
  have hname : name.map Char.toLower = sha256Letters := h
  rw [← hname]
  exact List.mem_map_of_mem hchar

theorem equals_not_mem {name : List Char} (h : Sha256Name name) :
    '=' ∉ name := by
  intro hmem
  have hlower := h.mem_of_lower hmem
  revert hlower
  decide

theorem inked {name : List Char} (h : Sha256Name name) :
    Inked isSpace name := by
  constructor
  · rintro rfl
    cases h
  · intro char hchar
    have hlower := h.mem_of_lower hchar
    have hplain : ∀ code < 128,
        (Char.ofNat code).toLower ∈ sha256Letters →
        isSpace (Char.ofNat code) = false := by decide
    exact ascii_cases (fun char => char.toLower ∈ sha256Letters →
      isSpace char = false) hplain (h.ascii char hchar) hlower

theorem length_eq {name : List Char} (h : Sha256Name name) :
    name.length = 6 := by
  have hlength := congrArg List.length h
  rw [List.length_map] at hlength
  exact hlength

theorem lead_eq_nil {lead name : List Char} (h : Sha256Name name)
    (hlead : Sha256Name (lead ++ name)) : lead = [] := by
  have hlength := hlead.length_eq
  rw [List.length_append, h.length_eq] at hlength
  exact List.eq_nil_of_length_eq_zero (by omega)

theorem lstrip_iff {before : List Char} :
    Sha256Name (lstripWhile isSpace before) ↔
      ∃ lead name, Blanks isSpace lead ∧ Sha256Name name ∧
        before = lead ++ name := by
  constructor
  · intro h
    obtain ⟨lead, hlead, heq⟩ := (lstripWhile_eq_iff h.inked).mp rfl
    exact ⟨lead, _, hlead, h, heq⟩
  · rintro ⟨lead, name, hlead, hname, rfl⟩
    rw [(lstripWhile_eq_iff hname.inked).mpr ⟨lead, hlead, rfl⟩]
    exact hname

theorem lstrip_padded {lead name : List Char} (h : Sha256Name name)
    (hlead : Blanks isSpace lead) :
    Sha256Name (lstripWhile isSpace (lead ++ name)) :=
  lstrip_iff.mpr ⟨lead, name, hlead, h, rfl⟩

theorem lstrip_self {name : List Char} (h : Sha256Name name) :
    Sha256Name (lstripWhile isSpace name) :=
  h.lstrip_padded (blanks_nil isSpace)

theorem not_lstrip_longS (rest : List Char) :
    ¬ Sha256Name (lstripWhile isSpace ('ſ' :: rest)) := by
  intro h
  have hkept : lstripWhile isSpace ('ſ' :: rest) = 'ſ' :: rest :=
    List.dropWhile_cons_of_neg (by decide)
  rw [hkept] at h
  have hascii := h.ascii 'ſ' (by simp)
  revert hascii
  decide

end Sha256Name

namespace SignatureText

theorem rstrip_padded (h : SignatureText signature) {right : List Char}
    (hright : Blanks isSpace right) :
    rstripWhile isSpace (signature ++ right) = signature :=
  (rstripWhile_eq_iff h.inked_isSpace).mpr ⟨right, hright, rfl⟩

theorem strip_padded (h : SignatureText signature) {left right : List Char}
    (hleft : Blanks isTrimmed left) (hright : Blanks isTrimmed right) :
    stripWhile isTrimmed (left ++ signature ++ right) = signature :=
  (stripWhile_eq_iff h.inked_isTrimmed).mpr ⟨left, right, hleft, hright, rfl⟩

theorem equals_not_mem_padded (h : SignatureText signature)
    {blank blank' : Char → Bool} (hblank : blank '=' = false)
    (hblank' : blank' '=' = false) {left right : List Char}
    (hleft : Blanks blank left) (hright : Blanks blank' right) :
    '=' ∉ left ++ signature ++ right := by
  simp [equals_not_mem_blanks hblank hleft, h.equals_not_mem,
    equals_not_mem_blanks hblank' hright]

end SignatureText

def PythonAccepts (signature before after : List Char) : Prop :=
  Sha256Name (lstripWhile isSpace before) ∧
    rstripWhile isSpace after = signature

def JavaAccepts (signature before after : List Char) : Prop :=
  (Sha256Name before ∨
    ∃ rest, before = 'ſ' :: rest ∧ Sha256Name ('s' :: rest)) ∧
  stripWhile isTrimmed after = signature

theorem Mishandled.differ (hsignature : SignatureText signature)
    {before after : List Char} (hbefore : '=' ∉ before)
    (h : Mishandled signature (before ++ '=' :: after)) :
    (Sha256Name (lstripWhile isSpace before) ∧
      (rstripWhile isSpace after).all isAscii = false) ∨
    ¬ (PythonAccepts signature before after ↔
      JavaAccepts signature before after) := by
  have hspace := hsignature.inked_isSpace
  have htrim := hsignature.inked_isTrimmed
  generalize htext : before ++ '=' :: after = text at h
  cases h with
  | foreign hbare _ => simp [← htext] at hbare
  | unicodePadding hleft hright _ =>
      refine absurd ?_ (hsignature.equals_not_mem_padded (by decide)
        (by decide) hleft hright)
      simp [← htext]
  | controlPadding hleft hright _ =>
      refine absurd ?_ (hsignature.equals_not_mem_padded (by decide)
        (by decide) hleft hright)
      simp [← htext]
  | @foreignAfterScheme lead name after' hlead hname hforeign =>
      have hpart : '=' ∉ lead ++ name := by
        simp [equals_not_mem_blanks (by decide) hlead, hname.equals_not_mem]
      obtain ⟨rfl, rfl⟩ := split_unique hbefore hpart htext
      exact .inl ⟨hname.lstrip_padded hlead, hforeign⟩
  | @paddedScheme lead name right hne hlead hname hright =>
      have hpart : '=' ∉ lead ++ name := by
        simp [equals_not_mem_blanks (by decide) hlead, hname.equals_not_mem]
      obtain ⟨rfl, rfl⟩ := split_unique hbefore hpart htext
      right
      intro hiff
      have hstripped := hname.lstrip_padded hlead
      obtain ⟨hscheme, -⟩ := hiff.mp
        ⟨hstripped, hsignature.rstrip_padded hright⟩
      rcases hscheme with hscheme | ⟨rest, hrest, -⟩
      · exact hne (hname.lead_eq_nil hscheme)
      · rw [hrest] at hstripped
        exact Sha256Name.not_lstrip_longS rest hstripped
  | @unicodeTrail name right hname hright huntrimmed =>
      obtain ⟨rfl, rfl⟩ := split_unique hbefore hname.equals_not_mem htext
      right
      intro hiff
      obtain ⟨-, htrimmed⟩ := hiff.mp
        ⟨hname.lstrip_self, hsignature.rstrip_padded hright⟩
      obtain ⟨left', right', hleft', hright', heq⟩ :=
        (stripWhile_eq_iff htrim).mp htrimmed
      have heq : [] ++ signature ++ right = left' ++ signature ++ right' := heq
      obtain ⟨-, rfl⟩ := hsignature.padding_unique htrim htrim
        (blanks_nil isTrimmed) hleft' heq
      exact huntrimmed hright'
  | @paddedSignature name left right hname hleft hright hpadded =>
      obtain ⟨rfl, rfl⟩ := split_unique hbefore hname.equals_not_mem htext
      right
      intro hiff
      obtain ⟨-, hstripped⟩ := hiff.mpr
        ⟨.inl hname, hsignature.strip_padded hleft hright⟩
      obtain ⟨right', hright', heq⟩ := (rstripWhile_eq_iff hspace).mp hstripped
      have heq : left ++ signature ++ right = [] ++ signature ++ right' := heq
      obtain ⟨rfl, rfl⟩ := hsignature.padding_unique htrim htrim hleft
        (blanks_nil isTrimmed) heq
      exact hpadded.elim (fun hne => hne rfl) fun hspaced => hspaced hright'
  | @longS name left right hname hleft hright =>
      have hpart : '=' ∉ 'ſ' :: name := by
        have hrest := hname.equals_not_mem
        simp_all
      obtain ⟨rfl, rfl⟩ := split_unique hbefore hpart htext
      right
      intro hiff
      obtain ⟨hscheme, -⟩ := hiff.mpr
        ⟨.inr ⟨name, rfl, hname⟩, hsignature.strip_padded hleft hright⟩
      exact Sha256Name.not_lstrip_longS name hscheme

theorem Mishandled.of_differ (hsignature : SignatureText signature)
    {before after : List Char}
    (h : ¬ (PythonAccepts signature before after ↔
      JavaAccepts signature before after)) :
    Mishandled signature (before ++ '=' :: after) := by
  have hspace := hsignature.inked_isSpace
  have htrim := hsignature.inked_isTrimmed
  by_contra hgood
  apply h
  constructor
  · rintro ⟨hscheme, hstripped⟩
    obtain ⟨lead, name, hlead, hname, rfl⟩ := Sha256Name.lstrip_iff.mp hscheme
    obtain ⟨right, hright, rfl⟩ := (rstripWhile_eq_iff hspace).mp hstripped
    have hnil : lead = [] := by
      by_contra hne
      exact hgood (.paddedScheme hne hlead hname hright)
    subst hnil
    have htrimmed : Blanks isTrimmed right := by
      by_contra huntrimmed
      exact hgood (.unicodeTrail hname hright huntrimmed)
    exact ⟨.inl hname,
      hsignature.strip_padded (blanks_nil isTrimmed) htrimmed⟩
  · rintro ⟨hscheme, htrimmed⟩
    obtain ⟨left, right, hleft, hright, rfl⟩ :=
      (stripWhile_eq_iff htrim).mp htrimmed
    rcases hscheme with hname | ⟨rest, rfl, hname⟩
    · have hpadded : ¬ (left ≠ [] ∨ ¬ Blanks isSpace right) := fun hpadded =>
        hgood (.paddedSignature hname hleft hright hpadded)
      simp only [ne_eq, not_or, not_not] at hpadded
      obtain ⟨rfl, hspaced⟩ := hpadded
      exact ⟨hname.lstrip_self, hsignature.rstrip_padded hspaced⟩
    · exact absurd (.longS hname hleft hright) hgood

theorem mishandled_scheme_iff (hsignature : SignatureText signature)
    {before after : List Char} (hbefore : '=' ∉ before) :
    Mishandled signature (before ++ '=' :: after) ↔
      (Sha256Name (lstripWhile isSpace before) ∧
        (rstripWhile isSpace after).all isAscii = false) ∨
      ¬ (PythonAccepts signature before after ↔
        JavaAccepts signature before after) := by
  constructor
  · exact Mishandled.differ hsignature hbefore
  · rintro (⟨hscheme, hforeign⟩ | hdiffer)
    · obtain ⟨lead, name, hlead, hname, rfl⟩ := Sha256Name.lstrip_iff.mp hscheme
      exact .foreignAfterScheme hlead hname hforeign
    · exact .of_differ hsignature hdiffer

/-! ## The two verifiers -/

variable {hmac : Hmac} {tables : UnicodeTables}

theorem agree_iff {python java : SignatureCheck}
    (hjava : ∀ message, java ≠ .raised message) :
    Agree python java ↔
      ¬ ((∃ message, python = .raised message) ∨
        ¬ (python = .accepted ↔ java = .accepted)) := by
  rw [not_or, not_not, not_exists]
  exact ⟨fun h => ⟨h.python_ne_raised, h.accepted⟩,
    fun h => ⟨h.2, h.1, hjava⟩⟩

theorem agree_verify_iff (hstandard : tables.Standard)
    {python : PythonVerifier} {java : JavaVerifier}
    (hscheme : python.headerScheme = "sha256")
    (hsecret : python.secret = java.secret) (body : List UInt8)
    (header : String) :
    Agree (python.verify hmac tables body header)
        (java.verify hmac tables body header) ↔
      ¬ Mishandled (expectedSignature hmac java.secret body)
        header.toList := by
  have hsignature := expectedSignature_text hmac java.secret body
  rw [agree_iff java.verify_ne_raised]
  refine not_congr ?_
  by_cases hbare : '=' ∉ header.toList
  · obtain ⟨haccepted, hraised⟩ := python.verify_bare hbare
    rw [hraised, haccepted, java.verify_bare hbare, hsecret,
      mishandled_bare_iff hsignature hbare]
  · obtain ⟨before, after, hheader, hbefore⟩ :=
      List.eq_append_cons_of_mem (not_not.mp hbare)
    obtain ⟨haccepted, hraised⟩ :=
      python.verify_scheme hscheme hstandard hbefore hheader
    rw [hraised, haccepted, java.verify_scheme hstandard hbefore hheader,
      hheader, hsecret, mishandled_scheme_iff hsignature hbefore]
    rfl

theorem agree_iff_not_mishandled (hstandard : tables.Standard)
    {secret : String} (hsecret : secret ≠ "") (body : List UInt8)
    (header : String) :
    Agree (PythonVerifier.verify hmac tables ⟨secret, hsecret, "sha256"⟩ body
        header)
      (JavaVerifier.verify hmac tables ⟨secret, hsecret⟩ body header) ↔
    ¬ Mishandled (expectedSignature hmac secret body) header.toList :=
  agree_verify_iff hstandard rfl rfl body header

theorem signatureHeader_accepted (hstandard : tables.Standard)
    {secret : String} (hsecret : secret ≠ "") (body : List UInt8) :
    ∃ emitted,
      WebhookPublisher.signatureHeader hmac ⟨secret, "sha256"⟩ body =
        some emitted ∧
      PythonVerifier.verify hmac tables ⟨secret, hsecret, "sha256"⟩ body
        emitted = .accepted ∧
      JavaVerifier.verify hmac tables ⟨secret, hsecret⟩ body emitted =
        .accepted := by
  have hsignature := expectedSignature_text hmac secret body
  have hname : Sha256Name "sha256".toList := by
    unfold Sha256Name
    decide
  have hheader : ("sha256" ++ "=" ++
      String.ofList (expectedSignature hmac secret body)).toList =
      "sha256".toList ++ '=' :: expectedSignature hmac secret body := by
    simp
  refine ⟨_, if_neg hsecret, ?_, ?_⟩
  · refine (PythonVerifier.verify_scheme rfl hstandard hname.equals_not_mem
      hheader).1.mpr ⟨?_, ?_⟩
    · exact hname.lstrip_self
    · simpa using hsignature.rstrip_padded (blanks_nil isSpace)
  · refine (JavaVerifier.verify_scheme hstandard hname.equals_not_mem
      hheader).mpr ⟨.inl hname, ?_⟩
    simpa using hsignature.strip_padded (blanks_nil isTrimmed)
      (blanks_nil isTrimmed)

/-- The emitted header passes both checks, and on any header both agree. -/
structure SignaturesAgree (hmac : Hmac) (tables : UnicodeTables)
    (secret : String) (hsecret : secret ≠ "") (body : List UInt8)
    (header : String) : Prop where
  emitted_accepted : ∃ emitted,
    WebhookPublisher.signatureHeader hmac ⟨secret, "sha256"⟩ body =
      some emitted ∧
    PythonVerifier.verify hmac tables ⟨secret, hsecret, "sha256"⟩ body
      emitted = .accepted ∧
    JavaVerifier.verify hmac tables ⟨secret, hsecret⟩ body emitted = .accepted
  agree : Agree
    (PythonVerifier.verify hmac tables ⟨secret, hsecret, "sha256"⟩ body header)
    (JavaVerifier.verify hmac tables ⟨secret, hsecret⟩ body header)

/--
The signer and its verifiers agree on every header but the mishandled ones.
-/
theorem signaturesAgree_iff (hstandard : tables.Standard) {secret : String}
    (hsecret : secret ≠ "") (body : List UInt8) (header : String) :
    SignaturesAgree hmac tables secret hsecret body header ↔
      ¬ Mishandled (expectedSignature hmac secret body) header.toList := by
  rw [← agree_iff_not_mishandled hstandard hsecret]
  exact ⟨fun h => h.agree,
    fun h => ⟨signatureHeader_accepted hstandard hsecret body, h⟩⟩

/-! ## A header outside ASCII -/

def plainTables : UnicodeTables where
  isPrintable _ := true
  lower char :=
    if char = 'K' then ['k'] else if char = 'İ' then ['i', '̇'] else [char]
  toUpperCase char :=
    if char = 'ſ' then 'S' else if char = 'ı' then 'I' else char
  toLowerCase char :=
    if char = 'K' then 'k' else if char = 'İ' then 'i' else char

theorem sha256_ascii {char : Char} (h : char ∈ "sha256".toList) :
    isAscii char = true :=
  (sha256Letters_ascii char h).1

theorem plainTables_standard : plainTables.Standard where
  lower_foreign := by
    intro char hforeign
    simp only [plainTables]
    split
    · exact ⟨'k', by simp, by decide⟩
    · split
      · exact ⟨'i', by simp, by decide⟩
      · refine ⟨char, by simp, fun hmem => ?_⟩
        rw [sha256_ascii hmem] at hforeign
        cases hforeign
  longS := rfl
  fold_foreign := by
    intro char hforeign hlong hmem
    simp only [UnicodeTables.javaUpper, hforeign, plainTables, hlong,
      Bool.false_eq_true, ↓reduceIte] at hmem
    split at hmem
    · revert hmem
      decide
    · simp only [UnicodeTables.javaLower, hforeign, Bool.false_eq_true,
        ↓reduceIte] at hmem
      split at hmem
      · revert hmem
        decide
      · split at hmem
        · revert hmem
          decide
        · rw [sha256_ascii hmem] at hforeign
          cases hforeign

def zeroHmac : Hmac := fun _ _ => Vector.replicate 32 0

theorem signaturesAgree_iff_mismatch :
    SignaturesAgree zeroHmac plainTables "topsecret" (by decide) [] "sha256=00" ↔
      ¬ Mishandled (expectedSignature zeroHmac "topsecret" [])
        "sha256=00".toList :=
  signaturesAgree_iff plainTables_standard (by decide) [] "sha256=00"

/-- On a header outside ASCII Python raises `TypeError`, Java its own error. -/
theorem not_signaturesAgree :
    ¬ ∀ (hmac : Hmac) (tables : UnicodeTables), tables.Standard →
      ∀ (secret : String) (hsecret : secret ≠ "") (body : List UInt8)
        (header : String),
        SignaturesAgree hmac tables secret hsecret body header := by
  intro h
  have hagree := (h zeroHmac plainTables plainTables_standard "topsecret"
    (by decide) [] "é").agree
  refine hagree.python_ne_raised
    "comparing strings with non-ASCII characters is not supported" ?_
  decide

end Webhook

end Flydocs

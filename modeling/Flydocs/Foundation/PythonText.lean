import Mathlib.Algebra.Ring.Nat
import Mathlib.Data.List.DropRight

/-!
# Python text

The `str` methods that the service applies, over code points.  Which code
points outside ASCII are printable is a table of the Unicode database and
stays a parameter.
-/

namespace Flydocs.Foundation

namespace PythonText

instance neZeroTen : NeZero (10 : Nat) := ⟨by decide⟩

/-! ## `repr` -/

def hexDigit (digit : Nat) : Char :=
  Char.ofNat (if digit < 10 then 48 + digit else 87 + digit)

def hexDigits : Nat → Nat → List Char
  | 0, _ => []
  | width + 1, number => hexDigits width (number / 16) ++ [hexDigit (number % 16)]

def escapeCode (code : Nat) : List Char :=
  if code < 256 then '\\' :: 'x' :: hexDigits 2 code
  else if code < 65536 then '\\' :: 'u' :: hexDigits 4 code
  else '\\' :: 'U' :: hexDigits 8 code

def reprChar (isPrintable : Char → Bool) (quote char : Char) : List Char :=
  if char = quote ∨ char = '\\' then ['\\', char]
  else if char = '\t' then ['\\', 't']
  else if char = '\n' then ['\\', 'n']
  else if char = '\r' then ['\\', 'r']
  else if char.toNat < 32 ∨ char.toNat = 127 then escapeCode char.toNat
  else if char.toNat < 127 ∨ isPrintable char then [char]
  else escapeCode char.toNat

/-- `repr(text)`: single quotes, unless only those occur in the text. -/
def repr (isPrintable : Char → Bool) (text : String) : String :=
  let chars := text.toList
  let quote := if '\'' ∈ chars ∧ '"' ∉ chars then '"' else '\''
  String.ofList (quote :: chars.flatMap (reprChar isPrintable quote) ++ [quote])

example : repr (fun _ => true) "it's\n" = "\"it's\\n\"" := by decide

/-! ## White space -/

def isSpace (char : Char) : Bool :=
  let code := char.toNat
  decide ((9 ≤ code ∧ code ≤ 13) ∨ (28 ≤ code ∧ code ≤ 32) ∨ code = 0x85 ∨
    code = 0xA0 ∨ code = 0x1680 ∨ (0x2000 ≤ code ∧ code ≤ 0x200A) ∨
    code = 0x2028 ∨ code = 0x2029 ∨ code = 0x202F ∨ code = 0x205F ∨
    code = 0x3000)

def lstripWhile (blank : Char → Bool) (text : List Char) : List Char :=
  text.dropWhile blank

def rstripWhile (blank : Char → Bool) (text : List Char) : List Char :=
  text.rdropWhile blank

def stripWhile (blank : Char → Bool) (text : List Char) : List Char :=
  rstripWhile blank (lstripWhile blank text)

def strip (text : String) : String :=
  String.ofList (stripWhile isSpace text.toList)

/-- `str.split()`: the runs of characters that are not white space. -/
def split (text : String) : List String :=
  ((text.toList.splitOnP isSpace).filter (· ≠ [])).map String.ofList

def Blanks (blank : Char → Bool) (text : List Char) : Prop :=
  ∀ char ∈ text, blank char = true

theorem blanks_nil (blank : Char → Bool) : Blanks blank [] := by
  simp [Blanks]

theorem Blanks.append {blank : Char → Bool} {left right : List Char}
    (hleft : Blanks blank left) (hright : Blanks blank right) :
    Blanks blank (left ++ right) := by
  intro char hchar
  rcases List.mem_append.mp hchar with hchar | hchar
  · exact hleft char hchar
  · exact hright char hchar

def Inked (blank : Char → Bool) (text : List Char) : Prop :=
  text ≠ [] ∧ ∀ char ∈ text, blank char = false

section

variable {blank : Char → Bool} {text core : List Char}

theorem lstripWhile_eq_cons_iff {char : Char} {rest : List Char}
    (hchar : blank char = false) :
    lstripWhile blank text = char :: rest ↔
      ∃ left, Blanks blank left ∧ text = left ++ char :: rest := by
  constructor
  · intro h
    refine ⟨text.takeWhile blank, fun other => List.mem_takeWhile_imp, ?_⟩
    rw [← h, lstripWhile, List.takeWhile_append_dropWhile]
  · rintro ⟨left, hleft, rfl⟩
    rw [lstripWhile, List.dropWhile_append_of_pos hleft,
      List.dropWhile_cons_of_neg (by simp [hchar])]

theorem lstripWhile_eq_iff (hcore : Inked blank core) :
    lstripWhile blank text = core ↔
      ∃ left, Blanks blank left ∧ text = left ++ core := by
  obtain ⟨hne, hinked⟩ := hcore
  obtain ⟨char, rest, rfl⟩ := List.exists_cons_of_ne_nil hne
  exact lstripWhile_eq_cons_iff (hinked char (by simp))

theorem rstripWhile_eq_iff (hcore : Inked blank core) :
    rstripWhile blank text = core ↔
      ∃ right, Blanks blank right ∧ text = core ++ right := by
  have hreversed : Inked blank core.reverse := by
    obtain ⟨hne, hinked⟩ := hcore
    exact ⟨by simpa using hne, by simpa using hinked⟩
  have hmirror : rstripWhile blank text = core ↔
      lstripWhile blank text.reverse = core.reverse := by
    rw [rstripWhile, List.rdropWhile, lstripWhile, List.reverse_eq_iff]
  rw [hmirror, lstripWhile_eq_iff hreversed]
  constructor
  · rintro ⟨left, hleft, htext⟩
    refine ⟨left.reverse, by simpa [Blanks] using hleft, ?_⟩
    simpa using congrArg List.reverse htext
  · rintro ⟨right, hright, rfl⟩
    exact ⟨right.reverse, by simpa [Blanks] using hright, by simp⟩

theorem stripWhile_eq_iff (hcore : Inked blank core) :
    stripWhile blank text = core ↔
      ∃ left right, Blanks blank left ∧ Blanks blank right ∧
        text = left ++ core ++ right := by
  rw [stripWhile, rstripWhile_eq_iff hcore]
  obtain ⟨hne, hinked⟩ := hcore
  obtain ⟨char, rest, rfl⟩ := List.exists_cons_of_ne_nil hne
  simp only [List.cons_append,
    lstripWhile_eq_cons_iff (hinked char List.mem_cons_self)]
  constructor
  · rintro ⟨right, hright, left, hleft, rfl⟩
    exact ⟨left, right, hleft, hright, by simp⟩
  · rintro ⟨left, right, hleft, hright, rfl⟩
    exact ⟨right, hright, left, hleft, by simp⟩

theorem stripWhile_append_cons {char : Char} (hchar : blank char = false)
    (before after : List Char) :
    stripWhile blank (before ++ char :: after) =
      lstripWhile blank before ++ char :: rstripWhile blank after := by
  have hright : ∀ kept : List Char, rstripWhile blank (kept ++ char :: after) =
      kept ++ char :: rstripWhile blank after := by
    intro kept
    induction after using List.reverseRecOn with
    | nil =>
        rw [rstripWhile, List.rdropWhile_concat_neg _ _ _ (by simp [hchar])]
        rfl
    | append_singleton after last ih =>
        have hshift : kept ++ char :: (after ++ [last]) =
            (kept ++ char :: after) ++ [last] := by simp
        simp only [rstripWhile] at ih ⊢
        rw [hshift, List.rdropWhile_concat, List.rdropWhile_concat]
        split
        · exact ih
        · simp
  have hleft : lstripWhile blank (before ++ char :: after) =
      lstripWhile blank before ++ char :: after := by
    simp only [lstripWhile, List.dropWhile_append]
    split
    · rename_i hempty
      rw [List.dropWhile_cons_of_neg (by simp [hchar]),
        List.isEmpty_iff.mp hempty, List.nil_append]
    · rfl
  rw [stripWhile, hleft, hright]

/-- Padding that shares no character with the core is determined by the text. -/
theorem padding_unique {left right left' right' : List Char} (hne : core ≠ [])
    (hleft : ∀ char ∈ left, char ∉ core)
    (hleft' : ∀ char ∈ left', char ∉ core)
    (h : left ++ core ++ right = left' ++ core ++ right') :
    left = left' ∧ right = right' := by
  obtain ⟨char, rest, rfl⟩ := List.exists_cons_of_ne_nil hne
  have hinitial : ∀ padding after : List Char,
      (∀ other ∈ padding, other ∉ char :: rest) →
      (padding ++ (char :: rest) ++ after).takeWhile
        (fun other => decide (other ∉ char :: rest)) = padding := by
    intro padding after hpadding
    rw [List.append_assoc, List.takeWhile_append_of_pos (by simpa using hpadding)]
    simp
  have hsame : left = left' := by
    rw [← hinitial left right hleft, h, hinitial left' right' hleft']
  subst hsame
  simpa using h

end

/-! ## Runs and words -/

/-- `re.sub(r"[...]+", " ", text)`: each run of the class becomes one blank. -/
def subRuns (inClass : Char → Bool) (inRun : Bool) : List Char → List Char
  | [] => []
  | char :: text =>
      if inClass char then
        if inRun then subRuns inClass true text
        else ' ' :: subRuns inClass true text
      else char :: subRuns inClass false text

def words (text : List Char) : List (List Char) :=
  (text.splitOnP isSpace).filter (· ≠ [])

theorem words_append_cons {sep : Char} (hsep : isSpace sep = true)
    (before after : List Char) :
    words (before ++ sep :: after) = words before ++ words after := by
  rw [words, List.splitOnP_append_cons _ _ hsep, List.filter_append]
  rfl

theorem words_of_inked {word : List Char} (h : Inked isSpace word) :
    words word = [word] := by
  rw [words, List.splitOnP_eq_singleton h.2]
  simp [h.1]

theorem words_intercalate {parts : List (List Char)}
    (h : ∀ part ∈ parts, Inked isSpace part) :
    words ([' '].intercalate parts) = parts := by
  induction parts with
  | nil => decide
  | cons part parts ih =>
      rw [List.forall_mem_cons] at h
      cases parts with
      | nil => simpa using words_of_inked h.1
      | cons next rest =>
          rw [List.intercalate_cons_cons, List.append_assoc,
            List.singleton_append, words_append_cons (by decide),
            words_of_inked h.1, ih h.2, List.singleton_append]

theorem blanks_of_at_most_one {allowed : Prop} {left : List Char}
    (h : left = [] ∨ allowed ∧ left = [' ']) : Blanks isSpace left := by
  rcases h with rfl | ⟨-, rfl⟩
  · exact blanks_nil _
  · simp [Blanks, isSpace]

theorem exists_subRuns (inRun : Bool) (text : List Char) :
    ∃ left parts right, subRuns isSpace inRun text =
        left ++ [' '].intercalate parts ++ right ∧
      (∀ part ∈ parts, Inked isSpace part) ∧
      (left = [] ∨ inRun = false ∧ left = [' ']) ∧ Blanks isSpace right := by
  induction text generalizing inRun with
  | nil =>
      exact ⟨[], [], [], by simp [subRuns], by simp, .inl rfl, blanks_nil _⟩
  | cons char text ih =>
      cases hchar : isSpace char with
      | true =>
          obtain ⟨left, parts, right, htext, hparts, hleft, hright⟩ := ih true
          obtain rfl : left = [] := by simpa using hleft
          cases inRun with
          | true =>
              exact ⟨[], parts, right, by simpa [subRuns, hchar] using htext,
                hparts, .inl rfl, hright⟩
          | false =>
              exact ⟨[' '], parts, right, by simp [subRuns, hchar, htext],
                hparts, .inr ⟨rfl, rfl⟩, hright⟩
      | false =>
          obtain ⟨left, parts, right, htext, hparts, hleft, hright⟩ := ih false
          have hone : Inked isSpace [char] := ⟨by simp, by simpa using hchar⟩
          have hcons : subRuns isSpace inRun (char :: text) =
              char :: (left ++ [' '].intercalate parts ++ right) := by
            simp [subRuns, hchar, htext]
          cases parts with
          | nil =>
              exact ⟨[], [[char]], left ++ right, by simp [hcons], by simpa,
                .inl rfl, (blanks_of_at_most_one hleft).append hright⟩
          | cons part parts =>
              rcases hleft with rfl | ⟨-, rfl⟩
              · rw [List.forall_mem_cons] at hparts
                have hpart : Inked isSpace (char :: part) :=
                  ⟨by simp, List.forall_mem_cons.mpr ⟨hchar, hparts.1.2⟩⟩
                exact ⟨[], (char :: part) :: parts, right,
                  by simp [hcons, List.intercalate_cons_cons_left],
                  List.forall_mem_cons.mpr ⟨hpart, hparts.2⟩, .inl rfl, hright⟩
              · exact ⟨[], [char] :: part :: parts, right,
                  by simp [hcons, List.intercalate_cons_cons],
                  List.forall_mem_cons.mpr ⟨hone, hparts⟩, .inl rfl, hright⟩

theorem intercalate_ends {parts : List (List Char)} (hne : parts ≠ [])
    (h : ∀ part ∈ parts, Inked isSpace part) :
    (∃ first rest, [' '].intercalate parts = first :: rest ∧
      isSpace first = false) ∧
    ∃ before last, [' '].intercalate parts = before ++ [last] ∧
      isSpace last = false := by
  induction parts with
  | nil => exact absurd rfl hne
  | cons part parts ih =>
      rw [List.forall_mem_cons] at h
      obtain ⟨first, rest, rfl⟩ := List.exists_cons_of_ne_nil h.1.1
      have hfirst := h.1.2 first List.mem_cons_self
      cases parts with
      | nil =>
          have hlast := List.dropLast_append_getLast h.1.1
          exact ⟨⟨first, rest, by simp, hfirst⟩, _, _, by simpa using hlast.symm,
            h.1.2 _ (List.getLast_mem h.1.1)⟩
      | cons next others =>
          obtain ⟨-, before, last, hlast, hinked⟩ := ih (by simp) h.2
          rw [List.intercalate_cons_cons, hlast]
          exact ⟨⟨first, rest ++ [' '] ++ (before ++ [last]), by simp, hfirst⟩,
            first :: rest ++ [' '] ++ before, last, by simp, hinked⟩

theorem stripWhile_between {left core right : List Char}
    (hleft : Blanks isSpace left) (hright : Blanks isSpace right)
    (hfirst : ∃ first rest, core = first :: rest ∧ isSpace first = false)
    (hlast : ∃ before last, core = before ++ [last] ∧ isSpace last = false) :
    stripWhile isSpace (left ++ core ++ right) = core := by
  obtain ⟨first, rest, hcons, hfirst⟩ := hfirst
  obtain ⟨before, last, hconcat, hlast⟩ := hlast
  have hlstrip : lstripWhile isSpace (left ++ core ++ right) =
      core ++ right := by
    rw [hcons, List.append_assoc, List.cons_append]
    exact (lstripWhile_eq_cons_iff hfirst).mpr ⟨left, hleft, rfl⟩
  have hblank : ∀ char ∈ right.reverse, isSpace char = true := by
    simpa [Blanks] using hright
  rw [stripWhile, hlstrip, hconcat, rstripWhile, List.rdropWhile,
    List.reverse_append, List.dropWhile_append_of_pos hblank,
    List.reverse_append, List.reverse_singleton, List.singleton_append,
    List.dropWhile_cons_of_neg (by simp [hlast])]
  simp

/-- Collapsing the white space and stripping leaves the words, joined. -/
theorem stripWhile_subRuns (text : List Char) :
    ∃ parts, stripWhile isSpace (subRuns isSpace false text) =
        [' '].intercalate parts ∧
      ∀ part ∈ parts, Inked isSpace part := by
  obtain ⟨left, parts, right, htext, hparts, hleft, hright⟩ :=
    exists_subRuns false text
  refine ⟨parts, ?_, hparts⟩
  have hblank := blanks_of_at_most_one hleft
  rw [htext]
  by_cases hne : parts = []
  · subst hne
    rw [List.intercalate_nil, List.append_nil, stripWhile, lstripWhile,
      List.dropWhile_eq_nil_iff.mpr (hblank.append hright)]
    rfl
  · obtain ⟨hfirst, hlast⟩ := intercalate_ends hne hparts
    exact stripWhile_between hblank hright hfirst hlast

theorem ne_empty_of_mem_split {text part : String}
    (h : part ∈ split text) : part ≠ "" := by
  obtain ⟨letters, hletters, rfl⟩ := List.mem_map.mp h
  have hne : letters ≠ [] := by simpa using (List.mem_filter.mp hletters).2
  intro hempty
  exact hne (by simpa using congrArg String.toList hempty)

theorem intercalate_split {text : String} {parts : List (List Char)}
    (htext : text.toList = [' '].intercalate parts)
    (hparts : ∀ part ∈ parts, Inked isSpace part) :
    " ".intercalate (split text) = text := by
  have hsplit : split text = parts.map String.ofList := by
    rw [split, htext]
    exact congrArg _ (words_intercalate hparts)
  apply String.toList_injective
  rw [String.toList_intercalate, hsplit, htext]
  simp [Function.comp_def]

end PythonText

end Flydocs.Foundation

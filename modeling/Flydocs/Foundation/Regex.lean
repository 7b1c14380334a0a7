import Mathlib.Computability.Language

/-!
# Regular expressions over classes of letters

A class is a predicate, so an alphabet need not be finite.  `fullmatch` matches
by derivatives, and decides the language that an expression denotes.
-/

namespace Flydocs.Foundation

open Computability

inductive Regex (Letter : Type*) where
  | none
  | eps
  | char (accepts : Letter → Bool)
  | seq (first second : Regex Letter)
  | alt (first second : Regex Letter)
  | star (repeated : Regex Letter)

namespace Regex

variable {Letter : Type*}

/-! ## Abbreviations -/

def optional (regex : Regex Letter) : Regex Letter := alt eps regex

def plus (regex : Regex Letter) : Regex Letter := seq regex (star regex)

def exactly : Nat → Regex Letter → Regex Letter
  | 0, _ => eps
  | count + 1, regex => seq regex (exactly count regex)

def atMost : Nat → Regex Letter → Regex Letter
  | 0, _ => eps
  | count + 1, regex => optional (seq regex (atMost count regex))

def between (low high : Nat) (regex : Regex Letter) : Regex Letter :=
  seq (exactly low regex) (atMost (high - low) regex)

/-! ## Matching -/

def nullable : Regex Letter → Bool
  | none | char _ => false
  | eps | star _ => true
  | seq first second => first.nullable && second.nullable
  | alt first second => first.nullable || second.nullable

def deriv (letter : Letter) : Regex Letter → Regex Letter
  | none | eps => none
  | char accepts => if accepts letter then eps else none
  | seq first second =>
      if first.nullable then
        alt (seq (first.deriv letter) second) (second.deriv letter)
      else seq (first.deriv letter) second
  | alt first second => alt (first.deriv letter) (second.deriv letter)
  | star repeated => seq (repeated.deriv letter) (star repeated)

def fullmatch : Regex Letter → List Letter → Bool
  | regex, [] => regex.nullable
  | regex, letter :: rest => (regex.deriv letter).fullmatch rest

/-! ## Languages -/

def language : Regex Letter → Language Letter
  | none => 0
  | eps => 1
  | char accepts => {text | ∃ letter, accepts letter = true ∧ text = [letter]}
  | seq first second => first.language * second.language
  | alt first second => first.language + second.language
  | star repeated => repeated.language∗

@[simp] theorem mem_none {text : List Letter} :
    text ∈ (none : Regex Letter).language ↔ False := Iff.rfl

@[simp] theorem mem_eps {text : List Letter} :
    text ∈ (eps : Regex Letter).language ↔ text = [] := Iff.rfl

@[simp] theorem mem_char {accepts : Letter → Bool} {text : List Letter} :
    text ∈ (char accepts).language ↔
      ∃ letter, accepts letter = true ∧ text = [letter] := Iff.rfl

theorem mem_seq {first second : Regex Letter} {text : List Letter} :
    text ∈ (seq first second).language ↔
      ∃ before ∈ first.language, ∃ after ∈ second.language,
        before ++ after = text := Language.mem_mul

@[simp] theorem mem_alt {first second : Regex Letter} {text : List Letter} :
    text ∈ (alt first second).language ↔
      text ∈ first.language ∨ text ∈ second.language := Language.mem_add ..

theorem nullable_iff {regex : Regex Letter} :
    regex.nullable = true ↔ [] ∈ regex.language := by
  induction regex with
  | none => simp [nullable]
  | eps => simp [nullable]
  | char accepts => simp [nullable]
  | seq first second ihFirst ihSecond =>
      simp [nullable, mem_seq, ihFirst, ihSecond]
  | alt first second ihFirst ihSecond =>
      simp [nullable, ihFirst, ihSecond]
  | star repeated _ => exact iff_of_true rfl (Language.nil_mem_kstar _)

theorem cons_mem_seq {first second : Regex Letter} {letter : Letter}
    {rest : List Letter} :
    letter :: rest ∈ (seq first second).language ↔
      (∃ before after, before ++ after = rest ∧
        letter :: before ∈ first.language ∧ after ∈ second.language) ∨
      ([] ∈ first.language ∧ letter :: rest ∈ second.language) := by
  rw [mem_seq]
  constructor
  · rintro ⟨before, hbefore, after, hafter, happend⟩
    cases before with
    | nil => exact .inr ⟨hbefore, happend ▸ hafter⟩
    | cons head before =>
        rw [List.cons_append, List.cons.injEq] at happend
        obtain ⟨rfl, happend⟩ := happend
        exact .inl ⟨before, after, happend, hbefore, hafter⟩
  · rintro (⟨before, after, rfl, hbefore, hafter⟩ | ⟨hskip, hrest⟩)
    · exact ⟨letter :: before, hbefore, after, hafter, rfl⟩
    · exact ⟨[], hskip, letter :: rest, hrest, rfl⟩

theorem cons_mem_star {repeated : Regex Letter} {letter : Letter}
    {rest : List Letter} :
    letter :: rest ∈ (star repeated).language ↔
      ∃ before after, before ++ after = rest ∧
        letter :: before ∈ repeated.language ∧
        after ∈ (star repeated).language := by
  simp only [language, Language.mem_kstar_iff_exists_nonempty]
  constructor
  · rintro ⟨parts, hparts, hnonempty⟩
    cases parts with
    | nil => cases hparts
    | cons first parts =>
        obtain ⟨hfirst, hne⟩ := hnonempty first (by simp)
        obtain ⟨head, before, rfl⟩ := List.exists_cons_of_ne_nil hne
        rw [List.flatten_cons, List.cons_append, List.cons.injEq] at hparts
        obtain ⟨rfl, hparts⟩ := hparts
        exact ⟨before, parts.flatten, hparts.symm, hfirst, parts, rfl,
          fun part hpart => hnonempty part (by simp [hpart])⟩
  · rintro ⟨before, after, rfl, hbefore, parts, rfl, hnonempty⟩
    refine ⟨(letter :: before) :: parts, by simp, ?_⟩
    intro part hpart
    rcases List.mem_cons.mp hpart with rfl | hpart
    · exact ⟨hbefore, by simp⟩
    · exact hnonempty part hpart

theorem mem_deriv {regex : Regex Letter} {letter : Letter}
    {rest : List Letter} :
    rest ∈ (regex.deriv letter).language ↔
      letter :: rest ∈ regex.language := by
  induction regex generalizing rest with
  | none => simp [deriv]
  | eps => simp [deriv]
  | char accepts =>
      rw [deriv]
      split <;> simp_all
  | seq first second ihFirst ihSecond =>
      rw [cons_mem_seq, ← nullable_iff, deriv]
      have hseq : rest ∈ (seq (first.deriv letter) second).language ↔
          ∃ before after, before ++ after = rest ∧
            letter :: before ∈ first.language ∧
            after ∈ second.language := by
        rw [mem_seq]
        constructor
        · rintro ⟨before, hbefore, after, hafter, happend⟩
          exact ⟨before, after, happend, ihFirst.mp hbefore, hafter⟩
        · rintro ⟨before, after, happend, hbefore, hafter⟩
          exact ⟨before, ihFirst.mpr hbefore, after, hafter, happend⟩
      split
      · rename_i hnullable
        simp [hseq, hnullable, ihSecond]
      · rename_i hnullable
        simp [hseq, hnullable]
  | alt first second ihFirst ihSecond => simp [deriv, ihFirst, ihSecond]
  | star repeated ih =>
      rw [cons_mem_star, deriv, mem_seq]
      constructor
      · rintro ⟨before, hbefore, after, hafter, happend⟩
        exact ⟨before, after, happend, ih.mp hbefore, hafter⟩
      · rintro ⟨before, after, happend, hbefore, hafter⟩
        exact ⟨before, ih.mpr hbefore, after, hafter, happend⟩

/-- Matching decides the language. -/
theorem fullmatch_iff {regex : Regex Letter} {text : List Letter} :
    regex.fullmatch text = true ↔ text ∈ regex.language := by
  induction text generalizing regex with
  | nil => exact nullable_iff
  | cons letter rest ih => rw [fullmatch, ih, mem_deriv]

/-! ## Repeated classes -/

variable {accepts : Letter → Bool} {text : List Letter}

theorem mem_exactly_char {count : Nat} :
    text ∈ (exactly count (char accepts)).language ↔
      text.length = count ∧ ∀ letter ∈ text, accepts letter = true := by
  induction count generalizing text with
  | zero => cases text <;> simp [exactly]
  | succ count ih =>
      rw [exactly, mem_seq]
      simp only [ih, mem_char]
      constructor
      · rintro ⟨_, ⟨letter, hletter, rfl⟩, after, ⟨rfl, hafter⟩, rfl⟩
        exact ⟨by simp, by simpa using ⟨hletter, hafter⟩⟩
      · rintro ⟨hlength, htext⟩
        cases text with
        | nil => simp at hlength
        | cons letter rest =>
            exact ⟨[letter], ⟨letter, htext letter (by simp), rfl⟩, rest,
              ⟨by simpa using hlength, fun other hother =>
                htext other (by simp [hother])⟩, rfl⟩

theorem mem_atMost_char {count : Nat} :
    text ∈ (atMost count (char accepts)).language ↔
      text.length ≤ count ∧ ∀ letter ∈ text, accepts letter = true := by
  induction count generalizing text with
  | zero => cases text <;> simp [atMost]
  | succ count ih =>
      rw [atMost, optional, mem_alt, mem_eps, mem_seq]
      simp only [ih, mem_char]
      constructor
      · rintro (rfl | ⟨_, ⟨letter, hletter, rfl⟩, after, ⟨hlength, hafter⟩, rfl⟩)
        · simp
        · exact ⟨by simpa using hlength, by simpa using ⟨hletter, hafter⟩⟩
      · rintro ⟨hlength, htext⟩
        cases text with
        | nil => exact .inl rfl
        | cons letter rest =>
            exact .inr ⟨[letter], ⟨letter, htext letter (by simp), rfl⟩, rest,
              ⟨by simpa using hlength, fun other hother =>
                htext other (by simp [hother])⟩, rfl⟩

theorem mem_between_char {low high : Nat} (hle : low ≤ high) :
    text ∈ (between low high (char accepts)).language ↔
      low ≤ text.length ∧ text.length ≤ high ∧
        ∀ letter ∈ text, accepts letter = true := by
  rw [between, mem_seq]
  simp only [mem_exactly_char, mem_atMost_char]
  constructor
  · rintro ⟨before, ⟨rfl, hbefore⟩, after, ⟨hlength, hafter⟩, rfl⟩
    refine ⟨by simp, by simp; omega, ?_⟩
    intro letter hletter
    exact (List.mem_append.mp hletter).elim (hbefore letter) (hafter letter)
  · rintro ⟨hlow, hhigh, htext⟩
    refine ⟨text.take low, ⟨by simpa using hlow, ?_⟩, text.drop low,
      ⟨by simp; omega, ?_⟩, List.take_append_drop low text⟩
    · exact fun letter hletter => htext letter (List.mem_of_mem_take hletter)
    · exact fun letter hletter => htext letter (List.mem_of_mem_drop hletter)

end Regex

end Flydocs.Foundation

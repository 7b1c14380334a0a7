import Mathlib.Data.List.Basic
import Flydocs.Foundation.PythonDate

/-!
# The grammar of dates

`strptime` reads `YYYY-MM-DD`, and besides it the dates that have a month or a
day of one digit, a blank before the day, or digits of another script.
-/

namespace Flydocs.Foundation

namespace PythonDate

def number (digits : List Char) : Nat :=
  digits.foldl (fun number char => 10 * number + asciiValue char) 0

/-- `YYYY-MM-DD` of a day of the calendar. -/
def IsoDate (text : String) : Prop :=
  ∃ year month day : List Char,
    text.toList = year ++ '-' :: (month ++ '-' :: day) ∧
    year.length = 4 ∧ month.length = 2 ∧ day.length = 2 ∧
    (∀ char ∈ year ++ month ++ day, char.isDigit = true) ∧
    IsDay (number year) (number month) (number day)

variable (digit : Char → Option (Fin 10))

/-- The number that digits of any script spell, where a blank is a zero. -/
def value (digits : List Char) : Nat :=
  digits.foldl (fun number char => 10 * number + ((digit char).getD 0).val) 0

def ReadsDay : List Char → Prop
  | [only] => only.isDigit = true
  | [first, second] =>
      (first = '1' ∨ first = '2') ∧ (digit second).isSome = true ∨
        (first = ' ' ∨ first.isDigit = true) ∧ second.isDigit = true
  | _ => False

/-- A table of digits that has those of ASCII, and neither hyphen nor blank. -/
structure DigitTable : Prop where
  ascii : ∀ char, char.isDigit = true →
    (digit char).map Fin.val = some (asciiValue char)
  hyphen : digit '-' = none
  blank : digit ' ' = none

structure Reads (year month day : List Char) : Prop where
  yearLength : year.length = 4
  yearDigits : ∀ char ∈ year, (digit char).isSome = true
  monthLength : month.length = 1 ∨ month.length = 2
  monthDigits : ∀ char ∈ month, char.isDigit = true
  readsDay : ReadsDay digit day
  isDay : IsDay (value digit year) (value digit month) (value digit day)

def Strict (year month day : List Char) : Prop :=
  month.length = 2 ∧ day.length = 2 ∧
    ∀ char ∈ year ++ month ++ day, char.isDigit = true

/-- A date that is read and that is not spelled `YYYY-MM-DD`. -/
def LooseDate (text : String) : Prop :=
  ∃ year month day : List Char,
    text.toList = year ++ '-' :: (month ++ '-' :: day) ∧
    Reads digit year month day ∧ ¬ Strict year month day

/-! ## Digits -/

theorem toNat_of_isDigit {char : Char} (h : char.isDigit = true) :
    48 ≤ char.toNat ∧ char.toNat ≤ 57 := by
  simp only [Char.isDigit, Bool.and_eq_true, decide_eq_true_eq] at h
  exact ⟨h.1, h.2⟩

theorem eq_of_asciiValue {first second : Char} (hfirst : first.isDigit = true)
    (hsecond : second.isDigit = true)
    (h : asciiValue first = asciiValue second) : first = second := by
  have hfirst := toNat_of_isDigit hfirst
  have hsecond := toNat_of_isDigit hsecond
  unfold asciiValue at h
  exact Char.ext (UInt32.toNat_inj.mp (show first.toNat = second.toNat by omega))

theorem asciiValue_pos_iff {char : Char} (h : char.isDigit = true) :
    1 ≤ asciiValue char ↔ char ≠ '0' := by
  have hbounds := toNat_of_isDigit h
  constructor
  · rintro hpos rfl
    exact absurd hpos (by decide)
  · intro hne
    by_contra hzero
    exact hne (eq_of_asciiValue h (by decide) (by
      simp only [not_le, Nat.lt_one_iff] at hzero
      rw [hzero]
      decide))

theorem asciiValue_le {char : Char} (h : char.isDigit = true) :
    asciiValue char ≤ 9 := by
  have hbounds := toNat_of_isDigit h
  unfold asciiValue
  omega

theorem daysInMonth_le (year month : Nat) : daysInMonth year month ≤ 31 := by
  unfold daysInMonth
  split_ifs <;> omega

section

variable {digit : Char → Option (Fin 10)}

theorem matchYear_eq_some_iff {chars rest : List Char} {year : Nat} :
    matchYear digit chars = some (year, rest) ↔
      ∃ digits : List Char, chars = digits ++ '-' :: rest ∧
        digits.length = 4 ∧ (∀ char ∈ digits, (digit char).isSome = true) ∧
        value digit digits = year := by
  constructor
  · intro h
    unfold matchYear at h
    split at h
    · rename_i first second third fourth rest'
      simp only [Option.bind_eq_bind, Option.bind_eq_some_iff,
        Option.some.injEq, Prod.mk.injEq] at h
      obtain ⟨a, ha, b, hb, c, hc, d, hd, hyear, rfl⟩ := h
      refine ⟨[first, second, third, fourth], rfl, rfl, by simp [*], ?_⟩
      simp only [value, List.foldl_cons, List.foldl_nil, ha, hb, hc, hd,
        Option.getD_some]
      omega
    · cases h
  · rintro ⟨digits, rfl, hlength, hdigits, rfl⟩
    match digits, hlength with
    | [first, second, third, fourth], _ =>
        simp only [List.forall_mem_cons, Option.isSome_iff_exists] at hdigits
        obtain ⟨⟨a, ha⟩, ⟨b, hb⟩, ⟨c, hc⟩, ⟨d, hd⟩, -⟩ := hdigits
        simp only [matchYear, List.cons_append, List.nil_append,
          Option.bind_eq_bind, ha, hb, hc, hd, Option.bind_some, value,
          List.foldl_cons, List.foldl_nil, Option.getD_some, Option.some.injEq,
          Prod.mk.injEq, and_true]
        omega

/-- No longer alternative of the month starts with a digit and a hyphen. -/
theorem matchMonth_single {only : Char} {rest : List Char}
    (honly : only.isDigit = true) (hpos : 1 ≤ asciiValue only) :
    matchMonth (only :: '-' :: rest) = some (asciiValue only, rest) := by
  have hne : only ≠ '0' := (asciiValue_pos_iff honly).mp hpos
  unfold matchMonth
  split <;> rename_i heq
  · cases heq
  · cases heq
  · cases heq
  · cases heq
    exact absurd rfl hne
  · cases heq
    rw [if_pos ⟨honly, hne⟩]
  · exact absurd rfl (heq _ _)

theorem matchMonth_pair {first second : Char} {rest : List Char} {month : Nat}
    (hfirst : first.isDigit = true) (hsecond : second.isDigit = true)
    (hvalue : 10 * asciiValue first + asciiValue second = month)
    (hlow : 1 ≤ month) (hhigh : month ≤ 12) :
    matchMonth (first :: second :: '-' :: rest) = some (month, rest) := by
  have hle := asciiValue_le hsecond
  have htens : asciiValue first = 0 ∨ asciiValue first = 1 := by omega
  rcases htens with htens | htens
  · obtain rfl : first = '0' := eq_of_asciiValue hfirst (by decide) htens
    have hne : second ≠ '0' := (asciiValue_pos_iff hsecond).mp (by omega)
    simp [matchMonth, hsecond, hne, ← hvalue, htens]
  · obtain rfl : first = '1' := eq_of_asciiValue hfirst (by decide) htens
    have hones : asciiValue second = 0 ∨ asciiValue second = 1 ∨
        asciiValue second = 2 := by omega
    have hsecond' : second = '0' ∨ second = '1' ∨ second = '2' :=
      hones.imp (eq_of_asciiValue hsecond (by decide)) (Or.imp
        (eq_of_asciiValue hsecond (by decide))
        (eq_of_asciiValue hsecond (by decide)))
    subst hvalue
    rcases hsecond' with rfl | rfl | rfl <;> rfl

theorem matchMonth_eq_some_iff {chars rest : List Char} {month : Nat}
    (hlow : 1 ≤ month) (hhigh : month ≤ 12) :
    matchMonth chars = some (month, rest) ↔
      ∃ digits : List Char, chars = digits ++ '-' :: rest ∧
        (digits.length = 1 ∨ digits.length = 2) ∧
        (∀ char ∈ digits, char.isDigit = true) ∧ number digits = month := by
  constructor
  · intro h
    unfold matchMonth at h
    split at h
    · cases h
      exact ⟨['1', '0'], rfl, .inr rfl, by simp, rfl⟩
    · cases h
      exact ⟨['1', '1'], rfl, .inr rfl, by simp, rfl⟩
    · cases h
      exact ⟨['1', '2'], rfl, .inr rfl, by simp, rfl⟩
    · rename_i second rest'
      split at h
      · rename_i hsecond
        cases h
        exact ⟨['0', second], rfl, .inr rfl, by simp [hsecond.1], by
          simp [number, asciiValue]⟩
      · cases h
    · rename_i first rest' _
      split at h
      · rename_i hfirst
        cases h
        exact ⟨[first], rfl, .inl rfl, by simp [hfirst.1], by simp [number]⟩
      · cases h
    · cases h
  · rintro ⟨digits, rfl, hlength, hdigits, hnumber⟩
    match digits, hlength with
    | [only], _ =>
        have hvalue : asciiValue only = month := by simpa [number] using hnumber
        subst hvalue
        exact matchMonth_single (hdigits only (by simp)) hlow
    | [first, second], _ =>
        exact matchMonth_pair (hdigits first (by simp))
          (hdigits second (by simp)) (by simpa [number] using hnumber)
          hlow hhigh

theorem DigitTable.isSome (table : DigitTable digit) {char : Char}
    (h : char.isDigit = true) : (digit char).isSome = true := by
  have hdigit := table.ascii char h
  cases hchar : digit char <;> simp_all

theorem DigitTable.getD (table : DigitTable digit) {char : Char}
    (h : char.isDigit = true) :
    ((digit char).getD 0).val = asciiValue char := by
  have hdigit := table.ascii char h
  cases hchar : digit char <;> simp_all

theorem DigitTable.value_eq_number (table : DigitTable digit)
    {digits : List Char} (h : ∀ char ∈ digits, char.isDigit = true) :
    value digit digits = number digits := by
  unfold value number
  refine List.foldl_ext _ _ _ fun total char hchar => ?_
  rw [table.getD (h char hchar)]

theorem readsDay_of_matchDay (table : DigitTable digit) {first second : Char}
    {day : Nat} (h : matchDay digit [first, second] = some (day, [])) :
    ReadsDay digit [first, second] ∧ value digit [first, second] = day := by
  simp only [matchDay] at h
  simp only [ReadsDay, value, List.foldl_cons, List.foldl_nil, Nat.mul_zero,
    Nat.zero_add]
  split at h
  · rename_i hthirties
    cases h
    have hfirst : first.isDigit = true := by rw [hthirties.1]; rfl
    have hsecond : second.isDigit = true := by
      rcases hthirties.2 with rfl | rfl <;> rfl
    refine ⟨.inr ⟨.inr hfirst, hsecond⟩, ?_⟩
    rw [table.getD hfirst, table.getD hsecond, hthirties.1]
    rfl
  · split at h
    · rename_i htens
      cases h
      have hfirst : first.isDigit = true := by
        rcases htens.1 with rfl | rfl <;> rfl
      refine ⟨.inl htens, ?_⟩
      rw [table.getD hfirst, Nat.mul_comm]
    · split at h
      · rename_i hones
        cases h
        obtain ⟨rfl | rfl, hsecond, -⟩ := hones
        · exact ⟨.inr ⟨.inr rfl, hsecond⟩, by
            simp [table.getD hsecond, table.getD (show '0'.isDigit from rfl),
              asciiValue]⟩
        · exact ⟨.inr ⟨.inl rfl, hsecond⟩, by
            simp [table.getD hsecond, table.blank]⟩
      · split at h <;> simp at h

theorem matchDay_digits (table : DigitTable digit) {first second : Char}
    {day : Nat} (hfirst : first.isDigit = true)
    (hsecond : second.isDigit = true)
    (hvalue : 10 * asciiValue first + asciiValue second = day)
    (hlow : 1 ≤ day) (hhigh : day ≤ 31) :
    matchDay digit [first, second] = some (day, []) := by
  have hle := asciiValue_le hsecond
  have htens : asciiValue first = 0 ∨ asciiValue first = 1 ∨
      asciiValue first = 2 ∨ asciiValue first = 3 := by omega
  simp only [matchDay]
  rcases htens with htens | htens | htens | htens
  · obtain rfl : first = '0' := eq_of_asciiValue hfirst (by decide) htens
    have hne := (asciiValue_pos_iff hsecond).mp (by omega)
    simp [hsecond, hne, ← hvalue, htens]
  · obtain rfl : first = '1' := eq_of_asciiValue hfirst (by decide) htens
    simp [table.isSome hsecond, table.getD hsecond, ← hvalue, htens]
  · obtain rfl : first = '2' := eq_of_asciiValue hfirst (by decide) htens
    simp [table.isSome hsecond, table.getD hsecond, ← hvalue, htens]
  · obtain rfl : first = '3' := eq_of_asciiValue hfirst (by decide) htens
    have hones : asciiValue second = 0 ∨ asciiValue second = 1 := by omega
    have hsecond' : second = '0' ∨ second = '1' :=
      hones.imp (eq_of_asciiValue hsecond (by decide))
        (eq_of_asciiValue hsecond (by decide))
    rw [if_pos ⟨rfl, hsecond'⟩, ← hvalue, htens]

theorem matchDay_pair_iff (table : DigitTable digit) {first second : Char}
    {day : Nat} (hlow : 1 ≤ day) (hhigh : day ≤ 31) :
    matchDay digit [first, second] = some (day, []) ↔
      ReadsDay digit [first, second] ∧ value digit [first, second] = day := by
  refine ⟨readsDay_of_matchDay table, ?_⟩
  simp only [ReadsDay, value, List.foldl_cons, List.foldl_nil, Nat.mul_zero,
    Nat.zero_add]
  rintro ⟨⟨hfirst, hsecond⟩ | ⟨rfl | hfirst, hsecond⟩, hvalue⟩
  · have hdigit : first.isDigit = true := by
      rcases hfirst with rfl | rfl <;> rfl
    have hne : first ≠ '3' := by rcases hfirst with rfl | rfl <;> decide
    rw [table.getD hdigit, Nat.mul_comm] at hvalue
    simp only [matchDay]
    rw [if_neg fun h => hne h.1, if_pos ⟨hfirst, hsecond⟩, hvalue]
  · rw [table.blank, table.getD hsecond] at hvalue
    simp only [Option.getD_none, Fin.val_zero, Nat.mul_zero,
      Nat.zero_add] at hvalue
    have hne := (asciiValue_pos_iff hsecond).mp (hvalue ▸ hlow)
    simp [matchDay, hsecond, hne, hvalue]
  · rw [table.getD hfirst, table.getD hsecond] at hvalue
    exact matchDay_digits table hfirst hsecond hvalue hlow hhigh

theorem matchDay_eq_some_iff (table : DigitTable digit) {chars : List Char}
    {day : Nat} (hlow : 1 ≤ day) (hhigh : day ≤ 31) :
    matchDay digit chars = some (day, []) ↔
      ReadsDay digit chars ∧ value digit chars = day := by
  match chars with
  | [] => simp [matchDay, ReadsDay]
  | [only] =>
      simp only [matchDay, ReadsDay, value, List.foldl_cons, List.foldl_nil]
      constructor
      · intro h
        split at h
        · rename_i honly
          cases h
          exact ⟨honly.1, by simp [table.getD honly.1]⟩
        · cases h
      · rintro ⟨honly, hvalue⟩
        rw [table.getD honly, Nat.mul_zero, Nat.zero_add] at hvalue
        have hne := (asciiValue_pos_iff honly).mp (hvalue ▸ hlow)
        rw [if_pos ⟨honly, hne⟩, hvalue]
  | [first, second] => exact matchDay_pair_iff table hlow hhigh
  | first :: second :: third :: rest =>
      simp only [matchDay, ReadsDay, false_and, iff_false]
      split
      · simp
      · split
        · simp
        · split
          · simp
          · split <;> simp

/-! ## Whole texts -/

theorem strptime_eq_ok_iff {isPrintable : Char → Bool} {text : String}
    {year month day : Nat} :
    strptime digit isPrintable text = .ok (year, month, day) ↔
      matchDate digit text.toList = some ((year, month, day), []) ∧
        IsDay year month day := by
  unfold strptime
  cases hmatch : matchDate digit text.toList with
  | none => simp
  | some entry =>
      obtain ⟨⟨year', month', day'⟩, rest⟩ := entry
      simp only
      split_ifs with hrest hday hyear
      · simp [hrest]
      · simp only [Except.ok.injEq, Prod.mk.injEq, Option.some.injEq,
          not_not.mp hrest, and_true]
        constructor
        · rintro ⟨rfl, rfl, rfl⟩
          exact ⟨⟨rfl, rfl, rfl⟩, hday⟩
        · exact And.left
      all_goals
        simp only [Option.some.injEq, Prod.mk.injEq, false_iff]
        rintro ⟨⟨⟨rfl, rfl, rfl⟩, -⟩, h⟩
        exact hday h

theorem matchDate_eq_some_iff {chars rest : List Char} {year month day : Nat} :
    matchDate digit chars = some ((year, month, day), rest) ↔
      ∃ afterYear afterMonth, matchYear digit chars = some (year, afterYear) ∧
        matchMonth afterYear = some (month, afterMonth) ∧
        matchDay digit afterMonth = some (day, rest) := by
  simp only [matchDate, Option.bind_eq_bind, Option.bind_eq_some_iff,
    Option.some.injEq, Prod.mk.injEq, Prod.exists]
  grind

theorem strptime_accepts_iff_reads (table : DigitTable digit)
    {isPrintable : Char → Bool} {text : String} :
    (∃ date, strptime digit isPrintable text = .ok date) ↔
      ∃ year month day, text.toList = year ++ '-' :: (month ++ '-' :: day) ∧
        Reads digit year month day := by
  simp only [Prod.exists, strptime_eq_ok_iff, matchDate_eq_some_iff]
  constructor
  · rintro ⟨year, month, day, ⟨afterYear, afterMonth, hyear, hmonth, hday⟩,
      hreal⟩
    obtain ⟨-, -, hmonthLow, hmonthHigh, hdayLow, hdayHigh⟩ := id hreal
    have hlast : day ≤ 31 := hdayHigh.trans (daysInMonth_le year month)
    obtain ⟨years, htext, hyearLength, hyears, rfl⟩ :=
      matchYear_eq_some_iff.mp hyear
    obtain ⟨months, rfl, hmonthLength, hmonths, rfl⟩ :=
      (matchMonth_eq_some_iff hmonthLow hmonthHigh).mp hmonth
    obtain ⟨hreads, rfl⟩ :=
      (matchDay_eq_some_iff table hdayLow hlast).mp hday
    refine ⟨years, months, afterMonth, htext, hyearLength, hyears,
      hmonthLength, hmonths, hreads, ?_⟩
    rw [table.value_eq_number hmonths]
    exact hreal
  · rintro ⟨years, months, days, htext, hreads⟩
    have hreal := hreads.isDay
    obtain ⟨-, -, hmonthLow, hmonthHigh, hdayLow, hdayHigh⟩ := id hreal
    have hlast : value digit days ≤ 31 := hdayHigh.trans (daysInMonth_le _ _)
    refine ⟨_, _, _, ⟨_, _, matchYear_eq_some_iff.mpr ⟨years, htext,
      hreads.yearLength, hreads.yearDigits, rfl⟩,
      (matchMonth_eq_some_iff hmonthLow hmonthHigh).mpr ⟨months, rfl,
        hreads.monthLength, hreads.monthDigits,
        (table.value_eq_number hreads.monthDigits).symm⟩,
      (matchDay_eq_some_iff table hdayLow hlast).mpr ⟨hreads.readsDay, rfl⟩⟩,
      hreal⟩

theorem reads_of_strict (table : DigitTable digit) {year month day : List Char}
    (hyear : year.length = 4) (hstrict : Strict year month day)
    (hday : IsDay (number year) (number month) (number day)) :
    Reads digit year month day := by
  obtain ⟨hmonthLength, hdayLength, hdigits⟩ := hstrict
  simp only [List.mem_append] at hdigits
  have hyears (char : Char) (h : char ∈ year) : char.isDigit = true :=
    hdigits char (.inl (.inl h))
  have hmonths (char : Char) (h : char ∈ month) : char.isDigit = true :=
    hdigits char (.inl (.inr h))
  have hdays (char : Char) (h : char ∈ day) : char.isDigit = true :=
    hdigits char (.inr h)
  refine ⟨hyear, fun char h => table.isSome (hyears char h), .inr hmonthLength,
    hmonths, ?_, ?_⟩
  · match day, hdayLength with
    | [first, second], _ =>
        exact .inr ⟨.inr (hdays first (by simp)), hdays second (by simp)⟩
  · rw [table.value_eq_number hyears, table.value_eq_number hmonths,
      table.value_eq_number hdays]
    exact hday

/-- What is accepted is spelled `YYYY-MM-DD`, or loosely. -/
theorem strptime_accepts_iff (table : DigitTable digit)
    {isPrintable : Char → Bool} {text : String} :
    (∃ date, strptime digit isPrintable text = .ok date) ↔
      IsoDate text ∨ LooseDate digit text := by
  rw [strptime_accepts_iff_reads table]
  constructor
  · rintro ⟨year, month, day, htext, hreads⟩
    by_cases hstrict : Strict year month day
    · refine .inl ⟨year, month, day, htext, hreads.yearLength, hstrict.1,
        hstrict.2.1, hstrict.2.2, ?_⟩
      obtain ⟨-, -, hdigits⟩ := hstrict
      have hday := hreads.isDay
      rwa [table.value_eq_number fun char h => hdigits char (by simp [h]),
        table.value_eq_number fun char h => hdigits char (by simp [h]),
        table.value_eq_number fun char h => hdigits char (by simp [h])] at hday
    · exact .inr ⟨year, month, day, htext, hreads, hstrict⟩
  · rintro (⟨year, month, day, htext, hyear, hmonth, hday, hdigits, hreal⟩ |
      ⟨year, month, day, htext, hreads, -⟩)
    · exact ⟨year, month, day, htext,
        reads_of_strict table hyear ⟨hmonth, hday, hdigits⟩ hreal⟩
    · exact ⟨year, month, day, htext, hreads⟩

theorem not_looseDate_of_isoDate {text : String} (h : IsoDate text) :
    ¬ LooseDate digit text := by
  rintro ⟨year, month, day, htext, hreads, hloose⟩
  obtain ⟨year', month', day', htext', hyear, hmonth, hday, hdigits, -⟩ := h
  rw [htext] at htext'
  obtain ⟨rfl, hrest⟩ := List.append_inj htext'
    (hreads.yearLength.trans hyear.symm)
  rw [List.cons.injEq, and_iff_right rfl] at hrest
  have hlength : month.length = 2 := by
    refine hreads.monthLength.resolve_left fun hone => ?_
    match month, hone, month', hmonth with
    | [only], _, [first, second], _ =>
        -- The hyphen would be the second digit of the month.
        simp only [List.cons_append, List.nil_append, List.cons.injEq] at hrest
        have hsecond := hdigits second (by simp)
        rw [← hrest.2.1] at hsecond
        cases hsecond
  obtain ⟨rfl, hdays⟩ := List.append_inj hrest (hlength.trans hmonth.symm)
  rw [List.cons.injEq, and_iff_right rfl] at hdays
  subst hdays
  exact hloose ⟨hmonth, hday, hdigits⟩

end

end PythonDate

end Flydocs.Foundation

import Flydocs.Foundation.PythonText

/-!
# Python dates

`datetime.strptime(text, "%Y-%m-%d")`.  A month or a day may have one digit, a
day may have a blank for the other, and a year may have the digits of any
script.
-/

namespace Flydocs.Foundation

namespace PythonDate

def isLeapYear (year : Nat) : Bool :=
  year % 4 = 0 && (year % 100 ≠ 0 || year % 400 = 0)

def daysInMonth (year month : Nat) : Nat :=
  if month = 2 then if isLeapYear year then 29 else 28
  else if month = 4 ∨ month = 6 ∨ month = 9 ∨ month = 11 then 30
  else 31

def IsDay (year month day : Nat) : Prop :=
  1 ≤ year ∧ year ≤ 9999 ∧ 1 ≤ month ∧ month ≤ 12 ∧
    1 ≤ day ∧ day ≤ daysInMonth year month

instance (year month day : Nat) : Decidable (IsDay year month day) :=
  inferInstanceAs (Decidable (_ ∧ _))

variable (digit : Char → Option (Fin 10))

def asciiValue (char : Char) : Nat := char.toNat - 48

/-- `\d\d\d\d-` -/
def matchYear : List Char → Option (Nat × List Char)
  | first :: second :: third :: fourth :: '-' :: rest => do
      let first ← digit first
      let second ← digit second
      let third ← digit third
      let fourth ← digit fourth
      some (first * 1000 + second * 100 + third * 10 + fourth.val, rest)
  | _ => none

/-- `(1[0-2]|0[1-9]|[1-9])-`: if an alternative before the last one matches, the
hyphen cannot follow the last one. -/
def matchMonth : List Char → Option (Nat × List Char)
  | '1' :: '0' :: '-' :: rest => some (10, rest)
  | '1' :: '1' :: '-' :: rest => some (11, rest)
  | '1' :: '2' :: '-' :: rest => some (12, rest)
  | '0' :: second :: '-' :: rest =>
      if second.isDigit ∧ second ≠ '0' then some (asciiValue second, rest)
      else none
  | first :: '-' :: rest =>
      if first.isDigit ∧ first ≠ '0' then some (asciiValue first, rest)
      else none
  | _ => none

/-- `3[0-1]|[1-2]\d|0[1-9]|[1-9]| [1-9]` -/
def matchDay (chars : List Char) : Option (Nat × List Char) :=
  match chars with
  | [] => none
  | [first] =>
      if first.isDigit ∧ first ≠ '0' then some (asciiValue first, []) else none
  | first :: second :: rest =>
      if first = '3' ∧ (second = '0' ∨ second = '1') then
        some (30 + asciiValue second, rest)
      else if (first = '1' ∨ first = '2') ∧ (digit second).isSome then
        some (asciiValue first * 10 + ((digit second).getD 0).val, rest)
      else if (first = '0' ∨ first = ' ') ∧ second.isDigit ∧ second ≠ '0' then
        some (asciiValue second, rest)
      else if first.isDigit ∧ first ≠ '0' then
        some (asciiValue first, second :: rest)
      else none

def matchDate (chars : List Char) : Option ((Nat × Nat × Nat) × List Char) := do
  let (year, rest) ← matchYear digit chars
  let (month, rest) ← matchMonth rest
  let (day, rest) ← matchDay digit rest
  some ((year, month, day), rest)

def strptime (isPrintable : Char → Bool) (text : String) :
    Except String (Nat × Nat × Nat) :=
  match matchDate digit text.toList with
  | none =>
      .error ("time data " ++ PythonText.repr isPrintable text ++
        " does not match format '%Y-%m-%d'")
  | some ((year, month, day), rest) =>
      if rest ≠ [] then
        .error ("unconverted data remains: " ++ String.ofList rest)
      else if IsDay year month day then .ok (year, month, day)
      else if year = 0 then .error "year 0 is out of range"
      else .error "day is out of range for month"

end PythonDate

end Flydocs.Foundation

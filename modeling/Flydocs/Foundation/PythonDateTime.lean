import Mathlib.Data.List.TakeDrop
import Mathlib.Tactic.Ring
import Flydocs.Foundation.PythonDate

/-!
# Python datetimes

Times with an offset from UTC, as `isoformat` writes them and `fromisoformat`
reads them.  Week dates are not read, and neither are texts without an offset.
-/

namespace Flydocs.Foundation

namespace PythonDateTime

/-! ## Numbers of a fixed width -/

/-- The last digits of a number, zeros in front. -/
def digits : Nat → Nat → List Char
  | 0, _ => []
  | width + 1, number =>
      Nat.digitChar (number / 10 ^ width % 10) :: digits width number

def readDigits : Nat → Nat → List Char → Option (Nat × List Char)
  | 0, read, rest => some (read, rest)
  | width + 1, read, char :: rest =>
      if char.isDigit then
        readDigits width (read * 10 + PythonDate.asciiValue char) rest
      else none
  | _ + 1, _, [] => none

def skip (separator : Char) (separated : Bool) :
    List Char → Option (List Char)
  | [] => if separated then none else some []
  | char :: rest =>
      if char = separator then if separated then some rest else none
      else if separated then none else some (char :: rest)

/-! ## Clocks -/

/-- Hours, minutes, seconds and microseconds: of a time, or of an offset. -/
structure Clock where
  hour : Nat
  minute : Nat := 0
  second : Nat := 0
  microsecond : Nat := 0
  deriving DecidableEq, Repr

namespace Clock

def microseconds (clock : Clock) : Nat :=
  ((clock.hour * 60 + clock.minute) * 60 + clock.second) * 1000000 +
    clock.microsecond

def ofMicroseconds (total : Nat) : Clock where
  hour := total / 3600000000
  minute := total / 60000000 % 60
  second := total / 1000000 % 60
  microsecond := total % 1000000

def fraction (microsecond : Nat) : List Char :=
  if microsecond = 0 then [] else '.' :: digits 6 microsecond

def seconds (clock : Clock) : List Char :=
  ':' :: (digits 2 clock.second ++ fraction clock.microsecond)

/-- The seconds of a time are always written, those of an offset if any. -/
def isoformat (always : Bool) (clock : Clock) : List Char :=
  digits 2 clock.hour ++ ':' :: (digits 2 clock.minute ++
    if always = true ∨ clock.second ≠ 0 ∨ clock.microsecond ≠ 0 then
      clock.seconds
    else [])

/-- At most six digits count, fewer are the first of six. -/
def readFraction : List Char → Option Nat
  | [] => some 0
  | char :: rest =>
      if (char = '.' ∨ char = ',') ∧ rest ≠ [] ∧ rest.all Char.isDigit then
        (readDigits (min 6 rest.length) 0 rest).map fun (number, _) =>
          number * 10 ^ (6 - min 6 rest.length)
      else none

def read (chars : List Char) : Option Clock := do
  let (hour, rest) ← readDigits 2 0 chars
  if rest = [] then return { hour }
  let separated := rest.head? = some ':'
  let (minute, rest) ← (skip ':' separated rest).bind (readDigits 2 0)
  if rest = [] then return { hour, minute }
  let (second, rest) ← (skip ':' separated rest).bind (readDigits 2 0)
  let microsecond ← readFraction rest
  return { hour, minute, second, microsecond }

def OfDay (clock : Clock) : Prop :=
  clock.hour < 24 ∧ clock.minute < 60 ∧ clock.second < 60 ∧
    clock.microsecond < 1000000

instance (clock : Clock) : Decidable clock.OfDay :=
  inferInstanceAs (Decidable (_ ∧ _))

end Clock

end PythonDateTime

/-! ## Datetimes -/

open PythonDateTime

/-- The offset is in microseconds, east of UTC. -/
structure PythonDateTime where
  year : Nat
  month : Nat
  day : Nat
  clock : Clock
  offset : Int
  isDay : PythonDate.IsDay year month day
  ofDay : clock.OfDay
  offset_lt : offset.natAbs < 86400000000
  deriving DecidableEq

namespace PythonDateTime

def startsOffset (char : Char) : Bool :=
  char = '+' || char = '-' || char = 'Z'

/-- What is after the date in a text, split before its offset. -/
def splitOffset (chars : List Char) : List Char × List Char :=
  chars.span fun char => !startsOffset char

def offsetFormat (offset : Int) : List Char :=
  (if offset < 0 then '-' else '+') ::
    (Clock.ofMicroseconds offset.natAbs).isoformat false

def isoformat (time : PythonDateTime) : String :=
  String.ofList (digits 4 time.year ++ '-' :: (digits 2 time.month ++
    '-' :: (digits 2 time.day ++
      'T' :: (time.clock.isoformat true ++ offsetFormat time.offset))))

def readOffset : List Char → Option Int
  | ['Z'] => some 0
  | '+' :: rest => (Clock.read rest).map fun clock => clock.microseconds
  | '-' :: rest => (Clock.read rest).map fun clock => -clock.microseconds
  | _ => none

def readDate (chars : List Char) :
    Option ((Nat × Nat × Nat) × List Char) := do
  let (year, rest) ← readDigits 4 0 chars
  let separated := rest.head? = some '-'
  let (month, rest) ← (skip '-' separated rest).bind (readDigits 2 0)
  let (day, rest) ← (skip '-' separated rest).bind (readDigits 2 0)
  return ((year, month, day), rest)

def ofParts (year month day : Nat) (clock : Clock) (offset : Int) :
    Option PythonDateTime :=
  if h : PythonDate.IsDay year month day ∧ clock.OfDay ∧
      offset.natAbs < 86400000000 then
    some ⟨year, month, day, clock, offset, h.1, h.2.1, h.2.2⟩
  else none

def fromisoformat (text : String) : Option PythonDateTime := do
  let ((year, month, day), rest) ← readDate text.toList
  let (time, zone) := splitOffset (rest.drop 1)
  let clock ← Clock.read time
  let offset ← readOffset zone
  ofParts year month day clock offset

/-! ## Reading back -/

def daysBeforeYear (year : Nat) : Nat :=
  (year - 1) * 365 + (year - 1) / 4 - (year - 1) / 100 + (year - 1) / 400

def daysBeforeMonth (year month : Nat) : Nat :=
  ((List.range (month - 1)).map fun before =>
    PythonDate.daysInMonth year (before + 1)).sum

/-- Microseconds since the epoch. -/
def timestamp (time : PythonDateTime) : Int :=
  let days : Int := daysBeforeYear time.year +
    daysBeforeMonth time.year time.month + time.day - 719163
  days * 86400000000 + time.clock.microseconds - time.offset

def leapDay : PythonDateTime where
  year := 2024
  month := 2
  day := 29
  clock := { hour := 0, minute := 10, microsecond := 5000 }
  offset := 5400000000
  isDay := by decide
  ofDay := by decide
  offset_lt := by decide

example : leapDay.isoformat = "2024-02-29T00:10:00.005000+01:30" ∧
    leapDay.timestamp = 1709160000005000 := by
  decide +kernel

end PythonDateTime

end Flydocs.Foundation

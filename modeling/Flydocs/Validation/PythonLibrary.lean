import Flydocs.Dtos.Extracted
import Flydocs.Foundation.PythonNumber
import Flydocs.Foundation.PythonText

/-!
# What the checks take from Python

Extracted values as texts and as floats, and the library routines that parse
them.  Where a routine is documented to raise `ValueError` only, its failure is
the text of that error.
-/

namespace Flydocs

open Foundation Dtos

inductive PyException where
  | valueError (text : String)
  | typeError
  | attributeError
  | overflowError
  | indexError
  | keyError
  | other
  deriving DecidableEq, Repr

inductive PyFloat where
  | finite (value : Rat)
  | inf
  | negInf
  | nan
  deriving DecidableEq, Repr

namespace PyFloat

def lt : PyFloat → PyFloat → Bool
  | finite first, finite second => first < second
  | negInf, finite _ | negInf, inf | finite _, inf => true
  | _, _ => false

def le : PyFloat → PyFloat → Bool
  | nan, _ | _, nan => false
  | first, second => !lt second first

end PyFloat

/-- How `re.compile` fails: with `re.error`, or with something else. -/
inductive CompileFailure where
  | reError (text : String)
  | other

inductive LoadOutcome where
  | ok
  | invalid
  | other
  deriving DecidableEq

structure ParseResult where
  scheme : String
  netloc : String

/-- The Unicode tables are those beyond ASCII.  `fieldsText` fails where a
number in the fields has too many digits. -/
structure PythonLibrary where
  isPrintable : Char → Bool
  decimal : Char → Option (Fin 10)
  isAlpha : Char → Bool
  upper : Char → List Char
  lower : String → String
  floatText : Rat → String
  fieldsText : List ExtractedField → Option String
  float : String → Option PyFloat
  compile : String → Except CompileFailure (String → Bool)
  dateFromIso : String → Except String Unit
  datetimeFromIso : String → Except String Unit
  timeFromIso : String → Except String Unit
  urlparse : String → Except String ParseResult
  uuid : String → Except String Unit
  ipv4Address : String → Except String Unit
  ipv6Address : String → Except String Unit
  loads : String → LoadOutcome

namespace PythonLibrary

variable (library : PythonLibrary)

/-! ## Characters -/

def isAscii (char : Char) : Bool := char.toNat < 128

def digit (char : Char) : Option (Fin 10) :=
  if isAscii char then
    if char.isDigit then some (Fin.ofNat 10 (char.toNat - 48)) else none
  else library.decimal char

def isDecimal (char : Char) : Bool := (library.digit char).isSome

def isAlphabetic (char : Char) : Bool :=
  if isAscii char then char.isAlpha else library.isAlpha char

def upperChar (char : Char) : List Char :=
  if isAscii char then [char.toUpper] else library.upper char

def upperText (text : String) : String :=
  String.ofList (text.toList.flatMap library.upperChar)

/-! ## Numbers -/

/-- Past the largest integer that is converted to a text, which has 4300
digits. -/
@[irreducible] def digitsBound : Nat := 10 ^ 4300

def tooManyDigits : PyException :=
  .valueError ("Exceeds the limit (4300 digits) for integer string " ++
    "conversion; use sys.set_int_max_str_digits() to increase the limit")

def intOfDigits (text : List Char) : Except PyException Nat :=
  match text with
  | [] => .error (.valueError "invalid literal for int() with base 10: ''")
  | _ =>
      if text.all library.isDecimal then
        if text.length ≤ 4300 then
          .ok (text.foldl (fun number char =>
            10 * number + ((library.digit char).getD 0).val) 0)
        else .error tooManyDigits
      else .error (.valueError "invalid literal for int() with base 10")

def intBase36 (char : Char) : Except PyException Nat :=
  if isAscii char && char.isAlpha then .ok (char.toUpper.toNat - 55)
  else
    match library.digit char with
    | some value => .ok value.val
    | none => .error (.valueError "invalid literal for int() with base 36")

def floatOf : FieldValue → Except PyException PyFloat
  | .null | .list _ => .error .typeError
  | .bool flag => .ok (.finite (if flag then 1 else 0))
  | .int number =>
      match PythonNumber.floatOfInt number with
      | some value => .ok (.finite value)
      | none => .error .overflowError
  | .float number => .ok (.finite number)
  | .str text =>
      match library.float text with
      | some value => .ok value
      | none => .error (.valueError "could not convert string to float")

/-! ## Texts -/

def floatRepr : PyFloat → String
  | .finite value => library.floatText value
  | .inf => "inf"
  | .negInf => "-inf"
  | .nan => "nan"

def reprText (text : String) : String := PythonText.repr library.isPrintable text

def intRepr (number : Int) : Except PyException String :=
  if number.natAbs < digitsBound then .ok (toString number)
  else .error tooManyDigits

def boolRepr (flag : Bool) : String := if flag then "True" else "False"

def repr : FieldValue → Except PyException String
  | .null => .ok "None"
  | .str text => .ok (library.reprText text)
  | .int number => intRepr number
  | .float number => .ok (library.floatText number)
  | .bool flag => .ok (boolRepr flag)
  | .list items =>
      match library.fieldsText items with
      | some text => .ok text
      | none => .error tooManyDigits

def str : FieldValue → Except PyException String
  | .str text => .ok text
  | value => library.repr value

mutual

def reprJson : JsonValue → Except PyException String
  | .null => .ok "None"
  | .bool flag => .ok (boolRepr flag)
  | .int number => intRepr number
  | .float number => .ok (library.floatText number)
  | .str text => .ok (library.reprText text)
  | .arr items => do return "[" ++ ", ".intercalate (← reprItems items) ++ "]"
  | .obj members => do
      return "\x7b" ++ ", ".intercalate (← reprMembers members) ++ "\x7d"

def reprItems : List JsonValue → Except PyException (List String)
  | [] => .ok []
  | item :: items => do return (← reprJson item) :: (← reprItems items)

def reprMembers :
    List (String × JsonValue) → Except PyException (List String)
  | [] => .ok []
  | (key, item) :: members => do
      return (library.reprText key ++ ": " ++ (← reprJson item)) ::
        (← reprMembers members)

end

def Printable (value : FieldValue) : Prop :=
  match value with
  | .int number => number.natAbs < digitsBound
  | .list items => (library.fieldsText items).isSome = true
  | _ => True

/-- A library for texts in ASCII that knows one pattern and no numbers, dates or
documents; a bracket in a url is never closed. -/
def ascii : PythonLibrary where
  isPrintable _ := false
  decimal _ := none
  isAlpha _ := false
  upper char := [char]
  lower text := text.toLower
  floatText _ := "0.0"
  fieldsText _ := some "[]"
  float _ := none
  compile pattern :=
    if pattern = "[a-z]+" then
      .ok fun text => text ≠ "" && text.toList.all Char.isLower
    else .error (.reError "nothing to repeat at position 0")
  dateFromIso _ := .error "Invalid isoformat string"
  datetimeFromIso _ := .error "Invalid isoformat string"
  timeFromIso _ := .error "Invalid isoformat string"
  urlparse text :=
    if '[' ∈ text.toList then .error "Invalid IPv6 URL" else .ok ⟨"", ""⟩
  uuid _ := .error "badly formed hexadecimal UUID string"
  ipv4Address _ := .error "Expected 4 octets"
  ipv6Address _ := .error "At least 3 parts expected"
  loads _ := .invalid

section

variable {library : PythonLibrary} {value : FieldValue}

theorem exists_repr_iff :
    (∃ text, library.repr value = .ok text) ↔ library.Printable value := by
  cases value with
  | int number =>
      simp only [repr, intRepr, Printable]
      split <;> simp_all
  | list items =>
      simp only [repr, Printable]
      cases library.fieldsText items <;> simp
  | _ => simp [repr, Printable]

theorem exists_str_iff :
    (∃ text, library.str value = .ok text) ↔ library.Printable value := by
  cases value with
  | str text => simp [str, Printable]
  | _ => simpa only [str] using exists_repr_iff

theorem repr_of_not_printable (h : ¬ library.Printable value) :
    library.repr value = .error tooManyDigits := by
  cases value with
  | int number => exact if_neg h
  | list items =>
      simp only [Printable, Option.not_isSome_iff_eq_none] at h
      simp [repr, h]
  | _ => exact absurd trivial h

theorem str_of_not_printable (h : ¬ library.Printable value) :
    library.str value = .error tooManyDigits := by
  cases value with
  | str text => exact absurd trivial h
  | _ => exact repr_of_not_printable h

end

end PythonLibrary

end Flydocs

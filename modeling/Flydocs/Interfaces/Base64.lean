import Mathlib.Data.List.Infix
import Flydocs.Workers.RetryPolicy

/-!
# Lenient base64 decoding

`base64.b64decode` without `validate`: a character outside the alphabet is
skipped, and decoding stops at the padding that completes a quantum.  With
`validate` nothing is skipped and nothing may follow the padding.
-/

namespace Flydocs

namespace Base64

def valueError (message : String) : Failure where
  isValueError := true
  isTypeError := false
  message := message
  loweredMessage := message.toLower

def value? (char : Char) : Option Nat :=
  let code := char.toNat
  if 65 ≤ code ∧ code ≤ 90 then some (code - 65)
  else if 97 ≤ code ∧ code ≤ 122 then some (code - 97 + 26)
  else if 48 ≤ code ∧ code ≤ 57 then some (code - 48 + 52)
  else if code = 43 then some 62
  else if code = 47 then some 63
  else none

/--
Where the decoder stands: `quadPos` characters of the current quantum were
read, `leftchar` holds the bits of the last one that no byte has yet, and
`pads` counts the padding since.
-/
structure Quantum where
  quadPos : Nat
  leftchar : Nat
  pads : Nat
  deriving DecidableEq, Repr

def Quantum.push (quantum : Quantum) (bits : Nat) : Quantum × List UInt8 :=
  match quantum.quadPos with
  | 0 => (⟨1, bits, 0⟩, [])
  | 1 => (⟨2, bits % 16, 0⟩, [UInt8.ofNat (quantum.leftchar * 4 + bits / 16)])
  | 2 => (⟨3, bits % 4, 0⟩, [UInt8.ofNat (quantum.leftchar * 16 + bits / 4)])
  | _ => (⟨0, 0, 0⟩, [UInt8.ofNat (quantum.leftchar * 64 + bits)])

/-- `binascii.a2b_base64`; `decoded` is what came out so far, in reverse. -/
def a2bBase64 (quantum : Quantum) (decoded : List UInt8) :
    List Char → Except Failure (List UInt8)
  | [] =>
      if quantum.quadPos = 0 then .ok decoded.reverse
      else if quantum.quadPos = 1 then
        .error (valueError ("Invalid base64-encoded string: number of data " ++
          "characters (" ++ toString (decoded.length / 3 * 4 + 1) ++
          ") cannot be 1 more than a multiple of 4"))
      else .error (valueError "Incorrect padding")
  | char :: chars =>
      if char = '=' then
        if quantum.quadPos < 2 then a2bBase64 quantum decoded chars
        else if 4 ≤ quantum.quadPos + (quantum.pads + 1) then
          .ok decoded.reverse
        else a2bBase64 { quantum with pads := quantum.pads + 1 } decoded chars
      else
        match value? char with
        | none => a2bBase64 quantum decoded chars
        | some bits =>
            let (quantum, bytes) := quantum.push bits
            a2bBase64 quantum (bytes ++ decoded) chars

/-- `binascii.a2b_base64` in strict mode; `padded` once a `=` was seen. -/
def a2bBase64Strict (quantum : Quantum) (padded : Bool) (decoded : List UInt8) :
    List Char → Except Failure (List UInt8)
  | [] => a2bBase64 quantum decoded []
  | char :: chars =>
      if char = '=' then
        if quantum.quadPos = 0 then
          .error (valueError (if decoded = [] then "Leading padding not allowed"
            else "Excess data after padding"))
        else if quantum.quadPos = 1 then
          a2bBase64Strict quantum true decoded chars
        else if 4 ≤ quantum.quadPos + (quantum.pads + 1) then
          if chars = [] then .ok decoded.reverse
          else .error (valueError "Excess data after padding")
        else
          a2bBase64Strict { quantum with pads := quantum.pads + 1 } true
            decoded chars
      else
        match value? char with
        | none => .error (valueError "Only base64 data is allowed")
        | some bits =>
            if padded then
              .error (valueError "Discontinuous padding not allowed")
            else
              let (quantum, bytes) := quantum.push bits
              a2bBase64Strict quantum false (bytes ++ decoded) chars

def b64decode (text : String) : Except Failure (List UInt8) :=
  if text.toList.all (·.toNat < 128) then a2bBase64 ⟨0, 0, 0⟩ [] text.toList
  else .error (valueError
    "string argument should contain only ASCII characters")

def b64decodeStrict (text : String) : Except Failure (List UInt8) :=
  if text.toList.all (·.toNat < 128) then
    a2bBase64Strict ⟨0, 0, 0⟩ false [] text.toList
  else .error (valueError
    "string argument should contain only ASCII characters")

theorem not_mem_of_a2bBase64Strict {char : Char} (hpad : char ≠ '=')
    (hvalue : value? char = none) {quantum : Quantum} {padded : Bool}
    {decoded bytes : List UInt8} {chars : List Char}
    (h : a2bBase64Strict quantum padded decoded chars = .ok bytes) :
    char ∉ chars := by
  induction chars generalizing quantum padded decoded with
  | nil => simp
  | cons first chars ih =>
      rw [a2bBase64Strict] at h
      have hne : char ≠ first := by
        rintro rfl
        simp [hpad, hvalue] at h
      have htail : char ∉ chars := by
        split at h
        · split at h
          · cases h
          · split at h
            · exact ih h
            · split at h
              · split at h
                · simp_all
                · cases h
              · exact ih h
        · split at h
          · cases h
          · split at h
            · cases h
            · exact ih h
      simp [hne, htail]

/-- Nothing outside the alphabet and the padding passes the strict decoder. -/
theorem not_mem_of_b64decodeStrict {text : String} {bytes : List UInt8}
    (h : b64decodeStrict text = .ok bytes) {char : Char} (hpad : char ≠ '=')
    (hvalue : value? char = none) : char ∉ text.toList := by
  unfold b64decodeStrict at h
  split at h
  · exact not_mem_of_a2bBase64Strict hpad hvalue h
  · cases h

end Base64

end Flydocs

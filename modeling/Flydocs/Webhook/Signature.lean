import Mathlib.Data.Vector.Defs
import Flydocs.Foundation.PythonText

/-!
# Webhook signatures

The publisher signs a body with HMAC-SHA256, and two SDKs check the header by
hand.  The HMAC is a parameter; so are the case mappings outside ASCII, of
which `UnicodeTables.Standard` states what the letters of `sha256` need.
-/

namespace Flydocs

open Foundation

namespace Webhook

/-! ## What the standard libraries supply -/

abbrev Hmac := (secret body : List UInt8) → Vector UInt8 32

/-- Tables for code points outside ASCII: of `repr` and `str.lower`, and of
`Character.toUpperCase` and `Character.toLowerCase`. -/
structure UnicodeTables where
  isPrintable : Char → Bool
  lower : Char → List Char
  toUpperCase : Char → Char
  toLowerCase : Char → Char

def isAscii (char : Char) : Bool := decide (char.toNat < 128)

namespace UnicodeTables

variable (tables : UnicodeTables)

def lowerText (text : List Char) : List Char :=
  text.flatMap fun char =>
    if isAscii char then [char.toLower] else tables.lower char

def javaUpper (char : Char) : Char :=
  if isAscii char then char.toUpper else tables.toUpperCase char

def javaLower (char : Char) : Char :=
  if isAscii char then char.toLower else tables.toLowerCase char

/-- `String.equalsIgnoreCase`, character by character. -/
def equalsIgnoreCase (first second : List Char) : Bool :=
  decide (first.length = second.length) &&
    (first.zip second).all fun (char, other) =>
      decide (char = other) ||
      decide (tables.javaUpper char = tables.javaUpper other) ||
      decide (tables.javaLower (tables.javaUpper char) =
        tables.javaLower (tables.javaUpper other))

/--
What both standards say about the letters of `sha256`: no other code point
lowers to them, and only the long s is an upper-case `S`.
-/
structure Standard : Prop where
  lower_foreign (char : Char) : isAscii char = false →
    ∃ other ∈ tables.lower char, other ∉ "sha256".toList
  longS : tables.toUpperCase 'ſ' = 'S'
  fold_foreign (char : Char) : isAscii char = false → char ≠ 'ſ' →
    tables.javaLower (tables.javaUpper char) ∉ "sha256".toList

end UnicodeTables

def hexdigest (digest : Vector UInt8 32) : List Char :=
  digest.toList.flatMap fun byte => PythonText.hexDigits 2 byte.toNat

def encode (text : String) : List UInt8 := text.toUTF8.toList

variable (hmac : Hmac) (tables : UnicodeTables)

def expectedSignature (secret : String) (body : List UInt8) : List Char :=
  hexdigest (hmac (encode secret) body)

/-! ## Publisher -/

structure WebhookPublisher where
  hmacSecret : String
  signatureScheme : String := "sha256"

/-- The signature header of a delivery; without a secret there is none. -/
def WebhookPublisher.signatureHeader (self : WebhookPublisher)
    (body : List UInt8) : Option String :=
  if self.hmacSecret = "" then none
  else some (self.signatureScheme ++ "=" ++
    String.ofList (expectedSignature hmac self.hmacSecret body))

/-! ## Verifiers -/

/-- How a signature check ends: `rejected` is the verification error of the
SDK, `raised` any other exception. -/
inductive SignatureCheck where
  | accepted
  | rejected (message : String)
  | raised (message : String)
  deriving DecidableEq, Repr

structure PythonVerifier where
  secret : String
  secret_ne_empty : secret ≠ ""
  headerScheme : String := "sha256"

def partition (text : List Char) : List Char × List Char :=
  (text.takeWhile (· ≠ '='), (text.dropWhile (· ≠ '=')).tail)

def compareDigest (candidate expected : List Char) : SignatureCheck :=
  if candidate.all isAscii then
    if candidate = expected then .accepted
    else .rejected "signature mismatch"
  else .raised
    "comparing strings with non-ASCII characters is not supported"

def PythonVerifier.verify (self : PythonVerifier) (body : List UInt8)
    (signatureHeader : String) : SignatureCheck :=
  if signatureHeader = "" then .rejected "signature header missing"
  else
    let provided :=
      PythonText.stripWhile PythonText.isSpace signatureHeader.toList
    let expected := expectedSignature hmac self.secret body
    if '=' ∈ provided then
      let (scheme, candidate) := partition provided
      if tables.lowerText scheme ≠
          tables.lowerText self.headerScheme.toList then
        .rejected ("unsupported signature scheme: " ++
          PythonText.repr tables.isPrintable (String.ofList scheme))
      else compareDigest candidate expected
    else compareDigest provided expected

structure JavaVerifier where
  secret : String
  secret_ne_empty : secret ≠ ""

/-- `String.trim` cuts off everything up to the blank. -/
def isTrimmed (char : Char) : Bool := decide (char.toNat ≤ 32)

/-- `getBytes(US_ASCII)`: what ASCII does not have becomes a question mark. -/
def asciiBytes (text : List Char) : List Char :=
  text.map fun char => if isAscii char then char else '?'

def JavaVerifier.verify (self : JavaVerifier) (body : List UInt8)
    (signatureHeader : String) : SignatureCheck :=
  if signatureHeader = "" then .rejected "signature header missing"
  else
    let header := signatureHeader.toList
    let expected := expectedSignature hmac self.secret body
    let isEqual := fun candidate =>
      if asciiBytes candidate = asciiBytes expected then
        SignatureCheck.accepted
      else .rejected "signature mismatch"
    if '=' ∈ header then
      let (scheme, candidate) := partition header
      if tables.equalsIgnoreCase "sha256".toList scheme then
        isEqual (PythonText.stripWhile isTrimmed candidate)
      else .rejected ("unsupported signature scheme: " ++ String.ofList scheme)
    else isEqual (PythonText.stripWhile isTrimmed header)

end Webhook

end Flydocs

import Flydocs.Extraction.Schema
import Flydocs.Foundation.Regex
import Flydocs.Validation.PythonLibrary

/-!
# The validator registry

One checker for every validator type: nothing where the value is accepted, and
else the message that the field validator records.
-/

namespace Flydocs

open Foundation Dtos JsonValue

abbrev Checker := FieldValue → Members → Except PyException (Option String)

namespace ValidatorRegistry

/-! ## Letters -/

def digitClass (char : Char) : Bool := char.isDigit

def upperClass (char : Char) : Bool := char.isUpper

def lowerClass (char : Char) : Bool := char.isLower

def letterClass (char : Char) : Bool := char.isAlpha

def alnumClass (char : Char) : Bool := char.isAlphanum

def oneOf (letters : String) (char : Char) : Bool := char ∈ letters.toList

def letterIgnoringCase (char : Char) : Bool :=
  char.isAlpha || oneOf "\u0130\u0131\u017f\u212a" char

abbrev Shape := Regex Char

def literal (text : String) : Shape :=
  text.toList.foldr (fun letter rest => .seq (.char (· = letter)) rest) .eps

def concat : List Shape → Shape
  | [] => .eps
  | [shape] => shape
  | shape :: shapes => .seq shape (concat shapes)

def fullmatch (shape : Shape) (text : String) : Bool :=
  shape.fullmatch text.toList

variable (library : PythonLibrary)

def decimal : Shape := .char library.isDecimal

/-! ## Low-level helpers -/

def complain (value : FieldValue) (complaint : String) :
    Except PyException (Option String) := do
  return some ((← library.repr value) ++ complaint)

/-- The stripped text, or the message that there is none. -/
def needStr : FieldValue → Except String String
  | .str text =>
      if PythonText.strip text = "" then
        .error "value must be a non-empty string"
      else .ok (PythonText.strip text)
  | _ => .error "value must be a non-empty string"

def withText (value : FieldValue)
    (check : String → Except PyException (Option String)) :
    Except PyException (Option String) :=
  match needStr value with
  | .error message => .ok (some message)
  | .ok text => check text

def checkShape (shape : Shape) (complaint : String)
    (prepare : String → String) : Checker := fun value _ =>
  withText value fun text =>
    if fullmatch shape (prepare text) then .ok none
    else complain library value complaint

/-- `str(value)` has to be parsed, all of it inside the `try`. -/
def checkParsed (parse : String → Except String Unit) (complaint : String) :
    Checker := fun value _ =>
  match library.str value with
  | .ok text =>
      match parse text with
      | .ok () => .ok none
      | .error _ => complain library value complaint
  | .error (.valueError _) => complain library value complaint
  | .error failure => .error failure

/-- `str(value)` has to be parsed, and is taken before the `try`. -/
def checkIso (parse : String → Except String Unit) (complaint : String) :
    Checker := fun value _ => do
  let raw ← library.str value
  match parse raw with
  | .ok () => return none
  | .error _ => complain library value complaint

/-! ## Network and web -/

def checkEmail : Checker :=
  checkShape library
    (concat [.plus (.char fun char => alnumClass char || oneOf "._%+-" char),
      literal "@", .plus (.char fun char => alnumClass char || oneOf ".-" char),
      literal ".", .exactly 2 (.char letterClass), .star (.char letterClass)])
    " is not a valid email address" id

def checkUri : Checker := fun value _ =>
  withText value fun text =>
    match library.urlparse text with
    | .error failure => .error (.valueError failure)
    | .ok parsed =>
        if parsed.scheme = "" ∨ parsed.netloc = "" then
          complain library value " is not a valid URI (missing scheme or host)"
        else .ok none

def domainLabel : Shape :=
  .seq (.char alnumClass)
    (.optional (.seq
      (.atMost 61 (.char fun char => alnumClass char || char = '-'))
      (.char alnumClass)))

/-- The lookahead bounds the length; no label has a line break. -/
def checkDomain : Checker := fun value _ =>
  withText value fun text =>
    if text.length ≤ 253 && fullmatch
        (.seq domainLabel (.plus (.seq (literal ".") domainLabel))) text then
      .ok none
    else complain library value " is not a valid domain name"

def slugClass (char : Char) : Bool := lowerClass char || digitClass char

def checkSlug : Checker :=
  checkShape library
    (.seq (.plus (.char slugClass))
      (.star (.seq (literal "-") (.plus (.char slugClass)))))
    " is not a valid slug" id

def checkIpv4 : Checker :=
  checkParsed library library.ipv4Address " is not a valid IPv4 address"

def checkIpv6 : Checker :=
  checkParsed library library.ipv6Address " is not a valid IPv6 address"

/-! ## Temporal -/

def checkDate : Checker :=
  checkIso library library.dateFromIso " is not a valid ISO date (YYYY-MM-DD)"

def checkDatetime : Checker :=
  checkIso library library.datetimeFromIso " is not a valid ISO datetime"

def checkTime : Checker :=
  checkIso library library.timeFromIso " is not a valid ISO time"

/-! ## Identifiers and encoding -/

def checkUuid : Checker :=
  checkParsed library library.uuid " is not a valid UUID"

def checkJson : Checker := fun value _ =>
  match value with
  | .list _ => .ok none
  | _ =>
      match library.str value with
      | .ok text =>
          match library.loads text with
          | .ok => .ok none
          | .invalid => complain library value " is not valid JSON"
          | .other => .error .other
      | .error (.valueError _) => complain library value " is not valid JSON"
      | .error failure => .error failure

def hexClass (char : Char) : Bool := digitClass char || oneOf "abcdefABCDEF" char

def checkHexColor : Checker :=
  checkShape library
    (.seq (.optional (literal "#"))
      (.alt (.exactly 3 (.char hexClass))
        (.alt (.exactly 6 (.char hexClass)) (.exactly 8 (.char hexClass)))))
    " is not a valid hex colour" id

/-! ## Finance -/

def ibanShape : Shape :=
  concat [.exactly 2 (.char upperClass), .exactly 2 (decimal library),
    .between 10 30 (.char fun char => upperClass char || digitClass char)]

/-- A letter stands for the number that it is in base 36. -/
def ibanDigits (char : Char) : Except PyException (List Char) :=
  if library.isAlphabetic char then do
    return (toString (← library.intBase36 char)).toList
  else return [char]

def checkIban : Checker := fun value _ =>
  withText value fun text => do
    let candidate := library.upperText
      (String.ofList (text.toList.filter fun char => !PythonText.isSpace char))
    if fullmatch (ibanShape library) candidate then
      let letters := candidate.toList
      let numeric ←
        (letters.drop 4 ++ letters.take 4).mapM (ibanDigits library)
      let number ← library.intOfDigits numeric.flatten
      if number % 97 = 1 then return none
      else complain library value " fails the IBAN checksum"
    else complain library value " is not a syntactically valid IBAN"

def checkBic : Checker :=
  checkShape library
    (concat [.exactly 4 (.char upperClass), .exactly 2 (.char upperClass),
      .exactly 2 (.char fun char => upperClass char || digitClass char),
      .optional
        (.exactly 3 (.char fun char => upperClass char || digitClass char))])
    " is not a valid BIC/SWIFT code" library.upperText

def intOfChar (char : Char) : Except PyException Nat :=
  library.intOfDigits [char]

def luhnChecksum (digits : List Nat) : Nat :=
  let parity := digits.length % 2
  (digits.zipIdx.map fun (digit, index) =>
    if index % 2 = parity then
      if 9 < digit * 2 then digit * 2 - 9 else digit * 2
    else digit).sum

def checkCreditCard : Checker := fun value _ => do
  let raw := (← library.str value).toList.filter library.isDecimal
  if 13 ≤ raw.length ∧ raw.length ≤ 19 then
    let digits ← raw.mapM (intOfChar library)
    if luhnChecksum digits % 10 ≠ 0 then
      complain library value " fails the Luhn checksum"
    else return none
  else
    complain library value " is not a credit card length (13-19 digits)"

def iso4217 : List String :=
  ["USD", "EUR", "GBP", "JPY", "CHF", "AUD", "CAD", "CNY", "SEK", "NZD", "MXN",
    "SGD", "HKD", "NOK", "KRW", "TRY", "RUB", "INR", "BRL", "ZAR", "AED", "ARS",
    "BGN", "CLP", "COP", "CZK", "DKK", "EGP", "HRK", "HUF", "IDR", "ILS", "ISK",
    "MAD", "MYR", "NGN", "PEN", "PHP", "PLN", "QAR", "RON", "SAR", "THB", "TWD",
    "UAH", "VND"]

def checkCurrencyCode : Checker := fun value _ =>
  withText value fun text =>
    if library.upperText text ∈ iso4217 then .ok none
    else
      complain library value " is not a recognised ISO 4217 currency code"

def flag (key : String) (params : Members) : Bool :=
  Schema.truthy ((lookup key params).getD (.bool false))

/-- A number that `float` reads, inside the `try`. -/
def withFloat (value : FieldValue) (complaint : String)
    (check : PyFloat → Except PyException (Option String)) :
    Except PyException (Option String) :=
  match library.floatOf value with
  | .ok number => check number
  | .error .typeError | .error (.valueError _) =>
      complain library value complaint
  | .error failure => .error failure

def checkAmount : Checker := fun value params =>
  withFloat library value " is not a number" fun number =>
    if !flag "allow_zero" params && number = .finite 0 then
      complain library value " amount must be non-zero"
    else if !flag "allow_negative" params && number.lt (.finite 0) then
      complain library value " amount must be positive"
    else .ok none

/-! ## Telephony -/

def checkPhoneE164 : Checker := fun value _ => do
  let raw := (← library.str value).toList.filter fun char =>
    !(PythonText.isSpace char || oneOf "-()" char)
  if (concat [.optional (literal "+"), .char (oneOf "123456789"),
      .between 6 14 (decimal library)] : Shape).fullmatch raw then return none
  else complain library value " is not a valid E.164 phone number"

/-! ## Geographic -/

def checkCountryCode : Checker :=
  checkShape library (.exactly 2 (.char upperClass))
    " is not a valid ISO 3166-1 alpha-2 country code" library.upperText

def checkLanguageCode : Checker :=
  checkShape library (.exactly 2 (.char lowerClass))
    " is not a valid ISO 639-1 language code" library.lower

def countryOf (params : Members) (default : String) :
    Except PyException String :=
  match lookup "country" params with
  | none => .ok (library.upperText default)
  | some json =>
      if Schema.truthy json then
        match json with
        | .str country => .ok (library.upperText country)
        | _ => .error .attributeError
      else .ok (library.upperText default)

def postalPattern : String → Shape
  | "ES" | "FR" | "DE" | "IT" => .exactly 5 (decimal library)
  | "GB" =>
      concat [.between 1 2 (.char letterIgnoringCase), decimal library,
        .optional (.char fun char =>
          letterIgnoringCase char || library.isDecimal char),
        .optional (.char PythonText.isSpace), decimal library,
        .exactly 2 (.char letterIgnoringCase)]
  | "US" =>
      .seq (.exactly 5 (decimal library))
        (.optional (.seq (literal "-") (.exactly 4 (decimal library))))
  | "PT" =>
      concat [.exactly 4 (decimal library), literal "-",
        .exactly 3 (decimal library)]
  | "NL" =>
      concat [.exactly 4 (decimal library), .optional (.char PythonText.isSpace),
        .exactly 2 (.char letterIgnoringCase)]
  | "BE" => .exactly 4 (decimal library)
  | "BR" =>
      concat [.exactly 5 (decimal library), .optional (literal "-"),
        .exactly 3 (decimal library)]
  | _ => .between 2 12 (.char fun char =>
      letterIgnoringCase char || digitClass char || oneOf "- " char)

def checkPostalCode : Checker := fun value params =>
  withText value fun text => do
    let country ← countryOf library params ""
    if fullmatch (postalPattern library country) text then return none
    else
      complain library value (" is not a valid postal code for " ++
        if country = "" then "unknown country" else country)

def checkCoordinate (name : String) (bound : Rat) (range : String) : Checker :=
  fun value _ =>
    withFloat library value " is not numeric" fun number =>
      if (PyFloat.finite (-bound)).le number && number.le (.finite bound) then
        .ok none
      else
        .ok (some
          (name ++ " " ++ library.floatRepr number ++ " is outside " ++ range))

def checkLatitude : Checker :=
  checkCoordinate library "latitude" 90 "[-90, 90]"

def checkLongitude : Checker :=
  checkCoordinate library "longitude" 180 "[-180, 180]"

/-! ## National identifiers -/

def nifLetters : List Char := "TRWAGMYFPDXBNJZSQVHLCKE".toList

def charAt (text : List Char) (index : Nat) : Except PyException Char :=
  match text[index]? with
  | some char => .ok char
  | none => .error .indexError

def lastOf (text : List Char) : Except PyException Char :=
  match text.getLast? with
  | some char => .ok char
  | none => .error .indexError

def compact (text : String) : List Char :=
  (library.upperText text).toList.filter fun char => !oneOf "- " char

def checkNif : Checker := fun value _ =>
  withText value fun text => do
    let raw := compact library text
    if (Regex.seq (.exactly 8 (decimal library))
        (.char upperClass)).fullmatch raw then
      let number ← library.intOfDigits (raw.take 8)
      let control ← charAt nifLetters (number % 23)
      if (← lastOf raw) ≠ control then
        complain library value " fails the Spanish NIF checksum"
      else return none
    else
      complain library value " is not a Spanish NIF (8 digits + 1 letter)"

def nieInitial : Char → Except PyException Char
  | 'X' => .ok '0'
  | 'Y' => .ok '1'
  | 'Z' => .ok '2'
  | _ => .error .keyError

def checkNie : Checker := fun value _ =>
  withText value fun text => do
    let raw := compact library text
    if (concat [.char (oneOf "XYZ"), .exactly 7 (decimal library),
        .char upperClass] : Shape).fullmatch raw then
      let initial ← nieInitial (← charAt raw 0)
      let numeric ← library.intOfDigits (initial :: (raw.take 8).drop 1)
      let control ← charAt nifLetters (numeric % 23)
      if (← lastOf raw) ≠ control then
        complain library value " fails the Spanish NIE checksum"
      else return none
    else complain library value " is not a Spanish NIE"

def doubleDigit (digit : Nat) : Nat :=
  if digit * 2 < 10 then digit * 2 else digit * 2 - 9

def cifControl (digits : List Nat) : Nat :=
  let oddSum := (digits.zipIdx.filterMap fun (digit, index) =>
    if index % 2 = 0 then some (doubleDigit digit) else none).sum
  let evenSum := (digits.zipIdx.filterMap fun (digit, index) =>
    if index % 2 = 1 then some digit else none).sum
  (10 - (oddSum + evenSum) % 10) % 10

def checkCif : Checker := fun value _ =>
  withText value fun text => do
    let raw := compact library text
    if (concat [.char (oneOf "ABCDEFGHJKLMNPQRSUVW"),
        .exactly 7 (decimal library),
        .char fun char => oneOf "ABCDEFGHIJ" char || digitClass char] :
        Shape).fullmatch raw then
      let digits ← ((raw.take 8).drop 1).mapM (intOfChar library)
      let control := cifControl digits
      let controlLetter ← charAt "JABCDEFGHI".toList control
      let first ← charAt raw 0
      let last ← lastOf raw
      if oneOf "PQRSNW" first then
        if last ≠ controlLetter then
          complain library value " fails the Spanish CIF checksum"
        else return none
      else if [last] ≠ (toString control).toList ∧ last ≠ controlLetter then
        complain library value " fails the Spanish CIF checksum"
      else return none
    else complain library value " is not a Spanish CIF"

def vatPattern (country : String) : Shape :=
  let alnum := .char fun char => upperClass char || library.isDecimal char
  match country with
  | "ES" => concat [alnum, .exactly 7 (decimal library), alnum]
  | "FR" => concat [.exactly 2 alnum, .exactly 9 (decimal library)]
  | "DE" | "PT" => .exactly 9 (decimal library)
  | "IT" => .exactly 11 (decimal library)
  | "NL" =>
      concat [.exactly 9 (decimal library), literal "B",
        .exactly 2 (decimal library)]
  | "BE" => .between 9 10 (decimal library)
  | "AT" => concat [literal "U", .exactly 8 (decimal library)]
  | _ => .between 4 14 alnum

def checkVatId : Checker := fun value params =>
  withText value fun text => do
    let country ← countryOf library params (String.ofList (text.toList.take 2))
    let raw := compact library text
    let raw := if country.toList.isPrefixOf raw then raw.drop 2 else raw
    if (vatPattern library country).fullmatch raw then return none
    else
      complain library value (" is not a valid " ++ country ++ " VAT number")

def checkSsn : Checker :=
  checkShape library
    (concat [.exactly 3 (decimal library), .optional (literal "-"),
      .exactly 2 (decimal library), .optional (literal "-"),
      .exactly 4 (decimal library)])
    " is not a valid US SSN" id

def checkPassportNumber : Checker :=
  checkShape library
    (.between 5 12 (.char fun char => upperClass char || digitClass char))
    " is not a passport-shaped identifier" library.upperText

/-! ## Registry -/

def checkers : ValidatorType → Checker
  | .email => checkEmail library
  | .uri | .url => checkUri library
  | .ipv4 => checkIpv4 library
  | .ipv6 => checkIpv6 library
  | .domain => checkDomain library
  | .slug => checkSlug library
  | .date => checkDate library
  | .datetime | .iso8601 => checkDatetime library
  | .time => checkTime library
  | .uuid => checkUuid library
  | .json => checkJson library
  | .hexColor => checkHexColor library
  | .iban => checkIban library
  | .bic => checkBic library
  | .creditCard => checkCreditCard library
  | .currencyCode => checkCurrencyCode library
  | .amount => checkAmount library
  | .phoneE164 => checkPhoneE164 library
  | .countryCode => checkCountryCode library
  | .languageCode => checkLanguageCode library
  | .postalCode => checkPostalCode library
  | .latitude => checkLatitude library
  | .longitude => checkLongitude library
  | .nif => checkNif library
  | .nie => checkNie library
  | .cif => checkCif library
  | .vatId => checkVatId library
  | .ssn => checkSsn library
  | .passportNumber => checkPassportNumber library

def runValidator (type : ValidatorType) : Checker := checkers library type

end ValidatorRegistry

end Flydocs

import AgentVoice.Foundations.Separators
import AgentVoice.SigV4.Query

/-!
# The canonical request

The text that a signature covers: method, path, query, one line for each header, the names of the headers, and the
digest of the payload. A header is accepted under a token as its name, which is written in lower case, and with a value
without control characters, in which every run of spaces and tabs is one space or, at either end, none. The headers are
sorted by name; no name may occur twice, and three of them must be there.
-/

namespace AgentVoice.SigV4

open AgentVoice.Foundations

/-! ### Errors -/

inductive SigV4ErrorKind where
  | invalidMethod
  | invalidUri
  | invalidTimestamp
  | invalidRegion
  | invalidCredential
  | invalidHeader
  | duplicateHeader
  | missingRequiredHeader
  | payloadHashMismatch
  | unsupportedHeader
  | crypto
  deriving DecidableEq, Repr

structure SigV4Error where
  kind : SigV4ErrorKind
  deriving DecidableEq, Repr

/-! ### Timestamps -/

/-- `two_digits`. -/
def twoDigits : List UInt8 → ℕ
  | [a, b] => (a.toNat - 48) * 10 + b.toNat - 48
  | _ => 0

/-- `four_digits`. -/
def fourDigits : List UInt8 → ℕ
  | [a, b, c, d] => (a.toNat - 48) * 1000 + (b.toNat - 48) * 100 + (c.toNat - 48) * 10 + (d.toNat - 48)
  | _ => 0

/-- `days_in_month`. -/
def daysInMonth (year month : ℕ) : ℕ :=
  if month = 2 then if 400 ∣ year ∨ (4 ∣ year ∧ ¬ 100 ∣ year) then 29 else 28
  else if month = 4 ∨ month = 6 ∨ month = 9 ∨ month = 11 then 30
  else 31

/-- `validate_scope_date`, of the bytes of a date. -/
def validateScopeDate (bytes : List UInt8) : Except SigV4Error Unit := do
  require (bytes.length = 8 ∧ bytes.all isAsciiDigit) ⟨.invalidTimestamp⟩
  let year := fourDigits (bytes.take 4)
  let month := twoDigits ((bytes.drop 4).take 2)
  let day := twoDigits ((bytes.drop 6).take 2)
  require (¬ (month = 0 ∨ month > 12 ∨ day = 0 ∨ day > daysInMonth year month)) ⟨.invalidTimestamp⟩

/-- `validate_timestamp`: the date of a timestamp such as `20130524T000000Z`. -/
def validateTimestamp (timestamp : String) : Except SigV4Error String := do
  let bytes := utf8 timestamp
  require (bytes.length = 16 ∧ bytes[8]? = some 84 ∧ bytes[15]? = some 90 ∧
    (bytes.take 8).all isAsciiDigit ∧ ((bytes.drop 9).take 6).all isAsciiDigit) ⟨.invalidTimestamp⟩
  let hour := twoDigits ((bytes.drop 9).take 2)
  let minute := twoDigits ((bytes.drop 11).take 2)
  let second := twoDigits ((bytes.drop 13).take 2)
  require (¬ (hour > 23 ∨ minute > 59 ∨ second > 59)) ⟨.invalidTimestamp⟩
  validateScopeDate (bytes.take 8)
  -- the first eight characters, since they are digits
  return String.ofList (timestamp.toList.take 8)

/-! ### Method, path and query -/

/-- `is_method_byte`, on a character. -/
def isMethodByte (c : Char) : Bool := isTokenChar c

/-- `canonical_method`. -/
def canonicalMethod (method : String) : Except SigV4Error String := do
  require (¬ (method.isEmpty ∨ byteLength method > 64 ∨ ¬ isAscii method ∨ ¬ method.toList.all isMethodByte))
    ⟨.invalidMethod⟩
  return method

/-- `uri.split_once('?').unwrap_or((uri, ""))`. -/
def splitUri (uri : String) : List Char × List Char := (Lines.takeLine '?' uri.toList).getD (uri.toList, [])

/-- `canonical_uri_and_query`. -/
def canonicalUriAndQuery (uri : String) : Except SigV4Error (String × String) := do
  require (¬ (hasControl uri ∨ uri.toList.contains '#')) ⟨.invalidUri⟩
  let (rawPath, rawQuery) := splitUri uri
  let rawPath := if rawPath.isEmpty then ['/'] else rawPath
  require (startsWith rawPath ['/']) ⟨.invalidUri⟩
  let canonicalPath := percentEncode (utf8 (String.ofList rawPath)) true true
  let canonicalQuery := canonicalQuery (String.ofList rawQuery)
  return (canonicalPath, canonicalQuery)

/-! ### Headers -/

structure CanonicalHeader where
  name : String
  value : String
  deriving DecidableEq, Repr

/-- `is_header_name_byte`, on a character. -/
def isHeaderNameByte (c : Char) : Bool := isTokenChar c

/-- `normalize_header_name`. -/
def normalizeHeaderName (name : String) : Except SigV4Error String := do
  require (¬ (name.isEmpty ∨ ¬ isAscii name ∨ ¬ name.toList.all isHeaderNameByte)) ⟨.invalidHeader⟩
  let normalized := lowercase name
  require (normalized ≠ "authorization") ⟨.unsupportedHeader⟩
  return normalized

/-- A space or a tab. -/
def isBlankChar (c : Char) : Bool := c == ' ' || c == '\t'

/-- The loop body of `normalize_header_value`: the text so far, and whether a space is pending. -/
def pushValueChar : List Char × Bool → Char → List Char × Bool
  | (normalized, pendingSpace), c =>
    if isBlankChar c then (normalized, pendingSpace || !normalized.isEmpty)
    else ((if pendingSpace then normalized ++ [' '] else normalized) ++ [c], false)

/-- `normalize_header_value`. -/
def normalizeHeaderValue (value : String) : Except SigV4Error String := do
  require (¬ value.toList.any fun c => isControl c && c != ' ' && c != '\t') ⟨.invalidHeader⟩
  return String.ofList (value.toList.foldl pushValueChar ([], false)).1

/-- A header with its name and its value normalised. -/
def normalizeHeader (header : String × String) : Except SigV4Error CanonicalHeader := do
  let name ← normalizeHeaderName header.1
  let value ← normalizeHeaderValue header.2
  return ⟨name, value⟩

/-- The order of the headers. -/
def nameLe (left right : CanonicalHeader) : Prop := left.name ≤ right.name

instance : DecidableRel nameLe := fun left right => inferInstanceAs (Decidable (left.name ≤ right.name))

/-- Two neighbours have one name: the check over `normalized.windows(2)`. -/
def hasDuplicate (headers : List CanonicalHeader) : Bool :=
  (headers.zip headers.tail).any fun (left, right) => left.name == right.name

/-- `normalized.iter().find(|header| header.name == name)`, which must be there. -/
def requiredHeader (headers : List CanonicalHeader) (name : String) : Except SigV4Error CanonicalHeader :=
  okOr (headers.find? fun header => header.name == name) ⟨.missingRequiredHeader⟩

/-- `canonical_headers`. -/
def canonicalHeaders (headers : List (String × String)) (payloadSha256 : String) :
    Except SigV4Error (List CanonicalHeader) := do
  let normalized ← headers.mapM normalizeHeader
  -- the sort is unstable, but names that are equal are refused
  let normalized := normalized.insertionSort nameLe
  require (¬ hasDuplicate normalized) ⟨.duplicateHeader⟩
  let host ← requiredHeader normalized "host"
  require (¬ host.value.isEmpty) ⟨.invalidHeader⟩
  let payloadHeader ← requiredHeader normalized "x-amz-content-sha256"
  require (payloadHeader.value = payloadSha256) ⟨.payloadHashMismatch⟩
  let dateHeader ← requiredHeader normalized "x-amz-date"
  let _ ← validateTimestamp dateHeader.value
  return normalized

/-! ### The canonical text -/

/-- `validate_payload_hash`: the digits are bytes that no character of more bytes holds. -/
def validatePayloadHash (payloadSha256 : String) : Except SigV4Error Unit :=
  require (byteLength payloadSha256 = 64 ∧ payloadSha256.toList.all isLowerHex) ⟨.payloadHashMismatch⟩

/-- The line of a header, without its end. -/
def CanonicalHeader.line (header : CanonicalHeader) : List Char := header.name.toList ++ ':' :: header.value.toList

structure CanonicalizedRequest where
  canonical : String
  signedHeaders : String
  deriving DecidableEq, Repr

/-- `canonicalize`. -/
def canonicalize (method uri : String) (headers : List (String × String)) (payloadSha256 : String) :
    Except SigV4Error CanonicalizedRequest := do
  validatePayloadHash payloadSha256
  let method ← canonicalMethod method
  let (canonicalUri, canonicalQuery) ← canonicalUriAndQuery uri
  let headers ← canonicalHeaders headers payloadSha256
  let signedHeaders := String.ofList ([';'].intercalate (headers.map fun header => header.name.toList))
  let canonicalHeaderLines := String.ofList (headers.flatMap fun header => header.line ++ ['\n'])
  let canonical := method ++ "\n" ++ canonicalUri ++ "\n" ++ canonicalQuery ++ "\n" ++ canonicalHeaderLines ++ "\n" ++
    signedHeaders ++ "\n" ++ payloadSha256
  return ⟨canonical, signedHeaders⟩

/-- `canonical_request`. -/
def canonicalRequest (method uri : String) (headers : List (String × String)) (payloadSha256 : String) :
    Except SigV4Error String := do
  let canonicalized ← canonicalize method uri headers payloadSha256
  return canonicalized.canonical

end AgentVoice.SigV4

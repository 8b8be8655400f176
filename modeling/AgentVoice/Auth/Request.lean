import AgentVoice.Auth.ReplayGuard

/-!
# Request authentication

`verify_request` of `src/pa/auth.rs`. Everything before the replay guard is a pure check of the
request against the clock (`authenticate`); the guard is asked last, and only about the nonce of a
request whose HMAC verified. SHA-256 and HMAC are parameters.
-/

namespace AgentVoice.Auth

open AgentVoice.Foundations

/-- The cryptographic primitives of the `ring` crate that are used here. -/
structure Crypto where
  sha256 : ByteArray → ByteArray
  /-- `hmac::verify` for a key, a message and a tag. -/
  hmacVerify : ByteArray → ByteArray → ByteArray → Bool

/-- `AuthError`. -/
inductive AuthError where
  | emptySecret
  | nonUtf8Header (header : String)
  | invalidTimestamp
  | timestampOutsideAllowedSkew
  | invalidNonce
  | invalidSignatureEncoding
  | invalidSignature
  | nonceReplay
  deriving DecidableEq, Repr

/-- `MAX_CLOCK_SKEW_SECONDS`. -/
def maxClockSkewSeconds : ℤ := 60

/-- A signed request as it arrives, with raw header values. -/
structure SignedRequest where
  method : String
  pathAndQuery : String
  timestampHeader : ByteArray
  nonceHeader : ByteArray
  signatureHeader : ByteArray
  body : ByteArray

/-- `str::parse::<i64>`: an optional sign, at least one digit, and a value that fits. -/
def parseI64 (text : String) : Option Int64 :=
  let (negative, digits) :=
    match text.toList with
    | '-' :: cs => (true, cs)
    | '+' :: cs => (false, cs)
    | cs => (false, cs)
  if digits.isEmpty then none
  else do
    let n ← digits.foldlM (fun (acc : ℕ) c => (readDigit c).map fun d => acc * 10 + d) 0
    let value : ℤ := if negative then -n else n
    if -2 ^ 63 ≤ value ∧ value < 2 ^ 63 then some (Int64.ofInt value) else none

/-- `to_ascii_uppercase`. -/
def toAsciiUppercase (s : String) : String := String.ofList (s.toList.map Char.toUpper)

/-- A nibble as a lowercase hexadecimal digit. -/
def hexChar (n : ℕ) : Char := "0123456789abcdef".toList.getD n '0'

/-- `lower_hex`. -/
def lowerHex (bytes : ByteArray) : String :=
  String.ofList (bytes.data.toList.flatMap fun b => [hexChar (b.toNat / 16), hexChar (b.toNat % 16)])

/-- `hex_digit`: lowercase digits only. -/
def hexDigit (c : Char) : Option ℕ :=
  let n := c.toNat
  if 48 ≤ n ∧ n ≤ 57 then some (n - 48) else if 97 ≤ n ∧ n ≤ 102 then some (n - 97 + 10) else none

/-- `decode_hex`. -/
def decodeHex : List Char → Option (List UInt8)
  | [] => some []
  | [_] => none
  | high :: low :: rest => do
    let h ← hexDigit high
    let l ← hexDigit low
    let bytes ← decodeHex rest
    return UInt8.ofNat (h * 16 + l) :: bytes

/-- `validate_nonce`. -/
def validateNonce (nonce : String) : Except AuthError Unit :=
  require ((16 ≤ byteLength nonce ∧ byteLength nonce ≤ 128) ∧
    nonce.toList.all (fun c => isAsciiAlphanumeric c || c == '_' || c == '-') = true) .invalidNonce

/-- `canonical_request`: the text that the signature covers. -/
def canonicalRequest (crypto : Crypto) (r : SignedRequest) (timestamp : Int64) (nonce : String) : String :=
  toAsciiUppercase r.method ++ "\n" ++ r.pathAndQuery ++ "\n" ++ toString timestamp.toInt ++ "\n" ++ nonce ++
    "\n" ++ lowerHex (crypto.sha256 r.body)

/-- The part of `verify_request` before the replay guard; the result is the nonce of the request. -/
def authenticate (crypto : Crypto) (secret : ByteArray) (r : SignedRequest) (currentTimestamp : Int64) :
    Except AuthError String := do
  require (secret.size ≠ 0) .emptySecret
  let timestampText ← okOr (String.fromUTF8? r.timestampHeader) (.nonUtf8Header "X-AV-Timestamp")
  let nonce ← okOr (String.fromUTF8? r.nonceHeader) (.nonUtf8Header "X-AV-Nonce")
  let signatureText ← okOr (String.fromUTF8? r.signatureHeader) (.nonUtf8Header "X-AV-Signature")
  let timestamp ← okOr (parseI64 timestampText) .invalidTimestamp
  require ((timestamp.toInt - currentTimestamp.toInt).natAbs ≤ maxClockSkewSeconds) .timestampOutsideAllowedSkew
  validateNonce nonce
  let signature ← okOr (decodeHex signatureText.toList) .invalidSignatureEncoding
  require (signature.length = 32) .invalidSignatureEncoding
  let canonical := canonicalRequest crypto r timestamp nonce
  require (crypto.hmacVerify secret canonical.toUTF8 ⟨signature.toArray⟩ = true) .invalidSignature
  return nonce

/-- `verify_request`. -/
def verifyRequest {γ : Type} (crypto : Crypto) (guard : ReplayGuard γ) (storage : Bool) (secret : ByteArray)
    (r : SignedRequest) (currentTimestamp : Int64) (g : γ) : Except AuthError Unit × γ :=
  match authenticate crypto secret r currentTimestamp with
  | .error e => (.error e, g)
  | .ok nonce =>
    let (fresh, g) := guard.checkAndRecord storage nonce currentTimestamp g
    (if fresh then .ok () else .error .nonceReplay, g)

/-- The HMAC of a request verified, for the timestamp and the nonce in its headers. -/
def Verified (crypto : Crypto) (secret : ByteArray) (r : SignedRequest) (nonce : String) : Prop :=
  String.fromUTF8? r.nonceHeader = some nonce ∧
    ∃ text timestamp signature, String.fromUTF8? r.timestampHeader = some text ∧ parseI64 text = some timestamp ∧
      crypto.hmacVerify secret (canonicalRequest crypto r timestamp nonce).toUTF8 signature = true

/-- The timestamp that a request carries. -/
def SignedRequest.timestamp (r : SignedRequest) : Option Int64 := do
  let text ← String.fromUTF8? r.timestampHeader
  parseI64 text

/-- **What a request that reaches the guard has passed**: its HMAC verified, and its timestamp is
within the allowed skew. -/
theorem authenticate_eq_ok {crypto : Crypto} {secret : ByteArray} {r : SignedRequest} {now : Int64} {nonce : String}
    (h : authenticate crypto secret r now = .ok nonce) :
    Verified crypto secret r nonce ∧
      ∃ timestamp, r.timestamp = some timestamp ∧
        (timestamp.toInt - now.toInt).natAbs ≤ maxClockSkewSeconds := by
  simp only [authenticate, bind_eq_ok_iff, okOr_eq_ok_iff, require_eq_ok_iff, pure_eq_ok, Except.ok.injEq] at h
  obtain ⟨-, -, text, htext, nonce', hnonce, sigText, -, timestamp, hparse, -, hskew, -, -, signature, -, -, -, -,
    hmac, rfl⟩ := h
  exact ⟨⟨hnonce, text, timestamp, _, htext, hparse, hmac⟩, timestamp, by simp [SignedRequest.timestamp, htext, hparse],
    hskew⟩

end AgentVoice.Auth

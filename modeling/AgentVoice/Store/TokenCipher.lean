import AgentVoice.Foundations.Bytes
import AgentVoice.Foundations.JsonText
import AgentVoice.Foundations.Result

/-!
# Token encryption

`TokenCipher` of `src/pa/crypto.rs`. A token is sealed with AES-GCM under a context that is authenticated and not
stored. The sealing and opening functions under the master key, the base64 encoding and the reader of the JSON
library are parameters; what is relied on is `Aead.Correct`, `Aead.Authenticating` and that what is written is read
back. An envelope is then decrypted in the context it was encrypted in, and in no other (`decrypt_encrypt`,
`decrypt_encrypt_of_ne`).
-/

namespace AgentVoice.Store

open AgentVoice.Foundations

/-- `CryptoError`. -/
inductive CryptoError where
  | emptyToken | emptyContext | encryptionFailed | decryptionFailed
  deriving DecidableEq, Repr

/-- `NONCE_LEN`. -/
def nonceLen : ℕ := 12

/-- `AES_GCM_TAG_LEN`. -/
def aesGcmTagLen : ℕ := 16

/-- `TOKEN_CIPHER_VERSION`. -/
def tokenCipherVersion : UInt8 := 1

/-- A nonce: the bytes that the random generator fills in. -/
structure Nonce where
  bytes : List UInt8
  length_eq : bytes.length = nonceLen

/-- `EncryptedSecret`. -/
structure EncryptedSecret where
  version : UInt8
  nonce : String
  ciphertext : String
  deriving DecidableEq, Repr

/-- `serde_json::to_vec`, of an envelope. -/
def EncryptedSecret.toVec (e : EncryptedSecret) : List UInt8 :=
  utf8 (String.ofList (objectChars [
    memberChars "version" (Nat.toDigits 10 e.version.toNat),
    memberChars "nonce" (quotedChars e.nonce.toList),
    memberChars "ciphertext" (quotedChars e.ciphertext.toList)]))

/-- AES-256-GCM under the master key. -/
structure Aead where
  /-- `seal_in_place_append_tag`, of a nonce, a context and a plaintext. -/
  sealInPlaceAppendTag : List UInt8 → List UInt8 → List UInt8 → Option (List UInt8)
  /-- `open_in_place`, of a nonce, a context and a ciphertext. -/
  openInPlace : List UInt8 → List UInt8 → List UInt8 → Option (List UInt8)

namespace Aead

variable (aead : Aead)

/-- **Sealing is correct**: what is sealed opens in the context it was sealed in, and is longer than the tag. -/
structure Correct : Prop where
  opens : ∀ nonce context plaintext sealed, aead.sealInPlaceAppendTag nonce context plaintext = some sealed →
    aead.openInPlace nonce context sealed = some plaintext
  longer : ∀ nonce context plaintext sealed, aead.sealInPlaceAppendTag nonce context plaintext = some sealed →
    plaintext ≠ [] → aesGcmTagLen < sealed.length

/-- **Sealing authenticates**: what is sealed opens in no other context. -/
def Authenticating : Prop :=
  ∀ nonce context context' plaintext sealed, aead.sealInPlaceAppendTag nonce context plaintext = some sealed →
    context' ≠ context → aead.openInPlace nonce context' sealed = none

end Aead

/-- `URL_SAFE_NO_PAD`. -/
structure Base64 where
  encode : List UInt8 → String
  decode : String → Option (List UInt8)

/-- What is encoded is decoded. -/
def Base64.ReadsBack (base64 : Base64) : Prop := ∀ bytes, base64.decode (base64.encode bytes) = some bytes

/-- `TokenCipher`, and the libraries it uses. -/
structure TokenCipher where
  aead : Aead
  base64 : Base64

namespace TokenCipher

variable (cipher : TokenCipher)

/-- `encrypt`, with what the random generator fills the nonce with, if it does not fail. -/
def encrypt (random : Option Nonce) (token context : List UInt8) : Except CryptoError EncryptedSecret := do
  require (token ≠ []) .emptyToken
  require (context ≠ []) .emptyContext
  let nonce ← okOr random .encryptionFailed
  let ciphertext ← okOr (cipher.aead.sealInPlaceAppendTag nonce.bytes context token) .encryptionFailed
  return ⟨tokenCipherVersion, cipher.base64.encode nonce.bytes, cipher.base64.encode ciphertext⟩

/-- `decrypt`. -/
def decrypt (envelope : EncryptedSecret) (context : List UInt8) : Except CryptoError (List UInt8) := do
  require (¬ (context = [] ∨ envelope.version ≠ tokenCipherVersion)) .decryptionFailed
  let nonce ← okOr (cipher.base64.decode envelope.nonce) .decryptionFailed
  require (nonce.length = nonceLen) .decryptionFailed
  let ciphertext ← okOr (cipher.base64.decode envelope.ciphertext) .decryptionFailed
  require (¬ ciphertext.length ≤ aesGcmTagLen) .decryptionFailed
  let plaintext ← okOr (cipher.aead.openInPlace nonce context ciphertext) .decryptionFailed
  require (plaintext ≠ []) .decryptionFailed
  return plaintext

variable {cipher}

theorem encrypt_eq_ok_iff {random : Option Nonce} {token context : List UInt8} {envelope : EncryptedSecret} :
    cipher.encrypt random token context = .ok envelope ↔
      token ≠ [] ∧ context ≠ [] ∧ ∃ nonce ciphertext, random = some nonce ∧
        cipher.aead.sealInPlaceAppendTag nonce.bytes context token = some ciphertext ∧
        envelope = ⟨tokenCipherVersion, cipher.base64.encode nonce.bytes, cipher.base64.encode ciphertext⟩ := by
  simp only [encrypt, bind_eq_ok_iff, require_eq_ok_iff, okOr_eq_ok_iff, pure_eq_ok, Except.ok.injEq]
  constructor
  · rintro ⟨-, htoken, -, hcontext, nonce, hnonce, ciphertext, hsealed, rfl⟩
    exact ⟨htoken, hcontext, nonce, ciphertext, hnonce, hsealed, rfl⟩
  · rintro ⟨htoken, hcontext, nonce, ciphertext, hnonce, hsealed, rfl⟩
    exact ⟨(), htoken, (), hcontext, nonce, hnonce, ciphertext, hsealed, rfl⟩

/-- **What is encrypted is decrypted in its context.** -/
theorem decrypt_encrypt (hcorrect : cipher.aead.Correct) (hbase64 : cipher.base64.ReadsBack) {random : Option Nonce}
    {token context : List UInt8} {envelope : EncryptedSecret}
    (h : cipher.encrypt random token context = .ok envelope) : cipher.decrypt envelope context = .ok token := by
  obtain ⟨htoken, hcontext, nonce, ciphertext, -, hsealed, rfl⟩ := encrypt_eq_ok_iff.mp h
  have hlonger : ¬ ciphertext.length ≤ aesGcmTagLen := Nat.not_le.mpr (hcorrect.longer _ _ _ _ hsealed htoken)
  simp only [decrypt, hbase64 nonce.bytes, hbase64 ciphertext, hcorrect.opens _ _ _ _ hsealed, okOr_some, ok_bind,
    require_of (show ¬ (context = [] ∨ tokenCipherVersion ≠ tokenCipherVersion) by simp [hcontext]),
    require_of nonce.length_eq, require_of hlonger, require_of htoken, pure_eq_ok]

/-- **What is encrypted is decrypted in no other context.** -/
theorem decrypt_encrypt_of_ne (hauth : cipher.aead.Authenticating) (hbase64 : cipher.base64.ReadsBack)
    {random : Option Nonce} {token context context' : List UInt8} {envelope : EncryptedSecret}
    (h : cipher.encrypt random token context = .ok envelope) (hne : context' ≠ context) :
    cipher.decrypt envelope context' = .error .decryptionFailed := by
  obtain ⟨-, -, nonce, ciphertext, -, hsealed, rfl⟩ := encrypt_eq_ok_iff.mp h
  have hopen := hauth _ _ _ _ _ hsealed hne
  by_cases hempty : context' = []
  · simp [decrypt, hempty, require]
  · by_cases hlonger : aesGcmTagLen < ciphertext.length
    · simp [decrypt, hempty, hbase64 nonce.bytes, hbase64 ciphertext, nonce.length_eq, hlonger, hopen, require]
    · simp [decrypt, hempty, hbase64 nonce.bytes, hbase64 ciphertext, nonce.length_eq, hlonger, require]

end TokenCipher

end AgentVoice.Store

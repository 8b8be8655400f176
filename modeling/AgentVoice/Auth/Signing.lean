import AgentVoice.Auth.Request
import AgentVoice.Foundations.Bytes
import AgentVoice.Foundations.Separators
import Mathlib

/-!
# What a signature binds

The signature of an internal request covers one text of five lines: method, path and query, timestamp, nonce, and the
digest of the body. Only the method and the last three lines are free of line breaks; the path may hold any text, one
that looks like further lines included. Still the text determines its fields: the method is found from the front, the
others from the back, and the path is what is left (`canonicalText_inj`).

A tag has 32 bytes, so no HMAC is injective on all texts, and no digest on all bodies. What an equal signature says
about two requests needs no more than that neither primitive confuses these two (`Distinguishes`).
-/

namespace AgentVoice.Auth

open AgentVoice.Foundations

/-! ### Signing -/

/-- What a signature covers: a request with the values in its headers. -/
structure Signable where
  method : String
  pathAndQuery : String
  timestamp : Int64
  nonce : String
  body : ByteArray

/-- The request that carries these values, without its headers. -/
def Signable.request (s : Signable) : SignedRequest :=
  ⟨s.method, s.pathAndQuery, .empty, .empty, .empty, s.body⟩

/-- The canonical text of a request. -/
def Signable.canonicalText (crypto : Crypto) (s : Signable) : String :=
  canonicalRequest crypto s.request s.timestamp s.nonce

/-- HMAC-SHA-256 of the `ring` crate: `hmac::sign`, and that `hmac::verify` accepts the tag of a message only. -/
structure Hmac (crypto : Crypto) where
  sign : ByteArray → ByteArray → ByteArray
  verify_iff : ∀ key message tag, crypto.hmacVerify key message tag = true ↔ sign key message = tag
  size_sign : ∀ key message, (sign key message).size = 32

variable {crypto : Crypto} (hmac : Hmac crypto) (secret : ByteArray)

/-- `sign_request`. -/
def signRequest (s : Signable) : Except AuthError String := do
  require (secret.size ≠ 0) .emptySecret
  validateNonce s.nonce
  return lowerHex (hmac.sign secret (s.canonicalText crypto).toUTF8)

/-- The values that a request with headers claims. -/
def SignedRequest.signable (r : SignedRequest) : Option Signable := do
  let nonce ← String.fromUTF8? r.nonceHeader
  let timestamp ← r.timestamp
  return ⟨r.method, r.pathAndQuery, timestamp, nonce, r.body⟩

/-- The signature check of `verify_request` passes at some time, for the values that the request claims. -/
def SignatureChecks (crypto : Crypto) (secret : ByteArray) (r : SignedRequest) (s : Signable) : Prop :=
  r.signable = some s ∧ ∃ now, authenticate crypto secret r now = .ok s.nonce

/-- The same values, the method up to its case. -/
structure Signable.Same (s s' : Signable) : Prop where
  method : toAsciiUppercase s.method = toAsciiUppercase s'.method
  pathAndQuery : s.pathAndQuery = s'.pathAndQuery
  timestamp : s.timestamp = s'.timestamp
  nonce : s.nonce = s'.nonce
  body : s.body = s'.body

/-- Neither HMAC nor digest takes one of the two for the other. -/
structure Distinguishes (s s' : Signable) : Prop where
  hmac : hmac.sign secret (s.canonicalText crypto).toUTF8 = hmac.sign secret (s'.canonicalText crypto).toUTF8 →
    s.canonicalText crypto = s'.canonicalText crypto
  sha256 : crypto.sha256 s.body = crypto.sha256 s'.body → s.body = s'.body

/-! ### The lines of the canonical text -/

theorem hexChar_eq {n : ℕ} (h : n < 16) : hexChar n = Nat.digitChar n := by
  interval_cases n <;> rfl

/-- The digits of the canonical text are those of the library. -/
theorem lowerHex_eq (bytes : ByteArray) : lowerHex bytes = lowercaseHex bytes.data.toList := by
  rw [lowerHex, lowercaseHex, hexChars]
  congr 1
  refine List.flatMap_congr fun b _ => ?_
  have hb := b.toNat_lt
  rw [hexChar_eq (by omega), hexChar_eq (by omega), hexByte]

theorem lowerHex_inj {a b : ByteArray} (h : lowerHex a = lowerHex b) : a = b := by
  rw [lowerHex_eq, lowerHex_eq] at h
  exact ByteArray.ext (Array.toList_inj.mp (lowercaseHex_inj h))

theorem newline_not_mem_lowerHex (bytes : ByteArray) : '\n' ∉ (lowerHex bytes).toList := by
  intro h
  rw [lowerHex_eq, lowercaseHex, String.toList_ofList] at h
  have := (isLowerHex_of_mem_hexChars h).2.1
  revert this
  decide

theorem newline_not_mem_repr (n : ℕ) : '\n' ∉ n.repr.toList := by
  intro h
  rw [Nat.toList_repr] at h
  have hdigit := Nat.isDigit_of_mem_toDigits (by decide) le_rfl h
  revert hdigit
  decide

theorem newline_not_mem_toString (n : ℤ) : '\n' ∉ (toString n).toList := by
  cases n with
  | ofNat m => exact newline_not_mem_repr m
  | negSucc m =>
    have hlist : (toString (Int.negSucc m)).toList = '-' :: (m + 1).repr.toList := by
      show ("-" ++ (m + 1).repr).toList = _
      rw [String.toList_append]
      rfl
    rw [hlist]
    intro h
    rcases List.mem_cons.mp h with h | h
    · revert h
      decide
    · exact newline_not_mem_repr _ h

theorem newline_not_mem_nonce {nonce : String} (h : validateNonce nonce = .ok ()) : '\n' ∉ nonce.toList := by
  have hall := (require_eq_ok_iff.mp h).2
  intro hmem
  have hnewline := List.all_eq_true.mp hall _ hmem
  revert hnewline
  decide

theorem newline_not_mem_method {method : String} (h : IsToken method) : '\n' ∉ (toAsciiUppercase method).toList := by
  rw [toAsciiUppercase, String.toList_ofList]
  exact newline_not_mem_map_toUpper (not_mem_of_isToken h (by decide))

theorem toList_canonicalText (s : Signable) :
    (s.canonicalText crypto).toList = (toAsciiUppercase s.method).toList ++ '\n' :: (((s.pathAndQuery.toList ++
      '\n' :: (toString s.timestamp.toInt).toList) ++ '\n' :: s.nonce.toList) ++
      '\n' :: (lowerHex (crypto.sha256 s.body)).toList) := by
  simp only [Signable.canonicalText, canonicalRequest, Signable.request, String.toList_append, List.append_assoc]
  rfl

/-- **The canonical text determines its fields.** -/
theorem canonicalText_inj {s s' : Signable} (hmethod : IsToken s.method) (hmethod' : IsToken s'.method)
    (hnonce : validateNonce s.nonce = .ok ()) (hnonce' : validateNonce s'.nonce = .ok ())
    (hsha256 : crypto.sha256 s.body = crypto.sha256 s'.body → s.body = s'.body)
    (h : s.canonicalText crypto = s'.canonicalText crypto) : s.Same s' := by
  have hlist := congrArg String.toList h
  rw [toList_canonicalText, toList_canonicalText] at hlist
  obtain ⟨hupper, hlist⟩ := split_first (newline_not_mem_method hmethod) (newline_not_mem_method hmethod') hlist
  obtain ⟨hlist, hdigest⟩ := split_last (newline_not_mem_lowerHex _) (newline_not_mem_lowerHex _) hlist
  obtain ⟨hlist, hnonces⟩ := split_last (newline_not_mem_nonce hnonce) (newline_not_mem_nonce hnonce') hlist
  obtain ⟨hpath, htimestamp⟩ := split_last (newline_not_mem_toString _) (newline_not_mem_toString _) hlist
  refine ⟨String.toList_injective hupper, String.toList_injective hpath, ?_, String.toList_injective hnonces, ?_⟩
  · exact Int64.toInt_inj.mp (Int.repr_injective (String.toList_injective htimestamp))
  · exact hsha256 (lowerHex_inj (String.toList_injective hdigest))

/-! ### The signature check -/

/-- What the signature check has compared. -/
theorem exists_tag_of_signatureChecks {r : SignedRequest} {s : Signable} (h : SignatureChecks crypto secret r s) :
    s.method = r.method ∧ validateNonce s.nonce = .ok () ∧
      ∃ text signature, String.fromUTF8? r.signatureHeader = some text ∧ decodeHex text.toList = some signature ∧
        hmac.sign secret (s.canonicalText crypto).toUTF8 = ⟨signature.toArray⟩ := by
  obtain ⟨hsignable, now, h⟩ := h
  simp only [SignedRequest.signable, SignedRequest.timestamp, Option.bind_eq_bind, Option.bind_eq_some_iff,
    Option.pure_def, Option.some.injEq] at hsignable
  obtain ⟨nonce, hnonce, timestamp, ⟨text, htext, hparse⟩, rfl⟩ := hsignable
  simp only [authenticate, bind_eq_ok_iff, okOr_eq_ok_iff, require_eq_ok_iff, pure_eq_ok, Except.ok.injEq] at h
  obtain ⟨-, -, text', htext', nonce', hnonce', sigText, hsigText, timestamp', hparse', -, -, ⟨⟩, hvalid, signature,
    hdecode, -, -, -, hverify, rfl⟩ := h
  obtain rfl := Option.some.inj (htext.symm.trans htext')
  obtain rfl := Option.some.inj (hparse.symm.trans hparse')
  exact ⟨rfl, hvalid, sigText, signature, hsigText, hdecode, (hmac.verify_iff _ _ _).mp hverify⟩

theorem hexDigit_hexChar {n : ℕ} (h : n < 16) : hexDigit (hexChar n) = some n := by
  interval_cases n <;> rfl

/-- The digits of a tag are decoded to the tag. -/
theorem decodeHex_lowerHex (bytes : ByteArray) : decodeHex (lowerHex bytes).toList = some bytes.data.toList := by
  have hall : ∀ bs : List UInt8,
      decodeHex (bs.flatMap fun b => [hexChar (b.toNat / 16), hexChar (b.toNat % 16)]) = some bs := by
    intro bs
    induction bs with
    | nil => rfl
    | cons b bs ih =>
      have hb := b.toNat_lt
      have hvalue : b.toNat / 16 * 16 + b.toNat % 16 = b.toNat := by omega
      rw [List.flatMap_cons, List.cons_append, List.cons_append, List.nil_append, decodeHex,
        hexDigit_hexChar (by omega), hexDigit_hexChar (by omega), ih]
      simp only [Option.bind_eq_bind, Option.bind_some, Option.pure_def, hvalue, UInt8.ofNat_toNat]
  rw [lowerHex, String.toList_ofList]
  exact hall _

theorem signRequest_eq_ok_iff {s : Signable} {text : String} :
    signRequest hmac secret s = .ok text ↔
      secret.size ≠ 0 ∧ validateNonce s.nonce = .ok () ∧
        text = lowerHex (hmac.sign secret (s.canonicalText crypto).toUTF8) := by
  simp only [signRequest, bind_eq_ok_iff, require_eq_ok_iff, pure_eq_ok, Except.ok.injEq]
  constructor
  · rintro ⟨-, hsecret, ⟨⟩, hnonce, rfl⟩
    exact ⟨hsecret, hnonce, rfl⟩
  · rintro ⟨hsecret, hnonce, rfl⟩
    exact ⟨(), hsecret, (), hnonce, rfl⟩

theorem fromUTF8?_toUTF8 (text : String) : String.fromUTF8? text.toUTF8 = some text := by
  have hvalid : text.toUTF8.IsValidUTF8 := text.isValidUTF8
  rw [String.fromUTF8?, dif_pos hvalid]
  rfl

/-- A request that carries the signature of its values passes the check while its timestamp is current. -/
theorem authenticate_of_signRequest {s : Signable} {text : String} (h : signRequest hmac secret s = .ok text)
    {r : SignedRequest} (hr : r.signable = some s) (hsignature : r.signatureHeader = text.toUTF8) {now : Int64}
    (hnow : (s.timestamp.toInt - now.toInt).natAbs ≤ maxClockSkewSeconds) :
    authenticate crypto secret r now = .ok s.nonce := by
  obtain ⟨hsecret, hvalid, htext⟩ := (signRequest_eq_ok_iff hmac secret).mp h
  simp only [SignedRequest.signable, SignedRequest.timestamp, Option.bind_eq_bind, Option.bind_eq_some_iff,
    Option.pure_def, Option.some.injEq] at hr
  obtain ⟨nonce, hnonce, timestamp, ⟨timestampText, htimestamp, hparse⟩, rfl⟩ := hr
  set tag := hmac.sign secret (Signable.canonicalText crypto ⟨r.method, r.pathAndQuery, timestamp, nonce, r.body⟩).toUTF8
    with htag
  have hsigText : String.fromUTF8? r.signatureHeader = some text := by rw [hsignature, fromUTF8?_toUTF8]
  have hdecode : decodeHex text.toList = some tag.data.toList := by rw [htext, decodeHex_lowerHex]
  have hlength : tag.data.toList.length = 32 := by
    rw [Array.length_toList]
    exact hmac.size_sign _ _
  have hverify : crypto.hmacVerify secret (canonicalRequest crypto r timestamp nonce).toUTF8 ⟨tag.data.toList.toArray⟩ =
      true := (hmac.verify_iff _ _ _).mpr rfl
  simp only [authenticate, bind_eq_ok_iff, okOr_eq_ok_iff, require_eq_ok_iff, pure_eq_ok, Except.ok.injEq]
  exact ⟨(), hsecret, timestampText, htimestamp, nonce, hnonce, text, hsigText, timestamp, hparse, (), hnow, (), hvalid,
    _, hdecode, (), hlength, (), hverify, rfl⟩

/-- Two texts with the same tag are the same text, where HMAC tells them apart. -/
theorem same_of_signatureChecks {r r' : SignedRequest} {s s' : Signable} (hmethod : IsToken r.method)
    (hmethod' : IsToken r'.method) (hsignature : r.signatureHeader = r'.signatureHeader)
    (h : SignatureChecks crypto secret r s) (h' : SignatureChecks crypto secret r' s')
    (hdistinguishes : Distinguishes hmac secret s s') : s.Same s' := by
  obtain ⟨hm, hnonce, text, signature, htext, hdecode, hsign⟩ := exists_tag_of_signatureChecks hmac secret h
  obtain ⟨hm', hnonce', text', signature', htext', hdecode', hsign'⟩ := exists_tag_of_signatureChecks hmac secret h'
  rw [← hsignature, htext] at htext'
  obtain rfl := Option.some.inj htext'
  obtain rfl := Option.some.inj (hdecode.symm.trans hdecode')
  refine canonicalText_inj (hm ▸ hmethod) (hm' ▸ hmethod') hnonce hnonce' hdistinguishes.sha256 ?_
  exact hdistinguishes.hmac (hsign.trans hsign'.symm)

/-- **A signature binds the whole request.** Two requests that pass the signature check with one signature carry the
same values; the signature of a request passes the check with this request and with no other. -/
theorem signature_binds :
    (∀ (r r' : SignedRequest) (s s' : Signable), IsToken r.method → IsToken r'.method →
      r.signatureHeader = r'.signatureHeader → SignatureChecks crypto secret r s → SignatureChecks crypto secret r' s' →
      Distinguishes hmac secret s s' → s.Same s') ∧
    ∀ (s : Signable) (text : String), signRequest hmac secret s = .ok text →
      (∀ (r : SignedRequest) (now : Int64), r.signable = some s → r.signatureHeader = text.toUTF8 →
        (s.timestamp.toInt - now.toInt).natAbs ≤ maxClockSkewSeconds → authenticate crypto secret r now = .ok s.nonce) ∧
      ∀ (r : SignedRequest) (s' : Signable), IsToken s.method → IsToken r.method → r.signatureHeader = text.toUTF8 →
        SignatureChecks crypto secret r s' → Distinguishes hmac secret s s' → s.Same s' := by
  refine ⟨fun r r' s s' hmethod hmethod' hsignature h h' hdistinguishes =>
    same_of_signatureChecks hmac secret hmethod hmethod' hsignature h h' hdistinguishes, fun s text hsign => ⟨?_, ?_⟩⟩
  · exact fun r now hr hsignature hnow => authenticate_of_signRequest hmac secret hsign hr hsignature hnow
  · intro r s' hmethod hmethod' hsignature h hdistinguishes
    obtain ⟨-, hvalid, htext⟩ := (signRequest_eq_ok_iff hmac secret).mp hsign
    obtain ⟨hm, hnonce, text', signature, htext', hdecode, htag⟩ := exists_tag_of_signatureChecks hmac secret h
    rw [hsignature, fromUTF8?_toUTF8] at htext'
    obtain rfl := Option.some.inj htext'
    rw [htext, decodeHex_lowerHex] at hdecode
    obtain rfl := Option.some.inj hdecode
    exact canonicalText_inj hmethod (hm ▸ hmethod') hvalid hnonce hdistinguishes.sha256 (hdistinguishes.hmac htag.symm)

/-! ### One signature, two spellings of a method -/

/-- The digest of the empty body. -/
def emptyDigest : String := "e3b0c44298fc1c149afbf4c8996fb92427ae41e4649b934ca495991b7852b855"

/-- The tag of the canonical text of `rootRequest` under the key `k`. -/
def rootTag : String := "a9956d85e5ab07621a8cdad53c3423fb4660f35d858b74b3b5f0937a177c85a9"

/-- The values of a request for the root path. -/
def rootValues (method : String) : Signable := ⟨method, "/", Int64.maxValue, "0123456789abcdef", .empty⟩

/-- The request that carries them, with its signature. -/
def rootRequest (method : String) : SignedRequest :=
  ⟨method, "/", "9223372036854775807".toUTF8, "0123456789abcdef".toUTF8, rootTag.toUTF8, .empty⟩

/-- HMAC as it is on this request; all other texts get one tag. -/
def rootSign (key message : ByteArray) : ByteArray :=
  if key = "k".toUTF8 ∧
      message = s!"GET\n/\n9223372036854775807\n0123456789abcdef\n{emptyDigest}".toUTF8 then
    ⟨((decodeHex rootTag.toList).getD []).toArray⟩
  else ⟨(List.replicate 32 0).toArray⟩

def rootCrypto : Crypto where
  sha256 _ := ⟨((decodeHex emptyDigest.toList).getD []).toArray⟩
  hmacVerify key message tag := decide (rootSign key message = tag)

def rootHmac : Hmac rootCrypto where
  sign := rootSign
  verify_iff _ _ _ := decide_eq_true_iff
  size_sign key message := by
    unfold rootSign
    split_ifs
    · decide +kernel
    · decide +kernel

theorem signature_binds_root : (rootValues "get").Same (rootValues "GET") :=
  (signature_binds rootHmac "k".toUTF8).1 (rootRequest "get") (rootRequest "GET") _ _ (by decide) (by decide) rfl
    ⟨rfl, Int64.maxValue, by decide +kernel⟩ ⟨rfl, Int64.maxValue, by decide +kernel⟩
    ⟨fun _ => by decide +kernel, fun _ => rfl⟩

end AgentVoice.Auth

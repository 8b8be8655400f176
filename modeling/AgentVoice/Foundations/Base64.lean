import AgentVoice.Foundations.Base64Url
import AgentVoice.Foundations.JsonText
import Mathlib

/-!
# Padded base64 text

Bytes as base64 text in the standard alphabet: the characters for URLs with `+` and `/` for two of them, filled up with
`=` to a multiple of four. Every three bytes, and what is left of them, take four characters (`length_encodeChars`). A text
is decoded only if it is the encoding of what it decodes to.
-/

namespace AgentVoice.Foundations.Base64

/-- A character of the alphabet for URLs in the standard one. -/
def toStandard (c : Char) : Char := if c = '-' then '+' else if c = '_' then '/' else c

/-- A character of the standard alphabet in the one for URLs. -/
def toUrl (c : Char) : Char := if c = '+' then '-' else if c = '/' then '_' else c

/-- The fill behind the characters of `n` bytes. -/
def padding (n : ℕ) : List Char := List.replicate ((3 - n % 3) % 3) '='

/-- The characters of bytes. -/
def encodeChars (bytes : List UInt8) : List Char :=
  (Base64Url.encodeChars bytes).map toStandard ++ padding bytes.length

/-- The text of bytes. -/
def encode (bytes : List UInt8) : String := String.ofList (encodeChars bytes)

/-- The bytes of a text. -/
def decode (text : String) : Option (List UInt8) :=
  (Base64Url.decodeChars ((text.toList.filter fun c => c != '=').map toUrl)).bind fun bytes =>
    if encode bytes = text then some bytes else none

/-- A character that six bits are written as. -/
theorem exists_of_mem_encodeChars {bytes : List UInt8} {c : Char} (h : c ∈ Base64Url.encodeChars bytes) :
    ∃ n < 64, c = Base64Url.sextetChar n := by
  induction bytes using Base64Url.encodeChars.induct with
  | case1 => cases h
  | case2 a =>
    have ha := a.toNat_lt
    rw [Base64Url.encodeChars] at h
    simp only [List.mem_cons, List.not_mem_nil, or_false] at h
    rcases h with rfl | rfl
    · exact ⟨_, by omega, rfl⟩
    · exact ⟨_, by omega, rfl⟩
  | case3 a b =>
    have ha := a.toNat_lt
    have hb := b.toNat_lt
    rw [Base64Url.encodeChars] at h
    simp only [List.mem_cons, List.not_mem_nil, or_false] at h
    rcases h with rfl | rfl | rfl
    · exact ⟨_, by omega, rfl⟩
    · exact ⟨_, by omega, rfl⟩
    · exact ⟨_, by omega, rfl⟩
  | case4 a b c' rest ih =>
    have ha := a.toNat_lt
    have hb := b.toNat_lt
    have hc := c'.toNat_lt
    rw [Base64Url.encodeChars] at h
    simp only [List.mem_cons] at h
    rcases h with rfl | rfl | rfl | rfl | h
    · exact ⟨_, by omega, rfl⟩
    · exact ⟨_, by omega, rfl⟩
    · exact ⟨_, by omega, rfl⟩
    · exact ⟨_, by omega, rfl⟩
    · exact ih h

/-- What is needed of the two alphabets: no character is the fill, each is one byte below 128, and they translate back. -/
theorem sextetChar_facts {n : ℕ} (h : n < 64) :
    toStandard (Base64Url.sextetChar n) ≠ '=' ∧ toUrl (toStandard (Base64Url.sextetChar n)) = Base64Url.sextetChar n ∧
      (toStandard (Base64Url.sextetChar n)).toNat < 128 ∧ (toStandard (Base64Url.sextetChar n)).utf8Size = 1 := by
  have hall : ∀ m : Fin 64, toStandard (Base64Url.sextetChar m) ≠ '=' ∧
      toUrl (toStandard (Base64Url.sextetChar m)) = Base64Url.sextetChar m ∧
      (toStandard (Base64Url.sextetChar m)).toNat < 128 ∧ (toStandard (Base64Url.sextetChar m)).utf8Size = 1 := by
    decide +kernel
  exact hall ⟨n, h⟩

/-- **What is encoded is decoded.** -/
theorem decode_encode (bytes : List UInt8) : decode (encode bytes) = some bytes := by
  have hkept : (encodeChars bytes).filter (fun c => c != '=') = (Base64Url.encodeChars bytes).map toStandard := by
    have hpadding : (padding bytes.length).filter (fun c => c != '=') = [] := by
      rw [padding, List.filter_replicate]
      rfl
    rw [encodeChars, List.filter_append, hpadding, List.append_nil, List.filter_eq_self]
    intro d hd
    obtain ⟨c, hc, rfl⟩ := List.mem_map.mp hd
    obtain ⟨n, hn, rfl⟩ := exists_of_mem_encodeChars hc
    exact bne_iff_ne.mpr (sextetChar_facts hn).1
  have hback : ((Base64Url.encodeChars bytes).map toStandard).map toUrl = Base64Url.encodeChars bytes := by
    rw [List.map_map]
    refine (List.map_congr_left fun c hc => ?_).trans (List.map_id _)
    obtain ⟨n, hn, rfl⟩ := exists_of_mem_encodeChars hc
    exact (sextetChar_facts hn).2.1
  rw [decode, encode, String.toList_ofList, hkept, hback, Base64Url.decodeChars_encodeChars, Option.bind_some, encode,
    if_pos rfl]

theorem length_urlEncodeChars (bytes : List UInt8) :
    (Base64Url.encodeChars bytes).length = (4 * bytes.length + 2) / 3 := by
  induction bytes using Base64Url.encodeChars.induct with
  | case1 => rfl
  | case2 a =>
    rw [Base64Url.encodeChars]
    simp only [List.length_cons, List.length_nil]
  | case3 a b =>
    rw [Base64Url.encodeChars]
    simp only [List.length_cons, List.length_nil]
  | case4 a b c rest ih =>
    rw [Base64Url.encodeChars]
    simp only [List.length_cons, ih]
    omega

/-- **Every three bytes take four characters**, and so do one or two that are left. -/
theorem length_encodeChars (bytes : List UInt8) : (encodeChars bytes).length = 4 * ((bytes.length + 2) / 3) := by
  rw [encodeChars, padding, List.length_append, List.length_map, List.length_replicate, length_urlEncodeChars]
  omega

theorem facts_of_mem_encodeChars {bytes : List UInt8} {c : Char} (h : c ∈ encodeChars bytes) :
    c.toNat < 128 ∧ c.utf8Size = 1 := by
  rcases List.mem_append.mp h with h | h
  · obtain ⟨d, hd, rfl⟩ := List.mem_map.mp h
    obtain ⟨n, hn, rfl⟩ := exists_of_mem_encodeChars hd
    exact (sextetChar_facts hn).2.2
  · rw [List.eq_of_mem_replicate h]
    decide

/-- The bytes of a base64 text are its characters. -/
theorem byteLength_encode (bytes : List UInt8) : byteLength (encode bytes) = 4 * ((bytes.length + 2) / 3) := by
  rw [encode, byteLength_ofList_of_utf8Size fun c hc => (facts_of_mem_encodeChars hc).2, length_encodeChars]

theorem isAscii_encode (bytes : List UInt8) : isAscii (encode bytes) = true := by
  rw [isAscii, encode, String.toList_ofList, List.all_eq_true]
  exact fun c hc => decide_eq_true (facts_of_mem_encodeChars hc).1

end AgentVoice.Foundations.Base64

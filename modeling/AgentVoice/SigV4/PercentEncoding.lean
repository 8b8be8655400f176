import AgentVoice.Foundations.Bytes
import AgentVoice.Foundations.Percent

/-!
# Percent encoding of a signed request

A request is signed in a form in which every byte is either written as it is or escaped, whatever the caller escaped of
it. What the encoder writes is the normal form of the library's scheme (`utf8_percentEncode`), with the slashes of a
path as delimiters.
-/

namespace AgentVoice.SigV4

open AgentVoice.Foundations

/-! ### Encoding -/

/-- `byte as char`. -/
def asChar (b : UInt8) : Char := Char.ofNat b.toNat

/-- `u8::is_ascii_digit`. -/
def isAsciiDigit (b : UInt8) : Bool := 48 ≤ b.toNat && b.toNat ≤ 57

/-- `u8::is_ascii_alphanumeric`. -/
def isAsciiAlphanumericByte (b : UInt8) : Bool :=
  isAsciiDigit b || (65 ≤ b.toNat && b.toNat ≤ 90) || (97 ≤ b.toNat && b.toNat ≤ 122)

/-- `is_hex_byte`. -/
def isHexByte (b : UInt8) : Bool :=
  isAsciiDigit b || (97 ≤ b.toNat && b.toNat ≤ 102) || (65 ≤ b.toNat && b.toNat ≤ 70)

/-- `hex_value`, which is called for hexadecimal bytes only. -/
def hexValue (b : UInt8) : UInt8 :=
  if 48 ≤ b.toNat ∧ b.toNat ≤ 57 then b - 48
  else if 97 ≤ b.toNat ∧ b.toNat ≤ 102 then b - 97 + 10
  else b - 65 + 10

/-- `is_uri_unreserved`: alphanumeric bytes and `-`, `.`, `_`, `~`. -/
def isUriUnreserved (b : UInt8) : Bool := isAsciiAlphanumericByte b || [45, 46, 95, 126].contains b

/-- `HEX`. -/
def hexAlphabet : List Char := "0123456789ABCDEF".toList

/-- The three characters that the encoder pushes for a byte it escapes. -/
def pushEscape (b : UInt8) : List Char :=
  ['%', hexAlphabet.getD (b >>> 4).toNat '0', hexAlphabet.getD (b &&& 0x0f).toNat '0']

/-- What the encoder pushes for a byte that begins no valid escape. -/
def pushByte (preserveSlash : Bool) (b : UInt8) : List Char :=
  if isUriUnreserved b || (preserveSlash && b == 47) then [asChar b] else pushEscape b

/-- What the encoder pushes for the byte of a valid escape. -/
def pushDecoded (b : UInt8) : List Char := if isUriUnreserved b then [asChar b] else pushEscape b

/-- The loop of `percent_encode`, over the bytes from the index on. -/
def percentEncodeChars (preserveSlash preserveValidEscapes : Bool) : List UInt8 → List Char
  | [] => []
  | b :: high :: low :: rest =>
    if preserveValidEscapes && b == 37 && isHexByte high && isHexByte low then
      pushDecoded ((hexValue high <<< 4) ||| hexValue low) ++ percentEncodeChars preserveSlash preserveValidEscapes rest
    else pushByte preserveSlash b ++ percentEncodeChars preserveSlash preserveValidEscapes (high :: low :: rest)
  | b :: rest => pushByte preserveSlash b ++ percentEncodeChars preserveSlash preserveValidEscapes rest

/-- `percent_encode`. -/
def percentEncode (value : List UInt8) (preserveSlash preserveValidEscapes : Bool) : String :=
  String.ofList (percentEncodeChars preserveSlash preserveValidEscapes value)

/-! ### The scheme -/

/-- The bytes that the encoder keeps apart from their escapes. -/
def keepsSlash (preserveSlash : Bool) (b : UInt8) : Bool := preserveSlash && b == 47

theorem readable (preserveSlash : Bool) : Percent.Readable (keepsSlash preserveSlash) isUriUnreserved where
  not_keeps_percent := by cases preserveSlash <;> rfl
  not_plain_percent := rfl
  not_plain := by
    intro b h
    rw [keepsSlash, Bool.and_eq_true, beq_iff_eq] at h
    rw [h.2]
    rfl

theorem keepsSlash_false : keepsSlash false = fun _ => false := rfl

/-! ### The digits -/

theorem hexDigit_eq (b : UInt8) :
    Percent.hexDigit b = if isHexByte b then some (hexValue b).toNat else none := by
  revert b
  exact Percent.forall_byte (by decide +kernel)

theorem hexValue_lt {b : UInt8} (h : isHexByte b = true) : (hexValue b).toNat < 16 :=
  Percent.forall_byte (p := fun b => isHexByte b = true → (hexValue b).toNat < 16) (by decide +kernel) b h

theorem shift_or {a b : UInt8} (ha : a.toNat < 16) (hb : b.toNat < 16) :
    (a <<< 4) ||| b = .ofNat (16 * a.toNat + b.toNat) := by
  have hall : ∀ m < 16, ∀ n < 16, (UInt8.ofNat m <<< 4) ||| UInt8.ofNat n = UInt8.ofNat (16 * m + n) := by decide
  have := hall _ ha _ hb
  rwa [UInt8.ofNat_toNat, UInt8.ofNat_toNat] at this

/-- The encoder recognises the escapes of the scheme, and reads them so. -/
theorem escaped_eq (high low : UInt8) :
    Percent.escaped high low =
      if isHexByte high && isHexByte low then some ((hexValue high <<< 4) ||| hexValue low) else none := by
  rw [Percent.escaped, hexDigit_eq, hexDigit_eq]
  cases hhigh : isHexByte high with
  | false => rfl
  | true =>
    cases hlow : isHexByte low with
    | false => rfl
    | true =>
      show some (UInt8.ofNat _) = some _
      rw [shift_or (hexValue_lt hhigh) (hexValue_lt hlow)]

theorem pushEscape_eq (b : UInt8) : pushEscape b = (Percent.escape b).map asChar := by
  revert b
  exact Percent.forall_byte (by decide +kernel)

example : pushEscape 0x2f = "%2F".toList := by decide +kernel

theorem pushDecoded_eq (b : UInt8) : pushDecoded b = ((Percent.Symbol.byte b).encode isUriUnreserved).map asChar := by
  rw [pushDecoded, Percent.Symbol.encode, pushEscape_eq]
  split_ifs <;> rfl

theorem pushByte_eq (preserveSlash : Bool) (b : UInt8) : pushByte preserveSlash b =
    ((Percent.literal (keepsSlash preserveSlash) b).encode isUriUnreserved).map asChar := by
  rw [pushByte, Percent.literal, ← keepsSlash]
  cases hkeeps : keepsSlash preserveSlash b with
  | false => rw [Bool.or_false]; exact pushDecoded_eq b
  | true => rw [Bool.or_true]; rfl

/-! ### The encoder writes normal forms -/

theorem percentEncodeChars_eq (preserveSlash : Bool) (value : List UInt8) :
    percentEncodeChars preserveSlash true value =
      (Percent.normalize (keepsSlash preserveSlash) isUriUnreserved value).map asChar := by
  rw [Percent.normalize, Percent.encode]
  fun_induction Percent.symbols (keepsSlash preserveSlash) value with
  | case1 => rfl
  | case2 b => simp [percentEncodeChars, pushByte_eq]
  | case3 b c => simp [percentEncodeChars, pushByte_eq]
  | case4 high low rest c hc ih =>
    rw [escaped_eq] at hc
    split_ifs at hc with hhex
    obtain rfl := Option.some.inj hc
    rw [percentEncodeChars, if_pos (by simpa using hhex), List.flatMap_cons, List.map_append, ih, pushDecoded_eq]
  | case5 high low rest hnone ih =>
    rw [escaped_eq] at hnone
    split_ifs at hnone with hhex
    rw [percentEncodeChars, if_neg (by simpa using hhex), List.flatMap_cons, List.map_append, ih, pushByte_eq]
  | case6 b high low rest hb ih =>
    rw [percentEncodeChars, if_neg (by simp [hb]), List.flatMap_cons, List.map_append, ih, pushByte_eq]

/-! ### What the encoder writes -/

/-- A byte that stands in a normal form. -/
def IsWritten (preserveSlash : Bool) (b : UInt8) : Prop :=
  isUriUnreserved b = true ∨ b = 37 ∨ keepsSlash preserveSlash b = true

theorem isUriUnreserved_upperDigit {n : ℕ} (h : n < 16) : isUriUnreserved (Percent.upperDigit n) = true := by
  revert n
  decide

theorem isWritten_of_mem_encode {preserveSlash : Bool} {s : Percent.Symbol} (hs : s.Valid (keepsSlash preserveSlash))
    {b : UInt8} (h : b ∈ s.encode isUriUnreserved) : IsWritten preserveSlash b := by
  cases s with
  | kept c =>
    obtain rfl := List.mem_singleton.mp h
    exact .inr (.inr hs)
  | byte c =>
    rw [Percent.Symbol.encode] at h
    split_ifs at h with hplain
    · obtain rfl := List.mem_singleton.mp h
      exact .inl hplain
    · have hc := c.toNat_lt
      rcases List.mem_cons.mp h with rfl | h
      · exact .inr (.inl rfl)
      rcases List.mem_cons.mp h with rfl | h
      · exact .inl (isUriUnreserved_upperDigit (by omega))
      · obtain rfl := List.mem_singleton.mp h
        exact .inl (isUriUnreserved_upperDigit (by omega))

theorem isWritten_of_mem_normalize {preserveSlash : Bool} {value : List UInt8} {b : UInt8}
    (h : b ∈ Percent.normalize (keepsSlash preserveSlash) isUriUnreserved value) : IsWritten preserveSlash b := by
  obtain ⟨s, hs, hb⟩ := List.mem_flatMap.mp h
  exact isWritten_of_mem_encode (Percent.valid_symbols value s hs) hb

theorem lt_of_isWritten {preserveSlash : Bool} {b : UInt8} (h : IsWritten preserveSlash b) : b.toNat < 128 := by
  rcases h with h | rfl | h
  · exact Percent.forall_byte (p := fun b => isUriUnreserved b = true → b.toNat < 128) (by decide +kernel) b h
  · decide
  · rw [keepsSlash, Bool.and_eq_true, beq_iff_eq] at h
    rw [h.2]
    decide

theorem toNat_asChar {b : UInt8} : (asChar b).toNat = b.toNat := by
  have hb := b.toNat_lt
  rw [asChar, Char.toNat_ofNat, if_pos (.inl (by omega))]

theorem asChar_injective : Function.Injective asChar := by
  intro a b h
  rw [← UInt8.toNat_inj, ← toNat_asChar, h, toNat_asChar]

theorem utf8_ofList (cs : List Char) : utf8 (String.ofList cs) = cs.flatMap String.utf8EncodeChar := by
  rw [utf8, String.toByteArray_ofList, List.utf8Encode, List.data_toByteArray]

/-- A character below 128 is one byte. -/
theorem utf8EncodeChar_asChar {b : UInt8} (h : b.toNat < 128) : String.utf8EncodeChar (asChar b) = [b] := by
  have hnat : (asChar b).val.toNat = b.toNat := toNat_asChar
  rw [String.utf8EncodeChar, hnat, if_pos (by omega), UInt8.ofNat_toNat]

theorem utf8_ofList_map_asChar {bytes : List UInt8} (h : ∀ b ∈ bytes, b.toNat < 128) :
    utf8 (String.ofList (bytes.map asChar)) = bytes := by
  rw [utf8_ofList]
  induction bytes with
  | nil => rfl
  | cons b bytes ih =>
    obtain ⟨hb, hbytes⟩ := List.forall_mem_cons.mp h
    rw [List.map_cons, List.flatMap_cons, utf8EncodeChar_asChar hb, ih hbytes]
    rfl

/-- **The encoder writes the normal form of its input.** -/
theorem utf8_percentEncode (value : List UInt8) (preserveSlash : Bool) :
    utf8 (percentEncode value preserveSlash true) =
      Percent.normalize (keepsSlash preserveSlash) isUriUnreserved value := by
  rw [percentEncode, percentEncodeChars_eq]
  exact utf8_ofList_map_asChar fun b hb => lt_of_isWritten (isWritten_of_mem_normalize hb)

/-- Equal outputs are equal normal forms. -/
theorem percentEncode_eq_iff {preserveSlash : Bool} {a b : List UInt8} :
    percentEncode a preserveSlash true = percentEncode b preserveSlash true ↔
      Percent.symbols (keepsSlash preserveSlash) a = Percent.symbols (keepsSlash preserveSlash) b := by
  rw [← Percent.normalize_eq_iff (readable preserveSlash), percentEncode, percentEncode, percentEncodeChars_eq,
    percentEncodeChars_eq, String.ofList_inj, (List.map_injective_iff.mpr asChar_injective).eq_iff]

/-! ### Idempotence and what is preserved -/

/-- **Encoding twice is encoding once.** -/
theorem percentEncode_percentEncode (value : List UInt8) (preserveSlash : Bool) :
    percentEncode (utf8 (percentEncode value preserveSlash true)) preserveSlash true =
      percentEncode value preserveSlash true := by
  rw [percentEncode_eq_iff, utf8_percentEncode, Percent.symbols_normalize (readable preserveSlash)]

/-- **The output decodes to the bytes that the input decodes to.** -/
theorem decode_percentEncode (value : List UInt8) (preserveSlash : Bool) :
    Percent.decode (utf8 (percentEncode value preserveSlash true)) = Percent.decode value := by
  rw [utf8_percentEncode, Percent.decode_normalize (readable preserveSlash)]

theorem percentEncode_query_eq_iff {a b : List UInt8} :
    percentEncode a false true = percentEncode b false true ↔ Percent.decode a = Percent.decode b := by
  rw [percentEncode_eq_iff, keepsSlash_false, Percent.symbols_eq_iff_decode_eq]

/-- A character that the encoder does not write. -/
theorem not_mem_percentEncode {value : List UInt8} {preserveSlash : Bool} {b : UInt8} (h : ¬ IsWritten preserveSlash b) :
    asChar b ∉ (percentEncode value preserveSlash true).toList := by
  rw [percentEncode, String.toList_ofList, percentEncodeChars_eq, List.mem_map_of_injective asChar_injective]
  exact mt isWritten_of_mem_normalize h

end AgentVoice.SigV4

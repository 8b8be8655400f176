import Mathlib

/-!
# Percent encoding

A percent-encoded text is a string of bytes in which `%` and two hexadecimal digits stand for one byte; a `%` without
two digits behind it stands for itself. A byte that delimits may be kept apart from the escape that stands for it
(`Symbol.kept`), as the slashes of a path are.

A text is normalised when it is read into its symbols and each of them is written in its one form. Reading gives back the
symbols that were written (`symbols_encode`), so that normalising is idempotent and two texts have one normal form
exactly when they are the same symbols (`normalize_eq_iff`).
-/

namespace AgentVoice.Foundations.Percent

/-! ### Reading -/

/-- The value of a hexadecimal digit, of either case. -/
def hexDigit (b : UInt8) : Option ℕ :=
  if 48 ≤ b.toNat ∧ b.toNat ≤ 57 then some (b.toNat - 48)
  else if 97 ≤ b.toNat ∧ b.toNat ≤ 102 then some (b.toNat - 87)
  else if 65 ≤ b.toNat ∧ b.toNat ≤ 70 then some (b.toNat - 55)
  else none

/-- The byte that two digits stand for. -/
def escaped (high low : UInt8) : Option UInt8 :=
  match hexDigit high, hexDigit low with
  | some m, some n => some (.ofNat (16 * m + n))
  | _, _ => none

/-- What a unit of a percent-encoded text stands for: a delimiter, or a byte. -/
inductive Symbol where
  | kept (b : UInt8)
  | byte (b : UInt8)
  deriving DecidableEq

/-- The byte of a symbol. -/
def Symbol.toByte : Symbol → UInt8
  | .kept b => b
  | .byte b => b

variable (keeps : UInt8 → Bool)

/-- A byte that no escape stands for. -/
def literal (b : UInt8) : Symbol := if keeps b then .kept b else .byte b

/-- A text as its symbols; `keeps` says which bytes delimit. -/
def symbols : List UInt8 → List Symbol
  | [] => []
  | [b] => [literal keeps b]
  | [b, c] => [literal keeps b, literal keeps c]
  | b :: high :: low :: rest =>
    if b = 37 then
      match escaped high low with
      | some c => .byte c :: symbols rest
      | none => literal keeps b :: symbols (high :: low :: rest)
    else literal keeps b :: symbols (high :: low :: rest)

/-- The bytes of a text, with its escapes read. -/
def decode (bytes : List UInt8) : List UInt8 := (symbols (fun _ => false) bytes).map Symbol.toByte

/-! ### Writing -/

/-- An uppercase hexadecimal digit. -/
def upperDigit (n : ℕ) : UInt8 := if n < 10 then .ofNat (48 + n) else .ofNat (55 + n)

/-- The escape of a byte. -/
def escape (b : UInt8) : List UInt8 := [37, upperDigit (b.toNat / 16), upperDigit (b.toNat % 16)]

variable (plain : UInt8 → Bool)

/-- A symbol in its one form; `plain` says which bytes need no escape. -/
def Symbol.encode : Symbol → List UInt8
  | .kept b => [b]
  | .byte b => if plain b then [b] else escape b

/-- The text of symbols. -/
def encode (ss : List Symbol) : List UInt8 := ss.flatMap (Symbol.encode plain)

/-- A text in its normal form. -/
def normalize (bytes : List UInt8) : List UInt8 := encode plain (symbols keeps bytes)

/-! ### Reading what was written -/

variable {keeps plain}

/-- A decidable property of all bytes can be checked number by number. -/
theorem forall_byte {p : UInt8 → Prop} (h : ∀ n < 256, p (.ofNat n)) (b : UInt8) : p b := by
  have := h b.toNat b.toNat_lt
  rwa [UInt8.ofNat_toNat] at this

theorem hexDigit_upperDigit {n : ℕ} (h : n < 16) : hexDigit (upperDigit n) = some n := by
  revert n
  decide

theorem escaped_escape (b : UInt8) : escaped (upperDigit (b.toNat / 16)) (upperDigit (b.toNat % 16)) = some b := by
  have hb := b.toNat_lt
  rw [escaped, hexDigit_upperDigit (by omega), hexDigit_upperDigit (by omega)]
  show some (UInt8.ofNat (16 * (b.toNat / 16) + b.toNat % 16)) = some b
  rw [Nat.div_add_mod, UInt8.ofNat_toNat]

/-- A byte that begins no escape is read by itself. -/
theorem symbols_cons {b : UInt8} (h : b ≠ 37) (rest : List UInt8) :
    symbols keeps (b :: rest) = literal keeps b :: symbols keeps rest := by
  match rest with
  | [] => rfl
  | [_] => rfl
  | high :: low :: rest => rw [symbols, if_neg h]

theorem symbols_escape (b : UInt8) (rest : List UInt8) :
    symbols keeps (escape b ++ rest) = .byte b :: symbols keeps rest := by
  show symbols keeps (37 :: upperDigit (b.toNat / 16) :: upperDigit (b.toNat % 16) :: rest) = _
  rw [symbols, if_pos rfl, escaped_escape]

/-- What a scheme must meet for its texts to be readable: no byte is written as it is that would be read as something else. -/
structure Readable (keeps plain : UInt8 → Bool) : Prop where
  not_keeps_percent : keeps 37 = false
  not_plain_percent : plain 37 = false
  not_plain : ∀ {b}, keeps b = true → plain b = false

/-- A delimiter among the symbols is a byte that the scheme keeps. -/
def Symbol.Valid (keeps : UInt8 → Bool) : Symbol → Prop
  | .kept b => keeps b = true
  | .byte _ => True

theorem valid_literal (b : UInt8) : (literal keeps b).Valid keeps := by
  unfold literal
  split_ifs with h
  · exact h
  · trivial

theorem valid_symbols (bytes : List UInt8) : ∀ s ∈ symbols keeps bytes, s.Valid keeps := by
  fun_induction symbols keeps bytes with
  | case1 => exact List.forall_mem_nil _
  | case2 b => simp [valid_literal]
  | case3 b c => simp [valid_literal]
  | case4 high low rest c hc ih => exact List.forall_mem_cons.mpr ⟨trivial, ih⟩
  | case5 high low rest hnone ih => exact List.forall_mem_cons.mpr ⟨valid_literal _, ih⟩
  | case6 b high low rest hb ih => exact List.forall_mem_cons.mpr ⟨valid_literal _, ih⟩

theorem symbols_symbol_append (h : Readable keeps plain) {s : Symbol} (hs : s.Valid keeps) (rest : List UInt8) :
    symbols keeps (s.encode plain ++ rest) = s :: symbols keeps rest := by
  cases s with
  | kept b =>
    have hb : b ≠ 37 := by
      rintro rfl
      exact Bool.false_ne_true (h.not_keeps_percent.symm.trans hs)
    show symbols keeps (b :: rest) = _
    rw [symbols_cons hb, literal, if_pos (show keeps b = true from hs)]
  | byte b =>
    cases hplain : plain b with
    | true =>
      have hb : b ≠ 37 := by
        rintro rfl
        exact Bool.false_ne_true (h.not_plain_percent.symm.trans hplain)
      have hkeeps : ¬ keeps b = true := fun hk => Bool.false_ne_true ((h.not_plain hk).symm.trans hplain)
      rw [Symbol.encode, if_pos hplain]
      show symbols keeps (b :: rest) = _
      rw [symbols_cons hb, literal, if_neg hkeeps]
    | false =>
      rw [Symbol.encode, if_neg (by rw [hplain]; exact Bool.false_ne_true)]
      exact symbols_escape b rest

/-- **Reading gives back the symbols that were written.** -/
theorem symbols_encode (h : Readable keeps plain) {ss : List Symbol} (hss : ∀ s ∈ ss, s.Valid keeps) :
    symbols keeps (encode plain ss) = ss := by
  induction ss with
  | nil => rfl
  | cons s ss ih =>
    obtain ⟨hs, hss⟩ := List.forall_mem_cons.mp hss
    rw [encode, List.flatMap_cons, symbols_symbol_append h hs, ← encode, ih hss]

/-! ### Normal forms -/

/-- **A normal form is the same symbols.** -/
theorem symbols_normalize (h : Readable keeps plain) (bytes : List UInt8) :
    symbols keeps (normalize keeps plain bytes) = symbols keeps bytes := symbols_encode h (valid_symbols bytes)

/-- **Two texts have one normal form exactly when they are the same symbols.** -/
theorem normalize_eq_iff (h : Readable keeps plain) {a b : List UInt8} :
    normalize keeps plain a = normalize keeps plain b ↔ symbols keeps a = symbols keeps b := by
  constructor
  · intro heq
    rw [← symbols_normalize h a, heq, symbols_normalize h]
  · intro heq
    rw [normalize, heq, ← normalize]

theorem toByte_literal (b : UInt8) : (literal keeps b).toByte = b := by
  unfold literal
  split_ifs <;> rfl

/-- The bytes of a text do not depend on which of them delimit. -/
theorem map_toByte_symbols (bytes : List UInt8) : (symbols keeps bytes).map Symbol.toByte = decode bytes := by
  rw [decode]
  fun_induction symbols keeps bytes with
  | case1 => rfl
  | case2 b => simp [symbols, toByte_literal]
  | case3 b c => simp [symbols, toByte_literal]
  | case4 high low rest c hc ih =>
    rw [symbols, if_pos rfl, hc, List.map_cons, List.map_cons, ih]
  | case5 high low rest hnone ih =>
    rw [symbols, if_pos rfl, hnone, List.map_cons, List.map_cons, ih, toByte_literal, toByte_literal]
  | case6 b high low rest hb ih =>
    rw [symbols, if_neg hb, List.map_cons, List.map_cons, ih, toByte_literal, toByte_literal]

theorem decode_normalize (h : Readable keeps plain) (bytes : List UInt8) :
    decode (normalize keeps plain bytes) = decode bytes := by
  have hsymbols : (symbols keeps (normalize keeps plain bytes)).map Symbol.toByte = decode (normalize keeps plain bytes) :=
    map_toByte_symbols _
  rw [← hsymbols, symbols_normalize h, map_toByte_symbols]

/-- Without delimiters the symbols are the bytes. -/
theorem symbols_of_not_keeps (bytes : List UInt8) : symbols (fun _ => false) bytes = (decode bytes).map .byte := by
  rw [decode, List.map_map]
  refine (List.map_id' _).symm.trans (List.map_congr_left fun s hs => ?_)
  cases s with
  | kept b => exact absurd (valid_symbols bytes _ hs) Bool.false_ne_true
  | byte b => rfl

theorem symbols_eq_iff_decode_eq {a b : List UInt8} :
    symbols (fun _ => false) a = symbols (fun _ => false) b ↔ decode a = decode b := by
  constructor
  · intro h
    rw [decode, h, ← decode]
  · intro h
    rw [symbols_of_not_keeps, h, ← symbols_of_not_keeps]

/-! ### Bytes without delimiters -/

/-- The text in which every byte that is not plain is escaped. -/
def escapeBytes (plain : UInt8 → Bool) (bytes : List UInt8) : List UInt8 := encode plain (bytes.map .byte)

@[simp] theorem escapeBytes_nil : escapeBytes plain [] = [] := rfl

theorem escapeBytes_cons (b : UInt8) (bytes : List UInt8) :
    escapeBytes plain (b :: bytes) = (if plain b then [b] else escape b) ++ escapeBytes plain bytes := rfl

/-- **Reading gives back the bytes that were escaped.** -/
theorem decode_escapeBytes (hpercent : plain 37 = false) (bytes : List UInt8) :
    decode (escapeBytes plain bytes) = bytes := by
  have hreadable : Readable (fun _ => false) plain := ⟨rfl, hpercent, fun h => absurd h Bool.false_ne_true⟩
  have hvalid : ∀ s ∈ bytes.map Symbol.byte, s.Valid (fun _ => false) := by
    intro s hs
    obtain ⟨b, -, rfl⟩ := List.mem_map.mp hs
    trivial
  rw [decode, escapeBytes, symbols_encode hreadable hvalid, List.map_map]
  exact List.map_id bytes

theorem decode_cons {b : UInt8} (h : b ≠ 37) (rest : List UInt8) : decode (b :: rest) = b :: decode rest := by
  rw [decode, symbols_cons h, List.map_cons, toByte_literal, ← decode]

/-- A text without escapes stands for itself. -/
theorem decode_eq_self {bytes : List UInt8} (h : 37 ∉ bytes) : decode bytes = bytes := by
  induction bytes with
  | nil => rfl
  | cons b bytes ih =>
    rw [List.mem_cons, not_or] at h
    rw [decode_cons (Ne.symm h.1), ih h.2]

/-- The bytes of an escaped text: plain ones, and those of escapes. -/
theorem mem_escapeBytes {b : UInt8} {bytes : List UInt8} (h : b ∈ escapeBytes plain bytes) :
    (plain b ∧ b ∈ bytes) ∨ b = 37 ∨ (hexDigit b).isSome := by
  induction bytes with
  | nil => cases h
  | cons c bytes ih =>
    rw [escapeBytes_cons, List.mem_append] at h
    rcases h with h | h
    · split_ifs at h with hplain
      · obtain rfl := List.mem_singleton.mp h
        exact .inl ⟨hplain, List.mem_cons_self⟩
      · have hc := c.toNat_lt
        simp only [escape, List.mem_cons, List.not_mem_nil, or_false] at h
        rcases h with rfl | rfl | rfl
        · exact .inr (.inl rfl)
        · rw [hexDigit_upperDigit (by omega)]
          exact .inr (.inr rfl)
        · rw [hexDigit_upperDigit (by omega)]
          exact .inr (.inr rfl)
    · exact (ih h).imp_left fun hmem => ⟨hmem.1, List.mem_cons_of_mem _ hmem.2⟩

/-! ### Complete escapes -/

/-- No `%` of the text stands for itself: two digits stand behind each. -/
def Complete (bytes : List UInt8) : Prop :=
  ∀ before after, bytes = before ++ 37 :: after →
    ∃ high low rest, after = high :: low :: rest ∧ (escaped high low).isSome

theorem complete_nil : Complete [] := by
  intro before after h
  cases before <;> cases h

theorem Complete.cons {b : UInt8} (hb : b ≠ 37) {bytes : List UInt8} (h : Complete bytes) :
    Complete (b :: bytes) := by
  intro before after hsplit
  cases before with
  | nil => exact absurd (List.cons.inj hsplit).1 hb
  | cons c before => exact h before after (List.cons.inj hsplit).2

theorem upperDigit_ne_percent {n : ℕ} (h : n < 16) : upperDigit n ≠ 37 := by
  revert n
  decide

theorem complete_escapeBytes (hpercent : plain 37 = false) (bytes : List UInt8) :
    Complete (escapeBytes plain bytes) := by
  induction bytes with
  | nil => exact complete_nil
  | cons b bytes ih =>
    have hb := b.toNat_lt
    rw [escapeBytes_cons]
    split_ifs with hplain
    · refine ih.cons ?_
      rintro rfl
      exact Bool.false_ne_true (hpercent.symm.trans hplain)
    · -- The `%` of an escape has its digits behind it, and the digits are no `%`.
      intro before after hsplit
      cases before with
      | nil =>
        obtain ⟨-, rfl⟩ := List.cons.inj hsplit
        exact ⟨_, _, _, rfl, by rw [escaped_escape]; rfl⟩
      | cons c before =>
        have hdigits := (ih.cons (upperDigit_ne_percent (by omega : b.toNat % 16 < 16))).cons
          (upperDigit_ne_percent (by omega : b.toNat / 16 < 16))
        exact hdigits before after (List.cons.inj hsplit).2

end AgentVoice.Foundations.Percent

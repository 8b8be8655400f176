import AgentVoice.Foundations.Text
import Mathlib.Data.Option.Basic
import Mathlib.Data.Fin.Basic

/-!
# Base64 text

Bytes as base64 text in the alphabet for URLs and without padding. Three bytes are four characters; one or two bytes
at the end are two or three characters, of which the last one has its unused bits zero. What is encoded is decoded
(`decode_encode`).
-/

namespace AgentVoice.Foundations.Base64Url

/-- The alphabet. -/
def alphabet : List Char :=
  "ABCDEFGHIJKLMNOPQRSTUVWXYZabcdefghijklmnopqrstuvwxyz0123456789-_".toList

/-- The character of six bits. -/
def sextetChar (n : ℕ) : Char := alphabet.getD n 'A'

/-- The six bits of a character. -/
def readSextet (c : Char) : Option ℕ := (List.range 64).find? fun n => sextetChar n = c

/-- The characters of bytes. -/
def encodeChars : List UInt8 → List Char
  | [] => []
  | [a] => [sextetChar (a.toNat / 4), sextetChar (a.toNat % 4 * 16)]
  | [a, b] =>
    [sextetChar (a.toNat / 4), sextetChar (a.toNat % 4 * 16 + b.toNat / 16), sextetChar (b.toNat % 16 * 4)]
  | a :: b :: c :: rest =>
    sextetChar (a.toNat / 4) :: sextetChar (a.toNat % 4 * 16 + b.toNat / 16) ::
      sextetChar (b.toNat % 16 * 4 + c.toNat / 64) :: sextetChar (c.toNat % 64) :: encodeChars rest

/-- The bytes of characters. -/
def decodeChars : List Char → Option (List UInt8)
  | [] => some []
  | [_] => none
  | [w, x] => do
    let w ← readSextet w
    let x ← readSextet x
    if x % 16 = 0 then some [UInt8.ofNat (w * 4 + x / 16)] else none
  | [w, x, y] => do
    let w ← readSextet w
    let x ← readSextet x
    let y ← readSextet y
    if y % 4 = 0 then some [UInt8.ofNat (w * 4 + x / 16), UInt8.ofNat (x % 16 * 16 + y / 4)] else none
  | w :: x :: y :: z :: rest => do
    let w ← readSextet w
    let x ← readSextet x
    let y ← readSextet y
    let z ← readSextet z
    let rest ← decodeChars rest
    some (UInt8.ofNat (w * 4 + x / 16) :: UInt8.ofNat (x % 16 * 16 + y / 4) :: UInt8.ofNat (y % 4 * 64 + z) :: rest)

/-- The text of bytes. -/
def encode (bytes : List UInt8) : String := String.ofList (encodeChars bytes)

/-- The bytes of a text. -/
def decode (text : String) : Option (List UInt8) := decodeChars text.toList

theorem readSextet_sextetChar {n : ℕ} (h : n < 64) : readSextet (sextetChar n) = some n := by
  have hall : ∀ m : Fin 64, readSextet (sextetChar m) = some m.val := by decide +kernel
  exact hall ⟨n, h⟩

example : readSextet '+' = none := by decide +kernel

theorem ofNat_toNat_eq {n : ℕ} {a : UInt8} (h : n = a.toNat) : UInt8.ofNat n = a := by
  rw [h, UInt8.ofNat_toNat]

theorem decodeChars_encodeChars (bytes : List UInt8) : decodeChars (encodeChars bytes) = some bytes := by
  induction bytes using encodeChars.induct with
  | case1 => rfl
  | case2 a =>
    have ha := a.toNat_lt
    simp only [encodeChars, decodeChars, readSextet_sextetChar (n := a.toNat / 4) (by omega),
      readSextet_sextetChar (n := a.toNat % 4 * 16) (by omega), Option.bind_eq_bind, Option.bind_some]
    rw [if_pos (by omega), ofNat_toNat_eq (a := a) (by omega)]
  | case3 a b =>
    have ha := a.toNat_lt
    have hb := b.toNat_lt
    simp only [encodeChars, decodeChars, readSextet_sextetChar (n := a.toNat / 4) (by omega),
      readSextet_sextetChar (n := a.toNat % 4 * 16 + b.toNat / 16) (by omega),
      readSextet_sextetChar (n := b.toNat % 16 * 4) (by omega), Option.bind_eq_bind, Option.bind_some]
    rw [if_pos (by omega), ofNat_toNat_eq (a := a) (by omega), ofNat_toNat_eq (a := b) (by omega)]
  | case4 a b c rest ih =>
    have ha := a.toNat_lt
    have hb := b.toNat_lt
    have hc := c.toNat_lt
    simp only [encodeChars, decodeChars, readSextet_sextetChar (n := a.toNat / 4) (by omega),
      readSextet_sextetChar (n := a.toNat % 4 * 16 + b.toNat / 16) (by omega),
      readSextet_sextetChar (n := b.toNat % 16 * 4 + c.toNat / 64) (by omega),
      readSextet_sextetChar (n := c.toNat % 64) (by omega), ih, Option.bind_eq_bind, Option.bind_some]
    rw [ofNat_toNat_eq (a := a) (by omega), ofNat_toNat_eq (a := b) (by omega), ofNat_toNat_eq (a := c) (by omega)]

/-- **What is encoded is decoded.** -/
theorem decode_encode (bytes : List UInt8) : decode (encode bytes) = some bytes := by
  rw [decode, encode, String.toList_ofList, decodeChars_encodeChars]

end AgentVoice.Foundations.Base64Url

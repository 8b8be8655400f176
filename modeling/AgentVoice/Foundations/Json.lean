import Mathlib.Algebra.Group.Int.Defs
import Mathlib.Algebra.Group.Nat.Defs
import Mathlib.Data.Int.Basic

/-!
# JSON values

A JSON value as a parser delivers it, and the partial accessors: a field of an object, a text, an integer. A number
is an integer where it is written as one that fits 64 bits, and a float otherwise, which is kept as its text.
-/

namespace AgentVoice.Foundations

/-- A JSON value. -/
inductive Json where
  | null
  | bool (b : Bool)
  | int (n : ℤ)
  | float (text : String)
  | str (s : String)
  | arr (items : List Json)
  | obj (fields : List (String × Json))

namespace Json

/-- `Value::get`, by name. -/
def get (key : String) : Json → Option Json
  | .obj fields => fields.lookup key
  | _ => none

/-- `Value::as_str`. -/
def asStr : Json → Option String
  | .str s => some s
  | _ => none

/-- `Value::as_u64`. -/
def asU64 : Json → Option ℕ
  | .int n => if 0 ≤ n ∧ n < 2 ^ 64 then some n.toNat else none
  | _ => none

theorem asU64_lt {value : Json} {n : ℕ} (h : value.asU64 = some n) : n < 2 ^ 64 := by
  cases value with
  | int m =>
    rw [asU64] at h
    split at h
    next hfits =>
      obtain rfl := Option.some.inj h
      omega
    next => cases h
  | _ => cases h

/-- `Value::as_i64`. -/
def asI64 : Json → Option ℤ
  | .int n => if -2 ^ 63 ≤ n ∧ n < 2 ^ 63 then some n else none
  | _ => none

/-- A text field. -/
def strAt (key : String) (value : Json) : Option String := (value.get key).bind asStr

end Json

end AgentVoice.Foundations

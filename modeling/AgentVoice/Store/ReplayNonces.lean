import AgentVoice.Foundations.Rfc3339
import AgentVoice.Foundations.Text
import AgentVoice.Store.Error

/-!
# Replay nonces in the store

`PaStore::consume_replay_nonce`: a nonce is kept with the text of the instant until which it stays
reserved, expired rows are deleted before each insert, and a nonce that is still there is refused.
The expiry comparison is a comparison of texts inside SQL; `replayTimestamps_lt_iff` shows that it
is the comparison of the seconds they write.
-/

namespace AgentVoice.Store

open AgentVoice.Foundations

/-- `REPLAY_RETENTION_SECONDS`. -/
def replayRetentionSeconds : ℤ := 300

/-- A row of `replay_nonces`; the unused `id` and `created_at` columns are left out. -/
structure NonceRow where
  nonce : String
  consumedAt : String
  expiresAt : String
  deriving DecidableEq, Repr

/-- `validate_replay_nonce`: 16 to 128 bytes of ASCII letters, digits, `_` and `-`. -/
def validateReplayNonce (nonce : String) : StoreResult Unit :=
  require ((16 ≤ byteLength nonce ∧ byteLength nonce ≤ 128) ∧
    nonce.toList.all (fun c => isAsciiAlphanumeric c || c == '_' || c == '-') = true) (.invalidInput "nonce")

/-- `replay_timestamps`: the texts of the consumption and of the end of the retention. -/
def replayTimestamps (now : Int64) : StoreResult (String × String) := do
  let consumedAt ← okOr (OffsetDateTime.fromUnixTimestamp now.toInt) (.invalidInput "now")
  let expiresAt ← okOr (consumedAt.toUtc.checkedAdd (replayRetentionSeconds * second)) (.invalidInput "now")
  let consumedText ← okOr consumedAt.toUtc.format (.invalidInput "now")
  let expiresText ← okOr expiresAt.format (.invalidInput "now")
  return (consumedText, expiresText)

/-- The rows that `DELETE FROM replay_nonces WHERE expires_at <= ?1` leaves. -/
def unexpired (consumedText : String) (rows : List NonceRow) : List NonceRow :=
  rows.filter fun r => decide (consumedText < r.expiresAt)

/-- `PaStore::consume_replay_nonce`; the insert does nothing when the nonce is still there. -/
def consumeReplayNonce (nonce : String) (now : Int64) : Tx StoreError (List NonceRow) Bool := do
  Tx.ofResult (validateReplayNonce nonce)
  let (consumedText, expiresText) ← Tx.ofResult (replayTimestamps now)
  Tx.write (unexpired consumedText)
  let present ← Tx.read fun rows => rows.any (·.nonce == nonce)
  if present then return false
  else do
    Tx.write (· ++ [⟨nonce, consumedText, expiresText⟩])
    return true

/-! ### What the timestamps are -/

/-- The timestamps of a second are the texts of that second and of the one 300 seconds later. -/
theorem replayTimestamps_eq_ok {now : Int64} {c e : String} (h : replayTimestamps now = .ok (c, e)) :
    (⟨now.toInt * second, 0⟩ : OffsetDateTime).format = some c ∧
      (⟨(now.toInt + replayRetentionSeconds) * second, 0⟩ : OffsetDateTime).format = some e := by
  obtain ⟨consumedAt, hconsumed, h⟩ := bind_eq_ok_iff.mp h
  obtain ⟨expiresAt, hexpires, h⟩ := bind_eq_ok_iff.mp h
  obtain ⟨consumedText, hct, h⟩ := bind_eq_ok_iff.mp h
  obtain ⟨expiresText, het, h⟩ := bind_eq_ok_iff.mp h
  obtain ⟨rfl, rfl⟩ := Prod.mk.inj (Except.ok.inj h)
  rw [okOr_eq_ok_iff] at hconsumed hexpires hct het
  obtain ⟨rfl, -⟩ := OffsetDateTime.fromUnixTimestamp_eq_some_iff.mp hconsumed
  obtain ⟨rfl, -⟩ := OffsetDateTime.checkedAdd_eq_some_iff.mp hexpires
  refine ⟨hct, ?_⟩
  rw [Int.add_mul]
  exact het

theorem wholeSecond_lt_iff {s t : ℤ} {a b : String} (ha : (⟨s * second, 0⟩ : OffsetDateTime).format = some a)
    (hb : (⟨t * second, 0⟩ : OffsetDateTime).format = some b) : a < b ↔ s < t := by
  rw [OffsetDateTime.format_lt_iff rfl rfl (by simp [OffsetDateTime.nanosecond])
    (by simp [OffsetDateTime.nanosecond]) ha hb]
  simp only [second]
  omega

/-- **The expiry test on texts is the test on seconds.** A row consumed at `s` is still reserved at `t`
exactly when `t` is less than 300 seconds after `s`. -/
theorem replayTimestamps_lt_iff {s t : Int64} {cs es ct et : String} (hs : replayTimestamps s = .ok (cs, es))
    (ht : replayTimestamps t = .ok (ct, et)) : ct < es ↔ t.toInt < s.toInt + replayRetentionSeconds :=
  wholeSecond_lt_iff (replayTimestamps_eq_ok ht).1 (replayTimestamps_eq_ok hs).2

theorem replayTimestamps_le {s t : Int64} {cs es ct et : String} (hs : replayTimestamps s = .ok (cs, es))
    (ht : replayTimestamps t = .ok (ct, et)) (hle : s.toInt ≤ t.toInt) : ¬ ct < cs := by
  rw [wholeSecond_lt_iff (replayTimestamps_eq_ok ht).1 (replayTimestamps_eq_ok hs).1]
  omega

/-! ### What one call does -/

/-- A call either fails before it touches the table, refuses a nonce that is still there, or adds it;
in the last two cases the expired rows are gone. -/
theorem consumeReplayNonce_cases {nonce : String} {now : Int64} {rows rows' : List NonceRow}
    {r : Except StoreError Bool} (h : (consumeReplayNonce nonce now).commit rows = (r, rows')) :
    (∃ e, r = .error e ∧ rows' = rows) ∨
      ∃ c e, replayTimestamps now = .ok (c, e) ∧
        ((r = .ok false ∧ rows' = unexpired c rows ∧ ∃ row ∈ rows', row.nonce = nonce) ∨
          (r = .ok true ∧ rows' = unexpired c rows ++ [⟨nonce, c, e⟩] ∧
            ∀ row ∈ unexpired c rows, row.nonce ≠ nonce)) := by
  cases r with
  | error e => exact Or.inl ⟨e, rfl, (Tx.commit_eq_error h).2⟩
  | ok b =>
    right
    have hrun := Tx.commit_eq_ok_iff.mp h
    simp only [consumeReplayNonce, Tx.ofResult_bind_eq_ok_iff, Tx.write_bind, Tx.read_bind] at hrun
    obtain ⟨-, -, ⟨c, e⟩, htimes, hinsert⟩ := hrun
    refine ⟨c, e, htimes, ?_⟩
    by_cases hpresent : (unexpired c rows).any (·.nonce == nonce) = true
    · rw [if_pos hpresent] at hinsert
      cases hinsert
      obtain ⟨row, hrow, hnonce⟩ := List.any_eq_true.mp hpresent
      exact Or.inl ⟨rfl, rfl, row, hrow, by simpa using hnonce⟩
    · rw [if_neg hpresent] at hinsert
      cases hinsert
      refine Or.inr ⟨rfl, rfl, fun row hrow hnonce => hpresent ?_⟩
      exact List.any_eq_true.mpr ⟨row, hrow, by simpa using hnonce⟩

/-- A call sees the table only through its unexpired rows. -/
theorem consumeReplayNonce_congr {nonce : String} {now : Int64} {rows rows' : List NonceRow}
    (h : ∀ c e, replayTimestamps now = .ok (c, e) → unexpired c rows = unexpired c rows') :
    (consumeReplayNonce nonce now).run rows = (consumeReplayNonce nonce now).run rows' := by
  unfold consumeReplayNonce
  cases validateReplayNonce nonce with
  | error e => rfl
  | ok u =>
    cases htimes : replayTimestamps now with
    | error e => rfl
    | ok times =>
      obtain ⟨c, e⟩ := times
      simp only [Tx.ofResult_bind_of_ok rfl, Tx.write_bind, h c e htimes]

theorem mem_unexpired {c : String} {rows : List NonceRow} {row : NonceRow} :
    row ∈ unexpired c rows ↔ row ∈ rows ∧ c < row.expiresAt := by
  simp [unexpired]

end AgentVoice.Store

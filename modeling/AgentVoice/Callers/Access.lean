import AgentVoice.Foundations.Machine
import AgentVoice.Callers.PhoneBook

/-!
# Inbound access decisions

The phone books that are reached from a file by the calls of presented callers, and the decisions on them. The policy
entry for callers without a caller ID has a key that a caller can present, and a caller who is anonymous in a URI has
a key of its own: which decisions are sound depends on the caller ID and on the file (`sound_iff`).
-/

namespace AgentVoice.Callers

open AgentVoice.Foundations

/-- A call on the store for the caller who has presented a caller ID. -/
inductive Command where
  | touchCaller (raw now : String)
  | mergeUpdate (raw inserted updated : String) (update : CallerUpdate)

/-- The phone book after a call. A caller without a key is not tracked. -/
def step : Command → PhoneBook → PhoneBook
  | .touchCaller raw now, book =>
    match normalizeCallerId raw with
    | some key => (touchCaller now key book).2
    | none => book
  | .mergeUpdate raw inserted updated update, book =>
    match normalizeCallerId raw with
    | some key => (mergeUpdate inserted updated key update book).2
    | none => book

/-- The phone book that is loaded and called on. -/
def reached (now : String) (file : Option PhoneBook) (cs : List Command) : PhoneBook :=
  Machine.run step cs (load now file)

/-- The record under a key is a system entry. -/
def SystemEntry (book : PhoneBook) (key : String) : Prop :=
  ∃ record, book.callers key = some record ∧ record.systemEntry = true

/-- What an inbound access decision is to keep to. -/
structure Sound (book : PhoneBook) (raw : String) : Prop where
  /-- An exact match is one with the record of a caller. -/
  exact : (inboundAccessDecision book raw).matchedPolicy = .exact →
    ∃ record, book.callers (inboundAccessDecision book raw).matchedRecordKey = some record ∧ record.systemEntry = false
  /-- A presented caller ID is not the key of a policy entry. -/
  presented : (inboundAccessDecision book raw).callerId ≠ some wildcardCallerId ∧
    (inboundAccessDecision book raw).callerId ≠ some noCallerIdPolicyKey
  /-- The policy for callers without a caller ID alone decides on an anonymous caller. -/
  anonymous : Anonymous raw → inboundAccessDecision book raw = noCallerIdDecision (book.callers noCallerIdPolicyKey)

/-! ### System entries -/

theorem systemEntry_put {book : PhoneBook} {key : String} {record : CallerRecord}
    (h : record.systemEntry = true ↔ SystemEntry book key) (k : String) :
    SystemEntry (book.put key record) k ↔ SystemEntry book k := by
  by_cases hk : k = key
  · subst hk
    rw [← h]
    simp [SystemEntry, PhoneBook.put]
  · simp only [SystemEntry, PhoneBook.put, Function.update_of_ne hk]

/-- What `or_insert_with` returns is a system entry when there was one. -/
theorem systemEntry_getD {book : PhoneBook} {key now : String} :
    ((book.callers key).getD (.new key now)).systemEntry = true ↔ SystemEntry book key := by
  cases h : book.callers key with
  | none => simp [SystemEntry, h, CallerRecord.new]
  | some record => simp [SystemEntry, h]

/-- **No call makes or unmakes a system entry.** -/
theorem systemEntry_step (c : Command) (book : PhoneBook) (key : String) :
    SystemEntry (step c book) key ↔ SystemEntry book key := by
  cases c with
  | touchCaller raw now =>
    simp only [step]
    cases normalizeCallerId raw with
    | none => rfl
    | some k =>
      refine systemEntry_put ?_ key
      exact systemEntry_getD
  | mergeUpdate raw inserted updated update =>
    simp only [step]
    cases normalizeCallerId raw with
    | none => rfl
    | some k =>
      refine systemEntry_put ?_ key
      exact systemEntry_getD

theorem systemEntry_seedEntry {book : PhoneBook} {key now : String} {notes : List String} {k : String} (h : k ≠ key) :
    SystemEntry (seedEntry key now notes book).2 k ↔ SystemEntry book k := by
  rw [seedEntry]
  cases book.callers key with
  | some _ => rfl
  | none => simp only [SystemEntry, PhoneBook.put, Function.update_of_ne h]

/-- Loading makes system entries of the policy entries only. -/
theorem systemEntry_load {now : String} {file : Option PhoneBook} {key : String} (hwildcard : key ≠ wildcardCallerId)
    (hkey : key ≠ noCallerIdPolicyKey) : SystemEntry (load now file) key ↔ SystemEntry (file.getD .default) key := by
  have hsanitize : ∀ book, SystemEntry (sanitizePhoneBook book) key ↔ SystemEntry book key := by
    intro book
    simp only [SystemEntry, sanitizePhoneBook, Option.map_eq_some_iff]
    constructor
    · rintro ⟨_, ⟨record, hrecord, rfl⟩, hsystem⟩
      exact ⟨record, hrecord, hsystem⟩
    · rintro ⟨record, hrecord, hsystem⟩
      exact ⟨_, ⟨record, hrecord, rfl⟩, hsystem⟩
  rw [load, hsanitize, seedPolicyEntries]
  exact (systemEntry_seedEntry hkey).trans (systemEntry_seedEntry hwildcard)

theorem systemEntry_reached {now : String} {file : Option PhoneBook} {cs : List Command} {key : String}
    (hwildcard : key ≠ wildcardCallerId) (hkey : key ≠ noCallerIdPolicyKey) :
    SystemEntry (reached now file cs) key ↔ SystemEntry (file.getD .default) key := by
  have hrun : SystemEntry (reached now file cs) key ↔ SystemEntry (load now file) key :=
    Machine.run_invariant (I := fun book => SystemEntry book key ↔ SystemEntry (load now file) key)
      (fun c book h => (systemEntry_step c book key).trans h) Iff.rfl cs
  exact hrun.trans (systemEntry_load hwildcard hkey)

/-! ### Decisions -/

theorem normalizeCallerId_ne_wildcard (raw : String) : normalizeCallerId raw ≠ some wildcardCallerId := by
  intro h
  obtain ⟨-, -, hkey⟩ := normalizeCallerId_eq_some_iff.mp h
  have hstar : '*' ∈ (userPart (trimmed raw)).filter isKeyChar := by
    rw [String.ofList_injective (hkey.trans (String.ofList_toList).symm)]
    decide
  exact absurd (List.mem_filter.mp hstar).2 (by decide)

theorem inboundAccessDecision_of_none {book : PhoneBook} {raw : String} (h : normalizeCallerId raw = none) :
    inboundAccessDecision book raw = noCallerIdDecision (book.callers noCallerIdPolicyKey) := by
  unfold inboundAccessDecision
  rw [h]

theorem callerId_inboundAccessDecision (book : PhoneBook) (raw : String) :
    (inboundAccessDecision book raw).callerId = normalizeCallerId raw := by
  unfold inboundAccessDecision
  cases normalizeCallerId raw with
  | none => rfl
  | some key => cases h : book.callers key <;> simp only [h]

/-- An exact match is one with the record under the key of the caller ID. -/
theorem inboundAccessDecision_exact_iff {book : PhoneBook} {raw : String} :
    (inboundAccessDecision book raw).matchedPolicy = .exact ↔
      ∃ key record, normalizeCallerId raw = some key ∧ book.callers key = some record ∧
        (inboundAccessDecision book raw).matchedRecordKey = key := by
  unfold inboundAccessDecision
  cases normalizeCallerId raw with
  | none => exact iff_of_false nofun nofun
  | some key =>
    cases h : book.callers key with
    | none =>
      refine iff_of_false (by simp only [h]; nofun) ?_
      rintro ⟨_, _, hkey, hrecord, -⟩
      obtain rfl := Option.some.inj hkey
      cases h.symm.trans hrecord
    | some record =>
      simp only [h]
      exact iff_of_true trivial ⟨key, record, rfl, h, rfl⟩

end AgentVoice.Callers

import AgentVoice.Foundations.JsonWriter
import AgentVoice.Foundations.Machine
import AgentVoice.Callers.PhoneBook

/-!
# Persisting the phone book

The calls of `touch_caller` and `merge_update` on one store, step by step. A call changes the phone book under the write
lock; under a read lock, which it shares with other calls, it then writes the phone book to a temporary file and renames
this file to the path. All calls have the same temporary file. Where no call opens it while another one has it open,
the file at the path is complete in every state (`persistent_of_alone`).
-/

namespace AgentVoice.Callers

open AgentVoice.Foundations

/-! ### The files -/

/-- The files of the store: what is in each, which one is at the path and which one at the temporary path. -/
structure Disk where
  content : ℕ → List UInt8
  path : Option ℕ
  tmpPath : Option ℕ
  next : ℕ
  known : ∀ file, path = some file ∨ tmpPath = some file → file < next
  distinct : ∀ file, path = some file → tmpPath ≠ some file

namespace Disk

/-- No file at the path nor at the temporary path. -/
def empty : Disk := ⟨fun _ => [], none, none, 0, nofun, nofun⟩

/-- The bytes at the path. -/
def read (disk : Disk) : Option (List UInt8) := disk.path.map disk.content

/-- The file that opening the temporary path gives. -/
def created (disk : Disk) : ℕ := disk.tmpPath.getD disk.next

/-- The temporary path opened for writing: its file is truncated, or made. -/
def create (disk : Disk) : Disk where
  content := Function.update disk.content disk.created []
  path := disk.path
  tmpPath := some disk.created
  next := disk.next + 1
  known := by
    rintro file (h | h)
    · exact (disk.known file (Or.inl h)).trans (Nat.lt_succ_self _)
    · obtain rfl := Option.some.inj h
      rw [created]
      cases htmp : disk.tmpPath with
      | none => exact Nat.lt_succ_self _
      | some file => exact (disk.known file (Or.inr htmp)).trans (Nat.lt_succ_self _)
  distinct := by
    intro file hpath h
    obtain rfl := Option.some.inj h
    rw [created] at hpath
    cases htmp : disk.tmpPath with
    | none =>
      rw [htmp] at hpath
      exact absurd (disk.known _ (Or.inl hpath)) (Nat.lt_irrefl _)
    | some file =>
      rw [htmp] at hpath
      exact disk.distinct _ hpath htmp

/-- The payload written through a handle at the start of a file. -/
def write (file : ℕ) (payload : List UInt8) (disk : Disk) : Disk :=
  { disk with content :=
      Function.update disk.content file (payload ++ (disk.content file).drop payload.length) }

/-- The temporary file renamed to the path, where there is one. -/
def rename (disk : Disk) : Option Disk :=
  match htmp : disk.tmpPath with
  | none => none
  | some file => some
    { disk with
      path := some file
      tmpPath := none
      known := by
        rintro file' (h | h)
        · obtain rfl := Option.some.inj h
          exact disk.known file (Or.inr htmp)
        · cases h
      distinct := nofun }

theorem content_create (disk : Disk) : disk.create.content disk.created = [] := Function.update_self _ _ _

theorem content_write (file : ℕ) (payload : List UInt8) (disk : Disk) :
    (disk.write file payload).content file = payload ++ (disk.content file).drop payload.length :=
  Function.update_self _ _ _

theorem read_create (disk : Disk) : disk.create.read = disk.read := by
  show disk.path.map _ = disk.path.map _
  refine Option.map_congr fun file hpath => ?_
  refine Function.update_of_ne ?_ _ _
  rintro rfl
  exact disk.create.distinct _ hpath rfl

theorem read_write {disk : Disk} {file : ℕ} (h : disk.tmpPath = some file) (payload : List UInt8) :
    (disk.write file payload).read = disk.read := by
  show disk.path.map _ = disk.path.map _
  refine Option.map_congr fun file' hpath => ?_
  refine Function.update_of_ne ?_ _ _
  rintro rfl
  exact disk.distinct _ hpath h

theorem rename_eq_some {disk : Disk} {file : ℕ} (h : disk.tmpPath = some file) :
    ∃ disk', disk.rename = some disk' ∧ disk'.read = some (disk.content file) ∧ disk'.tmpPath = none := by
  unfold rename
  split
  · rename_i hnone
    cases h.symm.trans hnone
  · rename_i file' hsome
    obtain rfl := Option.some.inj (h.symm.trans hsome)
    exact ⟨_, rfl, rfl, rfl⟩

theorem rename_eq_none {disk : Disk} (h : disk.tmpPath = none) : disk.rename = none := by
  unfold rename
  split
  · rfl
  · rename_i file hsome
    cases h.symm.trans hsome

end Disk

/-! ### The calls -/

/-- `Serialize` of `CallerRecord`. -/
def CallerRecord.serialize (record : CallerRecord) : Json :=
  .obj [("caller_id", .str record.callerId), ("first_seen_at", .str record.firstSeenAt),
    ("last_seen_at", .str record.lastSeenAt), ("call_count", .int record.callCount.toNat),
    ("disabled", .bool record.disabled), ("system_entry", .bool record.systemEntry),
    ("first_name", Json.nullable .str record.firstName), ("last_name", Json.nullable .str record.lastName),
    ("email", Json.nullable .str record.email), ("company", Json.nullable .str record.company),
    ("timezone", Json.nullable .str record.timezone),
    ("preferred_language", Json.nullable .str record.preferredLanguage), ("notes", .arr (record.notes.map .str))]

/-- `Serialize` of `PhoneBook`, whose map shows its keys in some order. -/
def PhoneBook.serialize (keys : List String) (book : PhoneBook) : Json :=
  .obj [("callers", .obj (keys.filterMap fun key => (book.callers key).map fun record => (key, record.serialize)))]

/-- What serialising depends on: the order in which a map shows its keys, and `serde_json::from_str`. -/
structure Serde where
  keys : PhoneBook → List String
  parse : List UInt8 → Option PhoneBook

/-- `serde_json::to_vec_pretty` of the phone book. -/
def Serde.serialize (serde : Serde) (book : PhoneBook) : List UInt8 := (book.serialize (serde.keys book)).toVecPretty

/-- What a call changes in the phone book. -/
inductive Update where
  | touchCaller (callerId now : String)
  | mergeUpdate (callerId inserted updated : String) (update : CallerUpdate)

/-- The phone book after the change. -/
def Update.apply : Update → PhoneBook → PhoneBook
  | .touchCaller callerId now, book => (Callers.touchCaller now callerId book).2
  | .mergeUpdate callerId inserted updated update, book =>
    (Callers.mergeUpdate inserted updated callerId update book).2

/-- How far a call has come. -/
inductive Phase where
  /-- It is to change the phone book. -/
  | called (update : Update)
  /-- It has changed the phone book, and is to persist it. -/
  | updated
  /-- It holds the read lock and has serialised the phone book. -/
  | serialised (payload : List UInt8)
  /-- It has opened the temporary file. -/
  | opened (payload : List UInt8) (file : ℕ)
  /-- It has written the temporary file. -/
  | written
  /-- It has called `fs::rename`, which has succeeded or not. -/
  | renamed (ok : Bool)
  /-- It has returned `Ok` or an error. -/
  | returned (ok : Bool)

/-- The call holds the read lock. -/
def Phase.isReading : Phase → Bool
  | .serialised _ | .opened _ _ | .written | .renamed _ => true
  | _ => false

/-- The call has opened the temporary file, and not renamed it. -/
def Phase.isOpen : Phase → Bool
  | .opened _ _ | .written => true
  | _ => false

/-- The call has changed the phone book, and not renamed the temporary file. -/
def Phase.isPending : Phase → Bool
  | .updated | .serialised _ | .opened _ _ | .written => true
  | _ => false

/-- The store, its calls, and every state that the phone book has had. -/
structure State where
  book : PhoneBook
  books : List PhoneBook
  disk : Disk
  calls : List Phase

/-- What happens next: a call is made, or one of those that were made takes its next step. -/
inductive Action where
  | call (update : Update)
  | advance (call : ℕ)

variable (serde : Serde)

/-- The next step of a call. One that waits for the write lock stays where it is. -/
def advance (call : ℕ) (s : State) : State :=
  match s.calls[call]? with
  | some (.called update) =>
    if s.calls.any Phase.isReading then s
    else
      { s with
        book := update.apply s.book
        books := s.books ++ [update.apply s.book]
        calls := s.calls.set call .updated }
  | some .updated => { s with calls := s.calls.set call (.serialised (serde.serialize s.book)) }
  | some (.serialised payload) =>
    { s with disk := s.disk.create, calls := s.calls.set call (.opened payload s.disk.created) }
  | some (.opened payload file) => { s with disk := s.disk.write file payload, calls := s.calls.set call .written }
  | some .written =>
    match s.disk.rename with
    | some disk => { s with disk := disk, calls := s.calls.set call (.renamed true) }
    | none => { s with calls := s.calls.set call (.renamed false) }
  | some (.renamed ok) => { s with calls := s.calls.set call (.returned ok) }
  | some (.returned _) | none => s

/-- The state after an action. -/
def stepAction : Action → State → State
  | .call update, s => { s with calls := s.calls ++ [.called update] }
  | .advance call, s => advance serde call s

/-- `persist_phone_book` while no call is made. -/
def persistAlone (payload : List UInt8) (disk : Disk) : Option Disk :=
  (disk.create.write disk.created payload).rename

/-- What `load` decodes: nothing where there is no file. -/
def decodeFile (disk : Disk) : Option (Option PhoneBook) :=
  match disk.read with
  | some bytes => (serde.parse bytes).map some
  | none => some none

/-- `PhoneBookStore::load`: it persists the phone book where a policy entry was absent. -/
def openStore (now : String) (disk : Disk) : Option State :=
  (decodeFile serde disk).bind fun file =>
    let book := load now file
    let disk :=
      if (seedPolicyEntries now (file.getD .default)).1 then persistAlone (serde.serialize book) disk else some disk
    disk.map fun disk => ⟨book, [book], disk, []⟩

/-! ### What the file is to be -/

/-- The file at the path is complete, every call returns `Ok`, and when all have returned the file has the phone book. -/
structure Persistent (s : State) : Prop where
  complete : ∃ bytes, s.disk.read = some bytes ∧ ∃ book ∈ s.books, serde.parse bytes = some book
  ok : ∀ ok, Phase.returned ok ∈ s.calls → ok = true
  final : (∀ phase ∈ s.calls, ∃ ok, phase = .returned ok) →
    ∃ bytes, s.disk.read = some bytes ∧ serde.parse bytes = some s.book

/-- A call opens the temporary file only while no other has it open. -/
def Alone : Action → State → Prop
  | .call _, _ => True
  | .advance call, s =>
    match s.calls[call]? with
    | some (.serialised _) => ∀ phase ∈ s.calls, phase.isOpen = false
    | _ => True

/-- Loading keeps the phone book of the file: it is persisted again, or no note in it is dropped. -/
def Kept (now : String) (disk : Disk) : Prop :=
  ∀ bytes file, disk.read = some bytes → serde.parse bytes = some file →
    (seedPolicyEntries now file).1 = false → sanitizePhoneBook file = file

/-! ### What every step preserves -/

/-- What a call in a phase knows of the phone book and of the files. -/
def PhaseOk (book : PhoneBook) (disk : Disk) : Phase → Prop
  | .serialised payload => payload = serde.serialize book
  | .opened payload file => payload = serde.serialize book ∧ disk.tmpPath = some file ∧ disk.content file = []
  | .written => ∃ file, disk.tmpPath = some file ∧ disk.content file = serde.serialize book
  | .renamed ok | .returned ok => ok = true
  | .called _ | .updated => True

/-- The invariant of the runs: at most one call has the temporary file open, and where the file at the path does not
have the phone book, some call is to write it. -/
structure Inv (s : State) : Prop where
  phases : ∀ (c : ℕ) (phase : Phase), s.calls[c]? = some phase → PhaseOk serde s.book s.disk phase
  single : ∀ (c c' : ℕ) (phase phase' : Phase), s.calls[c]? = some phase → s.calls[c']? = some phase' →
    phase.isOpen = true → phase'.isOpen = true → c = c'
  complete : ∃ bytes, s.disk.read = some bytes ∧ ∃ book ∈ s.books, serde.parse bytes = some book
  fresh : (∃ (c : ℕ) (phase : Phase), s.calls[c]? = some phase ∧ phase.isPending = true) ∨
    ∃ bytes, s.disk.read = some bytes ∧ serde.parse bytes = some s.book
  current : s.book ∈ s.books

theorem getElem?_set_cases {calls : List Phase} {c j : ℕ} {next phase : Phase}
    (h : (calls.set c next)[j]? = some phase) : j = c ∧ phase = next ∨ j ≠ c ∧ calls[j]? = some phase := by
  rw [List.getElem?_set] at h
  split_ifs at h with heq hlt
  · exact Or.inl ⟨heq.symm, (Option.some.inj h).symm⟩
  · exact Or.inr ⟨fun hj => heq hj.symm, h⟩

theorem getElem?_set_self {calls : List Phase} {c : ℕ} {phase : Phase} (h : calls[c]? = some phase) (next : Phase) :
    (calls.set c next)[c]? = some next := by
  obtain ⟨hlt, -⟩ := List.getElem?_eq_some_iff.mp h
  rw [List.getElem?_set, if_pos rfl, if_pos hlt]

variable {serde}

/-- A call without the read lock knows nothing of the phone book. -/
theorem phaseOk_of_not_reading {book book' : PhoneBook} {disk disk' : Disk} {phase : Phase}
    (hphase : phase.isReading = false) (h : PhaseOk serde book disk phase) : PhaseOk serde book' disk' phase := by
  cases phase with
  | called update => trivial
  | updated => trivial
  | returned ok => exact h
  | serialised payload => cases hphase
  | opened payload file => cases hphase
  | written => cases hphase
  | renamed ok => cases hphase

/-- A call that has not opened the temporary file knows nothing of the files. -/
theorem phaseOk_of_not_open {book : PhoneBook} {disk disk' : Disk} {phase : Phase} (hphase : phase.isOpen = false)
    (h : PhaseOk serde book disk phase) : PhaseOk serde book disk' phase := by
  cases phase with
  | opened payload file => cases hphase
  | written => cases hphase
  | _ => exact h

/-- What a call does to its own phase and to the files, while no other call has the temporary file open. -/
theorem Inv.advance {s : State} (h : Inv serde s) {c : ℕ} {phase next : Phase} {disk : Disk}
    (hphase : s.calls[c]? = some phase)
    (hothers : ∀ j phase', j ≠ c → s.calls[j]? = some phase' → phase'.isOpen = true →
      next.isOpen = false ∧ disk = s.disk)
    (hnext : PhaseOk serde s.book disk next)
    (hread : disk.read = s.disk.read ∧ (phase.isPending = true → next.isPending = true) ∨
      ∃ bytes, disk.read = some bytes ∧ serde.parse bytes = some s.book) :
    Inv serde { s with disk := disk, calls := s.calls.set c next } := by
  refine ⟨fun j phase' hj => ?_, fun j j' p p' hj hj' hp hp' => ?_, ?_, ?_, h.current⟩
  · obtain ⟨rfl, rfl⟩ | ⟨hne, hj⟩ := getElem?_set_cases hj
    · exact hnext
    · by_cases hopen : phase'.isOpen = true
      · rw [(hothers j phase' hne hj hopen).2]
        exact h.phases j phase' hj
      · exact phaseOk_of_not_open (Bool.eq_false_iff.mpr hopen) (h.phases j phase' hj)
  · obtain ⟨rfl, rfl⟩ | ⟨hne, hold⟩ := getElem?_set_cases hj
    · obtain ⟨rfl, -⟩ | ⟨hne', hold'⟩ := getElem?_set_cases hj'
      · rfl
      · cases hp.symm.trans (hothers j' p' hne' hold' hp').1
    · obtain ⟨rfl, rfl⟩ | ⟨-, hold'⟩ := getElem?_set_cases hj'
      · cases hp'.symm.trans (hothers j p hne hold hp).1
      · exact h.single j j' p p' hold hold' hp hp'
  · obtain ⟨hsame, -⟩ | ⟨bytes, hbytes, hparse⟩ := hread
    · show ∃ bytes, disk.read = some bytes ∧ _
      rw [hsame]
      exact h.complete
    · exact ⟨bytes, hbytes, s.book, h.current, hparse⟩
  · obtain ⟨hsame, hpending⟩ | hfresh := hread
    · obtain ⟨j, phase', hj, hp⟩ | hfresh := h.fresh
      · by_cases hjc : j = c
        · subst hjc
          obtain rfl := Option.some.inj (hphase.symm.trans hj)
          exact Or.inl ⟨j, next, getElem?_set_self hphase next, hpending hp⟩
        · refine Or.inl ⟨j, phase', ?_, hp⟩
          show (s.calls.set c next)[j]? = some phase'
          rw [List.getElem?_set, if_neg (Ne.symm hjc)]
          exact hj
      · refine Or.inr ?_
        show ∃ bytes, disk.read = some bytes ∧ _
        rw [hsame]
        exact hfresh
    · exact Or.inr hfresh

/-- A call that is made has nothing to do with the files yet. -/
theorem Inv.call {s : State} (h : Inv serde s) (update : Update) :
    Inv serde { s with calls := s.calls ++ [.called update] } := by
  have hcases : ∀ {j : ℕ} {phase : Phase}, (s.calls ++ [.called update])[j]? = some phase →
      s.calls[j]? = some phase ∨ phase = .called update := by
    intro j phase hj
    rw [List.getElem?_append] at hj
    split_ifs at hj with hlt
    · exact Or.inl hj
    · exact Or.inr (List.mem_singleton.mp (List.mem_of_getElem? hj))
  refine ⟨fun j phase hj => ?_, fun j j' p p' hj hj' hp hp' => ?_, h.complete, ?_, h.current⟩
  · obtain hj | rfl := hcases hj
    · exact h.phases j phase hj
    · trivial
  · obtain hj | rfl := hcases hj
    · obtain hj' | rfl := hcases hj'
      · exact h.single j j' p p' hj hj' hp hp'
      · cases hp'
    · cases hp
  · refine h.fresh.imp_left ?_
    rintro ⟨j, phase, hj, hp⟩
    obtain ⟨hlt, -⟩ := List.getElem?_eq_some_iff.mp hj
    refine ⟨j, phase, ?_, hp⟩
    show (s.calls ++ [.called update])[j]? = some phase
    rw [List.getElem?_append_left hlt]
    exact hj

/-- The phone book changes while no call holds the read lock. -/
theorem Inv.update {s : State} (h : Inv serde s) {c : ℕ} {update : Update} (hphase : s.calls[c]? = some (.called update))
    (hlock : s.calls.any Phase.isReading = false) :
    Inv serde { s with
      book := update.apply s.book
      books := s.books ++ [update.apply s.book]
      calls := s.calls.set c .updated } := by
  have hreading : ∀ {j : ℕ} {phase : Phase}, s.calls[j]? = some phase → phase.isReading = false := by
    intro j phase hj
    rw [List.any_eq_false] at hlock
    exact Bool.eq_false_iff.mpr (hlock phase (List.mem_of_getElem? hj))
  have hopen : ∀ {j : ℕ} {phase : Phase}, (s.calls.set c .updated)[j]? = some phase → phase.isOpen = false := by
    intro j phase hj
    obtain ⟨rfl, rfl⟩ | ⟨-, hj⟩ := getElem?_set_cases hj
    · rfl
    · have hphase := hreading hj
      cases phase with
      | opened payload file => cases hphase
      | written => cases hphase
      | _ => rfl
  refine ⟨fun j phase hj => ?_, fun j j' p p' hj hj' hp hp' => ?_, ?_, ?_, ?_⟩
  · obtain ⟨rfl, rfl⟩ | ⟨-, hj⟩ := getElem?_set_cases hj
    · trivial
    · exact phaseOk_of_not_reading (hreading hj) (h.phases j phase hj)
  · cases hp.symm.trans (hopen hj)
  · obtain ⟨bytes, hbytes, book, hbook, hparse⟩ := h.complete
    exact ⟨bytes, hbytes, book, List.mem_append_left _ hbook, hparse⟩
  · exact Or.inl ⟨c, .updated, getElem?_set_self hphase .updated, rfl⟩
  · exact List.mem_append_right _ (List.mem_singleton.mpr rfl)

/-- **One step.** An action keeps the invariant, where it opens the temporary file alone. -/
theorem Inv.step {s : State} (h : Inv serde s) {a : Action} (halone : Alone a s)
    (hserde : serde.parse (serde.serialize s.book) = some s.book) : Inv serde (stepAction serde a s) := by
  cases a with
  | call update => exact h.call update
  | advance c =>
    rw [stepAction, AgentVoice.Callers.advance]
    cases hphase : s.calls[c]? with
    | none => exact h
    | some phase =>
      have hknown := h.phases c phase hphase
      have hsingle : ∀ j phase', j ≠ c → s.calls[j]? = some phase' → phase'.isOpen = true → phase.isOpen = false := by
        intro j phase' hne hj hopen
        exact Bool.eq_false_iff.mpr fun hc => hne (h.single j c phase' phase hj hphase hopen hc)
      cases phase with
      | called update =>
        simp only
        by_cases hlock : s.calls.any Phase.isReading = true
        · rw [if_pos hlock]
          exact h
        · rw [if_neg hlock]
          exact h.update hphase (Bool.eq_false_iff.mpr hlock)
      | updated => exact h.advance hphase (fun _ _ _ _ _ => ⟨rfl, rfl⟩) rfl (Or.inl ⟨rfl, fun _ => rfl⟩)
      | serialised payload =>
        have hnone : ∀ phase ∈ s.calls, phase.isOpen = false := by
          rw [Alone, hphase] at halone
          exact halone
        refine h.advance hphase (fun j phase' _ hj hopen => ?_) ⟨hknown, rfl, ?_⟩ (Or.inl ⟨?_, fun _ => rfl⟩)
        · cases hopen.symm.trans (hnone phase' (List.mem_of_getElem? hj))
        · exact s.disk.content_create
        · exact s.disk.read_create
      | opened payload file =>
        obtain ⟨rfl, htmp, hempty⟩ := hknown
        refine h.advance hphase (fun j phase' hne hj hopen => ?_) ⟨file, htmp, ?_⟩
          (Or.inl ⟨Disk.read_write htmp _, fun _ => rfl⟩)
        · cases hsingle j phase' hne hj hopen
        · rw [Disk.content_write, hempty, List.drop_nil, List.append_nil]
      | written =>
        obtain ⟨file, htmp, hcontent⟩ := hknown
        obtain ⟨disk, hrename, hread, -⟩ := Disk.rename_eq_some htmp
        simp only [hrename]
        refine h.advance hphase (fun j phase' hne hj hopen => ?_) rfl (Or.inr ⟨_, hread, ?_⟩)
        · cases hsingle j phase' hne hj hopen
        · rw [hcontent]
          exact hserde
      | renamed ok =>
        exact h.advance hphase (fun _ _ _ _ _ => ⟨rfl, rfl⟩) hknown (Or.inl ⟨rfl, nofun⟩)
      | returned ok => exact h

theorem subset_books_step (a : Action) (s : State) : s.books ⊆ (stepAction serde a s).books := by
  cases a with
  | call update => exact List.Subset.refl _
  | advance c =>
    rw [stepAction, AgentVoice.Callers.advance]
    cases s.calls[c]? with
    | none => exact List.Subset.refl _
    | some phase =>
      cases phase with
      | called update =>
        simp only
        split_ifs
        · exact List.Subset.refl _
        · exact List.subset_append_left _ _
      | written =>
        simp only
        cases s.disk.rename <;> exact List.Subset.refl _
      | _ => exact List.Subset.refl _

theorem subset_books_run (as : List Action) (s : State) :
    s.books ⊆ (Machine.run (stepAction serde) as s).books := by
  induction as generalizing s with
  | nil => exact List.Subset.refl _
  | cons a as ih => exact List.Subset.trans (subset_books_step a s) (ih _)

/-- **Whole runs.** -/
theorem Inv.run {s : State} (h : Inv serde s) {as : List Action}
    (halone : Machine.Along (stepAction serde) Alone as s)
    (hserde : ∀ book ∈ (Machine.run (stepAction serde) as s).books, serde.parse (serde.serialize book) = some book) :
    Inv serde (Machine.run (stepAction serde) as s) := by
  induction as generalizing s with
  | nil => exact h
  | cons a as ih =>
    have hbook : s.book ∈ (Machine.run (stepAction serde) (a :: as) s).books :=
      subset_books_run (a :: as) s h.current
    exact ih (h.step halone.1 (hserde s.book hbook)) halone.2 hserde

/-- Policy entries that are there are left as they are. -/
theorem seedEntry_of_false {key now : String} {notes : List String} {book : PhoneBook}
    (h : (seedEntry key now notes book).1 = false) : (seedEntry key now notes book).2 = book := by
  unfold seedEntry at h ⊢
  cases hkey : book.callers key with
  | none =>
    rw [hkey] at h
    cases h
  | some record => rfl

theorem seedPolicyEntries_of_false {now : String} {book : PhoneBook} (h : (seedPolicyEntries now book).1 = false) :
    (seedPolicyEntries now book).2 = book := by
  rw [seedPolicyEntries, Bool.or_eq_false_iff] at h
  rw [seedPolicyEntries]
  exact (seedEntry_of_false h.2).trans (seedEntry_of_false h.1)

theorem persistAlone_eq_some (payload : List UInt8) (disk : Disk) :
    ∃ disk', persistAlone payload disk = some disk' ∧ disk'.read = some payload := by
  have htmp : (disk.create.write disk.created payload).tmpPath = some disk.created := rfl
  obtain ⟨disk', hrename, hread, -⟩ := Disk.rename_eq_some htmp
  refine ⟨disk', hrename, hread.trans (congrArg some ?_)⟩
  rw [Disk.content_write, Disk.content_create, List.drop_nil, List.append_nil]

/-- A store without calls whose file has the phone book has the invariant. -/
theorem inv_of_no_calls {book : PhoneBook} {disk : Disk} {bytes : List UInt8} (hread : disk.read = some bytes)
    (hparse : serde.parse bytes = some book) : Inv serde ⟨book, [book], disk, []⟩ := by
  have hnone : ∀ (c : ℕ) (phase : Phase), ([] : List Phase)[c]? ≠ some phase := by simp
  exact ⟨fun c phase hc => absurd hc (hnone c phase), fun c _ phase _ hc => absurd hc (hnone c phase),
    ⟨bytes, hread, book, List.mem_singleton.mpr rfl, hparse⟩, Or.inr ⟨bytes, hread, hparse⟩,
    List.mem_singleton.mpr rfl⟩

/-- A store that was opened has the invariant. -/
theorem inv_openStore {now : String} {disk : Disk} {s : State} (hopen : openStore serde now disk = some s)
    (hkept : Kept serde now disk) (hserde : serde.parse (serde.serialize s.book) = some s.book) : Inv serde s := by
  obtain ⟨file, hfile, hopen⟩ := Option.bind_eq_some_iff.mp hopen
  obtain ⟨disk', hdisk, rfl⟩ := Option.map_eq_some_iff.mp hopen
  by_cases hseeded : (seedPolicyEntries now (file.getD .default)).1 = true
  · rw [if_pos hseeded] at hdisk
    obtain ⟨disk'', hpersist, hread⟩ := persistAlone_eq_some (serde.serialize (load now file)) disk
    obtain rfl := Option.some.inj (hpersist.symm.trans hdisk)
    exact inv_of_no_calls hread hserde
  · rw [if_neg hseeded] at hdisk
    obtain rfl := Option.some.inj hdisk
    cases hread : disk.read with
    | none =>
      simp only [decodeFile, hread] at hfile
      obtain rfl := Option.some.inj hfile
      exact absurd rfl hseeded
    | some bytes =>
      simp only [decodeFile, hread, Option.map_eq_some_iff] at hfile
      obtain ⟨book, hparse, rfl⟩ := hfile
      have hseeded' : (seedPolicyEntries now book).1 = false := Bool.eq_false_iff.mpr hseeded
      have hload : load now (some book) = book := by
        rw [load, Option.getD_some, seedPolicyEntries_of_false hseeded']
        exact hkept bytes book hread hparse hseeded'
      refine inv_of_no_calls hread ?_
      rw [hload]
      exact hparse

theorem Inv.persistent {s : State} (h : Inv serde s) : Persistent serde s := by
  refine ⟨h.complete, fun ok hok => ?_, fun hreturned => ?_⟩
  · obtain ⟨c, hc⟩ := List.mem_iff_getElem?.mp hok
    exact h.phases c _ hc
  · obtain ⟨c, phase, hc, hpending⟩ | hfresh := h.fresh
    · obtain ⟨ok, rfl⟩ := hreturned phase (List.mem_of_getElem? hc)
      cases hpending
    · exact hfresh

/-- **Atomic persistence.** In every run in which no call opens the temporary file while another has it open, on a
store whose loading keeps the phone book, the file is complete in every state, every call returns `Ok`, and no update
is lost. -/
theorem persistent_of_alone {now : String} {disk : Disk} {s : State} {as : List Action}
    (hopen : openStore serde now disk = some s) (hkept : Kept serde now disk)
    (halone : Machine.Along (stepAction serde) Alone as s)
    (hserde : ∀ book ∈ (Machine.run (stepAction serde) as s).books, serde.parse (serde.serialize book) = some book) :
    Persistent serde (Machine.run (stepAction serde) as s) := by
  have hbook : s.book ∈ (Machine.run (stepAction serde) as s).books := by
    refine subset_books_run as s ?_
    obtain ⟨file, -, hfile⟩ := Option.bind_eq_some_iff.mp hopen
    obtain ⟨disk', -, rfl⟩ := Option.map_eq_some_iff.mp hfile
    exact List.mem_singleton.mpr rfl
  exact ((inv_openStore hopen hkept (hserde s.book hbook)).run halone hserde).persistent

/-! ### Two runs -/

/-- The phone book that is loaded where there is no file. -/
def seededBook : PhoneBook := load "2026-01-01T00:00:00Z" none

/-- A first call of the caller 61. -/
def firstCall : Update := .touchCaller "61" "2026-01-02T00:00:00Z"

/-- A first call of the caller 62. -/
def secondCall : Update := .touchCaller "62" "2026-01-03T00:00:00Z"

/-- The order in which the map shows its keys in the runs below. -/
def shownKeys : List String := ["62", "61", "*", "__no_caller_id__"]

/-- The phone books of the runs below. -/
def shownBooks : List PhoneBook :=
  [seededBook, firstCall.apply seededBook, secondCall.apply (firstCall.apply seededBook)]

/-- A reader of the texts of some phone books. -/
def serdeOf (keys : List String) (books : List PhoneBook) : Serde where
  keys := fun _ => keys
  parse := fun bytes => books.find? fun book => (book.serialize keys).toVecPretty = bytes

/-- It reads each of the texts, where they differ. -/
theorem parse_serialize_of_mem {keys : List String} {books : List PhoneBook}
    (hinj : ∀ book ∈ books, ∀ book' ∈ books,
      (book.serialize keys).toVecPretty = (book'.serialize keys).toVecPretty → book = book')
    {book : PhoneBook} (h : book ∈ books) :
    (serdeOf keys books).parse ((serdeOf keys books).serialize book) = some book := by
  show books.find? (fun book' => (book'.serialize keys).toVecPretty = (book.serialize keys).toVecPretty) = some book
  cases hfind : books.find? _ with
  | none => exact absurd (decide_eq_true rfl) (List.find?_eq_none.mp hfind book h)
  | some book' =>
    have hfound := List.find?_some hfind
    have htext := of_decide_eq_true hfound
    exact congrArg some (hinj book' (List.mem_of_find?_eq_some hfind) book h htext)

/-- It reads no empty text. -/
theorem parse_nil (keys : List String) (books : List PhoneBook) : (serdeOf keys books).parse [] = none := by
  refine List.find?_eq_none.mpr fun book _ h => ?_
  have hdecoded := congrArg fromUtf8 (of_decide_eq_true h)
  rw [Json.toVecPretty, fromUtf8_utf8] at hdecoded
  have htext := Option.some.inj (hdecoded.trans (fromUtf8_utf8 ""))
  have hchars := congrArg String.toList htext
  rw [String.toList_ofList] at hchars
  cases hchars

/-- The reader of the runs below. -/
def shownSerde : Serde := serdeOf shownKeys shownBooks

/-- The text of a phone book shows which caller comes first. -/
theorem firstKey_eq_of_toVecPretty {key key' : String} {record record' : Json} {fields fields' : List (String × Json)}
    (h : (Json.obj [("callers", .obj ((key, record) :: fields))]).toVecPretty =
      (Json.obj [("callers", .obj ((key', record') :: fields'))]).toVecPretty) : key = key' := by
  have hchars : ∀ (key : String) (record : Json) (fields : List (String × Json)), ∃ rest,
      (Json.obj [("callers", .obj ((key, record) :: fields))]).prettyChars 0 =
        (Char.ofNat 123 :: '\n' :: (List.replicate 2 ' ' ++ quotedChars "callers".toList ++
          [':', ' ', Char.ofNat 123, '\n'] ++ List.replicate 4 ' ')) ++ (quotedChars key.toList ++ rest) := by
    intro key record fields
    cases fields with
    | nil =>
      exact ⟨_, by
        simp only [Json.prettyChars, Json.prettyFields, List.cons_append, List.append_assoc, List.nil_append]
        rfl⟩
    | cons field fields =>
      exact ⟨_, by
        simp only [Json.prettyChars, Json.prettyFields, List.cons_append, List.append_assoc, List.nil_append]
        rfl⟩
  obtain ⟨rest, hrest⟩ := hchars key record fields
  obtain ⟨rest', hrest'⟩ := hchars key' record' fields'
  have hdecoded := congrArg fromUtf8 h
  rw [Json.toVecPretty, Json.toVecPretty, fromUtf8_utf8, fromUtf8_utf8, hrest, hrest'] at hdecoded
  have htext := String.ofList_injective (Option.some.inj hdecoded)
  have hread := congrArg readQuoted (List.append_cancel_left htext)
  rw [readQuoted_quotedChars, readQuoted_quotedChars] at hread
  exact String.toList_injective (congrArg Prod.fst (Option.some.inj hread))

/-- Where there is no file, the phone book that is loaded is persisted. -/
theorem openStore_of_none {now : String} {disk : Disk} (h : disk.read = none) :
    openStore serde now disk =
      (persistAlone (serde.serialize (load now none)) disk).map fun disk => ⟨load now none, [load now none], disk, []⟩ := by
  have hseeded : (seedPolicyEntries now .default).1 = true := rfl
  rw [openStore, decodeFile, h, Option.bind_some]
  simp only [Option.getD_none, hseeded, if_true]

/-- Two calls that both change the phone book before either persists it: the second opens the temporary file after the
first has renamed it. -/
def inTurn (update update' : Update) : List Action :=
  [.call update, .call update', .advance 0, .advance 1, .advance 0, .advance 1, .advance 0, .advance 0, .advance 0,
    .advance 1, .advance 1, .advance 1, .advance 0, .advance 1]

/-- A call that opens, writes and renames the temporary file while no other call takes a step. -/
theorem run_persist {s : State} {call : ℕ} {payload : List UInt8} (h : s.calls[call]? = some (.serialised payload))
    (halone : ∀ phase ∈ s.calls, phase.isOpen = false) :
    ∃ disk, persistAlone payload s.disk = some disk ∧ ∀ as,
      Machine.run (stepAction serde) (.advance call :: .advance call :: .advance call :: as) s =
          Machine.run (stepAction serde) as { s with disk := disk, calls := s.calls.set call (.renamed true) } ∧
        (Machine.Along (stepAction serde) Alone as
            { s with disk := disk, calls := s.calls.set call (.renamed true) } →
          Machine.Along (stepAction serde) Alone (.advance call :: .advance call :: .advance call :: as) s) := by
  obtain ⟨disk, hpersist, -⟩ := persistAlone_eq_some payload s.disk
  have hopened := getElem?_set_self h (.opened payload s.disk.created)
  have hwritten := getElem?_set_self h .written
  have hrename : (s.disk.create.write s.disk.created payload).rename = some disk := hpersist
  refine ⟨disk, hpersist, fun as => ⟨?_, fun has => ⟨?_, ?_⟩⟩⟩
  · simp only [Machine.run, stepAction, advance, h, hopened, hwritten, hrename, List.set_set]
  · simpa only [Alone, h] using halone
  · simp only [stepAction, advance, h]
    refine ⟨by simp only [Alone, hopened], ?_⟩
    simp only [stepAction, advance, hopened, List.set_set]
    refine ⟨by simp only [Alone, hwritten], ?_⟩
    simpa only [stepAction, advance, hwritten, hrename, List.set_set] using has

/-- Two calls that have serialised one text persist it in turn: both return `Ok`. -/
theorem run_persist_persist (book : PhoneBook) (books : List PhoneBook) (disk : Disk) (payload : List UInt8) :
    Machine.Along (stepAction serde) Alone
        (.advance 0 :: .advance 0 :: .advance 0 :: .advance 1 :: .advance 1 :: .advance 1 :: [.advance 0, .advance 1])
        ⟨book, books, disk, [.serialised payload, .serialised payload]⟩ ∧
      ∃ disk', Machine.run (stepAction serde)
        (.advance 0 :: .advance 0 :: .advance 0 :: .advance 1 :: .advance 1 :: .advance 1 :: [.advance 0, .advance 1])
        ⟨book, books, disk, [.serialised payload, .serialised payload]⟩ =
          ⟨book, books, disk', [.returned true, .returned true]⟩ := by
  have halone : ∀ phase ∈ [Phase.serialised payload, .serialised payload], phase.isOpen = false := by
    simp [Phase.isOpen]
  have halone' : ∀ phase ∈ [Phase.renamed true, .serialised payload], phase.isOpen = false := by simp [Phase.isOpen]
  obtain ⟨disk', -, hfirst⟩ :=
    @run_persist serde ⟨book, books, disk, [.serialised payload, .serialised payload]⟩ 0 payload rfl halone
  obtain ⟨disk'', -, hsecond⟩ :=
    @run_persist serde ⟨book, books, disk', [.renamed true, .serialised payload]⟩ 1 payload rfl halone'
  obtain ⟨hrun, halong⟩ := hfirst (.advance 1 :: .advance 1 :: .advance 1 :: [.advance 0, .advance 1])
  obtain ⟨hrun', halong'⟩ := hsecond [.advance 0, .advance 1]
  exact ⟨halong (halong' ⟨trivial, trivial, trivial⟩), disk'', hrun.trans hrun'⟩

/-- Both calls return `Ok`, and the phone book has had the changes of both. -/
theorem run_inTurn (serde : Serde) (update update' : Update) (book : PhoneBook) (disk : Disk) :
    Machine.Along (stepAction serde) Alone (inTurn update update') ⟨book, [book], disk, []⟩ ∧
      ∃ disk', Machine.run (stepAction serde) (inTurn update update') ⟨book, [book], disk, []⟩ =
        ⟨update'.apply (update.apply book), [book, update.apply book, update'.apply (update.apply book)], disk',
          [.returned true, .returned true]⟩ := by
  have hstart : Machine.run (stepAction serde)
      [.call update, .call update', .advance 0, .advance 1, .advance 0, .advance 1] ⟨book, [book], disk, []⟩ =
        ⟨update'.apply (update.apply book), [book, update.apply book, update'.apply (update.apply book)], disk,
          [.serialised (serde.serialize (update'.apply (update.apply book))),
            .serialised (serde.serialize (update'.apply (update.apply book)))]⟩ := by
    simp [Machine.run, stepAction, advance, Phase.isReading]
  obtain ⟨halong, disk', hrun⟩ := @run_persist_persist serde _ _ _ _
  rw [← hstart, ← Machine.run_append] at hrun
  exact ⟨⟨trivial, trivial, trivial, trivial, trivial, trivial, halong⟩, disk', hrun⟩

/-- Two calls: the second opens the temporary file that the first has written, and then the first renames it. -/
def overlap (update update' : Update) : List Action :=
  [.call update, .call update', .advance 0, .advance 1, .advance 0, .advance 1, .advance 0, .advance 0, .advance 1,
    .advance 0]

/-- The file at the path is then empty, and the second call will find no file to rename. -/
theorem run_overlap (serde : Serde) (update update' : Update) (book : PhoneBook) (disk : Disk) :
    ∃ disk' payload file, disk'.read = some [] ∧ disk'.tmpPath = none ∧
      Machine.run (stepAction serde) (overlap update update') ⟨book, [book], disk, []⟩ =
        ⟨update'.apply (update.apply book), [book, update.apply book, update'.apply (update.apply book)], disk',
          [.renamed true, .opened payload file]⟩ := by
  let payload := serde.serialize (update'.apply (update.apply book))
  let truncated := (disk.create.write disk.created payload).create
  have htruncated : truncated.tmpPath = some disk.created := rfl
  obtain ⟨disk', hrename, hread, htmp⟩ := Disk.rename_eq_some htruncated
  refine ⟨disk', payload, disk.created, ?_, htmp, ?_⟩
  · rw [hread]
    exact congrArg some (Disk.content_create _)
  · simp [overlap, stepAction, advance, Machine.run, Phase.isReading]
    rw [hrename]
    rfl

/-- The texts of the phone books of the runs differ in their first callers. -/
theorem shownBooks_injective : ∀ book ∈ shownBooks, ∀ book' ∈ shownBooks,
    (book.serialize shownKeys).toVecPretty = (book'.serialize shownKeys).toVecPretty → book = book' := by
  have hfirst : (seededBook.serialize shownKeys).toVecPretty ≠
      ((firstCall.apply seededBook).serialize shownKeys).toVecPretty := by
    intro h
    have hkey : "*" = "61" := firstKey_eq_of_toVecPretty h
    exact absurd hkey (by decide)
  have hsecond : (seededBook.serialize shownKeys).toVecPretty ≠
      ((secondCall.apply (firstCall.apply seededBook)).serialize shownKeys).toVecPretty := by
    intro h
    have hkey : "*" = "62" := firstKey_eq_of_toVecPretty h
    exact absurd hkey (by decide)
  have hthird : ((firstCall.apply seededBook).serialize shownKeys).toVecPretty ≠
      ((secondCall.apply (firstCall.apply seededBook)).serialize shownKeys).toVecPretty := by
    intro h
    have hkey : "61" = "62" := firstKey_eq_of_toVecPretty h
    exact absurd hkey (by decide)
  intro book hbook book' hbook' htext
  simp only [shownBooks, List.mem_cons, List.not_mem_nil, or_false] at hbook hbook'
  obtain rfl | rfl | rfl := hbook <;> obtain rfl | rfl | rfl := hbook'
  · rfl
  · exact absurd htext hfirst
  · exact absurd htext hsecond
  · exact absurd htext.symm hfirst
  · rfl
  · exact absurd htext hthird
  · exact absurd htext.symm hsecond
  · exact absurd htext.symm hthird
  · rfl

/-- The store that is opened where there is no file. -/
theorem openStore_empty : ∃ disk, openStore shownSerde "2026-01-01T00:00:00Z" Disk.empty =
    some ⟨seededBook, [seededBook], disk, []⟩ := by
  obtain ⟨disk, hpersist, -⟩ := persistAlone_eq_some (shownSerde.serialize seededBook) Disk.empty
  refine ⟨disk, ?_⟩
  rw [openStore_of_none rfl, ← seededBook, hpersist]
  rfl

/-- Where there is no file, there is nothing to drop. -/
theorem kept_empty : Kept shownSerde "2026-01-01T00:00:00Z" Disk.empty := nofun

theorem persistent_of_alone_inTurn :
    ∃ s, openStore shownSerde "2026-01-01T00:00:00Z" Disk.empty = some s ∧
      (Machine.run (stepAction shownSerde) (inTurn firstCall secondCall) s).calls =
        [.returned true, .returned true] ∧
      Persistent shownSerde (Machine.run (stepAction shownSerde) (inTurn firstCall secondCall) s) := by
  obtain ⟨disk, hopen⟩ := openStore_empty
  obtain ⟨halone, disk', hrun⟩ := run_inTurn shownSerde firstCall secondCall seededBook disk
  refine ⟨_, hopen, congrArg State.calls hrun, persistent_of_alone hopen kept_empty halone ?_⟩
  rw [hrun]
  exact fun book hbook => parse_serialize_of_mem shownBooks_injective hbook

/-- Two calls at once: the file at the path is empty, and the second call returns an error. -/
theorem overlap_torn : ∃ s, openStore shownSerde "2026-01-01T00:00:00Z" Disk.empty = some s ∧
    Kept shownSerde "2026-01-01T00:00:00Z" Disk.empty ∧
    (∀ book ∈ (Machine.run (stepAction shownSerde) (overlap firstCall secondCall) s).books,
      shownSerde.parse (shownSerde.serialize book) = some book) ∧
    (Machine.run (stepAction shownSerde) (overlap firstCall secondCall) s).disk.read = some [] ∧
    ¬ Persistent shownSerde (Machine.run (stepAction shownSerde) (overlap firstCall secondCall) s) ∧
    Phase.returned false ∈ (Machine.run (stepAction shownSerde)
      (overlap firstCall secondCall ++ [.advance 1, .advance 1, .advance 1]) s).calls := by
  obtain ⟨disk, hopen⟩ := openStore_empty
  obtain ⟨disk', payload, file, hread, htmp, hrun⟩ := run_overlap shownSerde firstCall secondCall seededBook disk
  refine ⟨_, hopen, kept_empty, ?_, ?_, ?_, ?_⟩
  · rw [hrun]
    exact fun book hbook => parse_serialize_of_mem shownBooks_injective hbook
  · rw [hrun]
    exact hread
  · rw [hrun]
    intro h
    obtain ⟨bytes, hbytes, book, -, hparse⟩ := h.complete
    obtain rfl := Option.some.inj (hread.symm.trans hbytes)
    cases (parse_nil _ _).symm.trans hparse
  · rw [Machine.run_append, hrun]
    have hrename : (disk'.write file payload).rename = none := Disk.rename_eq_none htmp
    simp [Machine.run, stepAction, advance, hrename]

end AgentVoice.Callers

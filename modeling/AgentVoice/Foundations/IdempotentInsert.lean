import AgentVoice.Foundations.Table
import AgentVoice.Foundations.Transaction

/-!
# Idempotent inserts

`INSERT … ON CONFLICT DO NOTHING`, followed by a look at what was there before: a new row is read back
and returned; otherwise every row that shares a unique value with the new one must hold exactly what was
to be inserted, and is returned as it stands. A call that succeeded therefore leaves a row which the same
call finds again (`run_exec_retry`).
-/

namespace AgentVoice.Foundations

/-- An insert that may be repeated. -/
structure IdempotentInsert (ε ρ α : Type) where
  /-- The rows that share a unique value with the new one. -/
  clashes : ρ → Bool
  /-- The new row, under its primary key. -/
  row : ℤ → ρ
  /-- Reading a row. -/
  decode : ρ → Except ε α
  /-- Whether a stored value is the one to be inserted. -/
  same : α → Bool
  /-- The error when it is not. -/
  conflict : ε
  /-- The error when the row is not there any more. -/
  unreadable : ε
  /-- Whether a second row that holds the value is that error too. -/
  single : Bool

namespace IdempotentInsert

variable {ε ρ α : Type} (ins : IdempotentInsert ε ρ α)

/-- The loop over the rows that were there before. -/
def retry : List ρ → Option α → Except ε α
  | [], found => okOr found ins.unreadable
  | row :: rows, found => do
    let stored ← ins.decode row
    if ins.same stored then
      if ins.single && found.isSome then throw ins.unreadable else retry rows (some stored)
    else throw ins.conflict

/-- The insert, on its table. -/
def exec [Row ρ] : Tx ε (List ρ) α := do
  let candidates ← Tx.read fun t => t.filter ins.clashes
  if candidates.isEmpty then
    let id ← Tx.read Table.nextRowid
    Tx.write (· ++ [ins.row id])
    let row ← Tx.read (Table.byRowid id)
    let row ← Tx.ofResult (okOr row ins.unreadable)
    Tx.ofResult (ins.decode row)
  else Tx.ofResult (ins.retry candidates none)

/-- The insert of a value that is returned without reading it back. -/
def execReturning [Row ρ] (value : ℤ → α) : Tx ε (List ρ) α := do
  let candidates ← Tx.read fun t => t.filter ins.clashes
  if candidates.isEmpty then
    let id ← Tx.read Table.nextRowid
    Tx.write (· ++ [ins.row id])
    return value id
  else Tx.ofResult (ins.retry candidates none)

variable {ins}

/-- A retry returns one of the rows it looked at. -/
theorem retry_eq_ok {rows : List ρ} {found : Option α} {a : α} (h : ins.retry rows found = .ok a) :
    (∀ r ∈ rows, ∃ b, ins.decode r = .ok b ∧ ins.same b = true) ∧
      (rows = [] ∧ found = some a ∨ ∃ r ∈ rows, ins.decode r = .ok a) := by
  induction rows generalizing found with
  | nil =>
    rw [retry, okOr_eq_ok_iff] at h
    exact ⟨by simp, Or.inl ⟨rfl, h⟩⟩
  | cons r rows ih =>
    obtain ⟨stored, hdecode, h⟩ := bind_eq_ok_iff.mp h
    cases hsame : ins.same stored with
    | false =>
      rw [hsame] at h
      cases h
    | true =>
      rw [hsame, if_pos rfl] at h
      cases htwice : ins.single && found.isSome with
      | true =>
        rw [htwice] at h
        cases h
      | false =>
        rw [htwice, if_neg Bool.false_ne_true] at h
        obtain ⟨hall, hlast⟩ := ih h
        refine ⟨fun r' hr' => ?_, Or.inr ?_⟩
        · rcases List.mem_cons.mp hr' with rfl | hr'
          · exact ⟨stored, hdecode, hsame⟩
          · exact hall r' hr'
        · rcases hlast with ⟨-, hfound⟩ | ⟨r', hr', ha⟩
          · exact ⟨r, by simp, Option.some.inj hfound ▸ hdecode⟩
          · exact ⟨r', by simp [hr'], ha⟩

theorem retry_singleton {r : ρ} {a : α} (hdecode : ins.decode r = .ok a) (hsame : ins.same a = true) :
    ins.retry [r] none = .ok a := by
  simp [retry, hdecode, hsame]

/-- What looking at the rows that were there before returns. -/
theorem run_retry_eq_ok {t t' : List ρ} {a : α}
    (h : (Tx.ofResult (ins.retry (t.filter ins.clashes) none) : Tx ε (List ρ) α).run t = .ok (a, t')) :
    t' = t ∧ (∃ r ∈ t, ins.clashes r = true ∧ ins.decode r = .ok a) ∧
      ∀ r ∈ t, ins.clashes r = true → ∃ b, ins.decode r = .ok b ∧ ins.same b = true := by
  rw [Tx.run_ofResult_eq_ok_iff] at h
  obtain ⟨hretry, ht⟩ := h
  obtain ⟨hall, hlast⟩ := retry_eq_ok hretry
  have hlast : ∃ r ∈ t.filter ins.clashes, ins.decode r = .ok a := by
    rcases hlast with ⟨-, hnone⟩ | hlast
    · cases hnone
    · exact hlast
  obtain ⟨r, hr, hdecode⟩ := hlast
  rw [List.mem_filter] at hr
  exact ⟨ht, ⟨r, hr.1, hr.2, hdecode⟩, fun r' hr' hc => hall r' (List.mem_filter.mpr ⟨hr', hc⟩)⟩

/-- No row shares a unique value with the new one. -/
theorem fresh_of_isEmpty {t : List ρ} (h : (t.filter ins.clashes).isEmpty = true) :
    ∀ r ∈ t, ins.clashes r = false := by
  intro r hr
  rw [List.isEmpty_iff, List.filter_eq_nil_iff] at h
  simpa using h r hr

/-- Looking at rows of which one holds something else ends in the conflict. -/
theorem retry_conflict {rows : List ρ} {found : Option α} (hread : ∀ r ∈ rows, ∃ a, ins.decode r = .ok a)
    (hother : ∃ r ∈ rows, ∀ a, ins.decode r = .ok a → ins.same a = false)
    (hnodup : ins.single = true → rows.Nodup)
    (hone : ins.single = true → ∀ r ∈ rows, ∀ r' ∈ rows, ∀ a a', ins.decode r = .ok a → ins.decode r' = .ok a' →
      ins.same a = true → ins.same a' = true → r = r')
    (hfound : ins.single = true → found.isSome = true → ∀ r ∈ rows, ∀ a, ins.decode r = .ok a → ins.same a = false) :
    ins.retry rows found = .error ins.conflict := by
  induction rows generalizing found with
  | nil =>
    obtain ⟨r, hr, -⟩ := hother
    cases hr
  | cons r rows ih =>
    obtain ⟨a, ha⟩ := hread r (by simp)
    rw [retry, ha, ok_bind]
    cases hsame : ins.same a with
    | false => rfl
    | true =>
      have htwice : (ins.single && found.isSome) = false := by
        by_contra hboth
        rw [Bool.not_eq_false, Bool.and_eq_true_iff] at hboth
        rw [hfound hboth.1 hboth.2 r (by simp) a ha] at hsame
        cases hsame
      rw [if_pos rfl, htwice, if_neg Bool.false_ne_true]
      refine ih (fun r' hr' => hread r' (by simp [hr'])) ?_ (fun hsingle => (List.nodup_cons.mp (hnodup hsingle)).2)
        (fun hsingle s hs s' hs' => hone hsingle s (by simp [hs]) s' (by simp [hs'])) fun hsingle _ s hs b hb => ?_
      · obtain ⟨s, hs, hdiffers⟩ := hother
        rcases List.mem_cons.mp hs with rfl | hs
        · rw [hdiffers a ha] at hsame
          cases hsame
        · exact ⟨s, hs, hdiffers⟩
      · by_contra hsame'
        rw [Bool.not_eq_false] at hsame'
        obtain rfl := hone hsingle r (by simp) s (by simp [hs]) a b ha hb hsame hsame'
        exact (List.nodup_cons.mp (hnodup hsingle)).1 hs

/-! ### The law of idempotent inserts -/

/-- What the rows of a table are to a call that inserts idempotently: which of them has all unique values of the call
and which shares one with it, how a row reads, and what of that is what the call inserts, or what it finds. -/
structure Reading (ρ α : Type) where
  owns : ρ → Prop
  shares : ρ → Prop
  reads : ρ → α → Prop
  stored : α → Prop
  same : α → Prop

/-- What a call that inserts idempotently may do, from a state: it adds a row, with its own unique values, that reads
as what it was to insert and shares no unique value with the table; or it returns what the one row holds that shares
one, where that is what it was to insert, and changes nothing; or it fails and changes nothing. Where its arguments
are accepted, it returns the row that has its unique values and holds what it was to insert; and it reports the
conflict wherever a row shares a unique value with it but holds something else. -/
structure Law {σ : Type} (call : Tx ε σ α) (rows : σ → List ρ) (put : List ρ → σ → σ) (reading : Reading ρ α)
    (conflict : ε) (accepted : Prop) (s : σ) : Prop where
  outcome : ∀ result s', call.commit s = (result, s') →
    (∃ a row, result = .ok a ∧ s' = put (rows s ++ [row]) s ∧ reading.owns row ∧ reading.reads row a ∧
        reading.stored a ∧ ∀ r ∈ rows s, ¬ reading.shares r) ∨
      (∃ a, result = .ok a ∧ s' = s ∧ reading.same a ∧
        ∃ r ∈ rows s, reading.reads r a ∧ ∀ r' ∈ rows s, reading.shares r' ↔ r' = r) ∨
      ∃ e, result = .error e ∧ s' = s
  retry : accepted → ∀ r ∈ rows s, reading.owns r → ∀ a, reading.reads r a → reading.same a →
    call.commit s = (.ok a, s)
  reuse : accepted → ∀ r ∈ rows s, reading.shares r → (∀ a, reading.reads r a → ¬ reading.same a) →
    call.commit s = (.error conflict, s)

/-- The law of a call, from what its runs do. -/
theorem Law.of_run {σ : Type} {call : Tx ε σ α} {rows : σ → List ρ} {put : List ρ → σ → σ} {reading : Reading ρ α}
    {conflict : ε} {accepted : Prop} {s : σ}
    (hok : ∀ a s', call.run s = .ok (a, s') →
      (∃ row, s' = put (rows s ++ [row]) s ∧ reading.owns row ∧ reading.reads row a ∧ reading.stored a ∧
          ∀ r ∈ rows s, ¬ reading.shares r) ∨
        (s' = s ∧ reading.same a ∧ ∃ r ∈ rows s, reading.reads r a ∧ ∀ r' ∈ rows s, reading.shares r' ↔ r' = r))
    (hretry : accepted → ∀ r ∈ rows s, reading.owns r → ∀ a, reading.reads r a → reading.same a →
      call.run s = .ok (a, s))
    (hreuse : accepted → ∀ r ∈ rows s, reading.shares r → (∀ a, reading.reads r a → ¬ reading.same a) →
      call.run s = .error conflict) :
    Law call rows put reading conflict accepted s := by
  constructor
  · intro result s' hcommit
    cases hrun : call.run s with
    | error e =>
      rw [Tx.commit_of_error hrun] at hcommit
      cases hcommit
      exact Or.inr (Or.inr ⟨e, rfl, rfl⟩)
    | ok p =>
      rw [Tx.commit_of_ok hrun] at hcommit
      cases hcommit
      rcases hok _ _ hrun with ⟨row, hrow⟩ | hfound
      · exact Or.inl ⟨_, row, rfl, hrow⟩
      · exact Or.inr (Or.inl ⟨_, rfl, hfound⟩)
  · intro haccept r hr howns a hreads hsame
    exact Tx.commit_of_ok (hretry haccept r hr howns a hreads hsame)
  · intro haccept r hr hshares hother
    exact Tx.commit_of_error (hreuse haccept r hr hshares hother)

/-- **The law of a call that checks its arguments and inserts into a table of its database.** -/
theorem Law.lift {σ : Type} {call : Tx ε σ α} {rows : σ → List ρ} {put : List ρ → σ → σ} {reading : Reading ρ α}
    {conflict : ε} {accepted : Prop} {s : σ} (hput : put (rows s) s = s)
    (hok : ∀ a s', call.run s = .ok (a, s') → ∃ body : Tx ε (List ρ) α,
      Law body (fun t => t) (fun t _ => t) reading conflict True (rows s) ∧
        (Tx.zoom rows put body).run s = .ok (a, s'))
    (haccepted : accepted → ∃ body : Tx ε (List ρ) α,
      Law body (fun t => t) (fun t _ => t) reading conflict True (rows s) ∧
        call.run s = (Tx.zoom rows put body).run s) :
    Law call rows put reading conflict accepted s := by
  refine Law.of_run (fun a s' hrun => ?_) (fun haccept r hr howns a hreads hsame => ?_)
    fun haccept r hr hshares hother => ?_
  · obtain ⟨body, hlaw, hzoom⟩ := hok a s' hrun
    obtain ⟨t', hbody, hs'⟩ := Tx.run_zoom_eq_ok_iff.mp hzoom
    rcases hlaw.outcome _ _ (Tx.commit_of_ok hbody) with
      ⟨b, row, hb, rfl, hrow⟩ | ⟨b, hb, rfl, hsame, hrow⟩ | ⟨e, he, -⟩
    · cases hb
      exact Or.inl ⟨row, hs', hrow⟩
    · cases hb
      exact Or.inr ⟨hs'.trans hput, hsame, hrow⟩
    · cases he
  · obtain ⟨body, hlaw, hcall⟩ := haccepted haccept
    have hbody := Tx.commit_eq_ok_iff.mp (hlaw.retry trivial r hr howns a hreads hsame)
    exact hcall.trans (Tx.run_zoom_eq_ok_iff.mpr ⟨rows s, hbody, hput.symm⟩)
  · obtain ⟨body, hlaw, hcall⟩ := haccepted haccept
    obtain ⟨hbody, -⟩ := Tx.commit_eq_error (hlaw.reuse trivial r hr hshares hother)
    exact hcall.trans (Tx.run_zoom_of_error hbody)

/-! ### Inserting -/

variable [Row ρ]

/-- **What an insert does.** It adds a row that shares no unique value with the table, or returns a stored
row and leaves the table alone. -/
theorem run_exec_eq_ok {t t' : List ρ} {a : α} (hrow : ∀ id, Row.rowid (ins.row id) = id)
    (h : ins.exec.run t = .ok (a, t')) :
    ((∀ r ∈ t, ins.clashes r = false) ∧ t' = t ++ [ins.row (Table.nextRowid t)] ∧
        ins.decode (ins.row (Table.nextRowid t)) = .ok a) ∨
      (t' = t ∧ (∃ r ∈ t, ins.clashes r = true ∧ ins.decode r = .ok a) ∧
        ∀ r ∈ t, ins.clashes r = true → ∃ b, ins.decode r = .ok b ∧ ins.same b = true) := by
  simp only [exec, Tx.read_bind] at h
  cases hempty : (t.filter ins.clashes).isEmpty with
  | true =>
    simp only [hempty, if_true, Tx.read_bind, Tx.write_bind, Table.byRowid_insert (hrow _),
      Tx.ofResult_bind_eq_ok_iff, okOr_some, Except.ok.injEq, exists_eq_left', Tx.run_ofResult_eq_ok_iff] at h
    exact Or.inl ⟨fresh_of_isEmpty hempty, h.2, h.1⟩
  | false =>
    rw [if_neg (by simp [hempty])] at h
    exact Or.inr (run_retry_eq_ok h)

/-- What an insert does that does not read its row back. -/
theorem run_execReturning_eq_ok {value : ℤ → α} {t t' : List ρ} {a : α}
    (h : (ins.execReturning value).run t = .ok (a, t')) :
    ((∀ r ∈ t, ins.clashes r = false) ∧ t' = t ++ [ins.row (Table.nextRowid t)] ∧ a = value (Table.nextRowid t)) ∨
      (t' = t ∧ (∃ r ∈ t, ins.clashes r = true ∧ ins.decode r = .ok a) ∧
        ∀ r ∈ t, ins.clashes r = true → ∃ b, ins.decode r = .ok b ∧ ins.same b = true) := by
  simp only [execReturning, Tx.read_bind] at h
  cases hempty : (t.filter ins.clashes).isEmpty with
  | true =>
    simp only [hempty, if_true, Tx.read_bind, Tx.write_bind, Tx.run_pure, Except.ok.injEq, Prod.mk.injEq] at h
    exact Or.inl ⟨fresh_of_isEmpty hempty, h.2.symm, h.1.symm⟩
  | false =>
    rw [if_neg (by simp [hempty])] at h
    exact Or.inr (run_retry_eq_ok h)

/-- An insert that shares no unique value with the table, and whose row can be read, adds it. -/
theorem run_exec_fresh {t : List ρ} {a : α} (hrow : ∀ id, Row.rowid (ins.row id) = id)
    (hfresh : ∀ r ∈ t, ins.clashes r = false) (hdecode : ins.decode (ins.row (Table.nextRowid t)) = .ok a) :
    ins.exec.run t = .ok (a, t ++ [ins.row (Table.nextRowid t)]) := by
  have hempty : (t.filter ins.clashes).isEmpty = true := by
    rw [List.isEmpty_iff, List.filter_eq_nil_iff]
    exact fun r hr => by simp [hfresh r hr]
  simp only [exec, Tx.read_bind, hempty, if_true, Tx.write_bind, Table.byRowid_insert (hrow _)]
  rw [Tx.ofResult_bind_of_ok (okOr_some _ _), Tx.run_ofResult_eq_ok_iff]
  exact ⟨hdecode, rfl⟩

/-- **An exact retry returns the stored row and changes nothing.** -/
theorem run_exec_retry {t : List ρ} (hunique : Table.Unique Row.rowid t) {r : ρ} {a : α} (hr : r ∈ t)
    (hclash : ins.clashes r = true) (honly : ∀ s ∈ t, ins.clashes s = true → s = r)
    (hdecode : ins.decode r = .ok a) (hsame : ins.same a = true) : ins.exec.run t = .ok (a, t) := by
  simp only [exec, Tx.read_bind]
  rw [Table.filter_eq_singleton hunique hr hclash honly, if_neg (by simp), Tx.run_ofResult_eq_ok_iff]
  exact ⟨retry_singleton hdecode hsame, rfl⟩

/-- An exact retry of an insert that does not read its row back. -/
theorem run_execReturning_retry {value : ℤ → α} {t : List ρ} (hunique : Table.Unique Row.rowid t) {r : ρ} {a : α}
    (hr : r ∈ t) (hclash : ins.clashes r = true) (honly : ∀ s ∈ t, ins.clashes s = true → s = r)
    (hdecode : ins.decode r = .ok a) (hsame : ins.same a = true) : (ins.execReturning value).run t = .ok (a, t) := by
  simp only [execReturning, Tx.read_bind]
  rw [Table.filter_eq_singleton hunique hr hclash honly, if_neg (by simp), Tx.run_ofResult_eq_ok_iff]
  exact ⟨retry_singleton hdecode hsame, rfl⟩

/-! ### Inserts keep the law -/

variable {t : List ρ} {reading : Reading ρ α}

/-- What is needed of an insert, of a table and of how its rows are read for the law: the rows can be read; those that
share a unique value with the call and hold what it was to insert are one row, and one that has all its unique values
is the only one that shares any; and the new row is the call's own and reads as what is to be inserted. -/
structure Ready (ins : IdempotentInsert ε ρ α) (reading : Reading ρ α) (t : List ρ) : Prop where
  clashes : ∀ r, ins.clashes r = true ↔ reading.shares r
  decode : ∀ r a, ins.decode r = .ok a ↔ reading.reads r a
  same : ∀ a, ins.same a = true ↔ reading.same a
  readable : ∀ r ∈ t, ∃ a, ins.decode r = .ok a
  unique : Table.Unique Row.rowid t
  one : ∀ r ∈ t, ∀ r' ∈ t, reading.shares r → reading.shares r' → ∀ a a', reading.reads r a → reading.reads r' a' →
    reading.same a → reading.same a' → r = r'
  alone : ∀ r ∈ t, reading.owns r → ∀ r' ∈ t, reading.shares r' ↔ r' = r
  rowid : ∀ id, Row.rowid (ins.row id) = id
  owned : ∀ id, reading.owns (ins.row id)
  written : ∀ a, ins.decode (ins.row (Table.nextRowid t)) = .ok a → reading.stored a

namespace Ready

/-- The look at the rows that were there before keeps the law. -/
theorem retry_conflict (h : Ready ins reading t) {r : ρ} (hr : r ∈ t) (hshares : reading.shares r)
    (hother : ∀ a, reading.reads r a → ¬ reading.same a) :
    ins.retry (t.filter ins.clashes) none = .error ins.conflict := by
  have hmem : ∀ {s}, s ∈ t.filter ins.clashes → s ∈ t ∧ reading.shares s := fun hs =>
    ⟨(List.mem_filter.mp hs).1, (h.clashes _).mp (List.mem_filter.mp hs).2⟩
  refine IdempotentInsert.retry_conflict (fun s hs => h.readable s (hmem hs).1)
    ⟨r, List.mem_filter.mpr ⟨hr, (h.clashes r).mpr hshares⟩, fun a ha => ?_⟩ (fun _ => ?_)
    (fun _ s hs s' hs' a a' ha ha' hsame hsame' => ?_) nofun
  · exact Bool.eq_false_iff.mpr fun hsame => hother a ((h.decode r a).mp ha) ((h.same a).mp hsame)
  · exact (h.unique.imp fun {r s} hrs heq => hrs (congrArg _ heq)).filter _
  · exact h.one s (hmem hs).1 s' (hmem hs').1 (hmem hs).2 (hmem hs').2 a a' ((h.decode s a).mp ha)
      ((h.decode s' a').mp ha') ((h.same a).mp hsame) ((h.same a').mp hsame')

/-- What a look at the rows that were there before returned. -/
theorem returned (h : Ready ins reading t) {a : α} (hrow : ∃ r ∈ t, ins.clashes r = true ∧ ins.decode r = .ok a)
    (hall : ∀ r ∈ t, ins.clashes r = true → ∃ b, ins.decode r = .ok b ∧ ins.same b = true) :
    reading.same a ∧ ∃ r ∈ t, reading.reads r a ∧ ∀ r' ∈ t, reading.shares r' ↔ r' = r := by
  obtain ⟨r, hr, hclash, hdecode⟩ := hrow
  obtain ⟨b, hb, hsame⟩ := hall r hr hclash
  obtain rfl := Except.ok.inj (hdecode.symm.trans hb)
  have hshares := (h.clashes r).mp hclash
  refine ⟨(h.same a).mp hsame, r, hr, (h.decode r a).mp hdecode, fun r' hr' => ⟨fun hshares' => ?_, ?_⟩⟩
  · obtain ⟨b', hb', hsame'⟩ := hall r' hr' ((h.clashes r').mpr hshares')
    exact h.one r' hr' r hr hshares' hshares b' a ((h.decode r' b').mp hb') ((h.decode r a).mp hdecode)
      ((h.same b').mp hsame') ((h.same a).mp hsame)
  · rintro rfl
    exact hshares

/-- No row shares a unique value with the call where none clashes with it. -/
theorem fresh (h : Ready ins reading t) (hfresh : ∀ r ∈ t, ins.clashes r = false) : ∀ r ∈ t, ¬ reading.shares r := by
  intro r hr hshares
  rw [← h.clashes, hfresh r hr] at hshares
  cases hshares

/-- Where a row shares a unique value with the call, some row was there before. -/
theorem clashing (h : Ready ins reading t) {r : ρ} (hr : r ∈ t) (hshares : reading.shares r) :
    ¬ (t.filter ins.clashes).isEmpty = true := by
  rw [List.isEmpty_iff]
  exact List.ne_nil_of_mem (List.mem_filter.mpr ⟨hr, (h.clashes r).mpr hshares⟩)

/-- A row that has all unique values of the call clashes with it, and no other row does. -/
theorem clashes_alone (h : Ready ins reading t) {r : ρ} (hr : r ∈ t) (howns : reading.owns r) :
    ins.clashes r = true ∧ ∀ s ∈ t, ins.clashes s = true → s = r :=
  ⟨(h.clashes r).mpr ((h.alone r hr howns r hr).mpr rfl), fun s hs hclash =>
    (h.alone r hr howns s hs).mp ((h.clashes s).mp hclash)⟩

end Ready

/-- **An insert keeps the law.** -/
theorem law_exec (h : Ready ins reading t) :
    Law ins.exec (fun t => t) (fun t _ => t) reading ins.conflict True t := by
  refine Law.of_run (fun a t' hrun => ?_) (fun _ r hr howns a hreads hsame => ?_) fun _ r hr hshares hother => ?_
  · rcases run_exec_eq_ok h.rowid hrun with ⟨hfresh, ht, hdecode⟩ | ⟨ht, hexists, hall⟩
    · exact Or.inl ⟨_, ht, h.owned _, (h.decode _ _).mp hdecode, h.written _ hdecode, h.fresh hfresh⟩
    · exact Or.inr ⟨ht, h.returned hexists hall⟩
  · obtain ⟨hclash, honly⟩ := h.clashes_alone hr howns
    exact run_exec_retry h.unique hr hclash honly ((h.decode r a).mpr hreads) ((h.same a).mpr hsame)
  · rw [exec, Tx.read_bind, if_neg (h.clashing hr hshares), h.retry_conflict hr hshares hother, Tx.run_ofResult_error]

/-- An insert that does not read its row back keeps the law. -/
theorem law_execReturning (value : ℤ → α) (h : Ready ins reading t)
    (hdecode : ins.decode (ins.row (Table.nextRowid t)) = .ok (value (Table.nextRowid t))) :
    Law (ins.execReturning value) (fun t => t) (fun t _ => t) reading ins.conflict True t := by
  refine Law.of_run (fun a t' hrun => ?_) (fun _ r hr howns a hreads hsame => ?_) fun _ r hr hshares hother => ?_
  · rcases run_execReturning_eq_ok hrun with ⟨hfresh, ht, hvalue⟩ | ⟨ht, hexists, hall⟩
    · rw [← hvalue] at hdecode
      exact Or.inl ⟨_, ht, h.owned _, (h.decode _ _).mp hdecode, h.written _ hdecode, h.fresh hfresh⟩
    · exact Or.inr ⟨ht, h.returned hexists hall⟩
  · obtain ⟨hclash, honly⟩ := h.clashes_alone hr howns
    exact run_execReturning_retry h.unique hr hclash honly ((h.decode r a).mpr hreads) ((h.same a).mpr hsame)
  · rw [execReturning, Tx.read_bind, if_neg (h.clashing hr hshares), h.retry_conflict hr hshares hother,
      Tx.run_ofResult_error]

end IdempotentInsert

end AgentVoice.Foundations

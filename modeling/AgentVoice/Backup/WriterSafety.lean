import AgentVoice.Backup.Writer

/-!
# Safety of the snapshot writer

Whatever other processes do to directory entries between its calls, the writer publishes only its own file, complete
and synchronised, where nothing stood; and as long as its cleanup is not disturbed (`Benign`), it removes only its own
file and leaves none behind when it fails before publication. The program is followed from one held file to the next:
`Held` says all that the writer needs to know of its temporary file, and survives what others do.
-/

namespace AgentVoice.Backup

open AgentVoice.Foundations Program

/-! ### What is promised -/

/-- The writer created the file. -/
def Scene.IsOwn (s : Scene) (i : Inode) : Prop := ∃ d name, Effect.created d name i ∈ s.effects

/-- An effect that is promised: nothing is created at the destination, nothing is removed but own files, and nothing
renamed but an own file with the payload, synchronised, to the destination where there was no entry. -/
def Effect.Acceptable (destination : Option String) (payload : List UInt8) (s : Scene) : Effect → Prop
  | .created _ name _ => some name ≠ destination
  | .removed _ _ i => s.IsOwn i
  | .renamed _ _ target i node replaced =>
    some target = destination ∧ replaced = none ∧ s.IsOwn i ∧ node.contents = payload ∧ node.synced = true

/-- Everything the writer did is promised. -/
def Safe (destination : Option String) (payload : List UInt8) (s : Scene) : Prop :=
  ∀ e ∈ s.effects, e.Acceptable destination payload s

/-- The writer renamed its file to the destination. -/
def Published (s : Scene) : Prop :=
  ∃ d source target i node replaced, Effect.renamed d source target i node replaced ∈ s.effects

/-- No file of the writer stands under its temporary name. -/
def LeavesNothing (s : Scene) : Prop :=
  ∀ d name i, Effect.created d name i ∈ s.effects → s.disk.entries (d, name) ≠ some i

/-- How the writer may fail. -/
def Failed (destination : Option String) (payload : List UInt8) (_ : WriterError) (s : Scene) : Prop :=
  Safe destination payload s ∧ (Published s ∨ LeavesNothing s)

/-- How the writer may end. -/
def Finished (destination : Option String) (payload : List UInt8) : Except WriterError Unit → Scene → Prop :=
  Ends (fun _ s => Safe destination payload s ∧ Published s) (Failed destination payload)

/-- The condition on the calls of the guards' `Drop`: the unlink of a file whose identity could not be read finds
nothing but the writer's own file, or fails; and no cleanup fails with the writer's file in place, as far as no other
attempt follows. -/
def Benign {β : Type} (c : SystemCall β) (o : Outcome) (s : Scene) : Prop :=
  match c with
  | .unlinkAt d name => ∀ i, s.disk.entries (d, name) = some i → (s.IsOwn i ↔ o.error = none)
  | .removeIfOwnedAt .createdTemporary d name _ =>
    ∀ i, s.disk.entries (d, name) = some i → s.IsOwn i → o.error = none
  | .removeIfOwned name _ =>
    ∀ d i, Effect.created d name i ∈ s.effects → s.disk.entries (d, name) = some i →
      o.error = none ∧ s.disk.parentTarget = some d
  | _ => True

/-- The surroundings of the writer. -/
abbrev writerSetting (destination : Option String) (payload : List UInt8) :
    Program.Setting SystemCall Scene Outcome Change :=
  ⟨fileSystem, Benign, Safe destination payload⟩

/-! ### What the writer knows between its calls -/

/-- The writer has done nothing. -/
def Idle (s : Scene) : Prop := s.effects = []

/-- The writer has created a file, and nothing else. -/
structure Held (d : Directory) (name : String) (i : Inode) (node : FileNode) (s : Scene) : Prop where
  effects : s.effects = [.created d name i]
  used : i < s.disk.unused
  node : s.disk.files i = node

/-- The writer has created a file, which it may have written to. -/
def Open (d : Directory) (name : String) (i : Inode) (s : Scene) : Prop :=
  ∃ node : FileNode, node.symlink = false ∧ Held d name i node s

/-- The writer's file has gone from its temporary name. -/
structure Cleaned (d : Directory) (name : String) (i : Inode) (s : Scene) : Prop where
  created : .created d name i ∈ s.effects
  effects : ∀ e ∈ s.effects, e = .created d name i ∨ ∃ d' name', e = .removed d' name' i
  gone : s.disk.entries (d, name) ≠ some i

variable {destination : Option String} {payload : List UInt8} {d : Directory} {name : String} {i : Inode}
  {node : FileNode} {s : Scene}

theorem Held.isOwn_iff (h : Held d name i node s) {j : Inode} : s.IsOwn j ↔ j = i := by
  unfold Scene.IsOwn
  rw [h.effects]
  constructor
  · rintro ⟨_, _, hmem⟩
    cases List.mem_singleton.mp hmem
    rfl
  · rintro rfl
    exact ⟨d, name, List.mem_singleton_self _⟩

theorem Idle.failed (e : WriterError) (s : Scene) (h : Idle s) : Failed destination payload e s := by
  have hnone : ∀ {e}, e ∉ s.effects := by
    rw [h]
    exact List.not_mem_nil
  exact ⟨fun e he => absurd he hnone, .inr fun _ _ _ he => absurd he hnone⟩

theorem Cleaned.failed (hname : some name ≠ destination) (e : WriterError) (s : Scene) (h : Cleaned d name i s) :
    Failed destination payload e s := by
  refine ⟨fun e he => ?_, .inr fun d' name' i' he => ?_⟩
  · rcases h.effects e he with rfl | ⟨d', name', rfl⟩
    · exact hname
    · exact ⟨d, name, h.created⟩
  · rcases h.effects _ he with heq | ⟨_, _, heq⟩
    · cases heq
      exact h.gone
    · cases heq

/-- What is not under its name need not be cleaned up. -/
theorem Held.cleaned (h : Held d name i node s) (hgone : s.disk.entries (d, name) ≠ some i) : Cleaned d name i s where
  created := by
    rw [h.effects]
    exact List.mem_singleton_self _
  effects e he := by
    rw [h.effects] at he
    exact .inl (List.mem_singleton.mp he)
  gone := hgone

/-- Removing an entry of the writer's file cleans up, unless the temporary name stays. -/
theorem Held.cleaned_remove (h : Held d name i node s) {d' : Directory} {name' : String}
    (hgone : (d', name') = (d, name) ∨ s.disk.entries (d, name) ≠ some i) : Cleaned d name i (s.remove d' name' i) where
  created := by
    show _ ∈ s.effects ++ _
    rw [h.effects]
    exact List.mem_cons_self
  effects e he := by
    have he' : e ∈ s.effects ++ [.removed d' name' i] := he
    rw [h.effects] at he'
    rcases List.mem_cons.mp he' with rfl | he'
    · exact .inl rfl
    · exact .inr ⟨d', name', List.mem_singleton.mp he'⟩
  gone := by
    show Function.update s.disk.entries (d', name') none (d, name) ≠ some i
    by_cases hsame : (d, name) = (d', name')
    · rw [hsame, Function.update_self]
      exact nofun
    · rw [Function.update_of_ne hsame]
      exact hgone.resolve_left (Ne.symm hsame)

/-! ### What others leave alone -/

theorem Held.interfere (h : Held d name i node s) (c : Change) : Held d name i node (interfere c s) := by
  obtain ⟨heffects, hused, hnode⟩ := h
  cases c with
  | create l node' =>
    refine ⟨heffects, Nat.lt_succ_of_lt hused, ?_⟩
    show Function.update s.disk.files s.disk.unused node' i = node
    rw [Function.update_of_ne (Nat.ne_of_lt hused)]
    exact hnode
  | link l source => exact ⟨heffects, hused, hnode⟩
  | delete l => exact ⟨heffects, hused, hnode⟩
  | moveParent entry target => exact ⟨heffects, hused, hnode⟩
  | setStat d' stat => exact ⟨heffects, hused, hnode⟩
  | takeNames n => exact ⟨heffects, hused, hnode⟩

@[simp] theorem interfere_effects (c : Change) (s : Scene) : (interfere c s).effects = s.effects := by
  cases c <;> rfl

theorem stable_idle : Stable (writerSetting destination payload) Idle where
  interfere c s h := (interfere_effects c s).trans h
  invariant s h := (Idle.failed .write s h).1

theorem Held.safe (h : Held d name i node s) (hname : some name ≠ destination) : Safe destination payload s := by
  intro e he
  rw [h.effects] at he
  rw [List.mem_singleton.mp he]
  exact hname

theorem stable_held (hname : some name ≠ destination) :
    Stable (writerSetting destination payload) (Held d name i node) where
  interfere c _ h := h.interfere c
  invariant _ h := h.safe hname

theorem stable_open (hname : some name ≠ destination) : Stable (writerSetting destination payload) (Open d name i) where
  interfere c _ := fun ⟨node, hnode, h⟩ => ⟨node, hnode, h.interfere c⟩
  invariant _ := fun ⟨_, _, h⟩ => h.safe hname

/-! ### Calls that change nothing -/

/-- A call that changes nothing. -/
def Reads {β : Type} (c : SystemCall β) : Prop := ∀ o s, (perform c o s).2 = s

theorem fallible_reads {α : Type} (o : Outcome) (s : Scene) (r : Except IoError α) : (fallible o s (r, s)).2 = s := by
  unfold fallible
  split <;> rfl

theorem reads_parentMetadata : Reads .parentMetadata := fun _ _ => fallible_reads _ _ _

theorem reads_openParent : Reads .openParent := fun _ _ => fallible_reads _ _ _

theorem reads_directoryMetadata (d : Directory) : Reads (.directoryMetadata d) := fun _ _ => fallible_reads _ _ _

theorem reads_entryIdentityAt (d : Directory) (name : String) : Reads (.entryIdentityAt d name) :=
  fun _ _ => fallible_reads _ _ _

theorem reads_tryClone (d : Directory) : Reads (.tryClone d) := fun _ _ => fallible_reads _ _ _

theorem reads_fileMetadata (file : Inode) : Reads (.fileMetadata file) := fun _ _ => fallible_reads _ _ _

theorem reads_setPermissions (file : Inode) (mode : ℕ) : Reads (.setPermissions file mode) :=
  fun _ _ => fallible_reads _ _ _

theorem reads_syncDirectory (d : Directory) : Reads (.syncDirectory d) := fun _ _ => fallible_reads _ _ _

variable {P : Scene → Prop} {α β : Type}

theorem Reads.eq {c : SystemCall β} (hc : Reads c) {o : Outcome} {s s' : Scene} {b : β}
    (h : perform c o s = (b, s')) : s' = s := by
  have hsame := hc o s
  rw [h] at hsame
  exact hsame

theorem triple_attempt_reads {c : SystemCall (Except IoError β)} (hc : Reads c)
    (hP : Stable (writerSetting destination payload) P) (e : WriterError) :
    Triple (writerSetting destination payload) P (Program.attempt c e) fun _ => P := by
  refine Triple.attempt hP (fun o s b s' hs _ hperform => ?_) fun o s e' s' hs _ hperform => ?_
  · rw [hc.eq hperform]
    exact hs
  · rw [hc.eq hperform]
    exact hs

theorem triple_call_reads {c : SystemCall β} {next : β → Writer α} {Q : Except WriterError α → Scene → Prop}
    (hc : Reads c) (hP : Stable (writerSetting destination payload) P)
    (h : ∀ b, Triple (writerSetting destination payload) P (next b) Q) :
    Triple (writerSetting destination payload) P (Program.call c next) Q := by
  refine Triple.call (R := fun _ => P) hP (fun o s b s' hs _ hperform => ?_) h
  rw [hc.eq hperform]
  exact hs

theorem triple_ensure (p : Prop) [Decidable p] (e : WriterError) :
    Triple (writerSetting destination payload) P (Program.ensure p e) fun _ => P :=
  Triple.ensure (fun _ _ h => h) fun _ _ h => h

theorem triple_pure (a : α) : Triple (writerSetting destination payload) P (pure a : Writer α) fun _ => P :=
  Triple.done fun _ h => h

theorem triple_fail (e : WriterError) :
    Triple (writerSetting destination payload) P (Program.fail e : Writer α) fun _ => P :=
  Triple.done fun _ h => h

theorem triple_openParentDirectory (hP : Stable (writerSetting destination payload) P) (euid : ℕ) :
    Triple (writerSetting destination payload) P (openParentDirectory euid) fun _ => P := by
  refine Triple.bind (triple_attempt_reads reads_openParent hP _) (fun directory => ?_) fun _ _ h => h
  refine Triple.bind (triple_attempt_reads (reads_directoryMetadata _) hP _) (fun _ => ?_) fun _ _ h => h
  refine Triple.bind (triple_attempt_reads reads_parentMetadata hP _) (fun _ => ?_) fun _ _ h => h
  refine Triple.bind (triple_attempt_reads (reads_directoryMetadata _) hP _) (fun _ => ?_) fun _ _ h => h
  exact Triple.bind (R := fun _ => P) (triple_ensure _ _) (fun _ => triple_pure _) fun _ _ h => h

theorem triple_ensureDestinationAbsentAt (hP : Stable (writerSetting destination payload) P) (parent : Directory)
    (name : String) :
    Triple (writerSetting destination payload) P (ensureDestinationAbsentAt parent name) fun _ => P := by
  refine triple_call_reads (reads_entryIdentityAt _ _) hP fun found => ?_
  match found with
  | .ok _ => exact triple_fail _
  | .error .notFound => exact triple_pure _
  | .error .alreadyExists => exact triple_fail _
  | .error .other => exact triple_fail _

theorem triple_ensureOwned (hP : Stable (writerSetting destination payload) P) (temporary : TemporaryFile) :
    Triple (writerSetting destination payload) P temporary.ensureOwned fun _ => P := by
  refine Triple.bind (R := fun _ => P) ?_ (fun _ => triple_ensure _ _) fun _ _ h => h
  exact triple_call_reads (reads_entryIdentityAt _ _) hP fun _ => triple_pure _

/-! ### Cleaning up -/

theorem Held.cleaned_of_outcome (h : Held d name i node s) {o : Outcome} {e : IoError}
    (hbenign : ∀ j, s.disk.entries (d, name) = some j → s.IsOwn j → o.error = none) (ho : o.error = some e) :
    Cleaned d name i s := by
  refine h.cleaned fun hentry => ?_
  have hnone := hbenign i hentry (h.isOwn_iff.mpr rfl)
  rw [ho] at hnone
  cases hnone

theorem triple_dropUnidentified (hname : some name ≠ destination) :
    Triple (writerSetting destination payload) (Open d name i) (dropUnidentified d name) fun _ => Cleaned d name i := by
  refine Triple.bind (R := fun _ => Cleaned d name i) ?_ (fun _ => triple_pure _) fun _ _ h => h
  refine Triple.invoke (stable_open hname) fun o s b s' ⟨node, _, h⟩ hbenign hperform => ?_
  have hs' : s' = (perform (.unlinkAt d name) o s).2 := (congrArg Prod.snd hperform).symm
  show Cleaned d name i s'
  rw [hs', perform, fallible]
  cases ho : o.error with
  | some e => exact h.cleaned_of_outcome (fun j hj hown => (hbenign j hj).mp hown) ho
  | none =>
    show Cleaned d name i (s.unlinkAt d name).2
    unfold Scene.unlinkAt
    cases hentry : s.disk.entries (d, name) with
    | none => exact h.cleaned (by rw [hentry]; exact nofun)
    | some j =>
      obtain rfl := h.isOwn_iff.mp ((hbenign j hentry).mpr ho)
      exact h.cleaned_remove (.inl rfl)

/-- What `remove_if_owned_at` leaves: the file is gone from its name, or the answer is no and nothing has changed. -/
theorem Held.removeIfOwnedAt (h : Held d name i node s) (hnode : node.symlink = false) :
    (s.removeIfOwnedAt d name (i, false) = (true, s.remove d name i)) ∨
      (s.removeIfOwnedAt d name (i, false) = (false, s) ∧ s.disk.entries (d, name) ≠ some i) := by
  unfold Scene.removeIfOwnedAt
  cases hentry : s.disk.entries (d, name) with
  | none => exact .inr ⟨rfl, nofun⟩
  | some j =>
    by_cases hji : j = i
    · subst hji
      left
      dsimp only
      rw [h.node, hnode]
      exact if_neg (not_not.mpr rfl)
    · refine .inr ⟨if_pos fun heq => hji (Prod.mk.inj heq).1, fun heq => hji (Option.some.inj heq)⟩

theorem triple_dropIdentified (hname : some name ≠ destination) :
    Triple (writerSetting destination payload) (Open d name i) (dropIdentified d name (i, false)) fun _ =>
      Cleaned d name i := by
  refine Triple.bind (R := fun _ => Cleaned d name i) ?_ (fun _ => triple_pure _) fun _ _ h => h
  refine Triple.invoke (stable_open hname) fun o s b s' ⟨node, hnode, h⟩ hbenign hperform => ?_
  have hs' : s' = (perform (.removeIfOwnedAt .createdTemporary d name (i, false)) o s).2 :=
    (congrArg Prod.snd hperform).symm
  show Cleaned d name i s'
  rw [hs', perform]
  cases ho : o.error with
  | some e => exact h.cleaned_of_outcome hbenign ho
  | none =>
    show Cleaned d name i (s.removeIfOwnedAt d name (i, false)).2
    rcases h.removeIfOwnedAt hnode with heq | ⟨heq, hgone⟩
    · rw [heq]
      exact h.cleaned_remove (.inl rfl)
    · rw [heq]
      exact h.cleaned hgone

theorem Held.removeIfOwned (h : Held d name i node s)
    (hpath : s.disk.entries (d, name) = some i → s.disk.parentTarget = some d) :
    Cleaned d name i (s.removeIfOwned name (i, false)).2 := by
  unfold Scene.removeIfOwned
  cases htarget : s.disk.parentTarget with
  | none =>
    refine h.cleaned fun hentry => ?_
    cases htarget.symm.trans (hpath hentry)
  | some d' =>
    have hsame : s.disk.entries (d, name) = some i → d' = d := fun hentry =>
      Option.some.inj (htarget.symm.trans (hpath hentry))
    dsimp only
    cases hentry : s.disk.entries (d', name) with
    | none =>
      refine h.cleaned fun hown => ?_
      rw [hsame hown, hown] at hentry
      cases hentry
    | some j =>
      dsimp only
      split_ifs with hij
      · subst hij
        refine h.cleaned_remove ?_
        by_cases hdd : d' = d
        · exact .inl (by rw [hdd])
        · exact .inr fun hown => hdd (hsame hown)
      · refine h.cleaned fun hown => hij ?_
        rw [hsame hown, hown] at hentry
        exact Option.some.inj hentry

theorem triple_drop (hname : some name ≠ destination) :
    Triple (writerSetting destination payload) (Open d name i) (TemporaryFile.drop ⟨d, name, i, (i, false)⟩) fun _ =>
      Cleaned d name i := by
  refine Triple.bind (R := Ends (fun removed s => if removed = true then Cleaned d name i s else Open d name i s)
    fun _ _ => False) ?_ ?_ fun _ _ h => h.elim
  · refine Triple.invoke (stable_open hname) fun o s b s' ⟨node, hnode, h⟩ _ hperform => ?_
    have hperform' : perform (.removeIfOwnedAt .temporaryFile d name (i, false)) o s = (b, s') := hperform
    rw [perform] at hperform'
    split_ifs at hperform' with ho
    · cases hperform'
      exact ⟨node, hnode, h⟩
    · rcases h.removeIfOwnedAt hnode with heq | ⟨heq, -⟩
      · cases heq.symm.trans hperform'
        exact h.cleaned_remove (.inl rfl)
      · cases heq.symm.trans hperform'
        exact ⟨node, hnode, h⟩
  · intro removed
    cases removed with
    | true => exact triple_pure _
    | false =>
      refine Triple.invoke (stable_open hname) fun o s b s' ⟨node, _, h⟩ hbenign hperform => ?_
      have hown : Effect.created d name i ∈ s.effects := by
        rw [h.effects]
        exact List.mem_singleton_self _
      have hs' : s' = (perform (.removeIfOwned name (i, false)) o s).2 := (congrArg Prod.snd hperform).symm
      show Cleaned d name i s'
      rw [hs', perform]
      cases ho : o.error with
      | some e =>
        refine h.cleaned fun hentry => ?_
        have hnone := (hbenign d i hown hentry).1
        rw [ho] at hnone
        cases hnone
      | none => exact h.removeIfOwned fun hentry => (hbenign d i hown hentry).2

/-! ### The temporary file -/

/-- The temporary file has been created, under a name that is not the destination's. -/
def Created (destination : String) (d : Directory) (temporary : TemporaryFile) (s : Scene) : Prop :=
  ∃ name i, some name ≠ some destination ∧ temporary = ⟨d, name, i, (i, false)⟩ ∧ Held d name i ⟨[], false, false⟩ s

/-- What a fallible call that changes nothing answers. -/
theorem fallible_answer {o : Outcome} {s s' : Scene} {a b : α} (h : fallible o s (.ok a, s) = (.ok b, s')) : b = a := by
  unfold fallible at h
  split at h
  · cases h
  · cases h
    rfl

theorem triple_setUp {target : String} (hname : some name ≠ some target) :
    Triple (writerSetting (some target) payload) (Held d name i ⟨[], false, false⟩) (setUp d name i)
      (Ends (Created target d) (Failed (some target) payload)) := by
  let Ready : Scene → Prop := Held d name i ⟨[], false, false⟩
  have hready : Stable (writerSetting (some target) payload) Ready := stable_held hname
  have hidentity : Triple (writerSetting (some target) payload) Ready (Program.attempt (.fileMetadata i) .write : Writer Identity)
      (Ends (fun identity s => identity = (i, false) ∧ Ready s) fun _ => Ready) := by
    refine Triple.attempt hready (fun o s b s' h _ hperform => ?_) fun o s e' s' h _ hperform => ?_
    · rw [(reads_fileMetadata i).eq hperform]
      have hanswer := fallible_answer hperform
      rw [h.node] at hanswer
      exact ⟨hanswer, h⟩
    · rw [(reads_fileMetadata i).eq hperform]
      exact h
  refine Triple.bind (R := Ends (fun identity s => identity = (i, false) ∧ Ready s) (Failed (some target) payload)) ?_
    (fun identity => ?_) fun _ _ h => h
  · refine Triple.onError hidentity (fun _ _ h => h) fun e => ?_
    exact (triple_dropUnidentified hname).weaken (fun _ h => ⟨_, rfl, h⟩) fun _ => Cleaned.failed hname e
  · by_cases hsame : identity = (i, false)
    swap
    · exact fun _ _ h => absurd h.1 hsame
    subst hsame
    refine Triple.weaken (P := Ready) ?_ (fun _ h => h.2) fun _ _ h => h
    refine Triple.bind (R := Ends (fun _ => Ready) (Failed (some target) payload)) ?_
      (fun _ => Triple.done fun s h => ⟨name, i, hname, rfl, h⟩) fun _ _ h => h
    refine Triple.onError (triple_attempt_reads (reads_setPermissions i _) hready _) (fun _ _ h => h) fun e => ?_
    exact (triple_dropIdentified hname).weaken (fun _ h => ⟨_, rfl, h⟩) fun _ => Cleaned.failed hname e

/-- An exclusive creation yields a file of the writer's own, or nothing. -/
theorem Idle.openTemporaryAt {o : Outcome} {s' : Scene} {b : Except IoError Inode} (h : Idle s)
    (hperform : perform (.openTemporaryAt d name) o s = (b, s')) :
    Ends (fun file => Held d name file ⟨[], false, false⟩) (fun _ => Idle) b s' := by
  simp only [perform, fallible, Scene.openTemporaryAt] at hperform
  cases ho : o.error with
  | some e =>
    rw [ho] at hperform
    cases hperform
    exact h
  | none =>
    rw [ho] at hperform
    cases hentry : s.disk.entries (d, name) with
    | some j =>
      rw [hentry] at hperform
      cases hperform
      exact h
    | none =>
      rw [hentry] at hperform
      cases hperform
      refine ⟨?_, Nat.lt_succ_self _, Function.update_self _ _ _⟩
      show s.effects ++ _ = _
      rw [show s.effects = [] from h]
      rfl

theorem triple_create (pid : ℕ) (d : Directory) (target : String) (attempts : ℕ) :
    Triple (writerSetting (some target) payload) Idle (create pid d target attempts)
      (Ends (Created target d) (Failed (some target) payload)) := by
  induction attempts with
  | zero => exact Triple.done (Idle.failed .write)
  | succ attempts ih =>
    refine Triple.bind (R := fun _ => Idle) ?_ (fun sequence => ?_) Idle.failed
    · refine Triple.invoke stable_idle fun o s b s' h _ hperform => ?_
      have hs' : s' = (perform .fetchSequence o s).2 := (congrArg Prod.snd hperform).symm
      rw [hs']
      exact h
    · dsimp only
      split_ifs with hsame
      · exact ih
      have hname : some (temporaryName pid sequence) ≠ some target := fun heq => hsame (Option.some.inj heq)
      refine Triple.bind (R := Ends (fun handle s => handle = d ∧ Idle s) fun _ => Idle) ?_ (fun handle => ?_) Idle.failed
      · refine Triple.attempt stable_idle (fun o s b s' h _ hperform => ?_) fun o s e' s' h _ hperform => ?_
        · rw [(reads_tryClone d).eq hperform]
          exact ⟨fallible_answer hperform, h⟩
        · rw [(reads_tryClone d).eq hperform]
          exact h
      · by_cases hhandle : handle = d
        swap
        · exact fun _ _ h => absurd h.1 hhandle
        subst hhandle
        refine Triple.weaken (P := Idle) ?_ (fun _ h => h.2) fun _ _ h => h
        refine Triple.call (R := Ends (fun file => Held handle (temporaryName pid sequence) file ⟨[], false, false⟩)
          fun _ => Idle) stable_idle (fun o s b s' h _ hperform => ?_) fun b => ?_
        · have hcall : perform (.openTemporaryAt handle (temporaryName pid sequence)) o s = (b, s') := hperform
          exact h.openTemporaryAt hcall
        match b with
        | .ok file => exact triple_setUp hname
        | .error .alreadyExists => exact ih
        | .error .notFound => exact Triple.done (Idle.failed .write)
        | .error .other => exact Triple.done (Idle.failed .write)

/-! ### Writing and publishing -/

/-- The temporary file holds these contents. -/
def Filled (d : Directory) (name : String) (i : Inode) (contents : List UInt8) (s : Scene) : Prop :=
  ∃ synced, Held d name i ⟨contents, synced, false⟩ s

theorem Filled.isOpen {contents : List UInt8} (h : Filled d name i contents s) : Open d name i s :=
  let ⟨_, h⟩ := h
  ⟨_, rfl, h⟩

theorem stable_filled (hname : some name ≠ destination) (contents : List UInt8) :
    Stable (writerSetting destination payload) (Filled d name i contents) where
  interfere c _ := fun ⟨synced, h⟩ => ⟨synced, h.interfere c⟩
  invariant _ := fun ⟨_, h⟩ => h.safe hname

/-- A write appends a part of the buffer, or does nothing. -/
theorem Filled.write {contents buf : List UInt8} {o : Outcome} {s' : Scene} {b : Except IoError ℕ}
    (h : Filled d name i contents s) (hperform : perform (.write i buf) o s = (b, s')) :
    Ends (fun count => Filled d name i (contents ++ buf.take count)) (fun _ => Filled d name i contents) b s' := by
  obtain ⟨synced, h⟩ := h
  simp only [perform, fallible, Scene.write] at hperform
  cases ho : o.error with
  | some e =>
    rw [ho] at hperform
    cases hperform
    exact ⟨synced, h⟩
  | none =>
    rw [ho] at hperform
    cases hperform
    refine ⟨false, h.effects, h.used, ?_⟩
    show Function.update s.disk.files i _ i = _
    rw [Function.update_self, h.node, ← List.take_eq_take_min]

theorem triple_writeAll (hname : some name ≠ destination) {n : ℕ} :
    ∀ {buf : List UInt8} (contents : List UInt8), buf.length ≤ n →
      Triple (writerSetting destination payload) (Filled d name i contents) (writeAll i n buf)
        (Ends (fun _ => Filled d name i (contents ++ buf)) fun _ => Open d name i) := by
  induction n with
  | zero =>
    intro buf contents hbuf
    obtain rfl := List.length_eq_zero_iff.mp (Nat.le_zero.mp hbuf)
    refine Triple.done fun s h => ?_
    show Filled d name i (contents ++ []) s
    rw [List.append_nil]
    exact h
  | succ n ih =>
    intro buf contents hbuf
    rw [writeAll]
    split_ifs with hempty
    · subst hempty
      refine Triple.done fun s h => ?_
      show Filled d name i (contents ++ []) s
      rw [List.append_nil]
      exact h
    · refine Triple.bind (R := Ends (fun count => Filled d name i (contents ++ buf.take count))
        fun _ => Filled d name i contents) ?_ (fun count => ?_) fun _ _ h => h.isOpen
      · refine Triple.attempt (stable_filled hname _) (fun o s b s' h _ hperform => ?_) fun o s e' s' h _ hperform => ?_
        · have hcall : perform (.write i buf) o s = (.ok b, s') := hperform
          exact h.write hcall
        · have hcall : perform (.write i buf) o s = (.error e', s') := hperform
          exact h.write hcall
      · refine Triple.bind (R := fun r s => Filled d name i (contents ++ buf.take count) s ∧ (r = .ok () → count ≠ 0))
          (Triple.ensure (fun hne s h => ⟨h, fun _ => hne⟩) fun _ s h => ⟨h, nofun⟩) (fun _ => ?_) fun _ _ h => h.1.isOpen
        by_cases hcount : count = 0
        · exact fun _ _ h => absurd hcount (h.2 rfl)
        have hrest : (buf.drop count).length ≤ n := by
          rw [List.length_drop]
          omega
        refine (ih (contents ++ buf.take count) hrest).weaken (fun _ h => h.1) fun r s h => ?_
        rw [List.append_assoc, List.take_append_drop] at h
        exact h

/-- The writer's file stands at the destination, and nothing else was done. -/
def Moved (d : Directory) (name target : String) (i : Inode) (payload : List UInt8) (s : Scene) : Prop :=
  s.effects = [.created d name i, .renamed d name target i ⟨payload, true, false⟩ none]

theorem Moved.safe {target : String} (h : Moved d name target i payload s) (hname : some name ≠ some target) :
    Safe (some target) payload s := by
  intro e he
  rw [h] at he
  rcases List.mem_cons.mp he with rfl | he
  · exact hname
  · rw [List.mem_singleton.mp he]
    refine ⟨rfl, rfl, ⟨d, name, ?_⟩, rfl, rfl⟩
    rw [h]
    exact List.mem_cons_self

theorem Moved.published {target : String} (h : Moved d name target i payload s) : Published s := by
  refine ⟨d, name, target, i, ⟨payload, true, false⟩, none, ?_⟩
  rw [h]
  exact List.mem_cons_of_mem _ (List.mem_singleton_self _)

theorem Moved.finished {target : String} (hname : some name ≠ some target) (r : Except WriterError Unit) (s : Scene)
    (h : Moved d name target i payload s) : Finished (some target) payload r s := by
  cases r with
  | ok _ => exact ⟨h.safe hname, h.published⟩
  | error _ => exact ⟨h.safe hname, .inl h.published⟩

/-- **The rename publishes the writer's file where nothing stood, or does nothing.** -/
theorem Held.publishOwned {target : String} {o : Outcome} {s' : Scene} {b : Except IoError Unit}
    (h : Held d name i ⟨payload, true, false⟩ s)
    (hperform : perform (.publishOwned d name target (i, false)) o s = (b, s')) :
    Ends (fun _ => Moved d name target i payload) (fun _ => Open d name i) b s' := by
  have hopen : Open d name i s := ⟨_, rfl, h⟩
  simp only [perform, fallible, Scene.publishOwned] at hperform
  cases ho : o.error with
  | some e =>
    rw [ho] at hperform
    cases hperform
    exact hopen
  | none =>
    rw [ho] at hperform
    cases hentry : s.disk.entries (d, name) with
    | none =>
      rw [hentry] at hperform
      cases hperform
      exact hopen
    | some j =>
      rw [hentry] at hperform
      dsimp only at hperform
      split_ifs at hperform with hidentity htarget
      · cases hperform
        exact hopen
      · obtain rfl : j = i := congrArg Prod.fst hidentity.2
        have hnone : s.disk.entries (d, target) = none := by
          rwa [Option.not_isSome_iff_eq_none] at htarget
        cases hperform
        show s.effects ++ _ = _
        rw [h.effects, h.node, hnone]
        rfl
      · cases hperform
        exact hopen

theorem triple_syncAll (hname : some name ≠ destination) :
    Triple (writerSetting destination payload) (Filled d name i payload) (Program.attempt (.syncAll i) .sync : Writer Unit)
      (Ends (fun _ => Held d name i ⟨payload, true, false⟩) fun _ => Open d name i) := by
  refine Triple.attempt (stable_filled hname _) (fun o s b s' ⟨synced, h⟩ _ hperform => ?_)
    fun o s e' s' ⟨synced, h⟩ _ hperform => ?_
  · simp only [perform, fallible] at hperform
    cases ho : o.error with
    | some e =>
      rw [ho] at hperform
      cases hperform
    | none =>
      rw [ho] at hperform
      cases hperform
      refine ⟨h.effects, h.used, ?_⟩
      show Function.update s.disk.files i _ i = _
      rw [Function.update_self, h.node]
  · simp only [perform, fallible] at hperform
    cases ho : o.error with
    | some e =>
      rw [ho] at hperform
      cases hperform
      exact ⟨_, rfl, h⟩
    | none =>
      rw [ho] at hperform
      cases hperform

theorem triple_writeTemporary {target : String} (hname : some name ≠ some target) (fault : FaultStage) :
    Triple (writerSetting (some target) payload) (Held d name i ⟨[], false, false⟩)
      (writeTemporary d target payload fault ⟨d, name, i, (i, false)⟩)
      (Ends (fun _ => Moved d name target i payload) fun _ => Open d name i) := by
  have hheld : Stable (writerSetting (some target) payload) (Held d name i ⟨payload, true, false⟩) := stable_held hname
  have hopen : ∀ (e : WriterError) s, Held d name i ⟨payload, true, false⟩ s →
      Ends (fun _ : Unit => Moved d name target i payload) (fun _ => Open d name i) (.error e) s :=
    fun _ _ h => ⟨_, rfl, h⟩
  refine Triple.bind (triple_ensure _ _) (fun _ => ?_) fun _ _ h => ⟨_, rfl, h⟩
  refine Triple.bind ((triple_writeAll hname [] (Nat.le_refl _)).weaken (fun _ h => ⟨_, h⟩) fun _ _ h => h)
    (fun _ => ?_) fun _ _ h => h
  refine Triple.bind (triple_ensure _ _) (fun _ => ?_) fun _ _ h => Filled.isOpen h
  refine Triple.bind (triple_syncAll hname) (fun _ => ?_) fun _ _ h => h
  refine Triple.bind (triple_ensureDestinationAbsentAt hheld _ _) (fun _ => ?_) hopen
  refine Triple.bind (triple_ensureOwned hheld _) (fun _ => ?_) hopen
  refine Triple.bind (triple_ensureOwned hheld _) (fun _ => ?_) hopen
  refine Triple.bind (triple_ensure _ _) (fun _ => ?_) hopen
  refine Triple.call (R := Ends (fun _ => Moved d name target i payload) fun _ => Open d name i) hheld
    (fun o s b s' h _ hperform => ?_) fun b => ?_
  · have hcall : perform (.publishOwned d name target (i, false)) o s = (b, s') := hperform
    exact h.publishOwned hcall
  match b with
  | .ok () => exact Triple.done fun _ h => h
  | .error .alreadyExists => exact Triple.done fun _ h => h
  | .error .notFound => exact Triple.done fun _ h => h
  | .error .other => exact Triple.done fun _ h => h

/-! ### The whole writer -/

theorem triple_destinationParent (target : String) :
    Triple (writerSetting (some target) payload) Idle (destinationParent (some target))
      (Ends (fun name s => name = target ∧ Idle s) fun _ => Idle) := by
  have hprogram : destinationParent (some target) = (do
      let entry ← Program.attempt .parentMetadata .invalidDestination
      Program.ensure (entry.2.isDir = true) .invalidDestination
      return target) := rfl
  rw [hprogram]
  refine Triple.bind (triple_attempt_reads reads_parentMetadata stable_idle _) (fun _ => ?_) fun _ _ h => h
  exact Triple.bind (triple_ensure _ _) (fun _ => Triple.done fun _ h => ⟨rfl, h⟩) fun _ _ h => h

theorem triple_writeInner (euid pid : ℕ) (destination : Option String) (payload : List UInt8) (fault : FaultStage) :
    Triple (writerSetting destination payload) Idle (writeInner euid pid destination payload fault)
      (Finished destination payload) := by
  refine Triple.bind (triple_ensure _ _) (fun _ => ?_) Idle.failed
  cases destination with
  | none => exact Triple.done (Idle.failed .invalidDestination)
  | some target =>
    refine Triple.bind (triple_destinationParent target) (fun name => ?_) Idle.failed
    by_cases hname : name = target
    swap
    · exact fun _ _ h => absurd h.1 hname
    subst hname
    refine Triple.weaken (P := Idle) ?_ (fun _ h => h.2) fun _ _ h => h
    refine Triple.bind (triple_openParentDirectory stable_idle euid) (fun d => ?_) Idle.failed
    refine Triple.bind (triple_ensureDestinationAbsentAt stable_idle _ _) (fun _ => ?_) Idle.failed
    refine Triple.bind (triple_create pid d name _) (fun temporary => ?_) fun _ _ h => h
    rintro turns s ⟨tempName, i, hne, rfl, h⟩
    have hmoved : Stable (writerSetting (some name) payload) (Moved d tempName name i payload) :=
      ⟨fun c s h => (interfere_effects c s).trans h, fun s h => h.safe hne⟩
    have hbody : Triple (writerSetting (some name) payload) (Held d tempName i ⟨[], false, false⟩)
        ((writeTemporary d name payload fault ⟨d, tempName, i, (i, false)⟩).onError
          (TemporaryFile.drop ⟨d, tempName, i, (i, false)⟩))
        (Ends (fun _ => Moved d tempName name i payload) (Failed (some name) payload)) :=
      Triple.onError (triple_writeTemporary hne fault) (fun _ _ h => h) fun e =>
        (triple_drop hne).weaken (fun _ h => h) fun _ => Cleaned.failed hne e
    have hwhole := Triple.bind hbody (fun _ =>
      Triple.bind (triple_ensure (fault ≠ .directorySync) .directorySync) (fun _ =>
        (triple_attempt_reads (reads_syncDirectory d) hmoved .directorySync).weaken (fun _ h => h) (Moved.finished hne))
        fun e => Moved.finished hne (.error e)) fun _ _ h => h
    exact hwhole turns s h

/-- **Safety of the writer**, in every run whose cleanup is not disturbed: whatever the run has done so far is
promised, and when it failed before publication it left nothing behind. -/
theorem writeInner_safe (euid pid : ℕ) (destination : Option String) (payload : List UInt8) (fault : FaultStage)
    (disk : Disk) (sequence : UInt64) (turns : List (Turn Outcome Change))
    (hbenign : Along fileSystem Benign turns (writeInner euid pid destination payload fault) ⟨disk, sequence, []⟩) :
    let ran := run fileSystem turns (writeInner euid pid destination payload fault) ⟨disk, sequence, []⟩
    Safe destination payload ran.2 ∧
      (ran.1 = some (.ok ()) → Published ran.2) ∧
      ∀ e, ran.1 = some (.error e) → Published ran.2 ∨ LeavesNothing ran.2 := by
  intro ran
  have hidle : Idle ⟨disk, sequence, []⟩ := rfl
  have hmeets := triple_writeInner euid pid destination payload fault turns _ hidle hbenign
  change Meets (Safe destination payload) (Finished destination payload) ran at hmeets
  unfold Meets at hmeets
  match hresult : ran.1 with
  | none =>
    rw [hresult] at hmeets
    exact ⟨hmeets, nofun, nofun⟩
  | some (.ok u) =>
    rw [hresult] at hmeets
    exact ⟨hmeets.1, fun _ => hmeets.2, nofun⟩
  | some (.error e) =>
    rw [hresult] at hmeets
    exact ⟨hmeets.1, nofun, fun _ _ => hmeets.2⟩

/-- A disk with an empty parent directory. -/
def emptyDisk : Disk where
  entries _ := none
  files _ := ⟨[], false, false⟩
  unused := 0
  directories _ := ⟨true, 0o700, 1000⟩
  parentEntry := some 0
  parentTarget := some 0
  allocated := nofun

/-- A call that succeeds. -/
def succeeds : Turn Outcome Change := .proceed ⟨none, 1⟩

/-- A call that fails. -/
def fails : Turn Outcome Change := .proceed ⟨some .other, 0⟩

/-- A run that fails to write removes its file, and so does one that cannot read its identity. -/
theorem writeInner_safe_failedWrite :
    LeavesNothing (run fileSystem (List.replicate 11 succeeds ++ [fails, succeeds])
      (writeInner 1000 7 (some "snapshot") [1] .none) ⟨emptyDisk, 0, []⟩).2 ∧
    LeavesNothing (run fileSystem (List.replicate 9 succeeds ++ [fails, succeeds])
      (writeInner 1000 7 (some "snapshot") [1] .none) ⟨emptyDisk, 0, []⟩).2 := by
  let turns := List.replicate 11 succeeds ++ [fails, succeeds]
  have hbenign : Along fileSystem Benign turns (writeInner 1000 7 (some "snapshot") [1] .none) ⟨emptyDisk, 0, []⟩ :=
    ⟨trivial, trivial, trivial, trivial, trivial, trivial, trivial, trivial, trivial, trivial, trivial, trivial, trivial,
      trivial⟩
  let turns' := List.replicate 9 succeeds ++ [fails, succeeds]
  have hbenign' : Along fileSystem Benign turns' (writeInner 1000 7 (some "snapshot") [1] .none) ⟨emptyDisk, 0, []⟩ := by
    refine ⟨trivial, trivial, trivial, trivial, trivial, trivial, trivial, trivial, trivial, trivial, fun i hi => ?_, trivial⟩
    -- the unlink finds the file that was created
    obtain rfl : i = 0 := Option.some.inj (hi.symm.trans (by decide +kernel))
    exact ⟨fun _ => rfl, fun _ => ⟨0, temporaryName 7 0, by decide +kernel⟩⟩
  have hremoved : ∀ t ∈ [turns, turns'],
      (run fileSystem t (writeInner 1000 7 (some "snapshot") [1] .none) ⟨emptyDisk, 0, []⟩).1 = some (.error .write) ∧
        (run fileSystem t (writeInner 1000 7 (some "snapshot") [1] .none) ⟨emptyDisk, 0, []⟩).2.effects =
          [.created 0 (temporaryName 7 0) 0, .removed 0 (temporaryName 7 0) 0] := by decide +kernel
  have hleaves : ∀ t ∈ [turns, turns'],
      Along fileSystem Benign t (writeInner 1000 7 (some "snapshot") [1] .none) ⟨emptyDisk, 0, []⟩ →
        LeavesNothing (run fileSystem t (writeInner 1000 7 (some "snapshot") [1] .none) ⟨emptyDisk, 0, []⟩).2 := by
    intro t ht halong
    obtain ⟨-, -, hfailed⟩ := writeInner_safe 1000 7 (some "snapshot") [1] .none emptyDisk 0 t halong
    obtain ⟨hresult, heffects⟩ := hremoved t ht
    refine (hfailed _ hresult).resolve_left ?_
    rintro ⟨_, _, _, _, _, _, hmem⟩
    rw [heffects] at hmem
    simp at hmem
  exact ⟨hleaves turns (by simp) hbenign, hleaves turns' (by simp) hbenign'⟩

/-- The turns of a run whose file is replaced after its identity could not be read. -/
def replacedTurns : List (Turn Outcome Change) :=
  List.replicate 9 succeeds ++
    [fails, .interfere (.create (0, temporaryName 7 0) ⟨[9], false, false⟩), succeeds]

/-- Without the condition a run may unlink a file that is not its own. -/
theorem writeInner_unlinks_replacement :
    ¬ ∀ (euid pid : ℕ) (destination : Option String) (payload : List UInt8) (fault : FaultStage) (disk : Disk)
      (sequence : UInt64) (turns : List (Turn Outcome Change)),
      let ran := run fileSystem turns (writeInner euid pid destination payload fault) ⟨disk, sequence, []⟩
      Safe destination payload ran.2 ∧ ∀ e, ran.1 = some (.error e) → Published ran.2 ∨ LeavesNothing ran.2 := by
  intro h
  obtain ⟨hsafe, -⟩ := h 1000 7 (some "snapshot") [1] .none emptyDisk 0 replacedTurns
  have heffects : (run fileSystem replacedTurns (writeInner 1000 7 (some "snapshot") [1] .none)
      ⟨emptyDisk, 0, []⟩).2.effects = [.created 0 (temporaryName 7 0) 0, .removed 0 (temporaryName 7 0) 1] := by
    decide +kernel
  obtain ⟨d, name, hmem⟩ := hsafe (.removed 0 (temporaryName 7 0) 1) (by rw [heffects]; simp)
  rw [heffects] at hmem
  simp at hmem

end AgentVoice.Backup

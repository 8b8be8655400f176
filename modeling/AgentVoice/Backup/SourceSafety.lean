import AgentVoice.Backup.Source
import AgentVoice.Backup.WriterSafety

/-!
# Safety of the copy

Whatever other processes do to directory entries between its calls, and whatever a copy writes, `backup_to_path` links only its
own file to the destination, only when that was validated, and only where nothing stood; and it removes nothing but the name of
its file and the sidecars of that name. The one exception is a file that is put under the name of the own file between a check
of that name and what the check guards (`Unreplaced`), which may be linked (`backupToPath_links_replacement`). When the backup
ends, its file no longer stands under that name, as long as the cleanup is not disturbed (`CleanupUndisturbed`). The program is
followed from the creation of its file (`Attempt`) to its end.
-/

namespace AgentVoice.Backup

open AgentVoice.Foundations AgentVoice.Store Program

/-! ### What is promised -/

/-- The quick check of a copy is fine. -/
def QuickChecked (reader : CopyReader) (key : String) (contents : List UInt8) : Prop :=
  ∃ text, reader.quickCheck key contents = some text ∧ eqIgnoreCase text "ok" = true

/-- A copy has migrations up to a version. -/
def Migrated (reader : CopyReader) (key : String) (expected : ℤ) (contents : List UInt8) : Prop :=
  ∃ row, reader.migrations key contents = some row ∧ schemaVersion row = .ok expected

/-- A copy that is valid under a key: its quick check is fine, it has the migrations of the source, all tables and one
configuration. -/
structure ValidCopy (reader : CopyReader) (key : String) (expected : ℤ) (contents : List UInt8) : Prop where
  quickCheck : QuickChecked reader key contents
  migrations : Migrated reader key expected contents
  requiredTables : reader.requiredTables key contents = some 13
  configurationRows : reader.configurationRows key contents = some 1

/-- The backup created the file. -/
def CopyScene.IsOwn (s : CopyScene) (i : Inode) : Prop := ∃ d name, CopyEffect.created d name i ∈ s.effects

/-- An effect that is promised: only attempts are created, only an own and valid file is linked, to the destination where there
was no entry, and nothing is removed but an own file under its name, and sidecars of that name. -/
def CopyEffect.Acceptable (pid : ℕ) (destination : Option String) (valid : List UInt8 → Prop) (s : CopyScene) :
    CopyEffect → Prop
  | .created _ name _ => ∃ sequence nonce, name = attemptName pid sequence nonce
  | .linked _ _ target i node replaced =>
    some target = destination ∧ replaced = none ∧ s.IsOwn i ∧ valid node.contents
  | .removed _ name i =>
    ∃ d attempt file, .created d attempt file ∈ s.effects ∧ (name = attempt ∧ i = file ∨ name ∈ sidecars attempt)

/-- Everything that was done is promised. -/
def CopySafe (pid : ℕ) (destination : Option String) (valid : List UInt8 → Prop) (s : CopyScene) : Prop :=
  ∀ e ∈ s.effects, e.Acceptable pid destination valid s

/-- Whether an effect is a link. -/
def CopyEffect.isLink : CopyEffect → Bool
  | .linked _ _ _ _ _ _ => true
  | _ => false

/-- No file of the backup stands under the name of its attempt. -/
def CopyScene.LeavesNothing (s : CopyScene) : Prop :=
  ∀ d name i, .created d name i ∈ s.effects → s.disk.entries (d, name) ≠ some i

/-- The condition on the calls that checks guard: since the check nobody has put another file under the name of the own
file. -/
def Unreplaced {β : Type} (c : CopyCall β) (_ : CopyOutcome) (s : CopyScene) : Prop :=
  match c with
  | .openDatabase name | .hardLink name _ | .removeFile name =>
    ∀ d i, .created d name i ∈ s.effects → ∀ found ∈ s.entry name, found.2 = i
  | _ => True

/-- Where an own file stands under its name, it is the one that a call reaches under its name, and the call succeeds. -/
def Reaches (name : String) (o : CopyOutcome) (s : CopyScene) : Prop :=
  ∀ d name' i, .created d name' i ∈ s.effects → s.disk.entries (d, name') = some i →
    name' = name ∧ o.error = none ∧ s.disk.parentTarget = some d

/-- The condition on the calls of the guard's `Drop`: the file is neither checked nor removed in vain where it stands under its
name, and nobody puts it back there. -/
def CleanupUndisturbed {β : Type} (c : CopyCall β) (o : CopyOutcome) (s : CopyScene) : Prop :=
  match c with
  | .fileMetadata .cleanup _ => s.LeavesNothing ∨ o.error = none
  | .pathMetadata .cleanup name => Reaches name o s
  | .removeFile name => Reaches name o s
  | _ => True

/-- Something holds of what an effect creates. -/
def CopyEffect.OfCreated (P : Directory → String → Inode → Prop) : CopyEffect → Prop
  | .created d name i => P d name i
  | .linked _ _ _ _ _ _ => True
  | .removed _ _ _ => True

instance (P : Directory → String → Inode → Prop) [∀ d name i, Decidable (P d name i)] : DecidablePred (CopyEffect.OfCreated P)
  | .created d name i => inferInstanceAs (Decidable (P d name i))
  | .linked _ _ _ _ _ _ => isTrue trivial
  | .removed _ _ _ => isTrue trivial

theorem forall_created_iff (P : Directory → String → Inode → Prop) (effects : List CopyEffect) :
    (∀ e ∈ effects, e.OfCreated P) ↔ ∀ d name i, .created d name i ∈ effects → P d name i := by
  constructor
  · intro h d name i he
    exact h _ he
  · intro h e he
    cases e with
    | created d name i => exact h d name i he
    | linked d source target i node replaced => trivial
    | removed d name i => trivial

instance : DecidablePred CopyScene.LeavesNothing := fun s =>
  decidable_of_iff (∀ e ∈ s.effects, e.OfCreated fun d name i => s.disk.entries (d, name) ≠ some i) (forall_created_iff _ _)

instance {β : Type} (c : CopyCall β) (o : CopyOutcome) (s : CopyScene) : Decidable (Unreplaced c o s) :=
  match c with
  | .openDatabase name | .hardLink name _ | .removeFile name =>
    decidable_of_iff (∀ e ∈ s.effects, e.OfCreated fun _ name' i => name' = name → ∀ found ∈ s.entry name, found.2 = i) <|
      (forall_created_iff _ _).trans ⟨fun h d i he => h d name i he rfl, fun h d _ i he hname => h d i (hname ▸ he)⟩
  | .parentMetadata | .entryMetadata _ | .fillNonce | .fetchSequence | .createNew _ | .fileMetadata _ _ | .pathMetadata _ _
  | .applyKey _ _ | .cipherVersion _ | .copyInto _ | .quickCheck _ _ | .migrations _ _ | .requiredTables _ _
  | .configurationRows _ _ => isTrue trivial

instance (name : String) (o : CopyOutcome) (s : CopyScene) : Decidable (Reaches name o s) :=
  decidable_of_iff (∀ e ∈ s.effects, e.OfCreated fun d name' i => s.disk.entries (d, name') = some i →
    name' = name ∧ o.error = none ∧ s.disk.parentTarget = some d) (forall_created_iff _ _)

instance {β : Type} (c : CopyCall β) (o : CopyOutcome) (s : CopyScene) : Decidable (CleanupUndisturbed c o s) :=
  match c with
  | .fileMetadata .cleanup _ => inferInstanceAs (Decidable (s.LeavesNothing ∨ o.error = none))
  | .pathMetadata .cleanup name | .removeFile name => inferInstanceAs (Decidable (Reaches name o s))
  | .parentMetadata | .entryMetadata _ | .fillNonce | .fetchSequence | .createNew _ | .fileMetadata .opening _
  | .fileMetadata .link _ | .pathMetadata .opening _ | .pathMetadata .link _ | .openDatabase _ | .applyKey _ _
  | .cipherVersion _ | .copyInto _ | .quickCheck _ _ | .migrations _ _ | .requiredTables _ _ | .configurationRows _ _
  | .hardLink _ _ => isTrue trivial

section Contract

variable (pid : ℕ) (reader : CopyReader) (destination : Option String) (valid : List UInt8 → Prop) (quiet : Prop)

/-- The surroundings of a backup, whose cleanup may be quiet. -/
abbrev copySetting : Program.Setting CopyCall CopyScene CopyOutcome Change :=
  ⟨copySystem reader, fun c o s => Unreplaced c o s ∧ (quiet → CleanupUndisturbed c o s), CopySafe pid destination valid⟩

/-- How many times the destination is linked when a backup ends. -/
def links : Except StoreError Unit → ℕ
  | .ok _ => 1
  | .error _ => 0

/-- How a backup may end. -/
structure CopyEnds (r : Except StoreError Unit) (s : CopyScene) : Prop where
  safe : CopySafe pid destination valid s
  once : s.effects.countP CopyEffect.isLink = links r
  leaves : quiet → s.LeavesNothing

end Contract

/-! ### What a backup knows between its calls -/

/-- Nothing was done. -/
def CopyIdle (s : CopyScene) : Prop := s.effects = []

/-- A file was created and nothing else was done but the links that are listed. -/
structure Attempt (d : Directory) (name : String) (i : Inode) (made : List CopyEffect) (s : CopyScene) : Prop where
  effects : s.effects = .created d name i :: made
  used : i < s.disk.unused

/-- A file was created, and something is known of its contents. -/
def Copied (d : Directory) (name : String) (i : Inode) (K : List UInt8 → Prop) (s : CopyScene) : Prop :=
  Attempt d name i [] s ∧ K (s.disk.files i).contents

/-- Links that are promised. -/
def LinksOf (destination : Option String) (valid : List UInt8 → Prop) (i : Inode) (made : List CopyEffect) : Prop :=
  ∀ e ∈ made, ∃ d source target node, e = .linked d source target i node none ∧ some target = destination ∧ valid node.contents

/-- Removals that are promised. -/
def RemovalsOf (name : String) (i : Inode) (removed : List CopyEffect) : Prop :=
  ∀ e ∈ removed, ∃ d' name' i', e = .removed d' name' i' ∧ (name' = name ∧ i' = i ∨ name' ∈ sidecars name)

/-- The cleanup is under way: some names may have been removed. -/
def Clearing (d : Directory) (name : String) (i : Inode) (made : List CopyEffect) (s : CopyScene) : Prop :=
  ∃ removed, s.effects = .created d name i :: made ++ removed ∧ RemovalsOf name i removed

/-- Names may have been removed, and where the cleanup is quiet the file no longer stands under its name. -/
structure Cleared (quiet : Prop) (d : Directory) (name : String) (i : Inode) (made : List CopyEffect) (s : CopyScene) : Prop where
  clearing : Clearing d name i made s
  gone : quiet → s.disk.entries (d, name) ≠ some i

variable {pid : ℕ} {reader : CopyReader} {destination : Option String} {valid : List UInt8 → Prop} {d : Directory}
  {name : String} {i : Inode} {made : List CopyEffect} {s : CopyScene} {K : List UInt8 → Prop} {quiet : Prop}

theorem CopyIdle.safe (h : CopyIdle s) : CopySafe pid destination valid s := by
  intro e he
  rw [h] at he
  exact absurd he List.not_mem_nil

theorem CopyIdle.ends (e : StoreError) (s : CopyScene) (h : CopyIdle s) :
    CopyEnds pid destination valid quiet (.error e) s where
  safe := h.safe
  once := by
    rw [h]
    rfl
  leaves _ d name i he := by
    rw [h] at he
    exact absurd he List.not_mem_nil

/-- What was made of an attempt is safe, whatever was removed after it. -/
theorem safe_of_effects_eq {removed : List CopyEffect} (heffects : s.effects = .created d name i :: made ++ removed)
    (hname : ∃ sequence nonce, name = attemptName pid sequence nonce) (hmade : LinksOf destination valid i made)
    (hremoved : RemovalsOf name i removed) : CopySafe pid destination valid s := by
  have hcreated : .created d name i ∈ s.effects := by
    rw [heffects]
    exact List.mem_cons_self
  intro e he
  rw [heffects, List.cons_append] at he
  rcases List.mem_cons.mp he with rfl | he
  · exact hname
  · rcases List.mem_append.mp he with he | he
    · obtain ⟨d', source, target, node, rfl, htarget, hvalid⟩ := hmade e he
      exact ⟨htarget, rfl, ⟨d, name, hcreated⟩, hvalid⟩
    · obtain ⟨d', name', i', rfl, hown⟩ := hremoved e he
      exact ⟨d, name, i, hcreated, hown⟩

theorem Attempt.safe (h : Attempt d name i made s) (hname : ∃ sequence nonce, name = attemptName pid sequence nonce)
    (hmade : LinksOf destination valid i made) : CopySafe pid destination valid s := by
  have heffects : s.effects = .created d name i :: made ++ [] := by rw [h.effects, List.append_nil]
  exact safe_of_effects_eq heffects hname hmade fun _ he => absurd he List.not_mem_nil

/-- The one file of an attempt. -/
theorem created_of_attempt {removed : List CopyEffect} (heffects : s.effects = .created d name i :: made ++ removed)
    (hmade : LinksOf destination valid i made) (hremoved : RemovalsOf name i removed) {d' : Directory} {name' : String}
    {i' : Inode} (he : .created d' name' i' ∈ s.effects) : d' = d ∧ name' = name ∧ i' = i := by
  rw [heffects, List.cons_append] at he
  rcases List.mem_cons.mp he with heq | he
  · obtain ⟨rfl, rfl, rfl⟩ := CopyEffect.created.inj heq
    exact ⟨rfl, rfl, rfl⟩
  · rcases List.mem_append.mp he with he | he
    · obtain ⟨_, _, _, _, heq, -⟩ := hmade _ he
      cases heq
    · obtain ⟨_, _, _, heq, -⟩ := hremoved _ he
      cases heq

theorem Cleared.leavesNothing (h : Cleared quiet d name i made s) (hmade : LinksOf destination valid i made) (hquiet : quiet) :
    s.LeavesNothing := by
  obtain ⟨⟨removed, heffects, hremoved⟩, hgone⟩ := h
  intro d' name' i' he
  obtain ⟨rfl, rfl, rfl⟩ := created_of_attempt heffects hmade hremoved he
  exact hgone hquiet

theorem Attempt.mem_effects (h : Attempt d name i made s) : .created d name i ∈ s.effects := by
  rw [h.effects]
  exact List.mem_cons_self

theorem Clearing.mem_effects (h : Clearing d name i made s) : .created d name i ∈ s.effects := by
  obtain ⟨removed, heffects, -⟩ := h
  rw [heffects]
  exact List.mem_cons_self

/-! ### What others leave alone -/

theorem copyInterfere_effects (c : Change) (s : CopyScene) : (copyInterfere c s).effects = s.effects := by
  cases c <;> rfl

/-- Others change no file, and take no inode that is in use. -/
theorem copyInterfere_used (c : Change) (hused : i < s.disk.unused) :
    i < (copyInterfere c s).disk.unused ∧ (copyInterfere c s).disk.files i = s.disk.files i := by
  cases c with
  | create l node =>
    refine ⟨Nat.lt_succ_of_lt hused, ?_⟩
    show Function.update s.disk.files s.disk.unused node i = s.disk.files i
    rw [Function.update_of_ne (Nat.ne_of_lt hused)]
  | link l source => exact ⟨hused, rfl⟩
  | delete l => exact ⟨hused, rfl⟩
  | moveParent entry target => exact ⟨hused, rfl⟩
  | setStat d' stat => exact ⟨hused, rfl⟩
  | takeNames n => exact ⟨hused, rfl⟩

theorem Attempt.interfere (h : Attempt d name i made s) (c : Change) : Attempt d name i made (copyInterfere c s) :=
  ⟨(copyInterfere_effects c s).trans h.effects, (copyInterfere_used c h.used).1⟩

theorem Copied.interfere (h : Copied d name i K s) (c : Change) : Copied d name i K (copyInterfere c s) := by
  refine ⟨h.1.interfere c, ?_⟩
  rw [(copyInterfere_used c h.1.used).2]
  exact h.2

section Rules

variable {P : CopyScene → Prop} {α β : Type}

theorem stable_copyIdle : Stable (copySetting pid reader destination valid quiet) CopyIdle where
  interfere c s h := (copyInterfere_effects c s).trans h
  invariant _ h := h.safe

theorem stable_attempt (hname : ∃ sequence nonce, name = attemptName pid sequence nonce)
    (hmade : LinksOf destination valid i made) :
    Stable (copySetting pid reader destination valid quiet) (Attempt d name i made) where
  interfere c _ h := h.interfere c
  invariant _ h := h.safe hname hmade

theorem stable_copied (hname : ∃ sequence nonce, name = attemptName pid sequence nonce) :
    Stable (copySetting pid reader destination valid quiet) (Copied d name i K) where
  interfere c _ h := h.interfere c
  invariant _ h := h.1.safe hname fun _ he => absurd he List.not_mem_nil

/-! ### Calls that change nothing -/

/-- A call that changes nothing. -/
def CopyReads (reader : CopyReader) {β : Type} (c : CopyCall β) : Prop := ∀ o s, (copyPerform reader c o s).2 = s

theorem copyFallible_reads (o : CopyOutcome) (s : CopyScene) (r : Except IoError α) : (o.fallible s (r, s)).2 = s := by
  unfold CopyOutcome.fallible
  split <;> rfl

theorem CopyReads.eq {c : CopyCall β} (hc : CopyReads reader c) {o : CopyOutcome} {s s' : CopyScene} {b : β}
    (h : copyPerform reader c o s = (b, s')) : s' = s := by
  have hsame := hc o s
  rwa [h] at hsame

theorem triple_attempt_copyReads {c : CopyCall (Except IoError β)} (hc : CopyReads reader c)
    (hP : Stable (copySetting pid reader destination valid quiet) P) (e : StoreError) :
    Triple (copySetting pid reader destination valid quiet) P (Program.attempt c e) fun _ => P := by
  refine Triple.attempt hP (fun o s b s' hs _ hperform => ?_) fun o s e' s' hs _ hperform => ?_
  · rw [hc.eq hperform]
    exact hs
  · rw [hc.eq hperform]
    exact hs

/-- A call that changes nothing, and what follows each of its answers. -/
theorem triple_copyReads {c : CopyCall β} {next : β → Copying α} {Q : Except StoreError α → CopyScene → Prop}
    (hP : Stable (copySetting pid reader destination valid quiet) P) (hc : CopyReads reader c)
    (hnext : ∀ b, Triple (copySetting pid reader destination valid quiet) P (next b) Q) :
    Triple (copySetting pid reader destination valid quiet) P (Program.call c next) Q := by
  refine Triple.call (R := fun _ => P) hP (fun o s b s' hs _ hperform => ?_) hnext
  rw [hc.eq hperform]
  exact hs

theorem triple_copyEnsure (p : Prop) [Decidable p] (e : StoreError) :
    Triple (copySetting pid reader destination valid quiet) P (Program.ensure p e) fun _ => P :=
  Triple.ensure (fun _ _ h => h) fun _ _ h => h

/-! ### Creating the attempt -/

theorem triple_trustedAttemptParent :
    Triple (copySetting pid reader destination valid quiet) CopyIdle trustedAttemptParent fun _ => CopyIdle := by
  have hreads : CopyReads reader .parentMetadata := fun o s => copyFallible_reads o s _
  refine Triple.bind (triple_attempt_copyReads hreads stable_copyIdle _) (fun entry => ?_) fun _ _ h => h
  exact triple_copyEnsure _ _

theorem triple_destinationAbsent (target : String) :
    Triple (copySetting pid reader destination valid quiet) CopyIdle (Program.call (.entryMetadata target) destinationAbsent)
      fun _ => CopyIdle := by
  have hreads : CopyReads reader (.entryMetadata target) := fun o s => copyFallible_reads o s _
  refine Triple.call (R := fun _ => CopyIdle) stable_copyIdle (fun o s b s' h _ hperform => ?_) fun b => ?_
  · rw [hreads.eq hperform]
    exact h
  · match b with
    | .ok _ => exact Triple.done fun _ h => h
    | .error .notFound => exact Triple.done fun _ h => h
    | .error .alreadyExists => exact Triple.done fun _ h => h
    | .error .other => exact Triple.done fun _ h => h

/-- **An exclusive creation** yields a new file, or nothing. -/
theorem CopyIdle.createNew {o : CopyOutcome} {s' : CopyScene} {b : Except IoError Inode} (h : CopyIdle s)
    (hperform : copyPerform reader (.createNew name) o s = (b, s')) :
    Ends (fun file s => ∃ d, Attempt d name file [] s) (fun _ => CopyIdle) b s' := by
  simp only [copyPerform, CopyOutcome.fallible, CopyScene.createNew] at hperform
  cases ho : o.error with
  | some e =>
    rw [ho] at hperform
    cases hperform
    exact h
  | none =>
    rw [ho] at hperform
    cases hparent : s.disk.parentTarget with
    | none =>
      rw [hparent] at hperform
      cases hperform
      exact h
    | some d =>
      rw [hparent] at hperform
      dsimp only at hperform
      cases hentry : s.disk.entries (d, name) with
      | some j =>
        rw [hentry] at hperform
        cases hperform
        exact h
      | none =>
        rw [hentry] at hperform
        cases hperform
        refine ⟨d, ?_, Nat.lt_succ_self _⟩
        show s.effects ++ _ = _
        rw [show s.effects = [] from h]
        rfl

/-- What a creation of an attempt ends with. -/
def CreatedAttempt (pid : ℕ) (attempt : AttemptGuard) (s : CopyScene) : Prop :=
  (∃ sequence nonce, attempt.name = attemptName pid sequence nonce) ∧ ∃ d, Attempt d attempt.name attempt.file [] s

theorem triple_createAttempt (target : String) (bare : Bool) (attempts : ℕ) :
    Triple (copySetting pid reader destination valid quiet) CopyIdle (createAttempt pid target bare attempts)
      (Ends (CreatedAttempt pid) fun _ => CopyIdle) := by
  induction attempts with
  | zero => exact Triple.done fun _ h => h
  | succ attempts ih =>
    have hfill : CopyReads reader .fillNonce := fun o s => copyFallible_reads o s _
    refine Triple.bind (triple_attempt_copyReads hfill stable_copyIdle _) (fun nonce => ?_) fun _ _ h => h
    refine Triple.bind (R := fun _ => CopyIdle) ?_ (fun sequence => ?_) fun _ _ h => h
    · refine Triple.invoke stable_copyIdle fun o s b s' h _ hperform => ?_
      have hs' : s' = (copyPerform reader .fetchSequence o s).2 := (congrArg Prod.snd hperform).symm
      rw [hs']
      exact h
    · dsimp only
      split_ifs with hsame
      · exact ih
      · refine Triple.call (R := Ends (fun file s => ∃ d, Attempt d (attemptName pid sequence nonce) file [] s)
          fun _ => CopyIdle) stable_copyIdle (fun o s b s' h _ hperform => ?_) fun b => ?_
        · have hcall : copyPerform reader (.createNew (attemptName pid sequence nonce)) o s = (b, s') := hperform
          exact h.createNew hcall
        match b with
        | .ok file => exact Triple.done fun s h => ⟨⟨sequence, nonce, rfl⟩, h⟩
        | .error .alreadyExists => exact ih
        | .error .notFound => exact Triple.done fun _ h => h
        | .error .other => exact Triple.done fun _ h => h

/-! ### Copying and validating -/

/-- **Something is read from the copy.** -/
theorem triple_readCopy {read : String → List UInt8 → Option α} {key : String} {c : CopyCall (Except IoError α)}
    {f : α → Copying β} {Q : Except StoreError β → CopyScene → Prop}
    (hc : ∀ o s, copyPerform reader c o s = o.fallible s (s.read read i key, s))
    (hname : ∃ sequence nonce, name = attemptName pid sequence nonce) (e : StoreError)
    (herror : ∀ s, Attempt d name i [] s → Q (.error e) s)
    (hf : ∀ a, Triple (copySetting pid reader destination valid quiet)
      (Copied d name i fun contents => K contents ∧ read key contents = some a) (f a) Q) :
    Triple (copySetting pid reader destination valid quiet) (Copied d name i K) (Program.attempt c e >>= f) Q := by
  refine Triple.bind (R := Ends (fun a => Copied d name i fun contents => K contents ∧ read key contents = some a)
    fun e' s => e' = e ∧ Attempt d name i [] s) ?_ hf fun e' s h => ?_
  · refine Triple.attempt (stable_copied hname) (fun o s a s' h _ hperform => ?_) fun o s e' s' h _ hperform => ?_
    · have hcall : o.fallible s (s.read read i key, s) = (.ok a, s') := (hc o s).symm.trans hperform
      unfold CopyOutcome.fallible at hcall
      split at hcall
      · cases hcall
      · obtain ⟨hread, rfl⟩ := Prod.mk.inj hcall
        exact ⟨h.1, h.2, okOr_eq_ok_iff.mp hread⟩
    · have hcall : o.fallible s (s.read read i key, s) = (.error e', s') := (hc o s).symm.trans hperform
      unfold CopyOutcome.fallible at hcall
      split at hcall
      · obtain ⟨-, rfl⟩ := Prod.mk.inj hcall
        exact ⟨rfl, h.1⟩
      · obtain ⟨-, rfl⟩ := Prod.mk.inj hcall
        exact ⟨rfl, h.1⟩
  · obtain ⟨rfl, hattempt⟩ := h
    exact herror s hattempt

/-- **A check of what was read.** -/
theorem triple_checkCopy {p : Prop} [Decidable p] {L : List UInt8 → Prop} {f : Unit → Copying β}
    {Q : Except StoreError β → CopyScene → Prop} (e : StoreError) (herror : ∀ s, Attempt d name i [] s → Q (.error e) s)
    (h : ∀ contents, p → K contents → L contents)
    (hf : Triple (copySetting pid reader destination valid quiet) (Copied d name i L) (f ()) Q) :
    Triple (copySetting pid reader destination valid quiet) (Copied d name i K) (Program.ensure p e >>= f) Q := by
  refine Triple.bind (R := Ends (fun _ => Copied d name i L) fun e' s => e' = e ∧ Attempt d name i [] s)
    (Triple.ensure (fun hp s hs => ⟨hs.1, h _ hp hs.2⟩) fun _ s hs => ⟨rfl, hs.1⟩) (fun _ => hf) fun e' s h => ?_
  obtain ⟨rfl, hattempt⟩ := h
  exact herror s hattempt

/-- **A copy that was validated is valid.** -/
theorem triple_validateDestination (hname : ∃ sequence nonce, name = attemptName pid sequence nonce) (key : String)
    (expected : ℤ) :
    Triple (copySetting pid reader destination valid quiet) (Attempt d name i []) (validateDestination i key expected)
      (Ends (fun _ => Copied d name i (ValidCopy reader key expected)) fun _ => Attempt d name i []) := by
  let Checked : List UInt8 → Prop := fun contents => QuickChecked reader key contents ∧ Migrated reader key expected contents
  refine Triple.weaken (P := Copied d name i fun _ => True) ?_ (fun _ h => ⟨h, trivial⟩) fun _ _ h => h
  refine triple_readCopy (fun _ _ => rfl) hname _ (fun _ h => h) fun text => ?_
  refine triple_checkCopy (L := QuickChecked reader key) _ (fun _ h => h) (fun contents hok h => ⟨text, h.2, hok⟩) ?_
  refine triple_readCopy (fun _ _ => rfl) hname _ (fun _ h => h) fun row => ?_
  -- the version is computed from the row that was read
  cases hversion : schemaVersion row with
  | error e => exact Triple.done fun _ h => h.1
  | ok version =>
    refine triple_checkCopy (L := Checked) _ (fun _ h => h) (fun contents hexpected h => ⟨h.1, row, h.2, ?_⟩) ?_
    · rw [hversion, hexpected]
    refine triple_readCopy (fun _ _ => rfl) hname _ (fun _ h => h) fun tables => ?_
    refine triple_checkCopy (L := fun contents => Checked contents ∧ reader.requiredTables key contents = some 13) _
      (fun _ h => h) (fun contents htables h => ⟨h.1, by rw [h.2, htables]⟩) ?_
    refine triple_readCopy (fun _ _ => rfl) hname _ (fun _ h => h) fun rows => ?_
    refine Triple.ensure (fun hrows s h => ⟨h.1, h.2.1.1.1, h.2.1.1.2, h.2.1.2, ?_⟩) fun _ s h => h.1
    rw [h.2.2, hrows]

/-! ### Publishing -/

/-- The own file was linked, valid, to the destination. -/
def LinkMade (target : String) (valid : List UInt8 → Prop) (d : Directory) (name : String) (i : Inode) (s : CopyScene) : Prop :=
  ∃ made, made.length = 1 ∧ LinksOf (some target) valid i made ∧ Attempt d name i made s

/-- **The link publishes a valid file where nothing stood, or nothing is done.** -/
theorem Copied.hardLink {target : String} {o : CopyOutcome} {s' : CopyScene} {b : Except IoError Unit}
    (h : Copied d name i valid s) (hown : ∀ found ∈ s.entry name, found.2 = i)
    (hperform : copyPerform reader (.hardLink name target) o s = (b, s')) :
    Ends (fun _ => LinkMade target valid d name i) (fun _ => Attempt d name i []) b s' := by
  simp only [copyPerform, CopyOutcome.fallible, CopyScene.hardLink] at hperform
  cases ho : o.error with
  | some e =>
    rw [ho] at hperform
    cases hperform
    exact h.1
  | none =>
    rw [ho] at hperform
    cases hentry : s.entry name with
    | none =>
      rw [hentry] at hperform
      cases hperform
      exact h.1
    | some found =>
      obtain ⟨d', j⟩ := found
      obtain rfl : j = i := hown _ hentry
      rw [hentry] at hperform
      dsimp only at hperform
      split_ifs at hperform with htarget
      · cases hperform
        exact h.1
      · have hnone : s.disk.entries (d', target) = none := by rwa [Option.not_isSome_iff_eq_none] at htarget
        cases hperform
        refine ⟨[.linked d' name target j (s.disk.files j) none], rfl, ?_, ?_, h.1.used⟩
        · intro e he
          obtain rfl := List.mem_singleton.mp he
          exact ⟨d', name, target, s.disk.files j, rfl, rfl, h.2⟩
        · show s.effects ++ _ = _
          rw [h.1.effects, hnone]
          rfl

/-- A check of the file's identity changes nothing. -/
theorem triple_requireOwnedPath (hP : Stable (copySetting pid reader destination valid quiet) P) (attempt : AttemptGuard)
    (guarded : Guarded) :
    Triple (copySetting pid reader destination valid quiet) P (attempt.requireOwnedPath guarded) fun _ => P := by
  refine Triple.bind (R := fun _ => P) ?_ (fun _ => triple_copyEnsure _ _) fun _ _ h => h
  refine triple_copyReads hP (fun o s => copyFallible_reads o s _) fun b => ?_
  cases b with
  | error e => exact Triple.done fun _ h => h
  | ok file =>
    refine triple_copyReads hP (fun o s => copyFallible_reads o s _) fun b => ?_
    cases b with
    | error e => exact Triple.done fun _ h => h
    | ok j => exact Triple.done fun _ h => h

/-- **Opening** yields the own file. -/
theorem triple_openConnection (hname : ∃ sequence nonce, name = attemptName pid sequence nonce) :
    Triple (copySetting pid reader destination valid quiet) (Attempt d name i []) (AttemptGuard.openConnection ⟨name, i⟩)
      (Ends (fun database s => database = i ∧ Attempt d name i [] s) fun _ => Attempt d name i []) := by
  have hstable : Stable (copySetting pid reader destination valid quiet) (Attempt d name i []) :=
    stable_attempt hname fun _ he => absurd he List.not_mem_nil
  have hreads : CopyReads reader (.openDatabase name) := fun o s => copyFallible_reads o s _
  refine Triple.bind (triple_requireOwnedPath hstable _ _) (fun _ => ?_) fun _ _ h => h
  refine Triple.attempt hstable (fun o s b s' h hcondition hperform => ?_) fun o s e' s' h _ hperform => ?_
  · rw [hreads.eq hperform]
    have hcall : o.fallible s (okOr ((s.entry name).map (·.2)) .notFound, s) = (.ok b, s') := hperform
    unfold CopyOutcome.fallible at hcall
    split at hcall
    · cases hcall
    · obtain ⟨found, hfound, rfl⟩ := Option.map_eq_some_iff.mp (okOr_eq_ok_iff.mp (Prod.mk.inj hcall).1)
      exact ⟨hcondition.1 d i h.mem_effects found hfound, h⟩
  · rw [hreads.eq hperform]
    exact h

/-- **Publishing** links the own file to the destination, or does nothing. -/
theorem triple_publish (hname : ∃ sequence nonce, name = attemptName pid sequence nonce) (target : String) :
    Triple (copySetting pid reader (some target) valid quiet) (Copied d name i valid) (AttemptGuard.publish ⟨name, i⟩ target)
      (Ends (fun _ => LinkMade target valid d name i) fun _ => Attempt d name i []) := by
  refine Triple.bind (triple_requireOwnedPath (stable_copied hname) _ _) (fun _ => ?_) fun _ _ h => h.1
  refine Triple.call (R := Ends (fun _ => LinkMade target valid d name i) fun _ => Attempt d name i [])
    (stable_copied hname) (fun o s b s' h hcondition hperform => ?_) fun b => ?_
  · have hcall : copyPerform reader (.hardLink name target) o s = (b, s') := hperform
    exact h.hardLink (hcondition.1 d i h.1.mem_effects) hcall
  match b with
  | .ok () => exact Triple.done fun _ h => h
  | .error .alreadyExists => exact Triple.done fun _ h => h
  | .error .notFound => exact Triple.done fun _ h => h
  | .error .other => exact Triple.done fun _ h => h

theorem triple_copyAndPublish (hname : ∃ sequence nonce, name = attemptName pid sequence nonce) (key : List UInt8)
    {expected : ℤ} (hvalid : ∀ contents, ValidCopy reader (keyPragma key) expected contents → valid contents) (target : String) :
    Triple (copySetting pid reader (some target) valid quiet) (Attempt d name i []) (copyAndPublish key expected target ⟨name, i⟩)
      (Ends (fun _ => LinkMade target valid d name i) fun _ => Attempt d name i []) := by
  have hstable : Stable (copySetting pid reader (some target) valid quiet) (Attempt d name i []) :=
    stable_attempt hname fun _ he => absurd he List.not_mem_nil
  refine Triple.bind (triple_openConnection hname) (fun database => ?_) fun _ _ h => h
  by_cases hdatabase : database = i
  swap
  · exact fun _ _ h => absurd h.1 hdatabase
  subst hdatabase
  refine Triple.weaken (P := Attempt d name database []) ?_ (fun _ h => h.2) fun _ _ h => h
  have hkey : CopyReads reader (.applyKey database (keyPragma key)) := fun o s => copyFallible_reads o s _
  refine Triple.bind (triple_attempt_copyReads hkey hstable _) (fun _ => ?_) fun _ _ h => h
  refine Triple.bind (R := fun _ => Attempt d name database []) ?_ (fun _ => ?_) fun _ _ h => h
  · have hversion : CopyReads reader (.cipherVersion database) := fun o s => copyFallible_reads o s _
    exact Triple.bind (triple_attempt_copyReads hversion hstable _) (fun _ => triple_copyEnsure _ _) fun _ _ h => h
  refine Triple.bind (R := fun _ => Attempt d name database []) ?_ (fun _ => ?_) fun _ _ h => h
  · -- whatever is written, it is written to the own file
    have hcopied : ∀ (o : CopyOutcome) (s : CopyScene), Attempt d name database [] s →
        Attempt d name database [] (copyPerform reader (.copyInto database) o s).2 := fun _ _ h => ⟨h.effects, h.used⟩
    refine Triple.attempt hstable (fun o s b s' h _ hperform => ?_) fun o s e' s' h _ hperform => ?_
    · rw [show s' = (copyPerform reader (.copyInto database) o s).2 from (congrArg Prod.snd hperform).symm]
      exact hcopied o s h
    · rw [show s' = (copyPerform reader (.copyInto database) o s).2 from (congrArg Prod.snd hperform).symm]
      exact hcopied o s h
  refine Triple.bind (triple_validateDestination hname _ _) (fun _ => ?_) fun _ _ h => h
  exact (triple_publish hname target).weaken (fun _ h => ⟨h.1, hvalid _ h.2⟩) fun _ _ h => h

/-! ### Cleaning up -/

theorem Attempt.clearing (h : Attempt d name i made s) : Clearing d name i made s :=
  ⟨[], by rw [h.effects, List.append_nil], fun _ he => absurd he List.not_mem_nil⟩

theorem Clearing.interfere (h : Clearing d name i made s) (c : Change) : Clearing d name i made (copyInterfere c s) := by
  obtain ⟨removed, heffects, hremoved⟩ := h
  exact ⟨removed, (copyInterfere_effects c s).trans heffects, hremoved⟩

theorem stable_clearing (hname : ∃ sequence nonce, name = attemptName pid sequence nonce)
    (hmade : LinksOf destination valid i made) :
    Stable (copySetting pid reader destination valid quiet) (Clearing d name i made) where
  interfere c _ h := h.interfere c
  invariant _ := by
    rintro ⟨removed, heffects, hremoved⟩
    exact safe_of_effects_eq heffects hname hmade hremoved

/-- A further removal. -/
theorem Clearing.remove (h : Clearing d name i made s) {d' : Directory} {name' : String} {j : Inode}
    (hown : name' = name ∧ j = i ∨ name' ∈ sidecars name) : Clearing d name i made (s.remove d' name' j) := by
  obtain ⟨removed, heffects, hremoved⟩ := h
  refine ⟨removed ++ [.removed d' name' j], ?_, fun e he => ?_⟩
  · show s.effects ++ _ = _
    rw [heffects, List.append_assoc]
  · rcases List.mem_append.mp he with he | he
    · exact hremoved e he
    · exact ⟨d', name', j, List.mem_singleton.mp he, hown⟩

theorem remove_gone (hgone : s.disk.entries (d, name) ≠ some i) (d' : Directory) (name' : String) (j : Inode) :
    (s.remove d' name' j).disk.entries (d, name) ≠ some i := by
  show Function.update s.disk.entries (d', name') none (d, name) ≠ some i
  by_cases hsame : (d, name) = (d', name')
  · rw [hsame, Function.update_self]
    exact nofun
  · rwa [Function.update_of_ne hsame]

/-- What is left when an artifact of the own file was removed under its name. -/
theorem Clearing.removeFile (h : Clearing d name i made s) {artifact : String} {o : CopyOutcome}
    (hown : ∀ found ∈ s.entry artifact, artifact = name ∧ found.2 = i ∨ artifact ∈ sidecars name)
    (hreaches : quiet → Reaches artifact o s) :
    Cleared quiet d name i made (copyPerform reader (.removeFile artifact) o s).2 := by
  -- where the file stands, it is what the call reaches
  have hstands : quiet → s.disk.entries (d, name) = some i →
      o.error = none ∧ s.entry artifact = some (d, i) ∧ artifact = name := by
    intro hquiet hentry
    obtain ⟨rfl, ho, hparent⟩ := hreaches hquiet d name i h.mem_effects hentry
    exact ⟨ho, by rw [CopyScene.entry, hparent, Option.bind_some, hentry]; rfl, rfl⟩
  rw [copyPerform, CopyOutcome.fallible]
  cases ho : o.error with
  | some e => exact ⟨h, fun hquiet hentry => by simpa [ho] using (hstands hquiet hentry).1⟩
  | none =>
    show Cleared quiet d name i made (s.removeFile artifact).2
    unfold CopyScene.removeFile
    cases hfound : s.entry artifact with
    | none => exact ⟨h, fun hquiet hentry => by simpa [hfound] using (hstands hquiet hentry).2.1⟩
    | some found =>
      obtain ⟨d', j⟩ := found
      refine ⟨h.remove (hown _ hfound), fun hquiet => ?_⟩
      by_cases hentry : s.disk.entries (d, name) = some i
      · obtain ⟨-, hsame, rfl⟩ := hstands hquiet hentry
        rw [hfound] at hsame
        obtain ⟨rfl, rfl⟩ := Prod.mk.inj (Option.some.inj hsame)
        show Function.update s.disk.entries (d', artifact) none (d', artifact) ≠ some j
        rw [Function.update_self]
        exact nofun
      · exact remove_gone hentry d' artifact j

/-- Sidecars are removed by their names. -/
theorem triple_removeSidecars (hname : ∃ sequence nonce, name = attemptName pid sequence nonce)
    (hmade : LinksOf destination valid i made) {names : List String} (hnames : ∀ sidecar ∈ names, sidecar ∈ sidecars name) :
    Triple (copySetting pid reader destination valid quiet) (Cleared quiet d name i made) (removeArtifacts names)
      fun _ => Cleared quiet d name i made := by
  induction names with
  | nil => exact Triple.done fun _ h => h
  | cons sidecar names ih =>
    refine Triple.weaken (P := Clearing d name i made) ?_ (fun _ h => h.clearing) fun _ _ h => h
    refine Triple.bind (R := fun _ => Cleared quiet d name i made) ?_ (fun _ => ?_) fun _ _ h => h
    · refine Triple.invoke (stable_clearing hname hmade) fun o s b s' h hcondition hperform => ?_
      rw [show s' = (copyPerform reader (.removeFile sidecar) o s).2 from (congrArg Prod.snd hperform).symm]
      exact h.removeFile (fun _ _ => .inr (hnames sidecar List.mem_cons_self)) hcondition.2
    · exact ih fun n hn => hnames n (List.mem_cons_of_mem _ hn)

/-- What the handle tells before the cleanup: nothing but the own file, and not nothing where that stands under its name. -/
theorem Attempt.fileMetadata (h : Attempt d name i made s) {o : CopyOutcome}
    (hundisturbed : quiet → s.LeavesNothing ∨ o.error = none) :
    (∀ j, (o.fallible s (.ok i, s)).1 = .ok j → j = i) ∧
      ((∀ j, (o.fallible s (.ok i, s)).1 ≠ .ok j) → quiet → s.disk.entries (d, name) ≠ some i) := by
  unfold CopyOutcome.fallible
  cases ho : o.error with
  | some e =>
    refine ⟨nofun, fun _ hquiet => ?_⟩
    rcases hundisturbed hquiet with hnothing | hnone
    · exact hnothing d name i h.mem_effects
    · cases ho.symm.trans hnone
  | none => exact ⟨fun j hj => (Except.ok.inj hj).symm, fun hnone => absurd rfl (hnone i)⟩

/-- What the name tells before the cleanup: the own file, where that stands under it. -/
theorem Attempt.pathMetadata (h : Attempt d name i made s) {o : CopyOutcome} (hreaches : Reaches name o s)
    (hentry : s.disk.entries (d, name) = some i) :
    (o.fallible s (okOr ((s.entry name).map (·.2)) .notFound, s)).1 = .ok i := by
  obtain ⟨-, ho, hparent⟩ := hreaches d name i h.mem_effects hentry
  rw [CopyOutcome.fallible, ho, CopyScene.entry, hparent, Option.bind_some, hentry]
  rfl

/-- The check before the cleanup: where it fails, the file does not stand under its name. -/
theorem triple_cleanupCheck (hname : ∃ sequence nonce, name = attemptName pid sequence nonce)
    (hmade : LinksOf destination valid i made) :
    Triple (copySetting pid reader destination valid quiet) (Attempt d name i made)
      (AttemptGuard.pathMatchesOwnedFile ⟨name, i⟩ .cleanup)
      (Ends (fun matched s => Attempt d name i made s ∧ (matched = false → quiet → s.disk.entries (d, name) ≠ some i))
        fun _ _ => False) := by
  have hfile : CopyReads reader (.fileMetadata .cleanup i) := fun o s => copyFallible_reads o s _
  have hpath : CopyReads reader (.pathMetadata .cleanup name) := fun o s => copyFallible_reads o s _
  refine Triple.call (R := fun b s => Attempt d name i made s ∧ (∀ j, b = .ok j → j = i) ∧
    ((∀ j, b ≠ .ok j) → quiet → s.disk.entries (d, name) ≠ some i)) (stable_attempt hname hmade)
    (fun o s b s' h hcondition hperform => ?_) fun b => ?_
  · rw [hfile.eq hperform]
    obtain rfl : (o.fallible s (.ok i, s)).1 = b := congrArg Prod.fst hperform
    exact ⟨h, h.fileMetadata hcondition.2⟩
  cases b with
  | error e => exact Triple.done fun s h => ⟨h.1, fun _ => h.2.2 nofun⟩
  | ok file =>
    by_cases hfileEq : file = i
    swap
    · exact fun _ _ h => absurd (h.2.1 file rfl) hfileEq
    subst hfileEq
    refine Triple.weaken (P := Attempt d name file made) ?_ (fun _ h => h.1) fun _ _ h => h
    refine Triple.call (R := fun b s => Attempt d name file made s ∧
      (b ≠ .ok file → quiet → s.disk.entries (d, name) ≠ some file)) (stable_attempt hname hmade)
      (fun o s b s' h hcondition hperform => ?_) fun b => ?_
    · rw [hpath.eq hperform]
      refine ⟨h, fun hb hquiet hentry => hb ?_⟩
      exact (congrArg Prod.fst hperform).symm.trans (h.pathMetadata (hcondition.2 hquiet) hentry)
    cases b with
    | error e => exact Triple.done fun s h => ⟨h.1, fun _ => h.2 nofun⟩
    | ok j =>
      refine Triple.done fun s h => ⟨h.1, fun hmatched => h.2 fun hj => ?_⟩
      obtain rfl := Except.ok.inj hj
      simp at hmatched

/-- **`Drop` of the guard**: nothing was removed but what belongs to the file, and where the cleanup is quiet the file no longer
stands under its name. -/
theorem triple_drop_attempt (hname : ∃ sequence nonce, name = attemptName pid sequence nonce)
    (hmade : LinksOf destination valid i made) :
    Triple (copySetting pid reader destination valid quiet) (Attempt d name i made) (AttemptGuard.drop ⟨name, i⟩)
      fun _ => Cleared quiet d name i made := by
  refine Triple.bind (triple_cleanupCheck hname hmade) (fun matched => ?_) fun _ _ h => h.elim
  cases matched with
  | false => exact Triple.done fun _ h => ⟨h.1.clearing, h.2 rfl⟩
  | true =>
    refine Triple.weaken (P := Attempt d name i made) ?_ (fun _ h => h.1) fun _ _ h => h
    refine Triple.bind (R := fun _ => Cleared quiet d name i made) ?_ (fun _ => ?_) fun _ _ h => h
    · refine Triple.invoke (stable_attempt hname hmade) fun o s b s' h hcondition hperform => ?_
      rw [show s' = (copyPerform reader (.removeFile name) o s).2 from (congrArg Prod.snd hperform).symm]
      exact h.clearing.removeFile (fun found hfound => .inl ⟨rfl, hcondition.1 d i h.mem_effects found hfound⟩) hcondition.2
    · exact triple_removeSidecars hname hmade fun _ h => h

end Rules

/-! ### The whole backup -/

/-- A copy of the source: the source has migrations up to some version, and the copy is valid with these. -/
def SourceCopy (reader : CopyReader) (key : List UInt8) (source : Option MigrationsRow) (contents : List UInt8) : Prop :=
  ∃ row expected, source = some row ∧ schemaVersion row = .ok expected ∧ ValidCopy reader (keyPragma key) expected contents

theorem Cleared.ends (hname : ∃ sequence nonce, name = attemptName pid sequence nonce)
    (hmade : LinksOf destination valid i made) (h : Cleared quiet d name i made s) {r : Except StoreError Unit}
    (hlength : made.length = links r) : CopyEnds pid destination valid quiet r s := by
  obtain ⟨removed, heffects, hremoved⟩ := h.clearing
  refine ⟨safe_of_effects_eq heffects hname hmade hremoved, ?_, h.leavesNothing hmade⟩
  have hlinks : made.countP CopyEffect.isLink = made.length := by
    refine List.countP_eq_length.mpr fun e he => ?_
    obtain ⟨_, _, _, _, rfl, -⟩ := hmade e he
    rfl
  have hremovals : removed.countP CopyEffect.isLink = 0 := by
    refine List.countP_eq_zero.mpr fun e he => ?_
    obtain ⟨_, _, _, rfl, -⟩ := hremoved e he
    exact Bool.false_ne_true
  rw [heffects, List.cons_append, List.countP_cons_of_neg (by exact Bool.false_ne_true), List.countP_append, hlinks, hremovals,
    Nat.add_zero, hlength]

theorem triple_copyCleanedUp {target : String} {key : List UInt8} {expected : ℤ}
    (hvalid : ∀ contents, ValidCopy reader (keyPragma key) expected contents → valid contents)
    (hname : ∃ sequence nonce, name = attemptName pid sequence nonce) :
    Triple (copySetting pid reader (some target) valid quiet) (Attempt d name i [])
      ((copyAndPublish key expected target ⟨name, i⟩).cleanedUp (AttemptGuard.drop ⟨name, i⟩))
      (CopyEnds pid (some target) valid quiet) := by
  refine Triple.cleanedUp (triple_copyAndPublish hname key hvalid target) fun r => ?_
  cases r with
  | ok u =>
    rintro turns s ⟨made, hlength, hmade, h⟩
    have hdrop : Triple (copySetting pid reader (some target) valid quiet) (Attempt d name i made) (AttemptGuard.drop ⟨name, i⟩)
        fun _ => Cleared quiet d name i made := triple_drop_attempt hname hmade
    have hends := hdrop.weaken (fun _ h => h) fun _ _ h => h.ends (r := .ok u) hname hmade hlength
    exact hends turns s h
  | error e =>
    have hmade : LinksOf (some target) valid i [] := fun _ he => absurd he List.not_mem_nil
    exact (triple_drop_attempt hname hmade).weaken (fun _ h => h) fun _ _ h => h.ends hname hmade rfl

theorem triple_attemptGuardCreate (target : String) (bare : Bool) :
    Triple (copySetting pid reader destination valid quiet) CopyIdle (AttemptGuard.create pid target bare)
      (Ends (CreatedAttempt pid) fun _ => CopyIdle) := by
  refine Triple.bind triple_trustedAttemptParent (fun _ => ?_) fun _ _ h => h
  exact Triple.bind (triple_destinationAbsent target) (fun _ => triple_createAttempt target bare _) fun _ _ h => h

theorem triple_backupToPath (pid : ℕ) (reader : CopyReader) (key : List UInt8) (source : Option MigrationsRow)
    (destination : CopyDestination) :
    Triple (copySetting pid reader destination.fileName (SourceCopy reader key source) quiet) CopyIdle
      (backupToPath pid key source destination)
      (CopyEnds pid destination.fileName (SourceCopy reader key source) quiet) := by
  refine Triple.bind (triple_copyEnsure _ _) (fun _ => ?_) CopyIdle.ends
  refine Triple.done_bind (fun row hrow => ?_) fun e _ => CopyIdle.ends e
  refine Triple.done_bind (fun expected hexpected => ?_) fun e _ => CopyIdle.ends e
  refine Triple.done_bind (fun target htarget => ?_) fun e _ => CopyIdle.ends e
  rw [okOr_eq_ok_iff.mp htarget]
  refine Triple.bind (triple_attemptGuardCreate target destination.bare) (fun attempt => ?_) CopyIdle.ends
  rintro turns s ⟨hname, d, h⟩
  have hvalid : ∀ contents, ValidCopy reader (keyPragma key) expected contents → SourceCopy reader key source contents :=
    fun contents h => ⟨row, expected, okOr_eq_ok_iff.mp hrow, hexpected, h⟩
  exact triple_copyCleanedUp hvalid hname turns s h

/-- **Safety of the copy**, in every run in which no file is put under the name of the own one between a check and what it
guards: whatever the run has done so far is promised; when it ended, the destination was linked once if it succeeded and not at
all if it failed; and nothing is left of the attempt, unless the cleanup was disturbed. -/
theorem backupToPath_safe (pid : ℕ) (reader : CopyReader) (key : List UInt8) (source : Option MigrationsRow)
    (destination : CopyDestination) (disk : Disk) (sequence : UInt64) (turns : List (Turn CopyOutcome Change))
    (hunreplaced : Along (copySystem reader) Unreplaced turns (backupToPath pid key source destination)
      ⟨disk, sequence, []⟩) :
    let ran := run (copySystem reader) turns (backupToPath pid key source destination) ⟨disk, sequence, []⟩
    CopySafe pid destination.fileName (SourceCopy reader key source) ran.2 ∧
      ∀ r, ran.1 = some r → ran.2.effects.countP CopyEffect.isLink = links r ∧
        (Along (copySystem reader) CleanupUndisturbed turns (backupToPath pid key source destination) ⟨disk, sequence, []⟩ →
          ran.2.LeavesNothing) := by
  intro ran
  have hidle : CopyIdle ⟨disk, sequence, []⟩ := rfl
  have hmeets := triple_backupToPath pid reader key source destination turns _ hidle (hunreplaced.and_imp id)
  change Meets (CopySafe pid destination.fileName (SourceCopy reader key source))
    (CopyEnds pid destination.fileName (SourceCopy reader key source) _) ran at hmeets
  unfold Meets at hmeets
  cases hresult : ran.1 with
  | none =>
    rw [hresult] at hmeets
    exact ⟨hmeets, nofun⟩
  | some r =>
    rw [hresult] at hmeets
    refine ⟨hmeets.safe, fun r' hr' => ?_⟩
    obtain rfl := Option.some.inj hr'
    exact ⟨hmeets.once, hmeets.leaves⟩

/-- What is read from a copy of one byte. -/
def oneByteReader : CopyReader where
  quickCheck _ contents := if contents = [1] then some "ok" else none
  migrations _ _ := some ⟨some 1, some 17, 17⟩
  requiredTables _ _ := some 13
  configurationRows _ _ := some 1

/-- The turns of a run in which all calls succeed and another process replaces the file after it was linked. -/
def replacedAfterLink : List (Turn CopyOutcome Change) :=
  List.replicate 18 (.proceed ⟨none, [1], some "4"⟩) ++
    .interfere (.create (0, attemptName 7 0 [1]) ⟨[9], false, false⟩) :: List.replicate 4 (.proceed ⟨none, [], none⟩)

/-- The replacement of a file that was linked stays, and the link too. -/
theorem backupToPath_safe_replaced :
    let ran := run (copySystem oneByteReader) replacedAfterLink
      (backupToPath 7 [5] (some ⟨some 1, some 17, 17⟩) ⟨some "snapshot", false⟩) ⟨emptyDisk, 0, []⟩
    ran.2.effects.countP CopyEffect.isLink = 1 ∧ ran.2.LeavesNothing := by
  intro ran
  obtain ⟨-, hended⟩ := backupToPath_safe 7 oneByteReader [5] (some ⟨some 1, some 17, 17⟩) ⟨some "snapshot", false⟩ emptyDisk 0
    replacedAfterLink (by decide +kernel)
  have hresult : ran.1 = some (.ok ()) := by decide +kernel
  obtain ⟨honce, hleaves⟩ := hended _ hresult
  exact ⟨honce, hleaves (by decide +kernel)⟩

/-- The turns of a run in which another process replaces the file between its check and the link. -/
def replacedBeforeLink : List (Turn CopyOutcome Change) :=
  List.replicate 17 (.proceed ⟨none, [1], some "4"⟩) ++
    [.interfere (.create (0, attemptName 7 0 [1]) ⟨[9], false, false⟩), .proceed ⟨none, [], none⟩]

/-- Without the condition a run may link a file that is not its own. -/
theorem backupToPath_links_replacement :
    ¬ ∀ (pid : ℕ) (reader : CopyReader) (key : List UInt8) (source : Option MigrationsRow) (destination : CopyDestination)
      (disk : Disk) (sequence : UInt64) (turns : List (Turn CopyOutcome Change)),
      CopySafe pid destination.fileName (SourceCopy reader key source)
        (run (copySystem reader) turns (backupToPath pid key source destination) ⟨disk, sequence, []⟩).2 := by
  intro h
  have hsafe := h 7 oneByteReader [5] (some ⟨some 1, some 17, 17⟩) ⟨some "snapshot", false⟩ emptyDisk 0 replacedBeforeLink
  have heffects : (run (copySystem oneByteReader) replacedBeforeLink
      (backupToPath 7 [5] (some ⟨some 1, some 17, 17⟩) ⟨some "snapshot", false⟩) ⟨emptyDisk, 0, []⟩).2.effects =
        [.created 0 (attemptName 7 0 [1]) 0, .linked 0 (attemptName 7 0 [1]) "snapshot" 1 ⟨[9], false, false⟩ none] := by
    decide +kernel
  obtain ⟨-, -, ⟨d, name, hown⟩, -⟩ := hsafe (.linked 0 (attemptName 7 0 [1]) "snapshot" 1 ⟨[9], false, false⟩ none)
    (by rw [heffects]; simp)
  rw [heffects] at hown
  simp at hown

end AgentVoice.Backup

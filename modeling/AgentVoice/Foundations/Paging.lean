import AgentVoice.Foundations.Machine
import Mathlib

/-!
# Reading page by page

A store holds elements in the order of their keys. A reader asks for the elements after its cursor that it wants, up to a
limit, and moves its cursor to the last one. In between, the store changes: elements are added under larger keys, and
elements may change, but keep their keys (`Lawful`). Then nothing is read twice (`Reads.ascending`), every element up to the
cursor that was wanted throughout is read (`run_complete`), a page that is not full is the last one
(`mem_read_of_last_page`), and where elements do not change, what was read is the beginning of what there is
(`run_prefix`).
-/

namespace AgentVoice.Foundations.Paging

variable {σ α β κ ε : Type} [LinearOrder κ]

/-! ### Pages -/

/-- The elements after a cursor that are wanted, up to a limit. -/
def page (key : β → κ) (want : β → Prop) [DecidablePred want] (cursor : Option κ) (limit : ℕ) (elements : List β) : List β :=
  (elements.filter fun x => decide (want x ∧ ∀ c ∈ cursor, c < key x)).take limit

section Page

variable {key : β → κ} {want : β → Prop} [DecidablePred want] {cursor : Option κ} {limit : ℕ} {elements : List β} {x y : β}

theorem mem_of_mem_page (h : x ∈ page key want cursor limit elements) :
    x ∈ elements ∧ want x ∧ ∀ c ∈ cursor, c < key x := by
  obtain ⟨hmem, hwant⟩ := List.mem_filter.mp (List.mem_of_mem_take h)
  exact ⟨hmem, of_decide_eq_true hwant⟩

theorem page_pairwise {r : β → β → Prop} (h : elements.Pairwise r) : (page key want cursor limit elements).Pairwise r :=
  (h.filter _).sublist (List.take_sublist _ _)

/-- **A page leaves out nothing before its last element.** -/
theorem mem_page_of_le (hascending : elements.Pairwise fun x y => key x < key y) (hx : x ∈ elements) (hwant : want x)
    (hcursor : ∀ c ∈ cursor, c < key x) (hlast : y ∈ page key want cursor limit elements) (hle : key x ≤ key y) :
    x ∈ page key want cursor limit elements := by
  set wanted := elements.filter fun x => decide (want x ∧ ∀ c ∈ cursor, c < key x) with hwanted
  have hmem : x ∈ wanted.take limit ++ wanted.drop limit := by
    rw [List.take_append_drop, hwanted]
    exact List.mem_filter.mpr ⟨hx, decide_eq_true ⟨hwant, hcursor⟩⟩
  rcases List.mem_append.mp hmem with hmem | hmem
  · exact hmem
  · have hpairwise : (wanted.take limit ++ wanted.drop limit).Pairwise fun x y => key x < key y := by
      rw [List.take_append_drop]
      exact hascending.filter _
    exact absurd ((List.pairwise_append.mp hpairwise).2.2 y hlast x hmem) (not_lt.mpr hle)

/-- **A page that is not full leaves out nothing.** -/
theorem mem_page_of_short (hshort : (page key want cursor limit elements).length < limit) (hx : x ∈ elements) (hwant : want x)
    (hcursor : ∀ c ∈ cursor, c < key x) : x ∈ page key want cursor limit elements := by
  have hmem : x ∈ elements.filter fun x => decide (want x ∧ ∀ c ∈ cursor, c < key x) :=
    List.mem_filter.mpr ⟨hx, decide_eq_true ⟨hwant, hcursor⟩⟩
  rw [page, List.length_take] at hshort
  rwa [page, List.take_of_length_le (by omega)]

/-- Where everything is wanted, the page after a beginning is the beginning of the rest. -/
theorem page_append {before rest : List β} (hwant : ∀ x, want x) (hbefore : ∀ x ∈ before, ∃ c ∈ cursor, key x ≤ c)
    (hrest : ∀ x ∈ rest, ∀ c ∈ cursor, c < key x) : page key want cursor limit (before ++ rest) = rest.take limit := by
  have hnone : before.filter (fun x => decide (want x ∧ ∀ c ∈ cursor, c < key x)) = [] := by
    refine List.filter_eq_nil_iff.mpr fun x hx hdecide => ?_
    obtain ⟨c, hc, hle⟩ := hbefore x hx
    exact absurd ((of_decide_eq_true hdecide).2 c hc) (not_lt.mpr hle)
  have hall : rest.filter (fun x => decide (want x ∧ ∀ c ∈ cursor, c < key x)) = rest :=
    List.filter_eq_self.mpr fun x hx => decide_eq_true ⟨hwant x, hrest x hx⟩
  rw [page, List.filter_append, hnone, hall, List.nil_append]

end Page

/-! ### Readers -/

/-- A store that changes and is listed by pages. -/
structure Listing (σ α β κ ε : Type) where
  change : α → σ → σ
  list : Option κ → ℕ → σ → Except ε (List β)
  key : β → κ

/-- A reader: the store, the cursor, and what was read. -/
structure Reader (σ β κ : Type) where
  store : σ
  cursor : Option κ
  read : List β

/-- What happens: the store changes, or the reader asks for its next page. -/
inductive Action (α : Type) where
  | change (cause : α)
  | next (limit : ℕ)

/-- The reader and the store after an action; an error leaves the reader where it is. -/
def step (l : Listing σ α β κ ε) : Action α → Reader σ β κ → Reader σ β κ
  | .change cause, r => { r with store := l.change cause r.store }
  | .next limit, r =>
    match l.list r.cursor limit r.store with
    | .ok elements => ⟨r.store, (elements.getLast?.map l.key).or r.cursor, r.read ++ elements⟩
    | .error _ => r

/-- The reader and the store after some actions. -/
def after (l : Listing σ α β κ ε) (as : List (Action α)) (r : Reader σ β κ) : Reader σ β κ := Machine.run (step l) as r

/-- A reader that has read nothing. -/
def fresh (s : σ) : Reader σ β κ := ⟨s, none, []⟩

/-- A listing of what a store holds: it returns pages of elements that stand in the order of their keys, and changes add
elements under larger keys. -/
structure Lawful (l : Listing σ α β κ ε) (elements : σ → List β) (want : β → Prop) [DecidablePred want] (I : σ → Prop) :
    Prop where
  keeps : ∀ a s, I s → I (l.change a s)
  ascending : ∀ s, I s → (elements s).Pairwise fun x y => l.key x < l.key y
  grows : ∀ a s, I s → (elements s).map l.key <+: (elements (l.change a s)).map l.key
  pages : ∀ cursor limit s found, I s → l.list cursor limit s = .ok found → found = page l.key want cursor limit (elements s)

/-- What holds of a reader: it has read elements of the store in the order of their keys, and its cursor stands at the last
one. -/
structure Reads (l : Listing σ α β κ ε) (elements : σ → List β) (r : Reader σ β κ) : Prop where
  cursor : r.cursor = r.read.getLast?.map l.key
  ascending : r.read.Pairwise fun x y => l.key x < l.key y
  held : ∀ x ∈ r.read, l.key x ∈ (elements r.store).map l.key

variable {l : Listing σ α β κ ε} {elements : σ → List β} {want : β → Prop} [DecidablePred want] {I : σ → Prop}
  {r : Reader σ β κ} {as : List (Action α)} {k : κ}

theorem Reads.fresh (s : σ) : Reads l elements (fresh s) := ⟨rfl, List.Pairwise.nil, fun _ hx => absurd hx List.not_mem_nil⟩

/-- What was read stands up to the cursor. -/
theorem Reads.le_cursor (h : Reads l elements r) {x : β} (hx : x ∈ r.read) : ∃ c ∈ r.cursor, l.key x ≤ c := by
  have hne : r.read ≠ [] := List.ne_nil_of_mem hx
  have hrefl : Std.Refl fun x y : β => l.key x ≤ l.key y := ⟨fun _ => le_rfl⟩
  refine ⟨l.key (r.read.getLast hne), ?_, (h.ascending.imp fun hlt => hlt.le).rel_getLast hx⟩
  rw [h.cursor, List.getLast?_eq_some_getLast hne]
  rfl

/-- The cursor stands at an element that was read. -/
theorem Reads.cursor_mem (h : Reads l elements r) {c : κ} (hc : c ∈ r.cursor) : ∃ x ∈ r.read, l.key x = c := by
  rw [h.cursor, Option.mem_def, Option.map_eq_some_iff] at hc
  obtain ⟨x, hx, hkey⟩ := hc
  exact ⟨x, List.mem_of_getLast? hx, hkey⟩

/-- What a page adds comes after what was read. -/
theorem Reads.lt_of_mem_page (h : Reads l elements r) {x y : β} (hx : x ∈ r.read) {limit : ℕ}
    (hy : y ∈ page l.key want r.cursor limit (elements r.store)) : l.key x < l.key y := by
  obtain ⟨c, hc, hle⟩ := h.le_cursor hx
  exact hle.trans_lt ((mem_of_mem_page hy).2.2 c hc)

/-- What a reader knows goes on. -/
theorem Lawful.step_reads (hl : Lawful l elements want I) (a : Action α) (hI : I r.store) (h : Reads l elements r) :
    I (step l a r).store ∧ Reads l elements (step l a r) := by
  cases a with
  | change cause =>
    exact ⟨hl.keeps _ _ hI, h.cursor, h.ascending, fun x hx => (hl.grows cause _ hI).subset (h.held x hx)⟩
  | next limit =>
    rw [step]
    cases hlist : l.list r.cursor limit r.store with
    | error e => exact ⟨hI, h⟩
    | ok found =>
      obtain rfl := hl.pages _ _ _ _ hI hlist
      refine ⟨hI, ?_, ?_, fun x hx => ?_⟩
      · rw [List.getLast?_append, Option.map_or, ← h.cursor]
      · exact List.pairwise_append.mpr ⟨h.ascending, page_pairwise (hl.ascending _ hI), fun x hx y hy => h.lt_of_mem_page hx hy⟩
      · rcases List.mem_append.mp hx with hx | hx
        · exact h.held x hx
        · exact List.mem_map_of_mem (mem_of_mem_page hx).1

/-- **What holds of a reader holds after every run.** -/
theorem Lawful.run_reads (hl : Lawful l elements want I) {s : σ} (hI : I s) (as : List (Action α)) :
    I (after l as (fresh s)).store ∧ Reads l elements (after l as (fresh s)) :=
  Machine.run_invariant (I := fun r => I r.store ∧ Reads l elements r) (fun a _ h => hl.step_reads a h.1 h.2) ⟨hI, .fresh s⟩ as

/-! ### Completeness -/

variable (l elements) in
/-- The elements up to the cursor under a key were read. -/
def Caught (k : κ) (r : Reader σ β κ) : Prop :=
  k ∈ (elements r.store).map l.key → ∀ c ∈ r.cursor, k ≤ c → k ∈ r.read.map l.key

variable (l elements want) in
/-- An element under a key is wanted while it is there. -/
def Wanted (k : κ) (r : Reader σ β κ) : Prop := ∀ x ∈ elements r.store, l.key x = k → want x

/-- A key up to that of an element that stays was there before the store grew. -/
theorem Lawful.mem_of_grows (hl : Lawful l elements want I) {s : σ} (hI : I s) (cause : α) {c : κ}
    (hk : k ∈ (elements (l.change cause s)).map l.key) (hc : c ∈ (elements s).map l.key) (hle : k ≤ c) :
    k ∈ (elements s).map l.key := by
  obtain ⟨new, hnew⟩ := hl.grows cause s hI
  have hascending := List.pairwise_map.mpr (hl.ascending _ (hl.keeps cause s hI))
  rw [← hnew] at hk hascending
  rcases List.mem_append.mp hk with hk | hk
  · exact hk
  · exact absurd ((List.pairwise_append.mp hascending).2.2 c hc k hk) (not_lt.mpr hle)

/-- A page leaves out no element up to the new cursor that is wanted. -/
theorem Lawful.step_caught (hl : Lawful l elements want I) (a : Action α) (hI : I r.store) (h : Reads l elements r)
    (hwanted : Wanted l elements want k r) (hcaught : Caught l elements k r) : Caught l elements k (step l a r) := by
  cases a with
  | change cause =>
    intro hk c hc hle
    obtain ⟨x, hx, rfl⟩ := h.cursor_mem hc
    exact hcaught (hl.mem_of_grows hI cause hk (h.held x hx) hle) _ hc hle
  | next limit =>
    rw [step]
    cases hlist : l.list r.cursor limit r.store with
    | error e => exact hcaught
    | ok found =>
      obtain rfl := hl.pages _ _ _ _ hI hlist
      intro hk c hc hle
      show k ∈ (r.read ++ _).map l.key
      rw [List.map_append]
      by_cases hbefore : ∃ c ∈ r.cursor, k ≤ c
      · obtain ⟨c, hc, hle⟩ := hbefore
        exact List.mem_append_left _ (hcaught hk c hc hle)
      · obtain ⟨x, hx, rfl⟩ := List.mem_map.mp hk
        have hcursor : ∀ c ∈ r.cursor, c < l.key x := fun c hc => not_le.mp fun hle => hbefore ⟨c, hc, hle⟩
        rcases Option.or_eq_some_iff.mp hc with hc | ⟨-, hc⟩
        · obtain ⟨y, hy, rfl⟩ := Option.map_eq_some_iff.mp hc
          exact List.mem_append_right _ (List.mem_map_of_mem
            (mem_page_of_le (hl.ascending _ hI) hx (hwanted x hx rfl) hcursor (List.mem_of_getLast? hy) hle))
        · exact absurd ⟨c, hc, hle⟩ hbefore

/-- **Every element up to the cursor that was wanted throughout was read.** -/
theorem Lawful.run_complete (hl : Lawful l elements want I) {s : σ} (hI : I s)
    (hwanted : Machine.Throughout (step l) (Wanted l elements want k) as (fresh s)) :
    Caught l elements k (after l as (fresh s)) := by
  refine Machine.run_keeps (I := fun r => I r.store ∧ Reads l elements r) (R := fun _ => True)
    (P := Wanted l elements want k) (fun a _ h => hl.step_reads a h.1 h.2) ?_ ⟨hI, .fresh s⟩ (fun _ _ => trivial) hwanted ?_
  · exact fun a r h _ hnow _ hcaught => hl.step_caught a h.1 h.2 hnow hcaught
  · intro _ c hc
    cases hc

/-- **A page that is not full is the last one**: with it, every element that was wanted throughout was read. -/
theorem Lawful.mem_read_of_last_page (hl : Lawful l elements want I) {s : σ} (hI : I s)
    (hwanted : Machine.Throughout (step l) (Wanted l elements want k) as (fresh s)) {limit : ℕ} {found : List β}
    (hpage : l.list (after l as (fresh s)).cursor limit (after l as (fresh s)).store = .ok found) (hshort : found.length < limit)
    (hk : k ∈ (elements (after l as (fresh s)).store).map l.key) :
    k ∈ ((after l as (fresh s)).read ++ found).map l.key := by
  have hlast := hwanted.last
  have hcaught := hl.run_complete hI hwanted
  obtain ⟨hI', hreads⟩ := hl.run_reads hI as
  rw [← after] at hlast
  generalize after l as (fresh s) = r at hlast hcaught hI' hreads hpage hk
  obtain rfl := hl.pages _ _ _ _ hI' hpage
  rw [List.map_append]
  by_cases hbefore : ∃ c ∈ r.cursor, k ≤ c
  · obtain ⟨c, hc, hle⟩ := hbefore
    exact List.mem_append_left _ (hcaught hk c hc hle)
  · obtain ⟨x, hx, rfl⟩ := List.mem_map.mp hk
    have hcursor : ∀ c ∈ r.cursor, c < l.key x := fun c hc => not_le.mp fun hle => hbefore ⟨c, hc, hle⟩
    exact List.mem_append_right _ (List.mem_map_of_mem (mem_page_of_short hshort hx (hlast x hx rfl) hcursor))

/-- **What was read was there**, and was wanted, when it was read. -/
theorem Lawful.mem_of_mem_read (hl : Lawful l elements want I) {s : σ} (hI : I s) {x : β}
    (hx : x ∈ (after l as (fresh s)).read) :
    ∃ before rest, as = before ++ rest ∧ x ∈ elements (after l before (fresh s)).store ∧ want x := by
  induction as using List.reverseRecOn with
  | nil => exact absurd hx List.not_mem_nil
  | append_singleton as a ih =>
    have hstep : after l (as ++ [a]) (fresh s) = step l a (after l as (fresh s)) := Machine.run_concat as a (fresh s)
    have hearlier : x ∈ (after l as (fresh s)).read →
        ∃ before rest, as ++ [a] = before ++ rest ∧ x ∈ elements (after l before (fresh s)).store ∧ want x := by
      intro hx
      obtain ⟨before, rest, rfl, hfound⟩ := ih hx
      exact ⟨before, rest ++ [a], List.append_assoc _ _ _, hfound⟩
    obtain ⟨hI', -⟩ := hl.run_reads hI as
    rw [hstep] at hx
    cases a with
    | change cause => exact hearlier hx
    | next limit =>
      rw [step] at hx
      cases hlist : l.list (after l as (fresh s)).cursor limit (after l as (fresh s)).store with
      | error e =>
        rw [hlist] at hx
        exact hearlier hx
      | ok found =>
        rw [hlist] at hx
        obtain rfl := hl.pages _ _ _ _ hI' hlist
        rcases List.mem_append.mp hx with hx | hx
        · exact hearlier hx
        · exact ⟨as, [.next limit], rfl, (mem_of_mem_page hx).1, (mem_of_mem_page hx).2.1⟩

/-! ### Elements that do not change -/

/-- **What was read is the beginning of what there is**, where elements are only added and all are wanted. -/
theorem Lawful.run_prefix (hl : Lawful l elements want I) (hwant : ∀ x, want x)
    (happend : ∀ cause s, I s → elements s <+: elements (l.change cause s)) {s : σ} (hI : I s) (as : List (Action α)) :
    (after l as (fresh s)).read <+: elements (after l as (fresh s)).store := by
  refine (Machine.run_invariant
    (I := fun r => (I r.store ∧ Reads l elements r) ∧ r.read <+: elements r.store) ?_ ⟨⟨hI, .fresh s⟩, List.nil_prefix⟩ as).2
  rintro a r ⟨⟨hI, h⟩, hprefix⟩
  refine ⟨hl.step_reads a hI h, ?_⟩
  cases a with
  | change cause => exact hprefix.trans (happend cause _ hI)
  | next limit =>
    rw [step]
    cases hlist : l.list r.cursor limit r.store with
    | error e => exact hprefix
    | ok found =>
      obtain rfl := hl.pages _ _ _ _ hI hlist
      obtain ⟨rest, hrest⟩ := hprefix
      have hascending := hl.ascending _ hI
      rw [← hrest] at hascending
      have hpage : page l.key want r.cursor limit (elements r.store) = rest.take limit := by
        rw [← hrest]
        refine page_append hwant (fun x hx => h.le_cursor hx) fun x hx c hc => ?_
        obtain ⟨y, hy, rfl⟩ := h.cursor_mem hc
        exact (List.pairwise_append.mp hascending).2.2 y hy x hx
      show r.read ++ page l.key want r.cursor limit (elements r.store) <+: elements r.store
      rw [hpage, ← hrest]
      exact (List.prefix_append_right_inj _).mpr (List.take_prefix _ _)

end AgentVoice.Foundations.Paging

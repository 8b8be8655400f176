import AgentVoice.SigV4.CanonicalRequest
import Mathlib.Logic.Relation

/-!
# How a header may be presented

Two presentations of a header differ in the case of the name, and in the white space of the value: a run of spaces and
tabs at either end may come and go, a run in between may be replaced by any other run (`Respaced`). Two headers are
normalised alike exactly when they are presentations of one (`normalizeHeader_eq_iff`).
-/

namespace AgentVoice.SigV4

open AgentVoice.Foundations Relation

/-- A run of spaces and tabs. -/
def IsRun (run : List Char) : Prop := run.all isBlankChar = true

theorem isRun_cons {c : Char} {run : List Char} : IsRun (c :: run) ↔ isBlankChar c = true ∧ IsRun run := by
  rw [IsRun, List.all_cons, Bool.and_eq_true, ← IsRun]

/-- One change of the white space of a value. -/
inductive Respaced : List Char → List Char → Prop where
  /-- A run is put in front. -/
  | leading (run cs : List Char) : IsRun run → Respaced cs (run ++ cs)
  /-- A run is put at the end. -/
  | trailing (cs run : List Char) : IsRun run → Respaced cs (cs ++ run)
  /-- A run is replaced by another one, a wider one for instance. -/
  | inner (cs run run' cs' : List Char) : IsRun run → IsRun run' → run ≠ [] → run' ≠ [] →
      Respaced (cs ++ run ++ cs') (cs ++ run' ++ cs')

/-- The value a header has after a control character check: `normalize_header_value` without its error. -/
def collapse (cs : List Char) : List Char := (cs.foldl pushValueChar ([], false)).1

/-! ### A run -/

theorem pushValueChar_of_blank {c : Char} (h : isBlankChar c = true) (state : List Char × Bool) :
    pushValueChar state c = (state.1, state.2 || !state.1.isEmpty) := if_pos h

theorem pushValueChar_of_not_blank {c : Char} (h : isBlankChar c = false) (state : List Char × Bool) :
    pushValueChar state c = ((if state.2 then state.1 ++ [' '] else state.1) ++ [c], false) :=
  if_neg (by rw [h]; exact Bool.false_ne_true)

/-- A run that is not empty leaves a space pending, unless nothing stands before it. -/
theorem foldl_run {run : List Char} (h : IsRun run) (hne : run ≠ []) (state : List Char × Bool) :
    run.foldl pushValueChar state = (state.1, state.2 || !state.1.isEmpty) := by
  induction run generalizing state with
  | nil => exact absurd rfl hne
  | cons c run ih =>
    obtain ⟨hc, hrun⟩ := isRun_cons.mp h
    rw [List.foldl_cons, pushValueChar_of_blank hc]
    cases run with
    | nil => rfl
    | cons c' run =>
      rw [ih hrun (List.cons_ne_nil _ _)]
      dsimp only
      rw [Bool.or_assoc, Bool.or_self]

theorem collapse_of_respaced {a b : List Char} (h : Respaced a b) : collapse a = collapse b := by
  cases h with
  | leading run _ hrun =>
    by_cases hne : run = []
    · rw [hne, List.nil_append]
    · rw [collapse, collapse, List.foldl_append, foldl_run hrun hne]
      rfl
  | trailing _ run hrun =>
    by_cases hne : run = []
    · rw [hne, List.append_nil]
    · rw [collapse, collapse, List.foldl_append, foldl_run hrun hne]
  | inner cs run run' cs' hrun hrun' hne hne' =>
    rw [collapse, collapse, List.foldl_append, List.foldl_append, List.foldl_append, List.foldl_append,
      foldl_run hrun hne, foldl_run hrun' hne']

/-! ### A value and its normal form -/

/-- What is pending at the end of a text. -/
def pendingText (pendingSpace : Bool) : List Char := if pendingSpace then [' '] else []

/-- A space or a tab more leaves a space pending, unless nothing stands before it. -/
theorem respaced_blank {c : Char} (hc : isBlankChar c = true) {state : List Char × Bool}
    (h : state.1 = [] → state.2 = false) (rest : List Char) :
    EqvGen Respaced (state.1 ++ pendingText state.2 ++ c :: rest)
      (state.1 ++ pendingText (state.2 || !state.1.isEmpty) ++ rest) := by
  obtain ⟨normalized, pendingSpace⟩ := state
  have hrun : IsRun [c] := isRun_cons.mpr ⟨hc, rfl⟩
  cases normalized with
  | nil =>
    obtain rfl : pendingSpace = false := h rfl
    exact .symm _ _ (.rel _ _ (.leading [c] rest hrun))
  | cons first normalized =>
    have hinner := Respaced.inner (first :: normalized) (pendingText pendingSpace ++ [c]) [' '] rest
    rw [List.append_cons, List.append_assoc (first :: normalized)]
    show EqvGen Respaced _ (first :: normalized ++ pendingText (pendingSpace || true) ++ rest)
    rw [Bool.or_true]
    refine .rel _ _ (hinner ?_ rfl (List.append_ne_nil_of_right_ne_nil _ (List.cons_ne_nil _ _)) (List.cons_ne_nil _ _))
    cases pendingSpace with
    | true => exact isRun_cons.mpr ⟨rfl, hrun⟩
    | false => exact hrun

/-- What was read may be replaced by what was pushed for it, whatever comes behind: the loop invariant. -/
theorem respaced_state (cs rest : List Char) :
    EqvGen Respaced (cs ++ rest)
        ((cs.foldl pushValueChar ([], false)).1 ++ pendingText (cs.foldl pushValueChar ([], false)).2 ++ rest) ∧
      ((cs.foldl pushValueChar ([], false)).1 = [] → (cs.foldl pushValueChar ([], false)).2 = false) := by
  induction cs using List.reverseRecOn generalizing rest with
  | nil => exact ⟨.refl _, fun _ => rfl⟩
  | append_singleton cs c ih =>
    obtain ⟨hrest, hpending⟩ := ih (c :: rest)
    rw [List.foldl_append, List.foldl_cons, List.foldl_nil]
    set state := cs.foldl pushValueChar ([], false)
    rw [List.append_assoc, List.singleton_append]
    cases hc : isBlankChar c with
    | true =>
      rw [pushValueChar_of_blank hc]
      refine ⟨hrest.trans _ _ _ (respaced_blank hc hpending rest), fun hnil => ?_⟩
      show (state.2 || !state.1.isEmpty) = false
      rw [hpending hnil, show state.1 = [] from hnil]
      rfl
    | false =>
      rw [pushValueChar_of_not_blank hc]
      refine ⟨?_, fun h => absurd h (List.append_ne_nil_of_right_ne_nil _ (List.cons_ne_nil _ _))⟩
      have htext : (if state.2 then state.1 ++ [' '] else state.1) = state.1 ++ pendingText state.2 := by
        cases state.2
        · exact (List.append_nil _).symm
        · rfl
      rw [htext]
      simpa [pendingText] using hrest

theorem respaced_collapse (cs : List Char) : EqvGen Respaced cs (collapse cs) := by
  have hstate := (respaced_state cs []).1
  rw [List.append_nil, List.append_nil] at hstate
  refine hstate.trans _ _ _ (.symm _ _ (.rel _ _ (.trailing _ _ ?_)))
  cases (cs.foldl pushValueChar ([], false)).2 <;> rfl

/-- **Two values have one normal form exactly when they differ in white space only.** -/
theorem collapse_eq_iff {a b : List Char} : collapse a = collapse b ↔ EqvGen Respaced a b := by
  constructor
  · intro h
    refine (respaced_collapse a).trans _ _ _ ?_
    rw [h]
    exact (respaced_collapse b).symm _ _
  · intro h
    induction h with
    | rel _ _ h => exact collapse_of_respaced h
    | refl _ => rfl
    | symm _ _ _ ih => exact ih.symm
    | trans _ _ _ _ _ ih ih' => exact ih.trans ih'

/-! ### What a run leaves alone -/

/-- The characters of a value that are neither space nor tab. -/
theorem mem_iff_of_respaced {a b : List Char} (h : EqvGen Respaced a b) {c : Char} (hc : isBlankChar c = false) :
    c ∈ a ↔ c ∈ b := by
  have hrun : ∀ run, IsRun run → c ∉ run := by
    intro run hrun hmem
    exact Bool.false_ne_true (hc.symm.trans (List.all_eq_true.mp hrun c hmem))
  induction h with
  | refl _ => exact Iff.rfl
  | symm _ _ _ ih => exact ih.symm
  | trans _ _ _ _ _ ih ih' => exact ih.trans ih'
  | rel a b h =>
    cases h with
    | leading run _ h => simp [hrun run h]
    | trailing _ run h => simp [hrun run h]
    | inner _ run run' _ h h' => simp [hrun run h, hrun run' h']

/-! ### Headers -/

/-- Two presentations of one header. -/
structure Reworded (header header' : String × String) : Prop where
  name : lowercase header.1 = lowercase header'.1
  value : EqvGen Respaced header.2.toList header'.2.toList

theorem normalizeHeaderValue_eq (value : String) : normalizeHeaderValue value =
    if value.toList.any fun c => isControl c && c != ' ' && c != '\t' then .error ⟨.invalidHeader⟩
    else .ok (String.ofList (collapse value.toList)) := by
  rw [normalizeHeaderValue]
  split_ifs with h
  · rw [require_of_not (not_not.mpr h)]
    rfl
  · rw [require_of h]
    rfl

theorem normalizeHeaderValue_of_respaced {value value' : String} (h : EqvGen Respaced value.toList value'.toList) :
    normalizeHeaderValue value = normalizeHeaderValue value' := by
  have hany : (value.toList.any fun c => isControl c && c != ' ' && c != '\t') =
      value'.toList.any fun c => isControl c && c != ' ' && c != '\t' := by
    rw [Bool.eq_iff_iff, List.any_eq_true, List.any_eq_true]
    refine exists_congr fun c => and_congr_left fun hc => mem_iff_of_respaced h ?_
    rw [Bool.and_eq_true, Bool.and_eq_true, bne_iff_ne, bne_iff_ne] at hc
    rw [isBlankChar, beq_false_of_ne hc.1.2, beq_false_of_ne hc.2]
    rfl
  rw [normalizeHeaderValue_eq, normalizeHeaderValue_eq, hany, collapse_eq_iff.mpr h]

theorem isTokenChar_toLower (c : Char) : isTokenChar c.toLower = isTokenChar c := by
  rw [isTokenChar, isTokenChar, isAsciiAlphanumeric_toLower]
  by_cases hupper : 65 ≤ c.toNat ∧ c.toNat ≤ 90
  · have halphanumeric : isAsciiAlphanumeric c = true := by
      simp only [isAsciiAlphanumeric, Bool.or_eq_true, Bool.and_eq_true, decide_eq_true_eq]
      omega
    rw [halphanumeric, Bool.true_or, Bool.true_or]
  · have hlower : c.toLower = c := by
      rw [← Char.toNat_inj, toNat_toLower, if_neg hupper]
    rw [hlower]

theorem toNat_toLower_lt (c : Char) : c.toLower.toNat < 128 ↔ c.toNat < 128 := by
  rw [toNat_toLower]
  split_ifs <;> omega

/-- The checks of a name and its normal form depend on its lower case only. -/
theorem normalizeHeaderName_of_lowercase {name name' : String} (h : lowercase name = lowercase name') :
    normalizeHeaderName name = normalizeHeaderName name' := by
  have hchars : name.toList.map Char.toLower = name'.toList.map Char.toLower := String.ofList_injective h
  have hempty : name.isEmpty = name'.isEmpty := by
    rw [Bool.eq_iff_iff, String.isEmpty_iff, String.isEmpty_iff, ← String.toList_eq_nil_iff, ← String.toList_eq_nil_iff,
      ← List.map_eq_nil_iff (f := Char.toLower), hchars, List.map_eq_nil_iff]
  have hascii : isAscii name = isAscii name' := by
    have := congrArg (fun cs => cs.all fun c => decide (c.toNat < 128)) hchars
    simp only [List.all_map, Function.comp_def, toNat_toLower_lt] at this
    exact this
  have htoken : name.toList.all isHeaderNameByte = name'.toList.all isHeaderNameByte := by
    have := congrArg (fun cs => cs.all isTokenChar) hchars
    simp only [List.all_map, Function.comp_def, isTokenChar_toLower] at this
    exact this
  rw [normalizeHeaderName, normalizeHeaderName, hempty, hascii, htoken, h]

theorem normalizeHeader_of_reworded {header header' : String × String} (h : Reworded header header') :
    normalizeHeader header = normalizeHeader header' := by
  rw [normalizeHeader, normalizeHeader, normalizeHeaderName_of_lowercase h.name, normalizeHeaderValue_of_respaced h.value]

theorem normalizeHeader_eq_ok_iff {header : String × String} {normalized : CanonicalHeader} :
    normalizeHeader header = .ok normalized ↔ ∃ name value, normalized = ⟨name, value⟩ ∧
      normalizeHeaderName header.1 = .ok name ∧ normalizeHeaderValue header.2 = .ok value := by
  constructor
  · intro h
    obtain ⟨name, hname, h⟩ := bind_eq_ok_iff.mp h
    obtain ⟨value, hvalue, h⟩ := bind_eq_ok_iff.mp h
    exact ⟨name, value, (Except.ok.inj h).symm, hname, hvalue⟩
  · rintro ⟨name, value, rfl, hname, hvalue⟩
    rw [normalizeHeader, hname, ok_bind, hvalue]
    rfl

theorem isAscii_of_isToken {s : String} (h : IsToken s) : isAscii s = true := by
  rw [isAscii, List.all_eq_true]
  intro c hc
  have htoken := List.all_eq_true.mp h c hc
  rw [isTokenChar, Bool.or_eq_true, List.contains_iff_mem] at htoken
  rw [decide_eq_true_eq]
  rcases htoken with halphanumeric | hmem
  · simp only [isAsciiAlphanumeric, Bool.or_eq_true, Bool.and_eq_true, decide_eq_true_eq] at halphanumeric
    omega
  · have hall : (['!', '#', '$', '%', '&', Char.ofNat 39, '*', '+', '-', '.', '^', '_', Char.ofNat 96, '|', '~'].all
        fun c => decide (c.toNat < 128)) = true := rfl
    exact of_decide_eq_true (List.all_eq_true.mp hall c hmem)

theorem normalizeHeaderName_eq_ok_iff {name normalized : String} : normalizeHeaderName name = .ok normalized ↔
    (name ≠ "" ∧ IsToken name) ∧ lowercase name ≠ "authorization" ∧ normalized = lowercase name := by
  constructor
  · intro h
    obtain ⟨⟨⟩, hchecks, h⟩ := bind_eq_ok_iff.mp h
    obtain ⟨⟨⟩, hauthorization, h⟩ := bind_eq_ok_iff.mp h
    obtain ⟨hname, -, htoken⟩ := by simpa only [not_or, not_not, String.isEmpty_iff] using require_eq_ok_iff.mp hchecks
    exact ⟨⟨hname, htoken⟩, require_eq_ok_iff.mp hauthorization, (Except.ok.inj h).symm⟩
  · rintro ⟨⟨hname, htoken⟩, hauthorization, rfl⟩
    rw [normalizeHeaderName, require_of (by simpa only [not_or, not_not, String.isEmpty_iff] using
      ⟨hname, isAscii_of_isToken htoken, htoken⟩), ok_bind]
    dsimp only
    rw [require_of hauthorization]
    rfl

theorem normalizeHeaderValue_eq_ok_iff {value normalized : String} : normalizeHeaderValue value = .ok normalized ↔
    (∀ c ∈ value.toList, isControl c = true → c = '\t') ∧ normalized = String.ofList (collapse value.toList) := by
  have hcontrol : ¬ (value.toList.any fun c => isControl c && c != ' ' && c != '\t') = true ↔
      ∀ c ∈ value.toList, isControl c = true → c = '\t' := by
    rw [List.any_eq_true, not_exists]
    refine forall_congr' fun c => ?_
    rw [not_and]
    refine imp_congr_right fun _ => ?_
    by_cases hspace : c = ' '
    · rw [hspace]
      decide
    · by_cases htab : c = '\t' <;> simp [hspace, htab]
  rw [normalizeHeaderValue_eq, ← hcontrol]
  split_ifs with h
  · exact iff_of_false nofun fun hok => hok.1 h
  · rw [Except.ok.injEq, eq_comm, and_iff_right h]

/-- **Headers with one normal form are presentations of one header.** -/
theorem reworded_of_normalizeHeader {header header' : String × String} {normalized : CanonicalHeader}
    (h : normalizeHeader header = .ok normalized) (h' : normalizeHeader header' = .ok normalized) :
    Reworded header header' := by
  obtain ⟨name, value, rfl, hname, hvalue⟩ := normalizeHeader_eq_ok_iff.mp h
  obtain ⟨_, _, heq, hname', hvalue'⟩ := normalizeHeader_eq_ok_iff.mp h'
  obtain ⟨rfl, rfl⟩ := CanonicalHeader.mk.inj heq
  refine ⟨?_, collapse_eq_iff.mp ?_⟩
  · rw [← (normalizeHeaderName_eq_ok_iff.mp hname).2.2, (normalizeHeaderName_eq_ok_iff.mp hname').2.2]
  · have := (normalizeHeaderValue_eq_ok_iff.mp hvalue).2.symm.trans (normalizeHeaderValue_eq_ok_iff.mp hvalue').2
    exact String.ofList_injective this

end AgentVoice.SigV4

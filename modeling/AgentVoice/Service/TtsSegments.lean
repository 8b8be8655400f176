import AgentVoice.Foundations.SpacedText
import AgentVoice.Turns.EndCall
import Mathlib

/-!
# Segments of a spoken text

`split_tts_text` of `src/service.rs`, which splits what is to be said into the texts of single synthesis requests. A cut
behind a mark is made whatever follows the mark; where that is no space, a word is cut in two, and only then are the
segments not the words of the text (`losesNothing_iff`).
-/

namespace AgentVoice.Service

open AgentVoice.Foundations AgentVoice.Turns

/-- The marks that a segment ends with. -/
def isEndMark (c : Char) : Bool := c == '.' || c == '!' || c == '?' || c == ';' || c == ':'

/-- `String::len`, on the characters. -/
def byteCount (cs : List Char) : ℕ := (cs.map Char.utf8Size).sum

/-- `String::split_off` at a byte. -/
def splitOff : List Char → ℕ → List Char × List Char
  | [], _ => ([], [])
  | c :: cs, index =>
    if index = 0 then ([], c :: cs)
    else (c :: (splitOff cs (index - c.utf8Size)).1, (splitOff cs (index - c.utf8Size)).2)

/-- `str::rfind` of a space: the byte at which the last space stands. -/
def rfindSpace (cs : List Char) : Option ℕ :=
  if ' ' ∈ cs then some (byteCount (cs.rdropWhile fun c => c != ' ').dropLast) else none

/-- `str::trim_start`. -/
def trimStart (cs : List Char) : List Char := cs.dropWhile isWhitespace

/-- The variables of the loop of `split_tts_text`. -/
structure Splitting where
  segments : List (List Char)
  current : List Char
  lastBreakAt : Option ℕ

/-- `segments.push` of what is trimmed, unless nothing is left. -/
def pushSegment (piece : List Char) (segments : List (List Char)) : List (List Char) :=
  if trimChars piece = [] then segments else segments ++ [trimChars piece]

namespace Splitting

/-- The variables before the loop. -/
def start : Splitting := ⟨[], [], none⟩

/-- `last_break_at`, when a character is pushed. -/
def breakAt (s : Splitting) (ch : Char) : Option ℕ :=
  let current := s.current ++ [ch]
  if isEndMark ch || (ch == ',' && decide (48 ≤ byteCount current)) then some (byteCount current) else s.lastBreakAt

/-- A segment is cut off at a byte. -/
def cutAt (s : Splitting) (current : List Char) (index : ℕ) : Splitting :=
  ⟨pushSegment (splitOff current index).1 s.segments, trimStart (splitOff current index).2, none⟩

/-- The body of the loop. -/
def push (s : Splitting) (ch : Char) : Splitting :=
  let current := s.current ++ [ch]
  if 24 ≤ byteCount current ∧ isEndMark ch = true then ⟨pushSegment current s.segments, [], none⟩
  else if 72 ≤ byteCount current then
    match s.breakAt ch with
    | some index => s.cutAt current index
    | none =>
      match rfindSpace current with
      | some index => s.cutAt current index
      | none => ⟨s.segments, current, none⟩
  else ⟨s.segments, current, s.breakAt ch⟩

/-- The variables behind a part of the text. -/
def behind (front : List Char) : Splitting := front.foldl push start

/-- What follows the loop. -/
def finish (s : Splitting) : List (List Char) := pushSegment s.current s.segments

/-- The byte behind the mark that the text is cut at when a character is pushed. -/
def markCut (s : Splitting) (ch : Char) : Option ℕ :=
  let current := s.current ++ [ch]
  if 24 ≤ byteCount current ∧ isEndMark ch = true then some (byteCount current)
  else if 72 ≤ byteCount current then s.breakAt ch
  else none

/-- The text is cut behind a mark that no space follows. -/
def CutsWord (s : Splitting) (ch : Char) (back : List Char) : Prop :=
  ∃ index, s.markCut ch = some index ∧
    ∃ c ∈ ((splitOff (s.current ++ [ch]) index).2 ++ back).head?, c ≠ ' '

end Splitting

/-- `normalized`. -/
def normalizedText (text : String) : String := String.intercalate " " (splitWhitespace text)

/-- `split_tts_text`. -/
def splitTtsText (text backend : String) : List String :=
  let normalized := normalizedText text
  if normalized = "" then [""]
  else if backend ≠ "sherpa-onnx" then [normalized]
  else
    let segments := (Splitting.behind normalized.toList).finish
    if segments = [] then [normalized] else segments.map String.ofList

/-- The segments are the text: each is trimmed and not empty, and joined by single spaces they are the words. -/
structure LosesNothing (text : String) : Prop where
  segments : ∀ s ∈ splitTtsText text "sherpa-onnx", s ≠ "" ∧ trim s = s
  joined : String.intercalate " " (splitTtsText text "sherpa-onnx") = normalizedText text

/-! ### Bytes -/

/-- At the length of a part, the text is split behind it. -/
theorem splitOff_byteCount (a b : List Char) : splitOff (a ++ b) (byteCount a) = (a, b) := by
  induction a with
  | nil =>
    cases b with
    | nil => rfl
    | cons c b => rfl
  | cons c a ih =>
    have hpos : 0 < c.utf8Size := c.utf8Size_pos
    have hsum : byteCount (c :: a) = c.utf8Size + byteCount a := rfl
    rw [List.cons_append, splitOff, if_neg (by omega), hsum, Nat.add_sub_cancel_left, ih]

/-- The last space of a text. -/
theorem rfindSpace_eq_some {cs : List Char} {index : ℕ} (h : rfindSpace cs = some index) :
    ∃ a b, cs = a ++ ' ' :: b ∧ index = byteCount a := by
  rw [rfindSpace] at h
  split_ifs at h with hmem
  obtain rfl := Option.some.inj h
  have hne : cs.rdropWhile (fun c => c != ' ') ≠ [] := by
    intro hnil
    have hall := List.rdropWhile_eq_nil_iff.mp hnil ' ' hmem
    exact absurd hall (by decide)
  have hlast := List.rdropWhile_last_not (fun c => c != ' ') cs hne
  have hspace : (cs.rdropWhile fun c => c != ' ').getLast hne = ' ' := by simpa using hlast
  have hsplit := List.dropLast_append_getLast hne
  rw [hspace] at hsplit
  refine ⟨(cs.rdropWhile fun c => c != ' ').dropLast, cs.rtakeWhile fun c => c != ' ', ?_, rfl⟩
  calc cs = (cs.rdropWhile fun c => c != ' ') ++ cs.rtakeWhile fun c => c != ' ' :=
        (List.rdropWhile_append_rtakeWhile).symm
    _ = ((cs.rdropWhile fun c => c != ' ').dropLast ++ [' ']) ++ cs.rtakeWhile fun c => c != ' ' := by
        rw [hsplit]
    _ = _ := by rw [List.append_assoc, List.singleton_append]

/-! ### Steps -/

namespace Splitting

/-- A remembered break is behind a mark of what is gathered. -/
def Marked (s : Splitting) : Prop :=
  ∀ index, s.lastBreakAt = some index →
    ∃ a m b, s.current = a ++ [m] ++ b ∧ isWhitespace m = false ∧ index = byteCount (a ++ [m])

theorem marked_of_none {s : Splitting} (h : s.lastBreakAt = none) : s.Marked := by
  intro index hindex
  rw [h] at hindex
  exact absurd hindex.symm (Option.some_ne_none index)

theorem isWhitespace_of_isEndMark {c : Char} (h : isEndMark c = true) : isWhitespace c = false := by
  simp only [isEndMark, Bool.or_eq_true, beq_iff_eq] at h
  obtain (((rfl | rfl) | rfl) | rfl) | rfl := h <;> decide

/-- The break that is remembered when a character is pushed is behind a mark, too. -/
theorem marked_breakAt {s : Splitting} (h : s.Marked) (ch : Char) (segments : List (List Char)) :
    (Splitting.mk segments (s.current ++ [ch]) (s.breakAt ch)).Marked := by
  intro index hindex
  simp only [breakAt] at hindex
  split_ifs at hindex with hmark
  · refine ⟨s.current, ch, [], (List.append_nil _).symm, ?_, (Option.some.inj hindex).symm⟩
    obtain hmark | hcomma := (Bool.or_eq_true _ _).mp hmark
    · exact isWhitespace_of_isEndMark hmark
    · obtain rfl := beq_iff_eq.mp ((Bool.and_eq_true _ _).mp hcomma).1
      decide
  · obtain ⟨a, m, b, hcurrent, hm, hindex⟩ := h index hindex
    exact ⟨a, m, b ++ [ch], by rw [hcurrent, List.append_assoc], hm, hindex⟩

/-- What a character does: the text goes on, it is cut behind a mark, or it is cut before a space. -/
inductive Step (s : Splitting) (ch : Char) : Splitting → Prop where
  | goes {lastBreakAt : Option ℕ} : s.markCut ch = none → Step s ch ⟨s.segments, s.current ++ [ch], lastBreakAt⟩
  | mark {a b : List Char} {m : Char} : s.current ++ [ch] = a ++ [m] ++ b → isWhitespace m = false →
    s.markCut ch = some (byteCount (a ++ [m])) →
    Step s ch ⟨pushSegment (a ++ [m]) s.segments, trimStart b, none⟩
  | space {a b : List Char} : s.current ++ [ch] = a ++ ' ' :: b → s.markCut ch = none →
    Step s ch ⟨pushSegment a s.segments, trimStart (' ' :: b), none⟩

/-- **What a character does**, where a remembered break is behind a mark; and it is again. -/
theorem step_push {s : Splitting} (h : s.Marked) (ch : Char) : Step s ch (s.push ch) ∧ (s.push ch).Marked := by
  have hnone : ∀ segments current, (Splitting.mk segments current none).Marked := fun _ _ => marked_of_none rfl
  simp only [push]
  split_ifs with hends hlong
  · have hcut : s.markCut ch = some (byteCount (s.current ++ [ch])) := by
      simp only [markCut]
      rw [if_pos hends]
    exact ⟨.mark (List.append_nil _).symm (isWhitespace_of_isEndMark hends.2) hcut, hnone _ _⟩
  · have hcut : s.markCut ch = s.breakAt ch := by
      simp only [markCut]
      rw [if_neg hends, if_pos hlong]
    cases hbreak : s.breakAt ch with
    | some index =>
      obtain ⟨a, m, b, hcurrent, hm, rfl⟩ := marked_breakAt h ch s.segments index hbreak
      simp only at hcurrent
      rw [hbreak] at hcut
      simp only [cutAt, hcurrent, splitOff_byteCount]
      exact ⟨.mark hcurrent hm hcut, hnone _ _⟩
    | none =>
      rw [hbreak] at hcut
      cases hspace : rfindSpace (s.current ++ [ch]) with
      | some index =>
        obtain ⟨a, b, hcurrent, rfl⟩ := rfindSpace_eq_some hspace
        simp only [cutAt, hcurrent, splitOff_byteCount]
        exact ⟨.space hcurrent hcut, hnone _ _⟩
      | none => exact ⟨.goes hcut, hnone _ _⟩
  · have hcut : s.markCut ch = none := by
      simp only [markCut]
      rw [if_neg hends, if_neg hlong]
    exact ⟨.goes hcut, marked_breakAt h ch s.segments⟩

theorem marked_behind (front : List Char) : (behind front).Marked := by
  induction front using List.reverseRecOn with
  | nil => exact marked_of_none rfl
  | append_singleton front ch ih =>
    rw [behind, List.foldl_append, List.foldl_cons, List.foldl_nil]
    exact (step_push ih ch).2

/-! ### What is gathered -/

/-- What is gathered of a part of the text: the segments, and behind them the current text with its leading space or
without it. -/
inductive Open : List Char → List (List Char) → List Char → Prop where
  | first {current : List Char} : Open current [] current
  | spaced {segments : List (List Char)} {current : List Char} : segments ≠ [] →
    Open (joined segments ++ ' ' :: current) segments (' ' :: current)
  | trimmed {segments : List (List Char)} {current : List Char} : segments ≠ [] →
    Open (joined segments ++ ' ' :: current) segments current

/-- The part of the text is gathered, and where all of it is cut off, it is before a space. -/
inductive Gathered (back : List Char) : List Char → Splitting → Prop where
  | gathers {front : List Char} {s : Splitting} : Open front s.segments s.current → Gathered back front s
  | cut {s : Splitting} : s.segments ≠ [] → s.current = [] → (∀ c ∈ back.head?, c = ' ') →
    Gathered back (joined s.segments) s

/-- The character is gathered. -/
theorem Gathered.push {front back : List Char} {s : Splitting} {ch : Char} (h : Gathered (ch :: back) front s) :
    Open (front ++ [ch]) s.segments (s.current ++ [ch]) := by
  obtain ⟨hopen⟩ | ⟨hsegments, hcurrent, hspace⟩ := h
  · obtain ⟨segments, current, lastBreakAt⟩ := s
    cases hopen with
    | first => exact .first
    | spaced hne =>
      rw [List.append_assoc, List.cons_append]
      exact .spaced hne
    | trimmed hne =>
      rw [List.append_assoc, List.cons_append]
      exact .trimmed hne
  · obtain rfl := hspace ch rfl
    rw [hcurrent]
    exact .spaced hsegments

/-- A part of a text with single spaces: where it is cut behind a character that is no space, the segments are as far as
the cut. -/
theorem Open.cut {front back a b : List Char} {segments : List (List Char)} {m : Char}
    (h : Open front segments (a ++ [m] ++ b)) (hm : isWhitespace m = false) (hspaced : SingleSpaced (front ++ back)) :
    ∃ segment, pushSegment (a ++ [m]) segments = segments ++ [segment] ∧
      front = joined (segments ++ [segment]) ++ b := by
  have hself : ∀ a : List Char, (∀ c ∈ (a ++ [m]).head?, isWhitespace c = false) → trimChars (a ++ [m]) = a ++ [m] := by
    intro a hstarts
    refine trimChars_eq_self hstarts fun c hc => ?_
    rw [List.getLast?_concat] at hc
    rw [← Option.some.inj hc, hm]
  have hpush : ∀ piece segment : List Char, trimChars piece = segment → segment ≠ [] →
      pushSegment piece segments = segments ++ [segment] := by
    rintro piece _ rfl hne
    rw [pushSegment, if_neg hne]
  have hne : ∀ a : List Char, a ++ [m] ≠ [] := fun a => by simp
  have hhead : ∀ (a rest : List Char), ∀ c ∈ (a ++ [m]).head?, c ∈ (a ++ [m] ++ rest).head? := by
    intro a rest c hc
    rwa [List.head?_append_of_ne_nil _ (hne a)]
  generalize hcurrent : a ++ [m] ++ b = current at h
  cases h with
  | first =>
    subst hcurrent
    refine ⟨a ++ [m], hpush _ _ (hself a fun c hc => hspaced.starts c ?_) (hne a), ?_⟩
    · rw [List.append_assoc]
      exact hhead a (b ++ back) c hc
    · rw [List.nil_append, joined_singleton]
  | @spaced _ current hsegments =>
    obtain _ | ⟨d, a⟩ := a
    · obtain rfl : m = ' ' := (List.cons.inj hcurrent).1
      exact Bool.noConfusion (isWhitespace_space.symm.trans hm)
    · rw [List.cons_append, List.cons_append] at hcurrent
      obtain ⟨rfl, rfl⟩ := List.cons.inj hcurrent
      rw [List.append_assoc, List.cons_append] at hspaced
      refine ⟨a ++ [m], hpush _ _ ?_ (hne a), ?_⟩
      · rw [List.cons_append, trimChars_space_cons]
        refine hself a fun c hc => hspaced.of_space c ?_
        rw [List.append_assoc]
        exact hhead a (b ++ back) c hc
      · rw [joined_concat hsegments, List.append_assoc (joined segments), List.cons_append]
  | trimmed hsegments =>
    subst hcurrent
    rw [List.append_assoc, List.cons_append] at hspaced
    refine ⟨a ++ [m], hpush _ _ (hself a fun c hc => hspaced.of_space c ?_) (hne a), ?_⟩
    · rw [List.append_assoc]
      exact hhead a (b ++ back) c hc
    · rw [joined_concat hsegments, List.append_assoc (joined segments), List.cons_append]

/-- What is not cut off yet is the end of the text. -/
theorem Open.suffix {front current : List Char} {segments : List (List Char)} (h : Open front segments current) :
    current <:+ front := by
  cases h with
  | first => exact List.suffix_refl _
  | spaced _ => exact List.suffix_append _ _
  | trimmed _ => exact (List.suffix_cons _ _).trans (List.suffix_append _ _)

/-- What is left is before the text that follows: a cut before a space gives the space up. -/
theorem Gathered.of_cut {front back b : List Char} {segments : List (List Char)} (hne : segments ≠ [])
    (hfront : front = joined segments ++ b) (hspaced : SingleSpaced (front ++ back))
    (hb : ∀ c ∈ (b ++ back).head?, c = ' ') : Gathered back front ⟨segments, trimStart b, none⟩ := by
  obtain _ | ⟨d, b⟩ := b
  · rw [List.append_nil] at hfront
    subst hfront
    exact Gathered.cut (s := ⟨segments, [], none⟩) hne rfl hb
  · obtain rfl := hb d rfl
    subst hfront
    rw [List.append_assoc, List.cons_append] at hspaced
    have htrim : trimStart (' ' :: b) = b := by
      rw [trimStart, List.dropWhile_cons_of_pos isWhitespace_space]
      cases b with
      | nil => rfl
      | cons c b => exact List.dropWhile_cons_of_neg (by rw [hspaced.of_space c rfl]; exact Bool.false_ne_true)
    rw [htrim]
    exact .gathers (.trimmed hne)

/-- **A step gathers its character**, unless it cuts a word. -/
theorem Gathered.step {front back : List Char} {s : Splitting} {ch : Char} (h : Gathered (ch :: back) front s)
    (hmarked : s.Marked) (hspaced : SingleSpaced (front ++ ch :: back)) (hcuts : ¬ s.CutsWord ch back) :
    Gathered back (front ++ [ch]) (s.push ch) := by
  have hopen := h.push
  have hspaced : SingleSpaced (front ++ [ch] ++ back) := by rwa [List.append_assoc, List.singleton_append]
  obtain ⟨hstep, -⟩ := step_push hmarked ch
  generalize s.push ch = next at hstep
  cases hstep with
  | goes _ => exact .gathers hopen
  | @mark a b m hcurrent hm hcut =>
    rw [hcurrent] at hopen
    obtain ⟨segment, hpush, hfront⟩ := hopen.cut hm hspaced
    rw [hpush]
    refine .of_cut (by simp) hfront hspaced fun c hc => ?_
    by_contra hne
    refine hcuts ⟨_, hcut, c, ?_, hne⟩
    rw [hcurrent, splitOff_byteCount]
    exact hc
  | @space a b hcurrent _ =>
    rw [hcurrent] at hopen
    have hb : ∀ c ∈ (' ' :: b ++ back).head?, c = ' ' := fun c hc => (Option.some.inj hc).symm
    obtain rfl | ⟨a, m, rfl⟩ := List.eq_nil_or_concat' a
    · -- nothing but the leading space is given up
      have hpush : pushSegment [] s.segments = s.segments := if_pos rfl
      rw [List.nil_append] at hopen
      rw [hpush]
      generalize hfront : front ++ [ch] = front' at hopen hspaced ⊢
      generalize s.segments = segments at hopen ⊢
      generalize hcurrent : ' ' :: b = current at hopen
      cases hopen with
      | first =>
        subst hcurrent
        exact absurd rfl (ne_space_of_isWhitespace (hspaced.starts ' ' rfl))
      | spaced hne =>
        obtain rfl := (List.cons.inj hcurrent).2
        exact .of_cut hne rfl hspaced hb
      | trimmed hne =>
        subst hcurrent
        exact absurd (by simp) (hspaced.apart (joined segments) (b ++ back))
    · have hm : isWhitespace m = false := by
        rw [Bool.eq_false_iff]
        intro hwhite
        obtain ⟨lead, hlead⟩ := hopen.suffix
        obtain rfl := hspaced.spaces m (by rw [← hlead]; simp) hwhite
        exact hspaced.apart (lead ++ a) (b ++ back) (by rw [← hlead]; simp)
      obtain ⟨segment, hpush, hfront⟩ := hopen.cut hm hspaced
      rw [hpush]
      exact .of_cut (by simp) hfront hspaced hb

/-! ### Segments -/

/-- A piece gives a segment, trimmed, unless it is blank. -/
theorem pushSegment_cases (piece : List Char) (segments : List (List Char)) :
    (∀ c ∈ piece, isWhitespace c = true) ∧ pushSegment piece segments = segments ∨
      ∃ segment, (segment ≠ [] ∧ trimChars segment = segment) ∧ pushSegment piece segments = segments ++ [segment] := by
  rw [pushSegment]
  split_ifs with hblank
  · exact .inl ⟨(trimChars_eq_nil_iff piece).mp hblank, rfl⟩
  · exact .inr ⟨trimChars piece, ⟨hblank, trimChars_trimChars piece⟩, rfl⟩

/-- What a step cuts off, if it does, and what it leaves. -/
theorem Step.pieces {s next : Splitting} {ch : Char} (h : Step s ch next) :
    (next.segments = s.segments ∧ next.current = s.current ++ [ch]) ∨
      ∃ piece rest, s.current ++ [ch] = piece ++ rest ∧ next.segments = pushSegment piece s.segments ∧
        next.current = trimStart rest := by
  cases h with
  | goes _ => exact .inl ⟨rfl, rfl⟩
  | mark hcurrent _ _ => exact .inr ⟨_, _, hcurrent, rfl, rfl⟩
  | space hcurrent _ => exact .inr ⟨_, _, hcurrent, rfl, rfl⟩

/-- **The loop only adds segments**, each trimmed and not empty; and it adds one, if there is anything to be said. -/
theorem exists_more (back : List Char) :
    ∀ s : Splitting, s.Marked →
      ∃ more, (back.foldl push s).finish = s.segments ++ more ∧ (∀ w ∈ more, w ≠ [] ∧ trimChars w = w) ∧
        ((∃ c ∈ s.current ++ back, isWhitespace c = false) → more ≠ []) := by
  have hpiece : ∀ (piece rest : List Char) (segments out more : List (List Char)),
      out = pushSegment piece segments ++ more → (∀ w ∈ more, w ≠ [] ∧ trimChars w = w) →
      ((∃ c ∈ rest, isWhitespace c = false) → more ≠ []) →
      ∃ more', out = segments ++ more' ∧ (∀ w ∈ more', w ≠ [] ∧ trimChars w = w) ∧
        ((∃ c ∈ piece ++ rest, isWhitespace c = false) → more' ≠ []) := by
    rintro piece rest segments _ more rfl hmore hsome
    obtain ⟨hblank, hpush⟩ | ⟨segment, hsegment, hpush⟩ := pushSegment_cases piece segments
    · refine ⟨more, by rw [hpush], hmore, fun ⟨c, hc, hword⟩ => hsome ⟨c, ?_, hword⟩⟩
      obtain hc | hc := List.mem_append.mp hc
      · exact Bool.noConfusion (hword.symm.trans (hblank c hc))
      · exact hc
    · refine ⟨segment :: more, by rw [hpush, List.append_assoc, List.singleton_append], ?_,
        fun _ => List.cons_ne_nil segment more⟩
      intro w hw
      obtain rfl | hw := List.mem_cons.mp hw
      · exact hsegment
      · exact hmore w hw
  induction back with
  | nil =>
    intro s _
    exact hpiece s.current [] s.segments _ [] (List.append_nil _).symm (fun w hw => absurd hw List.not_mem_nil)
      fun ⟨c, hc, _⟩ => absurd hc List.not_mem_nil
  | cons ch back ih =>
    intro s hmarked
    obtain ⟨hstep, hnext⟩ := step_push hmarked ch
    obtain ⟨more, hfinish, hmore, hsome⟩ := ih (s.push ch) hnext
    rw [List.foldl_cons]
    have hall : s.current ++ ch :: back = s.current ++ [ch] ++ back := by rw [List.append_assoc, List.singleton_append]
    rw [hall]
    obtain ⟨hsegments, hcurrent⟩ | ⟨piece, rest, hsplit, hsegments, hcurrent⟩ := hstep.pieces
    · rw [hsegments] at hfinish
      rw [hcurrent] at hsome
      exact ⟨more, hfinish, hmore, hsome⟩
    · rw [hsegments] at hfinish
      rw [hcurrent] at hsome
      rw [hsplit, List.append_assoc]
      refine hpiece piece (rest ++ back) s.segments _ more hfinish hmore fun ⟨c, hc, hword⟩ => hsome ⟨c, ?_, hword⟩
      obtain hc | hc := List.mem_append.mp hc
      · exact List.mem_append_left _ (mem_dropWhile_isWhitespace hc hword)
      · exact List.mem_append_right _ hc

/-! ### The text -/

section

variable {text : List Char}

theorem behind_concat (front : List Char) (ch : Char) : behind (front ++ [ch]) = (behind front).push ch := by
  rw [behind, List.foldl_append, List.foldl_cons, List.foldl_nil, behind]

/-- **As long as no word is cut, the text is gathered.** -/
theorem gathered_behind (hspaced : SingleSpaced text) (front : List Char) :
    ∀ back, text = front ++ back →
      (∀ front' ch back', text = front' ++ ch :: back' → front'.length < front.length →
        ¬ (behind front').CutsWord ch back') →
      Gathered back front (behind front) := by
  induction front using List.reverseRecOn with
  | nil => exact fun _ _ _ => .gathers .first
  | append_singleton front ch ih =>
    intro back htext hcuts
    rw [List.append_assoc, List.singleton_append] at htext
    have hbefore := ih (ch :: back) htext fun front' ch' back' h hlt => hcuts front' ch' back' h (by simp; omega)
    rw [behind_concat]
    refine hbefore.step (marked_behind front) (htext ▸ hspaced) (hcuts front ch back htext ?_)
    rw [List.length_append, List.length_singleton]
    exact Nat.lt_succ_self _

/-- What is gathered of the whole text is the text. -/
theorem Gathered.joined_finish (hspaced : SingleSpaced text) (hne : text ≠ []) {s : Splitting} (h : Gathered [] text s) :
    joined s.finish = text := by
  obtain ⟨hopen⟩ | ⟨hsegments, hcurrent, -⟩ := h
  · obtain hnil | ⟨a, m, hlast⟩ := List.eq_nil_or_concat' s.current
    · -- the text does not end with a space
      rw [hnil] at hopen
      generalize s.segments = segments at hopen
      generalize hcurrent : ([] : List Char) = current at hopen
      cases hopen with
      | first => exact absurd hcurrent.symm hne
      | spaced _ => exact absurd hcurrent (List.cons_ne_nil _ _).symm
      | trimmed _ =>
        subst hcurrent
        have hlast := hspaced.ends ' ' (by rw [List.getLast?_concat]; rfl)
        exact absurd rfl (ne_space_of_isWhitespace hlast)
    · have hm : isWhitespace m = false := by
        obtain ⟨lead, hlead⟩ := hopen.suffix
        refine hspaced.ends m ?_
        rw [← hlead, hlast, ← List.append_assoc, List.getLast?_concat]
        rfl
      rw [hlast, ← List.append_nil (a ++ [m])] at hopen
      rw [← List.append_nil text] at hspaced
      obtain ⟨segment, hpush, htext⟩ := hopen.cut hm hspaced
      have hfinish : s.finish = s.segments ++ [segment] := by rw [finish, hlast, hpush]
      rw [hfinish]
      exact (htext.trans (List.append_nil _)).symm
  · have hpush : s.finish = s.segments := by
      rw [finish, hcurrent]
      exact if_pos rfl
    rw [hpush]

/-- Where a word is cut, the segments are not the text any more. -/
theorem joined_finish_ne_of_cutsWord (hspaced : SingleSpaced text) {front back : List Char} {ch : Char}
    (htext : text = front ++ ch :: back) (h : Gathered (ch :: back) front (behind front))
    (hcuts : (behind front).CutsWord ch back) : joined (behind text).finish ≠ text := by
  obtain ⟨index, hcut, c, hc, hne⟩ := hcuts
  have hopen := h.push
  have hsplit : text = front ++ [ch] ++ back := by rw [htext, List.append_assoc, List.singleton_append]
  obtain ⟨hstep, hmarked⟩ := step_push (marked_behind front) ch
  have hrun : behind text = back.foldl push ((behind front).push ch) := by
    rw [hsplit, behind, List.foldl_append, List.foldl_append, List.foldl_cons, List.foldl_nil, behind]
  rw [hrun]
  generalize (behind front).push ch = next at hstep hmarked ⊢
  cases hstep with
  | goes hnone => exact absurd (hnone.symm.trans hcut) (Option.some_ne_none index).symm
  | space _ hnone => exact absurd (hnone.symm.trans hcut) (Option.some_ne_none index).symm
  | @mark a b m hcurrent hm hmark =>
    obtain rfl := Option.some.inj (hmark.symm.trans hcut)
    rw [hcurrent, splitOff_byteCount] at hc
    rw [hcurrent] at hopen
    obtain ⟨segment, hpush, hfront⟩ := hopen.cut hm (hsplit ▸ hspaced)
    obtain ⟨more, hfinish, -, hsome⟩ := exists_more back _ hmarked
    -- something is said behind the cut
    have hword : isWhitespace c = false := by
      rw [Bool.eq_false_iff]
      intro hwhite
      refine hne (hspaced.spaces c ?_ hwhite)
      rw [hsplit, hfront, List.append_assoc]
      exact List.mem_append_right _ (List.mem_of_mem_head? hc)
    have hmore : more ≠ [] := by
      refine hsome ⟨c, ?_, hword⟩
      obtain hc | hc := List.mem_append.mp (List.mem_of_mem_head? hc)
      · exact List.mem_append_left _ (mem_dropWhile_isWhitespace hc hword)
      · exact List.mem_append_right _ hc
    intro hjoined
    rw [hfinish, hpush, joined_append (by simp) hmore] at hjoined
    have hboth : joined ((behind front).segments ++ [segment]) ++ ' ' :: joined more =
        joined ((behind front).segments ++ [segment]) ++ (b ++ back) := by
      rw [hjoined, ← List.append_assoc, ← hfront]
      exact hsplit
    have hrest : ' ' :: joined more = b ++ back := List.append_cancel_left hboth
    rw [← hrest] at hc
    exact hne (Option.some.inj hc).symm

/-- **The segments of a text with single spaces are the text unless a word is cut.** -/
theorem joined_finish_eq_iff (hspaced : SingleSpaced text) (hne : text ≠ []) :
    joined (behind text).finish = text ↔
      ∀ front ch back, text = front ++ ch :: back → ¬ (behind front).CutsWord ch back := by
  constructor
  · intro hjoined front
    -- the first word that is cut is cut of a text that is gathered as far as there
    induction hlength : front.length using Nat.strong_induction_on generalizing front with
    | _ n ih =>
      intro ch back htext hcuts
      have hgathered := gathered_behind hspaced front (ch :: back) htext fun front' ch' back' h hlt =>
        ih front'.length (hlength ▸ hlt) front' rfl ch' back' h
      exact joined_finish_ne_of_cutsWord hspaced htext hgathered hcuts hjoined
  · intro hcuts
    refine Gathered.joined_finish hspaced hne (gathered_behind hspaced text [] (List.append_nil text).symm ?_)
    exact fun front ch back h _ => hcuts front ch back h

end

end Splitting

/-! ### The function -/

theorem toList_intercalate (words : List String) :
    (String.intercalate " " words).toList = joined (words.map String.toList) := by
  induction words with
  | nil => rfl
  | cons w words ih =>
    cases words with
    | nil => rw [String.intercalate_singleton, List.map_singleton, joined_singleton]
    | cons v words =>
      have hne : (v :: words).map String.toList ≠ [] := List.cons_ne_nil _ _
      have hcons : (w :: v :: words).map String.toList = w.toList :: (v :: words).map String.toList := rfl
      rw [String.intercalate_cons_cons, String.toList_append, String.toList_append, ih, hcons, joined_cons _ hne,
        List.append_assoc]
      rfl

/-- The words of a text have no white space, and a text that is not blank has some. -/
theorem normalizedText_facts (text : String) :
    SingleSpaced (normalizedText text).toList ∧ ((normalizedText text).toList = [] ↔ IsBlank text) := by
  obtain ⟨hparts, hsome⟩ := splitOnP_parts isWhitespace text.toList
  have hwords : ∀ w ∈ (splitWhitespace text).map String.toList,
      w ≠ [] ∧ ∀ c ∈ w, c ∈ text.toList ∧ isWhitespace c = false := by
    intro w hw
    simp only [splitWhitespace, List.map_map, List.mem_map, List.mem_filter, Function.comp_apply] at hw
    obtain ⟨part, ⟨hpart, hne⟩, rfl⟩ := hw
    rw [String.toList_ofList]
    exact ⟨by simpa using hne, hparts part hpart⟩
  obtain ⟨hspaced, hnonempty⟩ := singleSpaced_joined fun w hw => ⟨(hwords w hw).1, fun c hc => ((hwords w hw).2 c hc).2⟩
  rw [normalizedText, toList_intercalate]
  refine ⟨hspaced, fun hnil => (isBlank_iff text).mpr fun c hc => ?_, fun hblank => ?_⟩
  · by_contra hword
    obtain ⟨part, hpart, hne⟩ := hsome ⟨c, hc, by simpa using hword⟩
    have hnone : (splitWhitespace text).map String.toList = [] := by
      by_contra hwords
      exact hnonempty hwords hnil
    have hmem : part ∈ (splitWhitespace text).map String.toList := by
      simp only [splitWhitespace, List.map_map, List.mem_map, List.mem_filter, Function.comp_apply]
      exact ⟨part, ⟨hpart, by simpa using hne⟩, String.toList_ofList⟩
    rw [hnone] at hmem
    exact List.not_mem_nil hmem
  · have hnone : (splitWhitespace text).map String.toList = [] := by
      refine List.eq_nil_iff_forall_not_mem.mpr fun w hw => ?_
      obtain ⟨hne, hchars⟩ := hwords w hw
      obtain ⟨c, w, rfl⟩ := List.exists_cons_of_ne_nil hne
      obtain ⟨hc, hword⟩ := hchars c List.mem_cons_self
      exact Bool.noConfusion (((isBlank_iff text).mp hblank c hc).symm.trans hword)
    rw [hnone]
    rfl

/-- **A text is not lost in its segments unless a word is cut behind a mark.** -/
theorem losesNothing_iff (text : String) :
    (¬ IsBlank text → LosesNothing text) ↔
      ∀ front ch back, (normalizedText text).toList = front ++ ch :: back →
        ¬ (Splitting.behind front).CutsWord ch back := by
  obtain ⟨hspaced, hblank⟩ := normalizedText_facts text
  by_cases htext : IsBlank text
  · refine iff_of_true (fun h => absurd htext h) fun front ch back h => ?_
    rw [hblank.mpr htext] at h
    exact absurd h (by simp)
  have hne : (normalizedText text).toList ≠ [] := fun h => htext (hblank.mp h)
  obtain ⟨more, hfinish, hgood, hsome⟩ :=
    Splitting.exists_more (normalizedText text).toList Splitting.start (Splitting.marked_of_none rfl)
  have hmore : more ≠ [] := by
    obtain ⟨c, cs, hcs⟩ := List.exists_cons_of_ne_nil hne
    refine hsome ⟨c, ?_, hspaced.starts c (by rw [hcs]; rfl)⟩
    rw [hcs]
    exact List.mem_append_right _ List.mem_cons_self
  have hfinish : (Splitting.behind (normalizedText text).toList).finish = more := hfinish
  have hsegments : splitTtsText text "sherpa-onnx" = more.map String.ofList := by
    have hnormal : normalizedText text ≠ "" := by
      intro h
      rw [h] at hne
      exact hne rfl
    simp only [splitTtsText]
    rw [if_neg hnormal, if_neg (not_not.mpr rfl), hfinish, if_neg hmore]
  have htoList : (more.map String.ofList).map String.toList = more := by
    rw [List.map_map]
    exact (List.map_congr_left (g := id) fun w _ => String.toList_ofList).trans (List.map_id more)
  rw [← Splitting.joined_finish_eq_iff hspaced hne, hfinish]
  constructor
  · intro h
    have hjoined := congrArg String.toList (h htext).joined
    rwa [hsegments, toList_intercalate, htoList] at hjoined
  · intro hjoined _
    refine ⟨fun s hs => ?_, ?_⟩
    · rw [hsegments] at hs
      obtain ⟨w, hw, rfl⟩ := List.mem_map.mp hs
      obtain ⟨hwne, htrim⟩ := hgood w hw
      refine ⟨fun h => hwne (String.ofList_injective h), ?_⟩
      rw [trim, String.toList_ofList, htrim]
    · rw [← String.toList_inj, hsegments, toList_intercalate, htoList]
      exact hjoined

/-- A number is cut where its point is far enough behind. -/
theorem not_losesNothing : ¬ ∀ text, ¬ IsBlank text → LosesNothing text := by
  intro h
  have hjoined := (h "The number pi is roughly 3.14 as you know." (by decide +kernel)).joined
  exact absurd hjoined (by decide +kernel)


end AgentVoice.Service

import AgentVoice.Callers.CallerId

/-!
# Keys as caller IDs

A key that `normalize_caller_id` has made is a caller ID again, alone, in a URI, or in brackets around either (`Form`). It is
made of the characters of keys, so no stage takes anything off it; but the first stage knows the words for a withheld
number, and what is left of a user part without its other characters may be such a word (`SpellsWithheld`). The forms of
every other key have that key (`normalizeCallerId_of_form`).
-/

namespace AgentVoice.Callers

open AgentVoice.Foundations

/-- The caller IDs that carry a key. -/
inductive Form (key : String) : String → Prop where
  | bare : Form key key
  | sip (host : String) : Form key ("sip:" ++ key ++ "@" ++ host)
  | sips (host params : String) : Form key ("sips:" ++ key ++ "@" ++ host ++ ";" ++ params)
  | tel : Form key ("tel:" ++ key)
  | bracketed {form : String} : Form key form → Form key ("<" ++ form ++ ">")

/-- A character that the host or the parameters begin with. -/
def endsUser (c : Char) : Bool := c == '@' || c == ';' || c == '?'

/-- The caller ID is no bare word for a withheld number, but what a key has a character for spells one: behind blanks,
brackets and a scheme, up to the host or the parameters. -/
def SpellsWithheld (raw : String) : Prop :=
  ¬ Bare raw ∧ ∃ blanks brackets scheme user back : List Char,
    raw.toList = blanks ++ (brackets ++ (scheme ++ (user ++ back))) ∧
      (∀ c ∈ blanks, isWhitespace c = true) ∧ (∀ c ∈ brackets, isBracket c = true) ∧
      String.ofList (lowercaseChars scheme) ∈ schemes ∧ (∀ c ∈ user, endsUser c = false) ∧
      (∀ c ∈ back.head?, endsUser c = true) ∧ isWithheld (user.filter isKeyChar) = true

/-! ### Trimming -/

/-- What is taken off at the end is taken off what stands behind a character that stays. -/
theorem rdropWhile_append_of_last {α : Type*} {p : α → Bool} {front : List α} {last : α} (h : p last = false)
    (back : List α) : (front ++ last :: back).rdropWhile p = front ++ last :: back.rdropWhile p := by
  induction back using List.reverseRecOn with
  | nil => rw [List.rdropWhile_concat_neg _ _ _ (by simp [h]), List.rdropWhile_nil]
  | append_singleton back c ih =>
    rw [← List.cons_append, ← List.append_assoc, List.rdropWhile_concat, List.rdropWhile_concat]
    split_ifs
    · exact ih
    · rw [List.append_assoc, List.cons_append]

/-- The characters that the trimming of a caller ID leaves where it finds them first. -/
def Stays (c : Char) : Prop := isWhitespace c = false ∧ isBracket c = false

theorem stays_of_alphanumeric {c : Char} (h : isAsciiAlphanumeric c = true) : Stays c := by
  simp only [isAsciiAlphanumeric, Bool.or_eq_true, Bool.and_eq_true, decide_eq_true_eq] at h
  constructor
  · rw [Bool.eq_false_iff]
    intro hspace
    simp only [isWhitespace, Bool.or_eq_true, Bool.and_eq_true, decide_eq_true_eq, beq_iff_eq] at hspace
    omega
  · rw [Bool.eq_false_iff]
    intro hbracket
    simp only [isBracket, Bool.or_eq_true, beq_iff_eq] at hbracket
    obtain ((rfl | rfl) | rfl) | rfl := hbracket <;> exact absurd h (by decide)

theorem isWhitespace_of_isBracket {c : Char} (h : isBracket c = true) : isWhitespace c = false := by
  simp only [isBracket, Bool.or_eq_true, beq_iff_eq] at h
  obtain ((rfl | rfl) | rfl) | rfl := h <;> decide

/-- A text behind blanks and brackets, with anything behind it, as far as it is trimmed. -/
theorem trimmed_eq {raw : String} {blanks lead word tail : List Char} (hraw : raw.toList = blanks ++ (lead ++ (word ++ tail)))
    (hblanks : ∀ c ∈ blanks, isWhitespace c = true) (hlead : ∀ c ∈ lead, isBracket c = true) (hne : word ≠ [])
    (hword : ∀ c ∈ word, Stays c) : trimmed raw = word ++ (tail.rdropWhile isWhitespace).rdropWhile isBracket := by
  obtain ⟨front, last, rfl⟩ : ∃ front last, word = front ++ [last] :=
    ⟨_, _, (List.dropLast_append_getLast hne).symm⟩
  have hlast : Stays last := hword last (List.mem_append_right _ List.mem_cons_self)
  -- nothing is taken off at the front but the brackets
  have hstart : ∀ rest, ((blanks ++ (lead ++ (front ++ [last] ++ rest))).dropWhile isWhitespace) =
      lead ++ (front ++ [last] ++ rest) := by
    intro rest
    rw [List.dropWhile_append_of_pos hblanks]
    cases lead with
    | cons c lead =>
      refine List.dropWhile_cons_of_neg ?_
      rw [isWhitespace_of_isBracket (hlead c List.mem_cons_self)]
      exact Bool.false_ne_true
    | nil =>
      cases front with
      | nil => exact List.dropWhile_cons_of_neg (by rw [hlast.1]; exact Bool.false_ne_true)
      | cons c front =>
        exact List.dropWhile_cons_of_neg (by rw [(hword c List.mem_cons_self).1]; exact Bool.false_ne_true)
  have hbrackets : ∀ rest, ((lead ++ (front ++ [last] ++ rest)).dropWhile isBracket) = front ++ [last] ++ rest := by
    intro rest
    rw [List.dropWhile_append_of_pos hlead]
    cases front with
    | nil => exact List.dropWhile_cons_of_neg (by rw [hlast.2]; exact Bool.false_ne_true)
    | cons c front =>
      exact List.dropWhile_cons_of_neg (by rw [(hword c List.mem_cons_self).2]; exact Bool.false_ne_true)
  rw [trimmed, trimChars, trimMatches, hraw, hstart]
  have hspaces : (lead ++ (front ++ [last] ++ tail)).rdropWhile isWhitespace =
      lead ++ (front ++ [last] ++ tail.rdropWhile isWhitespace) := by
    rw [List.append_assoc, List.singleton_append, ← List.append_assoc, rdropWhile_append_of_last hlast.1,
      List.append_assoc, List.append_assoc, List.singleton_append]
  rw [hspaces, hbrackets, List.append_assoc, List.singleton_append, rdropWhile_append_of_last hlast.2, List.append_assoc,
    List.singleton_append]

/-! ### The stages on a key -/

/-- A text of characters that keys are made of. -/
def KeyChars (cs : List Char) : Prop := ∀ c ∈ cs, isKeyChar c = true

theorem stays_of_isKeyChar {c : Char} (h : isKeyChar c = true) : Stays c := by
  simp only [isKeyChar, Bool.or_eq_true, beq_iff_eq] at h
  obtain (((h | rfl) | rfl) | rfl) | rfl := h
  · exact stays_of_alphanumeric h
  all_goals exact ⟨by decide, by decide⟩

/-- A character that no key has. -/
theorem ne_of_isKeyChar {c d : Char} (h : isKeyChar c = true) (hd : isKeyChar d = false) : c ≠ d := by
  rintro rfl
  rw [h] at hd
  exact Bool.noConfusion hd

section

variable {cs tail : List Char}

/-- The user part ends where the host begins. -/
theorem userPart_of_scheme {scheme : List Char} (hscheme : withoutScheme (scheme ++ (cs ++ tail)) = cs ++ tail)
    (hcs : KeyChars cs) (htail : tail = [] ∨ ∃ rest, tail = '@' :: rest) : userPart (scheme ++ (cs ++ tail)) = cs := by
  have hparams : ∀ c ∈ cs, (c != ';' && c != '?') = true := by
    intro c hc
    rw [Bool.and_eq_true, bne_iff_ne, bne_iff_ne]
    exact ⟨ne_of_isKeyChar (hcs c hc) (by decide), ne_of_isKeyChar (hcs c hc) (by decide)⟩
  have huser : ∀ c ∈ cs, (c != '@') = true := fun c hc => bne_iff_ne.mpr (ne_of_isKeyChar (hcs c hc) (by decide))
  have htrim : trimChars cs = cs := by
    rw [trimChars, List.dropWhile_eq_self_iff.mpr, List.rdropWhile_eq_self_iff.mpr]
    · intro hne
      rw [(stays_of_isKeyChar (hcs _ (List.getLast_mem hne))).1]
      exact Bool.false_ne_true
    · intro hlength
      rw [(stays_of_isKeyChar (hcs _ (List.getElem_mem hlength))).1]
      exact Bool.false_ne_true
  rw [userPart, hscheme, withoutParams, List.takeWhile_append_of_pos hparams, List.takeWhile_append_of_pos huser]
  obtain rfl | ⟨rest, rfl⟩ := htail
  · rw [List.takeWhile_nil, List.takeWhile_nil, List.append_nil, htrim]
  · rw [List.takeWhile_cons_of_pos (by decide), List.takeWhile_cons_of_neg (by decide), List.append_nil, htrim]

/-- A colon does not come out of another character. -/
theorem eq_colon_of_toLower {c : Char} (h : c.toLower = ':') : c = ':' := by
  have hnat := toNat_toLower c
  rw [h] at hnat
  refine Char.toNat_inj.mp ?_
  revert hnat
  split_ifs <;> simp <;> omega

/-- A key begins as no scheme does. -/
theorem withoutScheme_of_key (hcs : KeyChars cs) : withoutScheme cs = cs := by
  have hno : ∀ scheme : List Char, ':' ∈ scheme → startsWith (lowercaseChars cs) scheme = false := by
    intro scheme hcolon
    rw [Bool.eq_false_iff]
    intro hstart
    obtain ⟨c, hc, hlower⟩ := List.mem_map.mp ((List.isPrefixOf_iff_prefix.mp hstart).subset hcolon)
    exact ne_of_isKeyChar (hcs c hc) (by decide) (eq_colon_of_toLower hlower)
  rw [withoutScheme]
  simp only [hno "sip:".toList (by decide), hno "sips:".toList (by decide), hno "tel:".toList (by decide),
    Bool.false_eq_true, if_false]

end

/-- The scheme of a URI is taken off, in any case. -/
theorem withoutScheme_of_scheme {scheme : List Char} (hscheme : String.ofList (lowercaseChars scheme) ∈ schemes)
    (hne : scheme ≠ []) (cs : List Char) : withoutScheme (scheme ++ cs) = cs := by
  have hlowered : lowercaseChars (scheme ++ cs) = lowercaseChars scheme ++ lowercaseChars cs := List.map_append
  obtain ⟨name, hname, hs⟩ : ∃ name ∈ schemes, lowercaseChars scheme = name.toList :=
    ⟨_, hscheme, String.toList_ofList.symm⟩
  have hlength : name.toList.length = scheme.length := by
    rw [← hs]
    exact List.length_map _
  have hdrop : ∀ n, name.toList.length = n → (scheme ++ cs).drop n = cs := by
    rintro n rfl
    rw [hlength, List.drop_left]
  rw [withoutScheme, hlowered, hs]
  simp only [schemes, List.mem_cons, List.not_mem_nil, or_false] at hname
  obtain rfl | rfl | rfl | rfl := hname
  · exact absurd (List.eq_nil_of_length_eq_zero hlength.symm) hne
  · exact hdrop 4 rfl
  · exact hdrop 5 rfl
  · exact hdrop 4 rfl

/-- A scheme is not trimmed, and no scheme but the empty one is without a colon. -/
theorem scheme_facts {scheme : List Char} (hscheme : String.ofList (lowercaseChars scheme) ∈ schemes) :
    (∀ c ∈ scheme, Stays c) ∧ (scheme ≠ [] → ':' ∈ scheme) := by
  obtain ⟨name, hname, hs⟩ : ∃ name ∈ schemes, lowercaseChars scheme = name.toList :=
    ⟨_, hscheme, String.toList_ofList.symm⟩
  have hall : (schemes.all fun s => s.toList.all fun c => isAsciiAlphanumeric c || c == ':') = true := by decide
  have hchar : ∀ c ∈ scheme, isAsciiAlphanumeric c = true ∨ c = ':' := by
    intro c hc
    have hmem : c.toLower ∈ name.toList := by
      rw [← hs]
      exact List.mem_map_of_mem hc
    have hlower := List.all_eq_true.mp (List.all_eq_true.mp hall name hname) _ hmem
    rw [Bool.or_eq_true, beq_iff_eq, isAsciiAlphanumeric_toLower] at hlower
    exact hlower.imp_right eq_colon_of_toLower
  refine ⟨fun c hc => ?_, fun hne => ?_⟩
  · obtain halpha | rfl := hchar c hc
    · exact stays_of_alphanumeric halpha
    · exact ⟨by decide, by decide⟩
  · have hcolon : name = "" ∨ ':' ∈ name.toList := by
      simp only [schemes, List.mem_cons, List.not_mem_nil, or_false] at hname
      obtain rfl | rfl | rfl | rfl := hname
      · exact .inl rfl
      all_goals exact .inr (by decide)
    obtain rfl | hcolon := hcolon
    · exact absurd (List.map_eq_nil_iff.mp hs) hne
    · rw [← hs] at hcolon
      obtain ⟨c, hc, hlower⟩ := List.mem_map.mp hcolon
      exact eq_colon_of_toLower hlower ▸ hc

/-- What is taken off is a scheme. -/
theorem exists_scheme (cs : List Char) :
    ∃ scheme, String.ofList (lowercaseChars scheme) ∈ schemes ∧ cs = scheme ++ withoutScheme cs := by
  have htake : ∀ (name : String) (n : ℕ), startsWith (lowercaseChars cs) name.toList = true → name.toList.length = n →
      String.ofList (lowercaseChars (cs.take n)) = name := by
    rintro name _ hstart rfl
    have hprefix := List.isPrefixOf_iff_prefix.mp hstart
    rw [lowercaseChars, List.map_take, ← lowercaseChars, ← List.prefix_iff_eq_take.mp hprefix, String.ofList_toList]
  rw [withoutScheme]
  split_ifs with hsip hsips htel
  · exact ⟨cs.take 4, by rw [htake "sip:" 4 hsip rfl]; decide, (List.take_append_drop 4 cs).symm⟩
  · exact ⟨cs.take 5, by rw [htake "sips:" 5 hsips rfl]; decide, (List.take_append_drop 5 cs).symm⟩
  · exact ⟨cs.take 4, by rw [htake "tel:" 4 htel rfl]; decide, (List.take_append_drop 4 cs).symm⟩
  · exact ⟨[], by decide, rfl⟩

/-! ### Forms of a key -/

/-- A form is the key behind a scheme and before a host, in brackets. -/
theorem Form.spelled {key form : String} (h : Form key form) :
    ∃ lead scheme tail closing, form.toList = lead ++ (scheme ++ key.toList ++ (tail ++ closing)) ∧
      (∀ c ∈ lead, c = '<') ∧ (∀ c ∈ closing, c = '>') ∧ String.ofList (lowercaseChars scheme) ∈ schemes ∧
      (tail = [] ∨ scheme ≠ [] ∧ ∃ rest, tail = '@' :: rest) := by
  have hnone : ∀ d : Char, ∀ c ∈ ([] : List Char), c = d := fun _ _ hc => absurd hc List.not_mem_nil
  induction h with
  | bare => exact ⟨[], [], [], [], by simp, hnone _, hnone _, by decide, .inl rfl⟩
  | sip host =>
    exact ⟨[], "sip:".toList, '@' :: host.toList, [], by simp, hnone _, hnone _, by decide,
      .inr ⟨by decide, _, rfl⟩⟩
  | sips host params =>
    exact ⟨[], "sips:".toList, '@' :: (host ++ ";" ++ params).toList, [], by simp, hnone _, hnone _, by decide,
      .inr ⟨by decide, _, rfl⟩⟩
  | tel => exact ⟨[], "tel:".toList, [], [], by simp, hnone _, hnone _, by decide, .inl rfl⟩
  | bracketed h ih =>
    obtain ⟨lead, scheme, tail, closing, hform, hlead, hclosing, hscheme, htail⟩ := ih
    refine ⟨'<' :: lead, scheme, tail, closing ++ ['>'], by simp [hform], ?_, ?_, hscheme, htail⟩
    · rintro c (_ | ⟨_, hc⟩)
      · rfl
      · exact hlead c hc
    · intro c hc
      obtain hc | hc := List.mem_append.mp hc
      · exact hclosing c hc
      · exact List.mem_singleton.mp hc

/-- Every stage but the word test leaves a form its key. -/
theorem Form.stages {key form : String} (h : Form key form) (hne : key ≠ "") (hkey : KeyChars key.toList) :
    userPart (trimmed form) = key.toList ∧ (Bare form → isWithheld key.toList = true) := by
  obtain ⟨lead, scheme, tail, closing, hform, hlead, hclosing, hscheme, htail⟩ := h.spelled
  have hkeyne : key.toList ≠ [] := fun hnil => hne (String.toList_inj.mp hnil)
  have hstays : ∀ c ∈ scheme ++ key.toList, Stays c := by
    intro c hc
    obtain hc | hc := List.mem_append.mp hc
    · exact (scheme_facts hscheme).1 c hc
    · exact stays_of_isKeyChar (hkey c hc)
  have htrim := trimmed_eq (List.nil_append _ ▸ hform) (fun _ hc => absurd hc List.not_mem_nil)
    (fun c hc => by rw [hlead c hc]; rfl) (fun hnil => hkeyne (List.append_eq_nil_iff.mp hnil).2) hstays
  -- what is left of the host begins where the host begins
  obtain ⟨rest, hrest, htail⟩ : ∃ rest, ((tail ++ closing).rdropWhile isWhitespace).rdropWhile isBracket = rest ∧
      (rest = [] ∨ scheme ≠ [] ∧ ∃ rest', rest = '@' :: rest') := by
    refine ⟨_, rfl, ?_⟩
    obtain rfl | ⟨hsome, host, rfl⟩ := htail
    · left
      have hspaces : ([] ++ closing).rdropWhile isWhitespace = closing :=
        List.rdropWhile_eq_self_iff.mpr fun hlast => by rw [hclosing _ (List.getLast_mem hlast)]; decide
      rw [hspaces]
      exact List.rdropWhile_eq_nil_iff.mpr fun c hc => by rw [hclosing c hc]; rfl
    · right
      have hstart (back : List Char) (p : Char → Bool) (hp : p '@' = false) :
          ('@' :: back).rdropWhile p = '@' :: back.rdropWhile p := by
        rw [← List.nil_append ('@' :: back), rdropWhile_append_of_last hp, List.nil_append]
      refine ⟨hsome, ((host ++ closing).rdropWhile isWhitespace).rdropWhile isBracket, ?_⟩
      rw [List.cons_append, hstart _ _ (by decide), hstart _ _ (by decide)]
  rw [hrest] at htrim
  rw [List.append_assoc] at htrim
  by_cases hbare : scheme = []
  · subst hbare
    obtain rfl | ⟨hsome, -⟩ := htail
    · have htrim : trimmed form = [] ++ (key.toList ++ []) := htrim
      have hself : withoutScheme ([] ++ (key.toList ++ [])) = key.toList ++ [] := by
        rw [List.nil_append, List.append_nil]
        exact withoutScheme_of_key hkey
      refine ⟨by rw [htrim, userPart_of_scheme hself hkey (.inl rfl)], fun h => ?_⟩
      rw [Bare, htrim, List.nil_append, List.append_nil] at h
      exact h
    · exact absurd rfl hsome
  · refine ⟨?_, fun h => ?_⟩
    · rw [htrim, userPart_of_scheme (withoutScheme_of_scheme hscheme hbare _) hkey (htail.imp_right And.right)]
    · -- no word has a colon
      have hcolon := (scheme_facts hscheme).2 hbare
      have hletter := isAsciiAlphanumeric_of_isWithheld h ':' (htrim ▸ List.mem_append_left _ hcolon)
      exact absurd hletter (by decide)

/-- **A key that is no word for a withheld number is the key of each of its forms.** -/
theorem normalizeCallerId_of_form {key form : String} (h : Form key form) (hne : key ≠ "") (hkey : KeyChars key.toList)
    (hword : ¬ isWithheld key.toList = true) : normalizeCallerId form = some key := by
  obtain ⟨huser, hbare⟩ := h.stages hne hkey
  refine normalizeCallerId_eq_some_iff.mpr ⟨fun h => hword (hbare h), hne, ?_⟩
  rw [huser, List.filter_eq_self.mpr hkey, String.ofList_toList]

/-- A key is not empty and made of the characters of keys. -/
theorem keyChars_of_normalizeCallerId {raw key : String} (h : normalizeCallerId raw = some key) :
    key ≠ "" ∧ KeyChars key.toList := by
  obtain ⟨-, hne, rfl⟩ := normalizeCallerId_eq_some_iff.mp h
  refine ⟨hne, fun c hc => ?_⟩
  rw [String.toList_ofList] at hc
  exact (List.mem_filter.mp hc).2

/-- A word for a withheld number has no key. -/
theorem normalizeCallerId_of_isWithheld {key : String} (hne : key ≠ "") (hkey : KeyChars key.toList)
    (hword : isWithheld key.toList = true) : normalizeCallerId key = none := by
  have hbare : Bare key := by
    have hself : key.toList = [] ++ ([] ++ (key.toList ++ [])) := by
      rw [List.append_nil, List.nil_append, List.nil_append]
    have hnone : ∀ p : Char → Bool, ∀ c ∈ ([] : List Char), p c = true := fun _ _ hc => absurd hc List.not_mem_nil
    have htrim := trimmed_eq hself (hnone _) (hnone _)
      (fun hnil => hne (String.toList_inj.mp hnil)) fun c hc => stays_of_isKeyChar (hkey c hc)
    rw [Bare, htrim]
    simpa using hword
  cases h : normalizeCallerId key with
  | none => rfl
  | some _ => exact absurd hbare (normalizeCallerId_eq_some_iff.mp h).1

/-! ### What the key is made of -/

/-- The characters of a key up to the host. -/
def keptOf (cs : List Char) : List Char := (cs.takeWhile fun c => !endsUser c).filter isKeyChar

theorem keptOf_append_of_front {junk : List Char} (h : ∀ c ∈ junk, endsUser c = false ∧ isKeyChar c = false)
    (cs : List Char) : keptOf (junk ++ cs) = keptOf cs := by
  have hjunk : junk.filter isKeyChar = [] := List.filter_eq_nil_iff.mpr fun c hc => by simp [(h c hc).2]
  rw [keptOf, List.takeWhile_append_of_pos fun c hc => by simp [(h c hc).1], List.filter_append, hjunk, List.nil_append,
    keptOf]

theorem keptOf_append_of_back {junk : List Char} (h : ∀ c ∈ junk, isKeyChar c = false) (cs : List Char) :
    keptOf (cs ++ junk) = keptOf cs := by
  have hjunk : (junk.takeWhile fun c => !endsUser c).filter isKeyChar = [] :=
    List.filter_eq_nil_iff.mpr fun c hc => by simp [h c (List.takeWhile_subset _ hc)]
  simp only [keptOf, List.takeWhile_append]
  split_ifs with hall
  · rw [List.filter_append, hjunk, List.append_nil, List.takeWhile_eq_self_iff.mpr]
    intro c hc
    have hself := List.IsPrefix.eq_of_length (List.takeWhile_prefix (l := cs) fun c => !endsUser c) hall
    rw [← hself] at hc
    exact List.mem_takeWhile_imp (p := fun c => !endsUser c) hc
  · rfl

theorem keptOf_rdropWhile {p : Char → Bool} (h : ∀ c, p c = true → isKeyChar c = false) (cs : List Char) :
    keptOf (cs.rdropWhile p) = keptOf cs := by
  have hback : ∀ c ∈ cs.rtakeWhile p, isKeyChar c = false := fun c hc => h c (List.mem_rtakeWhile_imp hc)
  rw [← keptOf_append_of_back hback, List.rdropWhile_append_rtakeWhile]

/-- No word for a withheld number begins as a scheme does. -/
theorem scheme_eq_nil_of_isWithheld {scheme cs : List Char} (hscheme : String.ofList (lowercaseChars scheme) ∈ schemes)
    (hword : isWithheld (keptOf (scheme ++ cs)) = true) : scheme = [] := by
  by_contra hne
  obtain ⟨first, scheme, rfl⟩ := List.exists_cons_of_ne_nil hne
  obtain ⟨name, hname, hs⟩ : ∃ name ∈ schemes, lowercaseChars (first :: scheme) = name.toList :=
    ⟨_, hscheme, String.toList_ofList.symm⟩
  have hfirst : first.toLower = 's' ∨ first.toLower = 't' := by
    simp only [schemes, List.mem_cons, List.not_mem_nil, or_false] at hname
    obtain rfl | rfl | rfl | rfl := hname
    · exact absurd hs (by simp [lowercaseChars])
    · exact .inl (List.cons.inj hs).1
    · exact .inl (List.cons.inj hs).1
    · exact .inr (List.cons.inj hs).1
  have halpha : isAsciiAlphanumeric first = true := by
    rw [← isAsciiAlphanumeric_toLower]
    obtain h | h := hfirst <;> rw [h] <;> decide
  have hkept : keptOf (first :: scheme ++ cs) = first :: keptOf (scheme ++ cs) := by
    have hkey : isKeyChar first = true := by rw [isKeyChar, halpha]; rfl
    have hgoes : endsUser first = false := by
      rw [Bool.eq_false_iff]
      intro hends
      simp only [endsUser, Bool.or_eq_true, beq_iff_eq] at hends
      obtain (rfl | rfl) | rfl := hends <;> exact absurd halpha (by decide)
    rw [List.cons_append, keptOf, List.takeWhile_cons_of_pos (by simp [hgoes]), List.filter_cons_of_pos hkey, keptOf]
  obtain ⟨word, hw, hlower⟩ := isWithheld_iff.mp hword
  rw [hkept] at hlower
  have hhead : word.toList.head? = some first.toLower := by rw [← hlower]; rfl
  simp only [withheldWords, List.mem_cons, List.not_mem_nil, or_false] at hw
  obtain h | h := hfirst <;> rw [h] at hhead <;>
    obtain rfl | rfl | rfl | rfl | rfl := hw <;> exact absurd hhead (by decide)

/-- What the trimming takes off is no part of a key and ends no user. -/
theorem trimmed_char {c : Char} (h : isWhitespace c = true ∨ isBracket c = true) :
    endsUser c = false ∧ isKeyChar c = false := by
  constructor
  · rw [Bool.eq_false_iff]
    intro hends
    simp only [endsUser, Bool.or_eq_true, beq_iff_eq] at hends
    obtain (rfl | rfl) | rfl := hends <;> exact absurd h (by decide)
  · rw [Bool.eq_false_iff]
    intro hkey
    have hstays := stays_of_isKeyChar hkey
    rw [hstays.1, hstays.2] at h
    exact h.elim Bool.false_ne_true Bool.false_ne_true

theorem filter_userPart (cs : List Char) : (userPart cs).filter isKeyChar = keptOf (withoutScheme cs) := by
  have hspace : ∀ c, isWhitespace c = true → isKeyChar c = false := fun c hc => (trimmed_char (.inl hc)).2
  have htrim : ∀ user : List Char, (trimChars user).filter isKeyChar = user.filter isKeyChar := by
    intro user
    have hfront : (user.takeWhile isWhitespace).filter isKeyChar = [] :=
      List.filter_eq_nil_iff.mpr fun c hc => by simp [hspace c (List.mem_takeWhile_imp hc)]
    have hback : ((user.dropWhile isWhitespace).rtakeWhile isWhitespace).filter isKeyChar = [] :=
      List.filter_eq_nil_iff.mpr fun c hc => by simp [hspace c (List.mem_rtakeWhile_imp hc)]
    calc (trimChars user).filter isKeyChar
        = (user.dropWhile isWhitespace).filter isKeyChar := by
          conv_rhs => rw [← List.rdropWhile_append_rtakeWhile (p := isWhitespace) (l := user.dropWhile isWhitespace)]
          rw [List.filter_append, hback, List.append_nil, trimChars]
      _ = user.filter isKeyChar := by
          conv_rhs => rw [← List.takeWhile_append_dropWhile (p := isWhitespace) (l := user)]
          rw [List.filter_append, hfront, List.nil_append]
  rw [userPart, htrim, withoutParams, List.takeWhile_takeWhile, keptOf]
  congr 2
  funext c
  simp only [endsUser, bne, Bool.not_or, Bool.decide_and, Bool.decide_eq_true, Bool.and_assoc]

/-- What is trimmed off a caller ID. -/
theorem trimmed_split (raw : String) :
    ∃ blanks brackets closing, raw.toList = blanks ++ (brackets ++ (trimmed raw ++ closing)) ∧
      (∀ c ∈ blanks, isWhitespace c = true) ∧ (∀ c ∈ brackets, isBracket c = true) ∧
      ∀ c ∈ closing, isKeyChar c = false := by
  set inner := (raw.toList.dropWhile isWhitespace).rdropWhile isWhitespace with hinner
  refine ⟨raw.toList.takeWhile isWhitespace, inner.takeWhile isBracket,
    (inner.dropWhile isBracket).rtakeWhile isBracket ++ (raw.toList.dropWhile isWhitespace).rtakeWhile isWhitespace,
    ?_, fun c hc => List.mem_takeWhile_imp hc, fun c hc => List.mem_takeWhile_imp hc, fun c hc => ?_⟩
  · have htrimmed : trimmed raw = (inner.dropWhile isBracket).rdropWhile isBracket := rfl
    calc raw.toList = raw.toList.takeWhile isWhitespace ++ raw.toList.dropWhile isWhitespace :=
          List.takeWhile_append_dropWhile.symm
      _ = raw.toList.takeWhile isWhitespace ++ (inner ++ (raw.toList.dropWhile isWhitespace).rtakeWhile isWhitespace) := by
          rw [hinner, List.rdropWhile_append_rtakeWhile]
      _ = _ := by
          conv_lhs => rw [← List.takeWhile_append_dropWhile (p := isBracket) (l := inner)]
          conv_lhs => rw [← List.rdropWhile_append_rtakeWhile (p := isBracket) (l := inner.dropWhile isBracket)]
          simp only [htrimmed, List.append_assoc]
  · obtain hc | hc := List.mem_append.mp hc
    · exact (trimmed_char (.inr (List.mem_rtakeWhile_imp hc))).2
    · exact (trimmed_char (.inl (List.mem_rtakeWhile_imp hc))).2

/-- **A caller ID spells a withheld number if the characters that its key is to be made of are such a word.** -/
theorem spellsWithheld_iff {raw : String} :
    SpellsWithheld raw ↔ ¬ Bare raw ∧ isWithheld ((userPart (trimmed raw)).filter isKeyChar) = true := by
  refine and_congr_right' ?_
  rw [filter_userPart]
  constructor
  · rintro ⟨blanks, brackets, scheme, user, back, hraw, hblanks, hbrackets, hscheme, huser, hback, hword⟩
    have hkept : keptOf (user ++ back) = user.filter isKeyChar := by
      have hstop : back.takeWhile (fun c => !endsUser c) = [] := by
        cases back with
        | nil => rfl
        | cons c back => exact List.takeWhile_cons_of_neg (by simp [hback c rfl])
      rw [keptOf, List.takeWhile_append_of_pos fun c hc => by simp [huser c hc], hstop, List.append_nil]
    by_cases hnil : scheme = []
    · subst hnil
      obtain ⟨blanks', brackets', closing, hraw', hblanks', hbrackets', hclosing⟩ := trimmed_split raw
      have htrimmed : keptOf (trimmed raw) = user.filter isKeyChar := by
        calc keptOf (trimmed raw) = keptOf raw.toList := by
              rw [hraw', keptOf_append_of_front fun c hc => trimmed_char (.inl (hblanks' c hc)),
                keptOf_append_of_front fun c hc => trimmed_char (.inr (hbrackets' c hc)),
                keptOf_append_of_back hclosing]
          _ = user.filter isKeyChar := by
              rw [hraw, keptOf_append_of_front fun c hc => trimmed_char (.inl (hblanks c hc)),
                keptOf_append_of_front fun c hc => trimmed_char (.inr (hbrackets c hc)), List.nil_append, hkept]
      obtain ⟨scheme, hscheme, hsplit⟩ := exists_scheme (trimmed raw)
      rw [← htrimmed] at hword
      have hnil : scheme = [] := by
        rw [hsplit] at hword
        exact scheme_eq_nil_of_isWithheld hscheme hword
      rw [hnil, List.nil_append] at hsplit
      rw [← hsplit]
      exact hword
    · have htrimmed := trimmed_eq hraw hblanks hbrackets hnil (scheme_facts hscheme).1
      rw [htrimmed, withoutScheme_of_scheme hscheme hnil,
        keptOf_rdropWhile fun c hc => (trimmed_char (.inr hc)).2,
        keptOf_rdropWhile fun c hc => (trimmed_char (.inl hc)).2, hkept]
      exact hword
  · intro hword
    obtain ⟨blanks, brackets, closing, hraw, hblanks, hbrackets, hclosing⟩ := trimmed_split raw
    obtain ⟨scheme, hscheme, hsplit⟩ := exists_scheme (trimmed raw)
    obtain ⟨rest, hrest⟩ : ∃ rest, rest = withoutScheme (trimmed raw) ++ closing := ⟨_, rfl⟩
    refine ⟨blanks, brackets, scheme, rest.takeWhile fun c => !endsUser c, rest.dropWhile fun c => !endsUser c, ?_,
      hblanks, hbrackets, hscheme, fun c hc => ?_, fun c hc => ?_, ?_⟩
    · rw [List.takeWhile_append_dropWhile, hrest, ← List.append_assoc scheme, ← hsplit]
      exact hraw
    · have hnot := List.mem_takeWhile_imp (p := fun c => !endsUser c) hc
      exact (Bool.not_eq_true' _).mp hnot
    · have hstop := List.head?_dropWhile_not (fun c => !endsUser c) rest
      rw [hc] at hstop
      exact (Bool.not_eq_false' (b := endsUser c)).mp hstop
    · have hkept := keptOf_append_of_back hclosing (withoutScheme (trimmed raw))
      rw [← hkept, ← hrest] at hword
      exact hword

end AgentVoice.Callers

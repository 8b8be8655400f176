import AgentVoice.Foundations.Lines
import AgentVoice.SigV4.PercentEncoding

/-!
# The canonical query

A query is a list of parameters between `&`, each a name and a value around the first `=`. Its canonical form writes
the name and the value of each with the query's percent encoding, sorts the pairs and joins them again. An encoded name
or value holds neither separator, so that the canonical form is taken apart into the sorted pairs
(`splitOn_canonicalQuery`): its own canonical form is itself, and it says which pairs of bytes the query holds and how
often, and nothing more (`canonicalQuery_eq_iff`).
-/

namespace AgentVoice.SigV4

open AgentVoice.Foundations

/-! ### Splitting and joining -/

/-- The name and the value of a parameter: `pair.split_once('=').unwrap_or((pair, ""))`. -/
def splitPair (pair : List Char) : List Char × List Char := (Lines.takeLine '=' pair).getD (pair, [])

/-- The order of pairs of texts. -/
def pairLe (p q : String × String) : Prop := toLex p ≤ toLex q

instance : DecidableRel pairLe := fun p q => inferInstanceAs (Decidable (toLex p ≤ toLex q))

/-- A parameter with its name and its value encoded. -/
def encodedPair (pair : List Char) : String × String :=
  (percentEncode (utf8 (String.ofList (splitPair pair).1)) false true,
    percentEncode (utf8 (String.ofList (splitPair pair).2)) false true)

/-- `format!("{name}={value}")`. -/
def pairText (p : String × String) : List Char := p.1.toList ++ '=' :: p.2.toList

/-- The parameters of a query that is not empty: `raw_query.split('&')`. -/
def parameters (rawQuery : String) : List (List Char) := rawQuery.toList.splitOn '&'

/-- `canonical_query`. -/
def canonicalQuery (rawQuery : String) : String :=
  if rawQuery.isEmpty then ""
  else
    let pairs := ((parameters rawQuery).map encodedPair).insertionSort pairLe
    String.ofList (['&'].intercalate (pairs.map pairText))

/-- The pairs of bytes that a query holds. -/
def decodedPairs (rawQuery : String) : List (List UInt8 × List UInt8) :=
  if rawQuery.isEmpty then []
  else (parameters rawQuery).map fun pair =>
    (Percent.decode (utf8 (String.ofList (splitPair pair).1)), Percent.decode (utf8 (String.ofList (splitPair pair).2)))

/-! ### The order of the pairs -/

instance : Std.Total pairLe := ⟨fun p q => le_total (toLex p) (toLex q)⟩

instance : IsTrans (String × String) pairLe := ⟨fun p q r => le_trans (a := toLex p) (b := toLex q) (c := toLex r)⟩

instance : Std.Antisymm pairLe := ⟨fun _ _ hpq hqp => toLex.injective (le_antisymm hpq hqp)⟩

/-- Sorting forgets the order of the pairs and nothing else. -/
theorem insertionSort_eq_iff {ps qs : List (String × String)} :
    ps.insertionSort pairLe = qs.insertionSort pairLe ↔ ps.Perm qs := by
  constructor
  · intro h
    have hps := List.perm_insertionSort pairLe ps
    rw [h] at hps
    exact hps.symm.trans (List.perm_insertionSort pairLe qs)
  · intro h
    have hperm := ((List.perm_insertionSort pairLe ps).trans h).trans (List.perm_insertionSort pairLe qs).symm
    exact hperm.eq_of_pairwise' (List.pairwise_insertionSort pairLe ps) (List.pairwise_insertionSort pairLe qs)

/-! ### Encoded names and values -/

/-- What the encoder writes for a byte string in a query. -/
def encodeBytes (bytes : List UInt8) : String :=
  String.ofList ((Percent.encode isUriUnreserved (bytes.map .byte)).map asChar)

theorem percentEncode_eq_encodeBytes (value : List UInt8) :
    percentEncode value false true = encodeBytes (Percent.decode value) := by
  rw [encodeBytes, percentEncode, percentEncodeChars_eq, Percent.normalize, keepsSlash_false, Percent.symbols_of_not_keeps]

theorem encodeBytes_injective : Function.Injective encodeBytes := by
  intro a b h
  have hencode := (List.map_injective_iff.mpr asChar_injective) (String.ofList_injective h)
  have hvalid : ∀ bytes : List UInt8, ∀ s ∈ bytes.map Percent.Symbol.byte, s.Valid (keepsSlash false) := by
    intro bytes s hs
    obtain ⟨c, -, rfl⟩ := List.mem_map.mp hs
    trivial
  have hsymbols := congrArg (Percent.symbols (keepsSlash false)) hencode
  rw [Percent.symbols_encode (readable false) (hvalid a), Percent.symbols_encode (readable false) (hvalid b)] at hsymbols
  exact List.map_injective_iff.mpr (fun _ _ => Percent.Symbol.byte.inj) hsymbols

/-- The encoded pair is made of the decoded bytes. -/
theorem map_encodedPair {rawQuery : String} (h : rawQuery.isEmpty = false) :
    (parameters rawQuery).map encodedPair = (decodedPairs rawQuery).map (Prod.map encodeBytes encodeBytes) := by
  rw [decodedPairs, if_neg (by rw [h]; exact Bool.false_ne_true), List.map_map]
  refine List.map_congr_left fun pair _ => ?_
  rw [encodedPair, percentEncode_eq_encodeBytes, percentEncode_eq_encodeBytes]
  rfl

theorem ampersand_not_mem_percentEncode (value : List UInt8) : '&' ∉ (percentEncode value false true).toList :=
  not_mem_percentEncode (b := 38) (by simp [IsWritten, keepsSlash_false]; decide)

theorem equals_not_mem_percentEncode (value : List UInt8) : '=' ∉ (percentEncode value false true).toList :=
  not_mem_percentEncode (b := 61) (by simp [IsWritten, keepsSlash_false]; decide)

theorem ampersand_not_mem_pairText (pair : List Char) : '&' ∉ pairText (encodedPair pair) := by
  rw [pairText, List.mem_append, List.mem_cons, not_or, not_or]
  exact ⟨ampersand_not_mem_percentEncode _, by decide, ampersand_not_mem_percentEncode _⟩

/-- The text of an encoded pair is taken apart into it. -/
theorem encodedPair_pairText (pair : List Char) : encodedPair (pairText (encodedPair pair)) = encodedPair pair := by
  have hsplit : splitPair (pairText (encodedPair pair)) = ((encodedPair pair).1.toList, (encodedPair pair).2.toList) := by
    rw [splitPair, pairText, encodedPair, Lines.takeLine_append (equals_not_mem_percentEncode _)]
    rfl
  rw [encodedPair, hsplit, String.ofList_toList, String.ofList_toList, encodedPair, percentEncode_percentEncode,
    percentEncode_percentEncode]

/-! ### The canonical query taken apart -/

section

variable {q q' : String}

/-- The sorted pairs of a query. -/
def sortedPairs (q : String) : List (String × String) := ((parameters q).map encodedPair).insertionSort pairLe

theorem canonicalQuery_empty : canonicalQuery "" = "" := rfl

theorem canonicalQuery_of_ne (h : q.isEmpty = false) :
    canonicalQuery q = String.ofList (['&'].intercalate ((sortedPairs q).map pairText)) := by
  rw [canonicalQuery, h]
  rfl

theorem exists_of_mem_sortedPairs {p : String × String} (h : p ∈ sortedPairs q) : ∃ pair, p = encodedPair pair := by
  obtain ⟨pair, -, rfl⟩ := List.mem_map.mp ((List.mem_insertionSort _).mp h)
  exact ⟨pair, rfl⟩

theorem sortedPairs_ne_nil : sortedPairs q ≠ [] := by
  intro h
  have hperm := List.perm_insertionSort pairLe ((parameters q).map encodedPair)
  rw [← sortedPairs, h] at hperm
  exact List.splitOn_ne_nil _ _ (List.map_eq_nil_iff.mp hperm.nil_eq.symm)

/-- **The parameters of the canonical query are the sorted pairs.** -/
theorem parameters_canonicalQuery (h : q.isEmpty = false) :
    parameters (canonicalQuery q) = (sortedPairs q).map pairText := by
  rw [parameters, canonicalQuery_of_ne h, String.toList_ofList]
  refine List.splitOn_intercalate '&' ?_ (by simpa using sortedPairs_ne_nil)
  intro text htext
  obtain ⟨p, hp, rfl⟩ := List.mem_map.mp htext
  obtain ⟨pair, rfl⟩ := exists_of_mem_sortedPairs hp
  exact ampersand_not_mem_pairText pair

theorem parameters_eq_iff : parameters q = [[]] ↔ q = "" := by
  constructor
  · intro h
    have hjoin : ['&'].intercalate (q.toList.splitOn '&') = q.toList := List.intercalate_splitOn '&'
    rw [← parameters, h] at hjoin
    exact String.toList_inj.mp hjoin.symm
  · rintro rfl
    rfl

theorem isEmpty_canonicalQuery (h : q.isEmpty = false) : (canonicalQuery q).isEmpty = false := by
  rw [Bool.eq_false_iff, Ne, String.isEmpty_iff, ← parameters_eq_iff, parameters_canonicalQuery h]
  intro hnil
  obtain ⟨p, -, hp⟩ := List.mem_map.mp (hnil ▸ List.mem_singleton_self [])
  exact List.append_ne_nil_of_right_ne_nil _ (List.cons_ne_nil _ _) hp

theorem map_encodedPair_pairText : ((sortedPairs q).map pairText).map encodedPair = sortedPairs q := by
  rw [List.map_map]
  refine (List.map_congr_left fun p hp => ?_).trans (List.map_id _)
  obtain ⟨pair, rfl⟩ := exists_of_mem_sortedPairs hp
  exact encodedPair_pairText pair

/-- The canonical form of a canonical query is itself. -/
theorem canonicalQuery_canonicalQuery (q : String) : canonicalQuery (canonicalQuery q) = canonicalQuery q := by
  cases h : q.isEmpty with
  | true =>
    rw [String.isEmpty_iff.mp h]
    rfl
  | false =>
    rw [canonicalQuery_of_ne (isEmpty_canonicalQuery h), sortedPairs, parameters_canonicalQuery h,
      map_encodedPair_pairText, sortedPairs,
      (List.pairwise_insertionSort pairLe _).insertionSort_eq, ← sortedPairs, ← canonicalQuery_of_ne h]

theorem canonicalQuery_inj (h : q.isEmpty = false) (h' : q'.isEmpty = false) :
    canonicalQuery q = canonicalQuery q' ↔ sortedPairs q = sortedPairs q' := by
  constructor
  · intro heq
    rw [← map_encodedPair_pairText (q := q), ← parameters_canonicalQuery h, heq, parameters_canonicalQuery h',
      map_encodedPair_pairText]
  · intro heq
    rw [canonicalQuery_of_ne h, heq, ← canonicalQuery_of_ne h']

theorem decodedPairs_ne_nil (h : q.isEmpty = false) : decodedPairs q ≠ [] := by
  rw [decodedPairs, h]
  exact fun hnil => List.splitOn_ne_nil _ _ (List.map_eq_nil_iff.mp hnil)

/-- **Two queries have one canonical form exactly when they hold the same pairs of bytes, each as often.** -/
theorem canonicalQuery_eq_iff : canonicalQuery q = canonicalQuery q' ↔ (decodedPairs q).Perm (decodedPairs q') := by
  cases h : q.isEmpty with
  | true =>
    rw [String.isEmpty_iff.mp h, canonicalQuery_empty, eq_comm, ← String.isEmpty_iff]
    show _ ↔ [].Perm _
    rw [List.nil_perm]
    cases h' : q'.isEmpty with
    | true =>
      rw [String.isEmpty_iff.mp h']
      exact iff_of_true rfl rfl
    | false => exact iff_of_false (by rw [isEmpty_canonicalQuery h']; exact Bool.false_ne_true) (decodedPairs_ne_nil h')
  | false =>
    cases h' : q'.isEmpty with
    | true =>
      rw [String.isEmpty_iff.mp h', canonicalQuery_empty, ← String.isEmpty_iff]
      show _ ↔ List.Perm _ []
      rw [List.perm_nil]
      exact iff_of_false (by rw [isEmpty_canonicalQuery h]; exact Bool.false_ne_true) (decodedPairs_ne_nil h)
    | false =>
      rw [canonicalQuery_inj h h', sortedPairs, sortedPairs, insertionSort_eq_iff, map_encodedPair h, map_encodedPair h']
      exact List.map_perm_map_iff (encodeBytes_injective.prodMap encodeBytes_injective)

/-- The canonical query does not depend on the order of the parameters. -/
theorem canonicalQuery_of_perm (h : (parameters q).Perm (parameters q')) : canonicalQuery q = canonicalQuery q' := by
  rw [canonicalQuery_eq_iff]
  have hempty : q = "" ↔ q' = "" := by
    rw [← parameters_eq_iff, ← parameters_eq_iff]
    constructor
    · intro hq
      rw [hq] at h
      exact List.singleton_perm.mp h |>.symm
    · intro hq
      rw [hq] at h
      exact List.perm_singleton.mp h
  rw [decodedPairs, decodedPairs]
  simp only [String.isEmpty_iff, hempty]
  split_ifs
  · exact .refl _
  · exact h.map _

end

/-! ### Normal forms -/

/-- **The encoder writes normal forms, and so does `canonical_query`.** With valid escapes preserved, encoding is
idempotent and keeps the decoded bytes. Two byte strings are encoded alike in a query exactly when they decode alike,
and in a path exactly when they decode alike with the slashes that delimit kept apart from the escaped ones. The
canonical query is its own canonical query and does not depend on the order of the parameters. -/
theorem percentEncode_normalForm :
    (∀ value preserveSlash,
      percentEncode (utf8 (percentEncode value preserveSlash true)) preserveSlash true =
          percentEncode value preserveSlash true ∧
        Percent.decode (utf8 (percentEncode value preserveSlash true)) = Percent.decode value) ∧
      (∀ a b, percentEncode a false true = percentEncode b false true ↔ Percent.decode a = Percent.decode b) ∧
      (∀ a b, percentEncode a true true = percentEncode b true true ↔
        Percent.symbols (fun c => c == 47) a = Percent.symbols (fun c => c == 47) b) ∧
      (∀ q, canonicalQuery (canonicalQuery q) = canonicalQuery q) ∧
      ∀ q q', (parameters q).Perm (parameters q') → canonicalQuery q = canonicalQuery q' := by
  refine ⟨fun value preserveSlash => ⟨percentEncode_percentEncode value preserveSlash,
    decode_percentEncode value preserveSlash⟩, fun _ _ => percentEncode_query_eq_iff, fun _ _ => ?_,
    canonicalQuery_canonicalQuery, fun _ _ => canonicalQuery_of_perm⟩
  exact percentEncode_eq_iff

theorem canonicalQuery_swapped : canonicalQuery "b=%7e&a" = canonicalQuery "a&b=%7e" :=
  percentEncode_normalForm.2.2.2.2 _ _ (List.Perm.swap _ _ _)

end AgentVoice.SigV4

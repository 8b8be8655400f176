import AgentVoice.SigV4.HeaderNormalization

/-!
# The canonical request is a normal form

A canonical request is taken apart at its line breaks, since none of its parts holds one (`splitOn_canonicalText`). So it
says which method, path, query pairs, normalised headers and payload it was made of and nothing else
(`SameRequest`), and no part can be read as another or as part of two lines. What a caller may present in more than one
way, the order of the headers and of the parameters, the case of the names, the white space of the values, is the
same canonical request (`Presented`).
-/

namespace AgentVoice.SigV4

open AgentVoice.Foundations Relation

/-! ### Requests -/

/-- The components that a request is canonicalised from. -/
structure RequestComponents where
  method : String
  uri : String
  headers : List (String × String)
  payloadSha256 : String

/-- The canonical request of components. -/
def RequestComponents.canonical (r : RequestComponents) : Except SigV4Error String :=
  canonicalRequest r.method r.uri r.headers r.payloadSha256

/-- The query of a URI as it is written. -/
def rawQuery (uri : String) : String := String.ofList (splitUri uri).2

/-- The path of a URI as it is written; the empty path is the root. -/
def rawPath (uri : String) : List Char := if (splitUri uri).1.isEmpty then ['/'] else (splitUri uri).1

/-- The path of a URI in the canonical request. -/
def canonicalPath (uri : String) : String := percentEncode (utf8 (String.ofList (rawPath uri))) true true

/-- The headers of a request with their names and values normalised. -/
def normalizedHeaders (headers : List (String × String)) : List CanonicalHeader :=
  headers.filterMap fun header => (normalizeHeader header).toOption

/-- The headers in the order of the canonical request. -/
def sortedHeaders (headers : List (String × String)) : List CanonicalHeader :=
  (normalizedHeaders headers).insertionSort nameLe

/-- Two presentations of the same headers: in any order, each in any wording. -/
def SameHeaders (headers headers' : List (String × String)) : Prop :=
  ∃ middle, headers.Perm middle ∧ List.Forall₂ Reworded middle headers'

/-- Two presentations of one request. -/
structure Presented (r r' : RequestComponents) : Prop where
  method : r.method = r'.method
  path : (splitUri r.uri).1 = (splitUri r'.uri).1
  query : (parameters (rawQuery r.uri)).Perm (parameters (rawQuery r'.uri))
  headers : SameHeaders r.headers r'.headers
  payload : r.payloadSha256 = r'.payloadSha256

/-- What a canonical request says. -/
structure SameRequest (r r' : RequestComponents) : Prop where
  method : r.method = r'.method
  path : canonicalPath r.uri = canonicalPath r'.uri
  query : (decodedPairs (rawQuery r.uri)).Perm (decodedPairs (rawQuery r'.uri))
  headers : (normalizedHeaders r.headers).Perm (normalizedHeaders r'.headers)
  payload : r.payloadSha256 = r'.payloadSha256

/-! ### Accepted headers -/

/-- The headers that a request must have. -/
structure RequiredHeaders (headers : List CanonicalHeader) (payloadSha256 : String) : Prop where
  host : ∃ header, requiredHeader headers "host" = .ok header ∧ ¬ header.value.isEmpty = true
  payload : ∃ header, requiredHeader headers "x-amz-content-sha256" = .ok header ∧ header.value = payloadSha256
  date : ∃ header, requiredHeader headers "x-amz-date" = .ok header ∧ ∃ date, validateTimestamp header.value = .ok date

section

variable {headers headers' : List (String × String)} {hs : List CanonicalHeader} {payloadSha256 : String}

theorem canonicalHeaders_eq_ok_iff : canonicalHeaders headers payloadSha256 = .ok hs ↔
    ∃ ns, headers.mapM normalizeHeader = .ok ns ∧ hs = ns.insertionSort nameLe ∧ ¬ hasDuplicate hs = true ∧
      RequiredHeaders hs payloadSha256 := by
  constructor
  · intro h
    obtain ⟨ns, hns, h⟩ := bind_eq_ok_iff.mp h
    dsimp only at h
    obtain ⟨⟨⟩, hduplicate, h⟩ := bind_eq_ok_iff.mp h
    obtain ⟨host, hhost, h⟩ := bind_eq_ok_iff.mp h
    obtain ⟨⟨⟩, hempty, h⟩ := bind_eq_ok_iff.mp h
    obtain ⟨payload, hpayload, h⟩ := bind_eq_ok_iff.mp h
    obtain ⟨⟨⟩, hmatch, h⟩ := bind_eq_ok_iff.mp h
    obtain ⟨date, hdate, h⟩ := bind_eq_ok_iff.mp h
    obtain ⟨day, hday, h⟩ := bind_eq_ok_iff.mp h
    obtain rfl := Except.ok.inj h
    exact ⟨ns, hns, rfl, require_eq_ok_iff.mp hduplicate, ⟨host, hhost, require_eq_ok_iff.mp hempty⟩,
      ⟨payload, hpayload, require_eq_ok_iff.mp hmatch⟩, date, hdate, day, hday⟩
  · rintro ⟨ns, hns, rfl, hduplicate, ⟨host, hhost, hempty⟩, ⟨payload, hpayload, hmatch⟩, date, hdate, day, hday⟩
    rw [canonicalHeaders, hns, ok_bind]
    dsimp only
    rw [require_of hduplicate, ok_bind, hhost, ok_bind, require_of hempty, ok_bind, hpayload, ok_bind, require_of hmatch,
      ok_bind, hdate, ok_bind, hday]
    rfl

theorem normalizedHeaders_of_mapM {ns : List CanonicalHeader} (h : headers.mapM normalizeHeader = .ok ns) :
    normalizedHeaders headers = ns := by
  have hall := mapM_eq_ok_iff_forall₂.mp h
  clear h
  induction hall with
  | nil => rfl
  | cons hxy _ ih =>
    rw [normalizedHeaders] at ih ⊢
    rw [List.filterMap_cons_some (by rw [hxy]; rfl), ih]

/-- Sorted names of which no neighbours are equal ascend. -/
theorem names_ascend (hsorted : hs.Pairwise nameLe) (h : ¬ hasDuplicate hs = true) :
    hs.Pairwise fun left right => left.name < right.name := by
  induction hs with
  | nil => exact .nil
  | cons first hs ih =>
    obtain ⟨hfirst, hsorted⟩ := List.pairwise_cons.mp hsorted
    cases hs with
    | nil => exact List.pairwise_singleton _ _
    | cons second hs =>
      have hzip : hasDuplicate (first :: second :: hs) = (first.name == second.name || hasDuplicate (second :: hs)) := rfl
      rw [hzip, Bool.or_eq_true, not_or, beq_iff_eq] at h
      have hascend := ih hsorted h.2
      have hlt : first.name < second.name := lt_of_le_of_ne (hfirst second List.mem_cons_self) h.1
      refine List.pairwise_cons.mpr ⟨fun right hright => ?_, hascend⟩
      rcases List.mem_cons.mp hright with rfl | hright
      · exact hlt
      · exact hlt.trans ((List.pairwise_cons.mp hascend).1 right hright)

theorem nameLe_total : Std.Total nameLe := ⟨fun left right => le_total left.name right.name⟩

theorem nameLe_trans : IsTrans CanonicalHeader nameLe := ⟨fun a b c => le_trans (a := a.name) (b := b.name) (c := c.name)⟩

/-- The names of accepted headers differ. -/
theorem nodup_names {ns : List CanonicalHeader} (h : ¬ hasDuplicate (ns.insertionSort nameLe) = true) :
    (ns.map CanonicalHeader.name).Nodup := by
  have := nameLe_total
  have := nameLe_trans
  have hascend := names_ascend (List.pairwise_insertionSort nameLe ns) h
  have hsorted : ((ns.insertionSort nameLe).map CanonicalHeader.name).Nodup :=
    List.pairwise_map.mpr (hascend.imp fun hlt => ne_of_lt hlt)
  exact ((List.perm_insertionSort nameLe ns).map _).nodup_iff.mp hsorted

/-- Headers whose names differ are sorted in one way. -/
theorem insertionSort_of_perm {ns ns' : List CanonicalHeader} (hnames : (ns.map CanonicalHeader.name).Nodup)
    (h : ns.Perm ns') : ns.insertionSort nameLe = ns'.insertionSort nameLe := by
  have := nameLe_total
  have := nameLe_trans
  have hperm := ((List.perm_insertionSort nameLe ns).trans h).trans (List.perm_insertionSort nameLe ns').symm
  refine hperm.eq_of_pairwise (fun left right hleft hright hle hge => ?_) (List.pairwise_insertionSort nameLe ns)
    (List.pairwise_insertionSort nameLe ns')
  have hright' : right ∈ ns := h.mem_iff.mpr ((List.mem_insertionSort _).mp hright)
  exact List.inj_on_of_nodup_map hnames ((List.mem_insertionSort _).mp hleft) hright' (le_antisymm hle hge)

/-- Headers that are presented otherwise are normalised to the same ones. -/
theorem mapM_of_sameHeaders {ns : List CanonicalHeader} (hsame : SameHeaders headers headers')
    (h : headers.mapM normalizeHeader = .ok ns) : ∃ ns', headers'.mapM normalizeHeader = .ok ns' ∧ ns.Perm ns' := by
  obtain ⟨middle, hperm, hreworded⟩ := hsame
  obtain ⟨ns', hmiddle, hns⟩ := List.perm_comp_forall₂ hperm.symm (mapM_eq_ok_iff_forall₂.mp h)
  refine ⟨ns', mapM_eq_ok_iff_forall₂.mpr ?_, hns.symm⟩
  clear h hperm hns
  induction hreworded generalizing ns' with
  | nil =>
    cases hmiddle
    exact .nil
  | cons hword _ ih =>
    cases hmiddle with
    | cons hnormal hmiddle => exact .cons ((normalizeHeader_of_reworded hword).symm.trans hnormal) (ih _ hmiddle)

/-- Headers that are normalised to the same ones are presentations of one request's headers. -/
theorem sameHeaders_of_perm {ns ns' : List CanonicalHeader} (h : headers.mapM normalizeHeader = .ok ns)
    (h' : headers'.mapM normalizeHeader = .ok ns') (hperm : ns.Perm ns') : SameHeaders headers headers' := by
  obtain ⟨middle, hmiddle, hheaders⟩ := List.perm_comp_forall₂ hperm.symm (mapM_eq_ok_iff_forall₂.mp h).flip
  refine ⟨middle, hheaders.symm, ?_⟩
  have hall := mapM_eq_ok_iff_forall₂.mp h'
  clear h h' hperm hheaders
  induction hmiddle generalizing headers' with
  | nil =>
    cases hall
    exact .nil
  | cons hnormal _ ih =>
    cases hall with
    | cons hnormal' hall => exact .cons (reworded_of_normalizeHeader hnormal hnormal') (ih hall)

theorem canonicalHeaders_of_sameHeaders (hsame : SameHeaders headers headers')
    (h : canonicalHeaders headers payloadSha256 = .ok hs) : canonicalHeaders headers' payloadSha256 = .ok hs := by
  obtain ⟨ns, hns, rfl, hduplicate, hrequired⟩ := canonicalHeaders_eq_ok_iff.mp h
  obtain ⟨ns', hns', hperm⟩ := mapM_of_sameHeaders hsame hns
  exact canonicalHeaders_eq_ok_iff.mpr
    ⟨ns', hns', insertionSort_of_perm (nodup_names hduplicate) hperm, hduplicate, hrequired⟩

end

/-! ### Accepted URIs -/

section

variable {uri uri' : String}

/-- A character other than the separator is in a joined text when it is in one of the parts. -/
theorem mem_intercalate_iff {sep c : Char} (hc : c ≠ sep) {parts : List (List Char)} :
    c ∈ [sep].intercalate parts ↔ ∃ part ∈ parts, c ∈ part := by
  induction parts with
  | nil => simp [List.intercalate_nil]
  | cons part parts ih =>
    cases parts with
    | nil => simp [List.intercalate_singleton]
    | cons next parts =>
      rw [List.intercalate_cons_cons, List.mem_append, List.mem_append, List.mem_singleton, or_iff_left hc, ih]
      simp only [List.mem_cons, exists_eq_or_imp]

theorem mem_query_iff {q : String} {c : Char} (hc : c ≠ '&') : c ∈ q.toList ↔ ∃ part ∈ parameters q, c ∈ part := by
  rw [← mem_intercalate_iff hc, parameters, List.intercalate_splitOn]

theorem mem_uri_iff {c : Char} (hc : c ≠ '?') :
    c ∈ uri.toList ↔ c ∈ (splitUri uri).1 ∨ c ∈ (rawQuery uri).toList := by
  rw [rawQuery, String.toList_ofList, splitUri]
  cases h : Lines.takeLine '?' uri.toList with
  | none => simp
  | some parts =>
    obtain ⟨path, query⟩ := parts
    rw [(Lines.takeLine_eq_some h).1]
    simp [hc]

/-- The characters of a URI do not depend on the order of its parameters. -/
theorem mem_uri_congr (hpath : (splitUri uri).1 = (splitUri uri').1)
    (hquery : (parameters (rawQuery uri)).Perm (parameters (rawQuery uri'))) {c : Char} (hc : c ≠ '?') (hc' : c ≠ '&') :
    c ∈ uri.toList ↔ c ∈ uri'.toList := by
  have huri : ∀ {u : String}, c ∈ u.toList ↔ c ∈ (splitUri u).1 ∨ ∃ part ∈ parameters (rawQuery u), c ∈ part :=
    (mem_uri_iff hc).trans (or_congr_right (mem_query_iff hc'))
  rw [huri, huri, hpath]
  exact or_congr_right (exists_congr fun part => and_congr_left' hquery.mem_iff)

theorem canonicalUriAndQuery_eq_ok_iff {path query : String} : canonicalUriAndQuery uri = .ok (path, query) ↔
    ((∀ c ∈ uri.toList, isControl c = false) ∧ '#' ∉ uri.toList) ∧ startsWith (rawPath uri) ['/'] = true ∧
      path = canonicalPath uri ∧ query = canonicalQuery (rawQuery uri) := by
  have hchars : ¬ (hasControl uri = true ∨ uri.toList.contains '#' = true) ↔
      (∀ c ∈ uri.toList, isControl c = false) ∧ '#' ∉ uri.toList := by
    rw [not_or, Bool.not_eq_true, hasControl, List.any_eq_false, List.contains_iff_mem]
    simp only [Bool.not_eq_true]
  rw [← hchars]
  constructor
  · intro h
    obtain ⟨⟨⟩, hcheck, h⟩ := bind_eq_ok_iff.mp h
    dsimp only at h
    obtain ⟨⟨⟩, hstart, h⟩ := bind_eq_ok_iff.mp h
    obtain ⟨rfl, rfl⟩ := Prod.mk.inj (Except.ok.inj h)
    exact ⟨require_eq_ok_iff.mp hcheck, require_eq_ok_iff.mp hstart, rfl, rfl⟩
  · rintro ⟨hcheck, hstart, rfl, rfl⟩
    rw [canonicalUriAndQuery, require_of hcheck, ok_bind]
    dsimp only
    rw [rawPath] at hstart
    rw [require_of hstart]
    rfl

/-- A URI whose parameters are in another order is canonicalised alike. -/
theorem canonicalUriAndQuery_of_perm (hpath : (splitUri uri).1 = (splitUri uri').1)
    (hquery : (parameters (rawQuery uri)).Perm (parameters (rawQuery uri'))) {path query : String}
    (h : canonicalUriAndQuery uri = .ok (path, query)) : canonicalUriAndQuery uri' = .ok (path, query) := by
  obtain ⟨⟨hcontrol, hfragment⟩, hstart, rfl, rfl⟩ := canonicalUriAndQuery_eq_ok_iff.mp h
  have hraw : rawPath uri = rawPath uri' := by rw [rawPath, rawPath, hpath]
  refine canonicalUriAndQuery_eq_ok_iff.mpr ⟨⟨fun c hc => ?_, ?_⟩, hraw ▸ hstart, ?_, canonicalQuery_of_perm hquery⟩
  · by_cases hquestion : c = '?'
    · rw [hquestion]
      rfl
    by_cases hampersand : c = '&'
    · rw [hampersand]
      rfl
    exact hcontrol c ((mem_uri_congr hpath hquery hquestion hampersand).mpr hc)
  · rwa [← mem_uri_congr hpath hquery (by decide) (by decide)]
  · rw [canonicalPath, canonicalPath, hraw]

end

/-! ### The canonical text -/

/-- The text of a canonical request. -/
def canonicalText (method path query : String) (hs : List CanonicalHeader) (payloadSha256 : String) : List Char :=
  method.toList ++ '\n' :: (path.toList ++ '\n' :: (query.toList ++ '\n' ::
    (hs.flatMap (fun header => header.line ++ ['\n']) ++ '\n' ::
      ([';'].intercalate (hs.map fun header => header.name.toList) ++ '\n' :: payloadSha256.toList))))

theorem toList_canonicalText (method path query : String) (hs : List CanonicalHeader) (payloadSha256 : String) :
    (method ++ "\n" ++ path ++ "\n" ++ query ++ "\n" ++
        String.ofList (hs.flatMap fun header => header.line ++ ['\n']) ++ "\n" ++
        String.ofList ([';'].intercalate (hs.map fun header => header.name.toList)) ++ "\n" ++ payloadSha256).toList =
      canonicalText method path query hs payloadSha256 := by
  have hnewline : ("\n" : String).toList = ['\n'] := rfl
  simp only [canonicalText, String.toList_append, String.toList_ofList, List.append_assoc, hnewline,
    List.cons_append, List.nil_append]

/-- What an accepted request consists of. -/
structure Accepted (r : RequestComponents) (hs : List CanonicalHeader) (text : String) : Prop where
  payload : validatePayloadHash r.payloadSha256 = .ok ()
  method : canonicalMethod r.method = .ok r.method
  uri : canonicalUriAndQuery r.uri = .ok (canonicalPath r.uri, canonicalQuery (rawQuery r.uri))
  headers : canonicalHeaders r.headers r.payloadSha256 = .ok hs
  text : text.toList = canonicalText r.method (canonicalPath r.uri) (canonicalQuery (rawQuery r.uri)) hs r.payloadSha256

theorem canonicalMethod_eq_ok_iff {method canonical : String} : canonicalMethod method = .ok canonical ↔
    (method ≠ "" ∧ byteLength method ≤ 64 ∧ IsToken method) ∧ canonical = method := by
  have hchecks : ¬ (method.isEmpty = true ∨ byteLength method > 64 ∨ ¬ isAscii method = true ∨
      ¬ method.toList.all isMethodByte = true) ↔ method ≠ "" ∧ byteLength method ≤ 64 ∧ IsToken method := by
    simp only [not_or, not_not, not_lt, String.isEmpty_iff]
    refine and_congr_right fun _ => and_congr_right fun _ => ⟨fun h => h.2, fun h => ⟨isAscii_of_isToken h, h⟩⟩
  rw [← hchecks]
  constructor
  · intro h
    obtain ⟨⟨⟩, hcheck, h⟩ := bind_eq_ok_iff.mp h
    exact ⟨require_eq_ok_iff.mp hcheck, (Except.ok.inj h).symm⟩
  · rintro ⟨hcheck, rfl⟩
    rw [canonicalMethod, require_of hcheck]
    rfl

theorem canonical_eq_ok_iff {r : RequestComponents} {text : String} :
    r.canonical = .ok text ↔ ∃ hs, Accepted r hs text := by
  constructor
  · intro h
    obtain ⟨canonicalized, hcanonicalized, h⟩ := bind_eq_ok_iff.mp h
    obtain rfl := Except.ok.inj h
    obtain ⟨⟨⟩, hpayload, h⟩ := bind_eq_ok_iff.mp hcanonicalized
    obtain ⟨method, hmethod, h⟩ := bind_eq_ok_iff.mp h
    obtain ⟨⟨path, query⟩, huri, h⟩ := bind_eq_ok_iff.mp h
    obtain ⟨hs, hheaders, h⟩ := bind_eq_ok_iff.mp h
    obtain rfl := Except.ok.inj h
    obtain rfl := (canonicalMethod_eq_ok_iff.mp hmethod).2
    obtain ⟨-, -, rfl, rfl⟩ := canonicalUriAndQuery_eq_ok_iff.mp huri
    exact ⟨hs, hpayload, hmethod, huri, hheaders, toList_canonicalText _ _ _ _ _⟩
  · rintro ⟨hs, hpayload, hmethod, huri, hheaders, htext⟩
    rw [RequestComponents.canonical, canonicalRequest, canonicalize, hpayload, ok_bind, hmethod, ok_bind, huri, ok_bind]
    dsimp only
    rw [hheaders, ok_bind]
    refine congrArg Except.ok (String.toList_inj.mp ?_)
    rw [htext]
    exact toList_canonicalText _ _ _ _ _

/-! ### The lines of the canonical text -/

/-- The lines of a canonical request. -/
def canonicalLines (method path query : String) (hs : List CanonicalHeader) (payloadSha256 : String) :
    List (List Char) :=
  [method.toList, path.toList, query.toList] ++ hs.map CanonicalHeader.line ++
    [[], [';'].intercalate (hs.map fun header => header.name.toList), payloadSha256.toList]

/-- A header that fits on one line. -/
structure OneLine (header : CanonicalHeader) : Prop where
  name : IsToken header.name
  value : '\n' ∉ header.value.toList

theorem oneLine_of_normalizeHeader {header : String × String} {normalized : CanonicalHeader}
    (h : normalizeHeader header = .ok normalized) : OneLine normalized := by
  obtain ⟨name, value, rfl, hname, hvalue⟩ := normalizeHeader_eq_ok_iff.mp h
  obtain ⟨⟨-, htoken⟩, -, rfl⟩ := normalizeHeaderName_eq_ok_iff.mp hname
  obtain ⟨hcontrol, rfl⟩ := normalizeHeaderValue_eq_ok_iff.mp hvalue
  refine ⟨?_, ?_⟩
  · show (String.ofList (header.1.toList.map Char.toLower)).toList.all isTokenChar = true
    rw [String.toList_ofList, List.all_map, ← htoken]
    exact congrArg header.1.toList.all (funext isTokenChar_toLower)
  · rw [String.toList_ofList, ← mem_iff_of_respaced (respaced_collapse _) (by decide)]
    exact fun hmem => absurd (hcontrol _ hmem rfl) (by decide)

theorem newline_not_mem_line {header : CanonicalHeader} (h : OneLine header) : '\n' ∉ header.line := by
  rw [CanonicalHeader.line, List.mem_append, List.mem_cons, not_or, not_or]
  exact ⟨not_mem_of_isToken h.name (by decide), by decide, h.value⟩

theorem newline_not_mem_percentEncode (value : List UInt8) (preserveSlash : Bool) :
    '\n' ∉ (percentEncode value preserveSlash true).toList :=
  not_mem_percentEncode (b := 10) (by cases preserveSlash <;> simp [IsWritten, keepsSlash] <;> decide)

theorem newline_not_mem_canonicalQuery (q : String) : '\n' ∉ (canonicalQuery q).toList := by
  cases h : q.isEmpty with
  | true =>
    rw [String.isEmpty_iff.mp h]
    exact List.not_mem_nil
  | false =>
    rw [canonicalQuery_of_ne h, String.toList_ofList, mem_intercalate_iff (by decide)]
    rintro ⟨text, htext, hmem⟩
    obtain ⟨p, hp, rfl⟩ := List.mem_map.mp htext
    obtain ⟨pair, rfl⟩ := exists_of_mem_sortedPairs hp
    rw [pairText, List.mem_append, List.mem_cons] at hmem
    rcases hmem with hmem | hmem | hmem
    · exact newline_not_mem_percentEncode _ _ hmem
    · exact absurd hmem (by decide)
    · exact newline_not_mem_percentEncode _ _ hmem

theorem newline_not_mem_payloadHash {payloadSha256 : String} (h : validatePayloadHash payloadSha256 = .ok ()) :
    '\n' ∉ payloadSha256.toList := by
  intro hmem
  have hhex := List.all_eq_true.mp (require_eq_ok_iff.mp h).2 _ hmem
  revert hhex
  decide

theorem splitOn_headerLines {hs : List CanonicalHeader} (h : ∀ header ∈ hs, OneLine header) (rest : List Char) :
    (hs.flatMap (fun header => header.line ++ ['\n']) ++ '\n' :: rest).splitOn '\n' =
      hs.map CanonicalHeader.line ++ [] :: rest.splitOn '\n' := by
  induction hs with
  | nil => exact List.splitOn_append_cons_self_of_not_mem List.not_mem_nil rest
  | cons header hs ih =>
    obtain ⟨hheader, hs⟩ := List.forall_mem_cons.mp h
    rw [List.flatMap_cons, List.append_assoc, List.append_assoc, List.singleton_append,
      List.splitOn_append_cons_self_of_not_mem (newline_not_mem_line hheader), ih hs]
    rfl

section

variable {r r' : RequestComponents} {hs hs' : List CanonicalHeader} {text text' : String}

theorem Accepted.headers_eq (h : Accepted r hs text) :
    hs = sortedHeaders r.headers ∧ r.headers.mapM normalizeHeader = .ok (normalizedHeaders r.headers) := by
  obtain ⟨ns, hns, rfl, -, -⟩ := canonicalHeaders_eq_ok_iff.mp h.headers
  rw [sortedHeaders, normalizedHeaders_of_mapM hns]
  exact ⟨rfl, hns⟩

theorem Accepted.oneLine (h : Accepted r hs text) : ∀ header ∈ hs, OneLine header := by
  obtain ⟨rfl, hns⟩ := h.headers_eq
  intro header hheader
  obtain ⟨_, -, hnormal⟩ := exists_of_mem_mapM hns ((List.mem_insertionSort _).mp hheader)
  exact oneLine_of_normalizeHeader hnormal

/-- **No part of an accepted request holds or hides a line break.** -/
theorem Accepted.splitOn (h : Accepted r hs text) : text.toList.splitOn '\n' =
    canonicalLines r.method (canonicalPath r.uri) (canonicalQuery (rawQuery r.uri)) hs r.payloadSha256 := by
  have hmethod := (canonicalMethod_eq_ok_iff.mp h.method).1.2.2
  have hnames : '\n' ∉ [';'].intercalate (hs.map fun header => header.name.toList) := by
    rw [mem_intercalate_iff (by decide)]
    rintro ⟨name, hname, hmem⟩
    obtain ⟨header, hheader, rfl⟩ := List.mem_map.mp hname
    exact not_mem_of_isToken (h.oneLine header hheader).name (by decide) hmem
  have hpath : '\n' ∉ (canonicalPath r.uri).toList := newline_not_mem_percentEncode _ _
  rw [h.text, canonicalText, List.splitOn_append_cons_self_of_not_mem (not_mem_of_isToken hmethod (by decide)),
    List.splitOn_append_cons_self_of_not_mem hpath,
    List.splitOn_append_cons_self_of_not_mem (newline_not_mem_canonicalQuery _), splitOn_headerLines h.oneLine,
    List.splitOn_append_cons_self_of_not_mem hnames,
    List.splitOn_eq_singleton (newline_not_mem_payloadHash h.payload)]
  rfl

/-- Headers are determined by their lines. -/
theorem eq_of_map_line (h : ∀ header ∈ hs, OneLine header) (h' : ∀ header ∈ hs', OneLine header)
    (heq : hs.map CanonicalHeader.line = hs'.map CanonicalHeader.line) : hs = hs' := by
  have htake : ∀ {hs : List CanonicalHeader}, (∀ header ∈ hs, OneLine header) →
      (hs.map CanonicalHeader.line).map (Lines.takeLine ':') =
        hs.map fun header => some (header.name.toList, header.value.toList) := by
    intro hs h
    rw [List.map_map]
    exact List.map_congr_left fun header hheader =>
      Lines.takeLine_append (not_mem_of_isToken (h header hheader).name (by decide)) _
  have hfields := (htake h).symm.trans ((congrArg _ heq).trans (htake h'))
  refine List.map_injective_iff.mpr (fun a b hab => ?_) hfields
  obtain ⟨hname, hvalue⟩ := Prod.mk.inj (Option.some.inj hab)
  obtain ⟨name, value⟩ := a
  obtain ⟨name', value'⟩ := b
  exact congrArg₂ CanonicalHeader.mk (String.toList_inj.mp hname) (String.toList_inj.mp hvalue)

/-- **Equal canonical requests say the same.** -/
theorem Accepted.sameRequest (h : Accepted r hs text) (h' : Accepted r' hs' text) : SameRequest r r' := by
  have hlines := h.splitOn.symm.trans h'.splitOn
  rw [canonicalLines, canonicalLines, List.append_assoc, List.append_assoc] at hlines
  obtain ⟨hfirst, hlines⟩ := List.append_inj hlines (by simp only [List.length_cons])
  obtain ⟨hheaders, hlast⟩ := List.append_inj' hlines (by simp only [List.length_cons])
  obtain ⟨hmethod, hfirst⟩ := List.cons.inj hfirst
  obtain ⟨hpath, hquery⟩ := List.cons.inj hfirst
  obtain ⟨-, hlast⟩ := List.cons.inj hlast
  have hhs := eq_of_map_line h.oneLine h'.oneLine hheaders
  refine ⟨String.toList_inj.mp hmethod, String.toList_inj.mp hpath,
    canonicalQuery_eq_iff.mp (String.toList_inj.mp (List.singleton_inj.mp hquery)), ?_,
    String.toList_inj.mp (List.singleton_inj.mp (List.cons.inj hlast).2)⟩
  have hsorted := List.perm_insertionSort nameLe (normalizedHeaders r.headers)
  rw [← sortedHeaders, ← h.headers_eq.1, hhs, h'.headers_eq.1] at hsorted
  exact hsorted.symm.trans (List.perm_insertionSort nameLe _)

/-- **What says the same is one canonical request.** -/
theorem Accepted.text_eq (h : Accepted r hs text) (h' : Accepted r' hs' text') (hsame : SameRequest r r') :
    text = text' := by
  obtain ⟨ns, hns, rfl, hduplicate, -⟩ := canonicalHeaders_eq_ok_iff.mp h.headers
  have hhs : ns.insertionSort nameLe = hs' := by
    rw [h'.headers_eq.1, sortedHeaders, ← normalizedHeaders_of_mapM hns]
    exact insertionSort_of_perm (normalizedHeaders_of_mapM hns ▸ nodup_names hduplicate) hsame.headers
  rw [← String.toList_inj, h.text, h'.text, hsame.method, hsame.path, hsame.payload, hhs,
    canonicalQuery_eq_iff.mpr hsame.query]

/-- **Another presentation of an accepted request is accepted, with the same canonical request.** -/
theorem Accepted.of_presented (hpresented : Presented r r') (h : Accepted r hs text) : Accepted r' hs text := by
  have huri := canonicalUriAndQuery_of_perm hpresented.path hpresented.query h.uri
  obtain ⟨-, -, hpath, hquery⟩ := canonicalUriAndQuery_eq_ok_iff.mp huri
  refine ⟨hpresented.payload ▸ h.payload, hpresented.method ▸ h.method, ?_, ?_, ?_⟩
  · rw [← hpath, ← hquery, huri]
  · rw [← hpresented.payload]
    exact canonicalHeaders_of_sameHeaders hpresented.headers h.headers
  · rw [h.text, hpath, hquery, hpresented.method, hpresented.payload]

/-- The names of an accepted request differ, in whatever case they are written. -/
theorem Accepted.nodup (h : Accepted r hs text) : (r.headers.map fun header => lowercase header.1).Nodup := by
  obtain ⟨ns, hns, rfl, hduplicate, -⟩ := canonicalHeaders_eq_ok_iff.mp h.headers
  have hnames : ns.map CanonicalHeader.name = r.headers.map fun header => lowercase header.1 := by
    refine map_eq_map_of_forall₂ (mapM_eq_ok_iff_forall₂.mp hns) (List.forall₂_same.mpr fun _ _ => rfl) ?_
    rintro header - normalized _ hnormal rfl
    obtain ⟨_, _, rfl, hname, -⟩ := normalizeHeader_eq_ok_iff.mp hnormal
    exact (normalizeHeaderName_eq_ok_iff.mp hname).2.2
  exact hnames ▸ nodup_names hduplicate

/-- An accepted request has no control character but tabs in its header values. -/
theorem Accepted.eq_tab (h : Accepted r hs text) : ∀ header ∈ r.headers, ∀ c ∈ header.2.toList, isControl c = true → c = '\t' := by
  obtain ⟨-, hns⟩ := h.headers_eq
  intro header hheader
  obtain ⟨_, -, hnormal⟩ := exists_mem_of_mapM hns hheader
  obtain ⟨_, _, -, -, hvalue⟩ := normalizeHeader_eq_ok_iff.mp hnormal
  exact (normalizeHeaderValue_eq_ok_iff.mp hvalue).1

end

/-! ### The normal form -/

/-- **The canonical request is a normal form.** Another presentation of an accepted request has the same canonical
request. Two accepted requests have one canonical request exactly when they agree on method, path, query pairs,
normalised headers and payload, and their headers are then presentations of the same ones. The lines of a canonical
request are its parts. A request in which a name occurs twice, or a header value holds a control character other than a
tab, is refused. -/
theorem canonicalRequest_normalForm :
    (∀ r r' text, Presented r r' → r.canonical = .ok text → r'.canonical = .ok text) ∧
      (∀ r r' text text', r.canonical = .ok text → r'.canonical = .ok text' →
        (text = text' ↔ SameRequest r r') ∧ (text = text' → SameHeaders r.headers r'.headers)) ∧
      (∀ (r : RequestComponents) text, r.canonical = .ok text → text.toList.splitOn '\n' = canonicalLines r.method (canonicalPath r.uri)
        (canonicalQuery (rawQuery r.uri)) (sortedHeaders r.headers) r.payloadSha256) ∧
      (∀ r : RequestComponents, ¬ (r.headers.map fun header => lowercase header.1).Nodup → ∀ text, r.canonical ≠ .ok text) ∧
      ∀ r : RequestComponents, (∃ header ∈ r.headers, ∃ c ∈ header.2.toList, isControl c = true ∧ c ≠ '\t') →
        ∀ text, r.canonical ≠ .ok text := by
  refine ⟨fun r r' text hpresented h => ?_, fun r r' text text' h h' => ?_, fun r text h => ?_,
    fun r hnodup text h => ?_, fun r hcontrol text h => ?_⟩
  · obtain ⟨hs, haccepted⟩ := canonical_eq_ok_iff.mp h
    exact canonical_eq_ok_iff.mpr ⟨hs, haccepted.of_presented hpresented⟩
  · obtain ⟨hs, haccepted⟩ := canonical_eq_ok_iff.mp h
    obtain ⟨hs', haccepted'⟩ := canonical_eq_ok_iff.mp h'
    have hsame : text = text' → SameRequest r r' := by
      rintro rfl
      exact haccepted.sameRequest haccepted'
    exact ⟨⟨hsame, haccepted.text_eq haccepted'⟩, fun heq =>
      sameHeaders_of_perm haccepted.headers_eq.2 haccepted'.headers_eq.2 (hsame heq).headers⟩
  · obtain ⟨hs, haccepted⟩ := canonical_eq_ok_iff.mp h
    rw [haccepted.splitOn, haccepted.headers_eq.1]
  · obtain ⟨hs, haccepted⟩ := canonical_eq_ok_iff.mp h
    exact hnodup haccepted.nodup
  · obtain ⟨hs, haccepted⟩ := canonical_eq_ok_iff.mp h
    obtain ⟨header, hheader, c, hc, hcontrol, htab⟩ := hcontrol
    exact htab (haccepted.eq_tab header hheader c hc hcontrol)

/-- A request for an object with the headers that every request has. -/
def objectRequest : RequestComponents :=
  ⟨"GET", "/bucket/a%20b?part=1&id", [("Host", "s3.example"), ("x-amz-date", "20130524T000000Z"),
    ("x-amz-content-sha256", "e3b0c44298fc1c149afbf4c8996fb92427ae41e4649b934ca495991b7852b855")],
    "e3b0c44298fc1c149afbf4c8996fb92427ae41e4649b934ca495991b7852b855"⟩

/-- The same request in other words. -/
def objectRequest' : RequestComponents :=
  { objectRequest with
    uri := "/bucket/a%20b?id&part=1"
    headers := [("host", "\ts3.example  "), ("x-amz-date", "20130524T000000Z"),
      ("x-amz-content-sha256", "e3b0c44298fc1c149afbf4c8996fb92427ae41e4649b934ca495991b7852b855")] }

theorem presented_objectRequest : Presented objectRequest objectRequest' where
  method := rfl
  path := by decide +kernel
  query := by
    rw [show parameters (rawQuery objectRequest.uri) = ["part=1".toList, "id".toList] by decide +kernel,
      show parameters (rawQuery objectRequest'.uri) = ["id".toList, "part=1".toList] by decide +kernel]
    exact .swap _ _ _
  headers := by
    refine ⟨_, .refl _, .cons ⟨by decide +kernel, ?_⟩ (.cons ⟨rfl, .refl _⟩ (.cons ⟨rfl, .refl _⟩ .nil))⟩
    exact (EqvGen.rel _ _ (.leading ['\t'] _ rfl)).trans _ _ _ (.rel _ _ (.trailing _ [' ', ' '] rfl))
  payload := rfl

theorem canonical_objectRequest : objectRequest.canonical = objectRequest'.canonical := by
  have hok : objectRequest.canonical.toOption.isSome = true := by decide +kernel
  cases h : objectRequest.canonical with
  | error e =>
    rw [h] at hok
    exact absurd hok Bool.false_ne_true
  | ok text => exact (canonicalRequest_normalForm.1 _ _ text presented_objectRequest h).symm

end AgentVoice.SigV4

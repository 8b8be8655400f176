import AgentVoice.Foundations.Bytes
import AgentVoice.Foundations.Percent

/-!
# File URIs

A `file:` URI by its bytes: an authority between `//` and the next slash, a path up to the first `?`,
and a query up to the first `#`. The delimiters are the bytes themselves; an escape is read only after
the parts are taken, so it delimits nothing. The escape of the byte 0 ends the part that it stands in,
as in a reader that hands its parts on as zero-terminated strings.

What a program relies on that gives such a URI to a library is `OpensFileUris`; the reader of this
module is one (`opensFileUris_opened`).
-/

namespace AgentVoice.Foundations

open Percent

/-- What is opened by a file URI: the name of the file, and the parameters. -/
structure OpenedFile where
  name : List UInt8
  parameters : List (List UInt8 × List UInt8)
  deriving DecidableEq

/-- The parts of a file URI, with their escapes. -/
structure FileUri where
  authority : List UInt8
  path : List UInt8
  query : List UInt8
  deriving DecidableEq

namespace FileUri

/-- What a part of the URI stands for: its bytes with the escapes read, up to a byte 0. -/
def component (part : List UInt8) : List UInt8 := (decode part).takeWhile (· != 0)

/-! ### What a reader of URIs opens -/

/-- A path that delimits nothing: no byte 0, `#` or `?`, and every `%` is that of an escape. -/
structure PathText (path : List UInt8) : Prop where
  nul : 0 ∉ path
  fragment : 35 ∉ path
  mark : 63 ∉ path
  complete : Complete path

/-- A name or a value that delimits nothing and has no escapes. -/
def Literal (bytes : List UInt8) : Prop := ∀ b ∈ bytes, b ∉ [(0 : UInt8), 35, 37, 38, 61]

instance (bytes : List UInt8) : Decidable (Literal bytes) :=
  inferInstanceAs (Decidable (∀ b ∈ bytes, b ∉ [(0 : UInt8), 35, 37, 38, 61]))

/-- What is documented of a reader of file URIs: what it opens for a path and one parameter, where no
authority is written and where an empty one is. -/
structure OpensFileUris (reader : List UInt8 → Option OpenedFile) : Prop where
  without_authority : ∀ {path name value}, ¬[47, 47] <+: path → PathText path → name ≠ [] → Literal name →
    Literal value → reader (utf8 "file:" ++ (path ++ 63 :: (name ++ 61 :: value))) =
      some ⟨component path, [(name, value)]⟩
  empty_authority : ∀ {path name value}, [47] <+: path → PathText path → name ≠ [] → Literal name →
    Literal value → reader (utf8 "file:" ++ (utf8 "//" ++ path ++ 63 :: (name ++ 61 :: value))) =
      some ⟨component path, [(name, value)]⟩

/-! ### A reader -/

/-- The authority and the path of what stands between the scheme and the query. -/
def splitAuthority (hier : List UInt8) : List UInt8 × List UInt8 :=
  match hier with
  | 47 :: 47 :: rest => (rest.takeWhile (· != 47), rest.dropWhile (· != 47))
  | _ => ([], hier)

/-- The parts of a text that is a file URI. -/
def read (text : List UInt8) : Option FileUri :=
  if utf8 "file:" <+: text then
    let withoutFragment := (text.drop 5).takeWhile (· != 35)
    let (authority, path) := splitAuthority (withoutFragment.takeWhile (· != 63))
    some ⟨authority, path, (withoutFragment.dropWhile (· != 63)).drop 1⟩
  else none

/-- The parameters of the query, names and values. -/
def parameters (uri : FileUri) : List (List UInt8 × List UInt8) :=
  (uri.query.splitOn 38).map fun parameter =>
    (component (parameter.takeWhile (· != 61)), component ((parameter.dropWhile (· != 61)).drop 1))

/-- What is opened by a text: a file URI whose authority is empty or this host. -/
def opened (text : List UInt8) : Option OpenedFile :=
  match read text with
  | some uri =>
    if uri.authority = [] ∨ uri.authority = utf8 "localhost" then
      some ⟨component uri.path, uri.parameters⟩
    else none
  | none => none

theorem bne_of_not_mem {c : UInt8} {bytes : List UInt8} (hc : c ∉ bytes) : ∀ b ∈ bytes, (b != c) = true := by
  intro b hb
  refine bne_iff_ne.mpr ?_
  rintro rfl
  exact hc hb

/-- A text whose path and query hold no delimiter of the parts before and after them. -/
theorem read_append {hier query : List UInt8} (hmark : 63 ∉ hier) (hfragment : 35 ∉ hier)
    (hquery : 35 ∉ query) :
    read (utf8 "file:" ++ (hier ++ 63 :: query)) =
      some ⟨(splitAuthority hier).1, (splitAuthority hier).2, query⟩ := by
  have hwhole : (hier ++ 63 :: query).takeWhile (· != 35) = hier ++ 63 :: query := by
    refine List.takeWhile_eq_self_iff.mpr (bne_of_not_mem ?_)
    simp [hfragment, hquery]
  have htake : (hier ++ 63 :: query).takeWhile (· != 63) = hier := by
    rw [List.takeWhile_append_of_pos (bne_of_not_mem hmark)]
    simp
  have hdrop : (hier ++ 63 :: query).dropWhile (· != 63) = 63 :: query := by
    rw [List.dropWhile_append_of_pos (bne_of_not_mem hmark)]
    simp
  have hrest : (utf8 "file:" ++ (hier ++ 63 :: query)).drop 5 = hier ++ 63 :: query := rfl
  rw [read, if_pos (List.prefix_append _ _), hrest, hwhole]
  simp only [htake, hdrop]
  rfl

theorem splitAuthority_of_not_slashes {hier : List UInt8} (h : ¬[47, 47] <+: hier) :
    splitAuthority hier = ([], hier) := by
  unfold splitAuthority
  split
  · exact absurd ⟨_, rfl⟩ h
  · rfl

/-- Two slashes and a path that starts with a slash: the authority is empty. -/
theorem splitAuthority_slashes {path : List UInt8} (h : [47] <+: path) :
    splitAuthority (utf8 "//" ++ path) = ([], path) := by
  obtain ⟨rest, rfl⟩ := h
  rfl

namespace Literal

variable {bytes : List UInt8}

theorem not_mem (h : Literal bytes) {b : UInt8} (hb : b ∈ [(0 : UInt8), 35, 37, 38, 61]) : b ∉ bytes :=
  fun hmem => h b hmem hb

/-- A name or a value stands for itself. -/
theorem component_eq (h : Literal bytes) : component bytes = bytes := by
  have hdecode : decode bytes = bytes := decode_eq_self (h.not_mem (by decide))
  rw [component, hdecode]
  exact List.takeWhile_eq_self_iff.mpr (bne_of_not_mem (h.not_mem (by decide)))

end Literal

/-- A query of one parameter. -/
theorem parameters_single {authority path name value : List UInt8} (hname : Literal name)
    (hvalue : Literal value) :
    parameters ⟨authority, path, name ++ 61 :: value⟩ = [(name, value)] := by
  have hseparator : 38 ∉ name ++ 61 :: value := by
    simp only [List.mem_append, List.mem_cons, not_or]
    exact ⟨hname.not_mem (by decide), by decide, hvalue.not_mem (by decide)⟩
  have hsplit : (name ++ 61 :: value).splitOn 38 = [name ++ 61 :: value] :=
    List.splitOn_eq_singleton hseparator
  have htake : (name ++ 61 :: value).takeWhile (· != 61) = name := by
    rw [List.takeWhile_append_of_pos (bne_of_not_mem (hname.not_mem (by decide)))]
    simp
  have hdrop : (name ++ 61 :: value).dropWhile (· != 61) = 61 :: value := by
    rw [List.dropWhile_append_of_pos (bne_of_not_mem (hname.not_mem (by decide)))]
    simp
  simp only [parameters, hsplit, List.map_cons, List.map_nil, htake, hdrop, List.drop_succ_cons,
    List.drop_zero, hname.component_eq, hvalue.component_eq]

/-- **The reader opens what is documented.** -/
theorem opensFileUris_opened : OpensFileUris opened := by
  have hopened : ∀ {hier path name value : List UInt8}, splitAuthority hier = ([], path) →
      63 ∉ hier → 35 ∉ hier → Literal name → Literal value →
      opened (utf8 "file:" ++ (hier ++ 63 :: (name ++ 61 :: value))) =
        some ⟨component path, [(name, value)]⟩ := by
    intro hier path name value hsplit hmark hfragment hname hvalue
    have hquery : 35 ∉ name ++ 61 :: value := by
      simp only [List.mem_append, List.mem_cons, not_or]
      exact ⟨hname.not_mem (by decide), by decide, hvalue.not_mem (by decide)⟩
    rw [opened, read_append hmark hfragment hquery, hsplit]
    simp only [true_or, if_true, parameters_single hname hvalue]
  constructor
  · intro path name value hslashes hpath _ hname hvalue
    exact hopened (splitAuthority_of_not_slashes hslashes) hpath.mark hpath.fragment hname hvalue
  · intro path name value hslash hpath _ hname hvalue
    refine hopened (splitAuthority_slashes hslash) ?_ ?_ hname hvalue
    · exact List.not_mem_append (by decide) hpath.mark
    · exact List.not_mem_append (by decide) hpath.fragment

end FileUri

end AgentVoice.Foundations

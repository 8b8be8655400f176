import AgentVoice.Foundations.Uri
import AgentVoice.Store.Error

/-!
# The URI of an immutable database

A database that is only read is opened by a URI with `immutable=1`. Every byte of its path that is not
plain is escaped, so the path can hold no delimiter of the URI. What differs between the branches is in
front of the path: two slashes keep a Unix path that starts with two slashes from being read as an
authority, three stand in front of a Windows path, and of a Windows path in the verbatim form
`//?/C:/…` the drive path is taken.
-/

namespace AgentVoice.Store

open AgentVoice.Foundations

/-- `u8::is_ascii_alphabetic`. -/
def isAsciiAlphabetic (b : UInt8) : Bool :=
  (65 ≤ b.toNat && b.toNat ≤ 90) || (97 ≤ b.toNat && b.toNat ≤ 122)

/-- The bytes that `append_uri_path_bytes` writes as they are: letters, digits and `/`, `:`, `-`, `.`,
`_`, `~`. -/
def isPlainUriByte (b : UInt8) : Bool :=
  isAsciiAlphabetic b || (48 ≤ b.toNat && b.toNat ≤ 57) || [47, 58, 45, 46, 95, 126].contains b

/-- `HEX`. -/
def hexAlphabet : List UInt8 := utf8 "0123456789ABCDEF"

/-- `append_uri_path_bytes`; only ASCII is appended, so the text is given by its bytes. -/
def appendUriPathBytes (uri path : List UInt8) : List UInt8 :=
  path.foldl
    (fun uri b =>
      if isPlainUriByte b then uri ++ [b]
      else uri ++ [37, hexAlphabet.getD (b >>> 4).toNat 0, hexAlphabet.getD (b &&& 0x0f).toNat 0])
    uri

/-- The path that the URI is made of: of a Windows path in the verbatim form, the drive path. -/
def uriPath (path : List UInt8) (isWindowsPath : Bool) : StoreResult (List UInt8) :=
  if isWindowsPath && (utf8 "//?/").isPrefixOf path then
    match path.drop 4 with
    | letter :: colon :: slash :: rest =>
      if !isAsciiAlphabetic letter || colon != 58 || slash != 47 then .error (.notFound "database")
      else .ok (letter :: colon :: slash :: rest)
    | _ => .error (.notFound "database")
  else .ok path

/-- `immutable_read_only_uri_for_path_bytes`. -/
def immutableReadOnlyUriForPathBytes (path : List UInt8) (isWindowsPath isAbsolute : Bool) :
    StoreResult (List UInt8) := do
  require (¬(isWindowsPath && !isAbsolute)) (.notFound "database")
  let path ← uriPath path isWindowsPath
  require (¬(isWindowsPath && ((utf8 "//").isPrefixOf path || (utf8 "\\\\").isPrefixOf path)))
    (.notFound "database")
  let uri := utf8 "file:"
  let uri := if isWindowsPath && isAbsolute then uri ++ utf8 "///" else uri
  let uri := if !isWindowsPath && (utf8 "//").isPrefixOf path then uri ++ utf8 "//" else uri
  return appendUriPathBytes uri path ++ utf8 "?immutable=1"

/-! ### What is appended -/

theorem hexAlphabet_eq_escape (b : UInt8) :
    [37, hexAlphabet.getD (b >>> 4).toNat 0, hexAlphabet.getD (b &&& 0x0f).toNat 0] = Percent.escape b := by
  revert b
  exact Percent.forall_byte (by decide +kernel)

/-- The path is appended in the form of the library's escapes. -/
theorem appendUriPathBytes_eq (uri path : List UInt8) :
    appendUriPathBytes uri path = uri ++ Percent.escapeBytes isPlainUriByte path := by
  unfold appendUriPathBytes
  induction path generalizing uri with
  | nil => simp
  | cons b path ih =>
    rw [List.foldl_cons, ih, Percent.escapeBytes_cons, ← hexAlphabet_eq_escape]
    split_ifs <;> simp

theorem not_isPlainUriByte_percent : isPlainUriByte 37 = false := by decide

/-- No delimiter of a URI is among the bytes of an escaped path. -/
theorem not_mem_escapeBytes {b : UInt8} (hplain : isPlainUriByte b = false) (hpercent : b ≠ 37)
    (hdigit : Percent.hexDigit b = none) (path : List UInt8) :
    b ∉ Percent.escapeBytes isPlainUriByte path := by
  intro hmem
  rcases Percent.mem_escapeBytes hmem with ⟨h, -⟩ | h | h
  · exact Bool.false_ne_true (hplain.symm.trans h)
  · exact hpercent h
  · rw [hdigit] at h
    cases h

/-- A slash at the front of an escaped path is a slash of the path. -/
theorem slash_of_escapeBytes {path rest : List UInt8}
    (h : 47 :: rest = Percent.escapeBytes isPlainUriByte path) :
    ∃ after, path = 47 :: after ∧ rest = Percent.escapeBytes isPlainUriByte after := by
  cases path with
  | nil => cases h
  | cons b path =>
    rw [Percent.escapeBytes_cons] at h
    split_ifs at h with hplain
    · obtain ⟨rfl, hrest⟩ := List.cons.inj h
      exact ⟨path, rfl, hrest⟩
    · exact absurd (List.cons.inj h).1 (by decide)

/-! ### The parts of the URI -/

/-- A Windows path without the front of the verbatim form. -/
def withoutVerbatim (path : List UInt8) : List UInt8 :=
  if (utf8 "//?/").isPrefixOf path then path.drop 4 else path

/-- The path that the database is opened by: SQLite's own form of a Windows path has a slash in front
of the drive. -/
def openedPath (isWindowsPath : Bool) (path : List UInt8) : List UInt8 :=
  if isWindowsPath then 47 :: withoutVerbatim path else path

/-- What stands between the scheme and the path: the slashes of an empty authority. -/
def authorityFront (isWindowsPath : Bool) (path : List UInt8) : List UInt8 :=
  if isWindowsPath || (utf8 "//").isPrefixOf path then utf8 "//" else []

/-- The path of the URI, with its escapes. -/
def escapedPath (isWindowsPath : Bool) (path : List UInt8) : List UInt8 :=
  if isWindowsPath then 47 :: Percent.escapeBytes isPlainUriByte (withoutVerbatim path)
  else Percent.escapeBytes isPlainUriByte path

theorem uriPath_eq_ok {path path' : List UInt8} {isWindowsPath : Bool}
    (h : uriPath path isWindowsPath = .ok path') :
    path' = if isWindowsPath then withoutVerbatim path else path := by
  unfold uriPath at h
  unfold withoutVerbatim
  cases isWindowsPath with
  | false => exact (Except.ok.inj h).symm
  | true =>
    cases hverbatim : (utf8 "//?/").isPrefixOf path with
    | false =>
      rw [hverbatim] at h
      exact (Except.ok.inj h).symm
    | true =>
      rw [hverbatim] at h
      simp only [Bool.and_self, if_true] at h ⊢
      split at h
      · rename_i hdrop
        split_ifs at h
        cases h
        exact hdrop.symm
      · cases h

/-- The URI of every path that is accepted. -/
theorem immutableReadOnlyUri_eq_ok {path uri : List UInt8} {isWindowsPath isAbsolute : Bool}
    (h : immutableReadOnlyUriForPathBytes path isWindowsPath isAbsolute = .ok uri) :
    uri = utf8 "file:" ++ (authorityFront isWindowsPath path ++ escapedPath isWindowsPath path ++
      63 :: (utf8 "immutable" ++ 61 :: utf8 "1")) := by
  have hquery : utf8 "?immutable=1" = 63 :: (utf8 "immutable" ++ 61 :: utf8 "1") := rfl
  obtain ⟨_, habsolute, h⟩ := bind_eq_ok_iff.mp h
  rw [require_eq_ok_iff] at habsolute
  obtain ⟨path', hpath, h⟩ := bind_eq_ok_iff.mp h
  obtain ⟨_, -, h⟩ := bind_eq_ok_iff.mp h
  obtain rfl := Except.ok.inj h
  rw [appendUriPathBytes_eq, hquery, authorityFront, escapedPath, uriPath_eq_ok hpath]
  cases isWindowsPath with
  | false =>
    simp only [Bool.false_and, Bool.false_eq_true, if_false, Bool.not_false, Bool.true_and, Bool.false_or]
    split_ifs
    · simp only [List.append_assoc]
    · simp only [List.append_assoc, List.nil_append]
  | true =>
    have hisAbsolute : isAbsolute = true := by simpa using habsolute
    have hslashes : utf8 "///" = utf8 "//" ++ [47] := rfl
    simp only [hisAbsolute, Bool.true_and, Bool.not_true, Bool.false_and, Bool.false_eq_true, if_false,
      if_true, Bool.true_or, hslashes, List.append_assoc, List.cons_append, List.nil_append]

theorem not_mem_escapedPath {b : UInt8} (hplain : isPlainUriByte b = false) (hpercent : b ≠ 37)
    (hdigit : Percent.hexDigit b = none) (isWindowsPath : Bool) (path : List UInt8) :
    b ∉ escapedPath isWindowsPath path := by
  have hslash : b ≠ 47 := by
    rintro rfl
    exact Bool.false_ne_true hplain.symm
  have hescaped := not_mem_escapeBytes hplain hpercent hdigit
  unfold escapedPath
  split_ifs
  · rw [List.mem_cons, not_or]
    exact ⟨hslash, hescaped _⟩
  · exact hescaped _

/-- The path of the URI delimits nothing. -/
theorem pathText_escapedPath (isWindowsPath : Bool) (path : List UInt8) :
    FileUri.PathText (escapedPath isWindowsPath path) where
  nul := not_mem_escapedPath (by decide) (by decide) (by decide) isWindowsPath path
  fragment := not_mem_escapedPath (by decide) (by decide) (by decide) isWindowsPath path
  mark := not_mem_escapedPath (by decide) (by decide) (by decide) isWindowsPath path
  complete := by
    have hescaped := Percent.complete_escapeBytes not_isPlainUriByte_percent
    unfold escapedPath
    split_ifs
    · exact (hescaped _).cons (by decide)
    · exact hescaped _

theorem decode_escapedPath (isWindowsPath : Bool) (path : List UInt8) :
    Percent.decode (escapedPath isWindowsPath path) = openedPath isWindowsPath path := by
  have hdecode := Percent.decode_escapeBytes not_isPlainUriByte_percent
  unfold escapedPath openedPath
  split_ifs
  · rw [Percent.decode_cons (by decide), hdecode]
  · exact hdecode path

/-- The slashes of an authority are written exactly where the path could be read as one. -/
theorem authorityFront_cases (isWindowsPath : Bool) (path : List UInt8) :
    (authorityFront isWindowsPath path = [] ∧ ¬[47, 47] <+: escapedPath isWindowsPath path) ∨
      (authorityFront isWindowsPath path = utf8 "//" ∧ [47] <+: escapedPath isWindowsPath path) := by
  cases isWindowsPath with
  | true => exact Or.inr ⟨rfl, ⟨_, rfl⟩⟩
  | false =>
    cases hslashes : (utf8 "//").isPrefixOf path with
    | true =>
      obtain ⟨rest, rfl⟩ := List.isPrefixOf_iff_prefix.mp hslashes
      exact Or.inr ⟨rfl, ⟨_, rfl⟩⟩
    | false =>
      refine Or.inl ⟨?_, ?_⟩
      · simp only [authorityFront, hslashes, Bool.or_self, Bool.false_eq_true, if_false]
      · rintro ⟨rest, hrest⟩
        obtain ⟨after, rfl, hafter⟩ := slash_of_escapeBytes hrest
        obtain ⟨after', rfl, -⟩ := slash_of_escapeBytes hafter
        exact absurd hslashes (by rw [Bool.not_eq_false]; exact List.isPrefixOf_iff_prefix.mpr ⟨after', rfl⟩)

/-! ### What is opened -/

variable {sqlite : List UInt8 → Option OpenedFile}

/-- **The path is read as a path**, whatever it starts with, and under one parameter. -/
theorem opened_immutableReadOnlyUri (hsqlite : FileUri.OpensFileUris sqlite) {path uri : List UInt8}
    {isWindowsPath isAbsolute : Bool}
    (h : immutableReadOnlyUriForPathBytes path isWindowsPath isAbsolute = .ok uri) :
    sqlite uri = some ⟨(openedPath isWindowsPath path).takeWhile (· != 0),
      [(utf8 "immutable", utf8 "1")]⟩ := by
  have hname : FileUri.Literal (utf8 "immutable") := by decide +kernel
  have hvalue : FileUri.Literal (utf8 "1") := by decide +kernel
  have hpath := pathText_escapedPath isWindowsPath path
  have hcomponent : FileUri.component (escapedPath isWindowsPath path) =
      (openedPath isWindowsPath path).takeWhile (· != 0) := by
    rw [FileUri.component, decode_escapedPath]
  rw [immutableReadOnlyUri_eq_ok h, ← hcomponent]
  rcases authorityFront_cases isWindowsPath path with ⟨hfront, hslashes⟩ | ⟨hfront, hslash⟩
  · rw [hfront, List.nil_append]
    exact hsqlite.without_authority hslashes hpath (by decide) hname hvalue
  · rw [hfront]
    exact hsqlite.empty_authority hslash hpath (by decide) hname hvalue

/-- A path without a byte 0 is opened whole. -/
theorem takeWhile_openedPath {isWindowsPath : Bool} {path : List UInt8} (h : 0 ∉ path) :
    (openedPath isWindowsPath path).takeWhile (· != 0) = openedPath isWindowsPath path := by
  have hverbatim : 0 ∉ withoutVerbatim path := by
    unfold withoutVerbatim
    split_ifs
    · exact fun hmem => h (List.mem_of_mem_drop hmem)
    · exact h
  have hopened : 0 ∉ openedPath isWindowsPath path := by
    unfold openedPath
    split_ifs
    · rw [List.mem_cons, not_or]
      exact ⟨by decide, hverbatim⟩
    · exact h
  exact List.takeWhile_eq_self_iff.mpr (FileUri.bne_of_not_mem hopened)

end AgentVoice.Store

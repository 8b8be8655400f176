import Mathlib

/-!
# Comma-separated values

A reader of RFC 4180 files: records of one field or more, each record on a line that ends in LF or CRLF, the fields
between commas. A field in quotes may hold every character, a quote written twice; a field without quotes holds neither
comma, quote, CR nor LF. The last line may lack its end.

A writer is checked against the reader field by field: a plain field and a quoted one are read up to what delimits them
(`read_plain`, `read_quoted`), and a CR in a plain field either spoils the file or ends the line (`read_return`).
-/

namespace AgentVoice.Foundations.Csv

/-- Where the reader is. -/
inductive Mode where
  /-- At the beginning of a field. -/
  | start
  /-- In a field without quotes. -/
  | plain
  /-- Between quotes. -/
  | quoted
  /-- Behind a quote within a field in quotes: its end, or the first of two. -/
  | quote
  /-- Behind a CR that ends a field. -/
  | cr
  deriving DecidableEq

/-- The records of a text, from a reader that has read `field` of a field and `row` before it. -/
def read : Mode → List Char → List String → List Char → Option (List (List String))
  | .start, _, row, [] => if row = [] then some [] else some [row ++ [""]]
  | .start, _, row, c :: cs =>
    if c = '"' then read .quoted [] row cs
    else if c = ',' then read .start [] (row ++ [""]) cs
    else if c = '\n' then (read .start [] [] cs).map ((row ++ [""]) :: ·)
    else if c = '\r' then read .cr [] row cs
    else read .plain [c] row cs
  | .plain, field, row, [] => some [row ++ [String.ofList field]]
  | .plain, field, row, c :: cs =>
    if c = '"' then none
    else if c = ',' then read .start [] (row ++ [String.ofList field]) cs
    else if c = '\n' then (read .start [] [] cs).map ((row ++ [String.ofList field]) :: ·)
    else if c = '\r' then read .cr field row cs
    else read .plain (field ++ [c]) row cs
  | .quoted, _, _, [] => none
  | .quoted, field, row, c :: cs => if c = '"' then read .quote field row cs else read .quoted (field ++ [c]) row cs
  | .quote, field, row, [] => some [row ++ [String.ofList field]]
  | .quote, field, row, c :: cs =>
    if c = '"' then read .quoted (field ++ ['"']) row cs
    else if c = ',' then read .start [] (row ++ [String.ofList field]) cs
    else if c = '\n' then (read .start [] [] cs).map ((row ++ [String.ofList field]) :: ·)
    else if c = '\r' then read .cr field row cs
    else none
  | .cr, _, _, [] => none
  | .cr, field, row, c :: cs =>
    if c = '\n' then (read .start [] [] cs).map ((row ++ [String.ofList field]) :: ·) else none

/-- The records of a file. -/
def readFile (text : String) : Option (List (List String)) := read .start [] [] text.toList

/-- What delimits a field, and what is read behind it. -/
inductive Delimiter where
  | comma
  | newline

/-- The character of a delimiter. -/
def Delimiter.toChar : Delimiter → Char
  | .comma => ','
  | .newline => '\n'

/-- The records from the end of a field on. -/
def Delimiter.resume (delimiter : Delimiter) (field : List Char) (row : List String) (rest : List Char) :
    Option (List (List String)) :=
  match delimiter with
  | .comma => read .start [] (row ++ [String.ofList field]) rest
  | .newline => (read .start [] [] rest).map ((row ++ [String.ofList field]) :: ·)

/-- A character of a field without quotes. -/
def IsPlain (c : Char) : Prop := c ≠ '"' ∧ c ≠ ',' ∧ c ≠ '\n' ∧ c ≠ '\r'

/-- A character with a quote written twice. -/
def double (c : Char) : List Char := if c = '"' then ['"', '"'] else [c]

variable {field cs rest : List Char} {row : List String} {delimiter : Delimiter}

theorem read_plain_delimiter : read .plain field row (delimiter.toChar :: rest) = delimiter.resume field row rest := by
  cases delimiter <;> rfl

/-- A field without quotes is read up to what delimits it. -/
theorem read_plain_append (h : ∀ c ∈ cs, IsPlain c) (rest : List Char) :
    read .plain field row (cs ++ rest) = read .plain (field ++ cs) row rest := by
  induction cs generalizing field with
  | nil => rw [List.nil_append, List.append_nil]
  | cons c cs ih =>
    obtain ⟨⟨hquote, hcomma, hnewline, hreturn⟩, hcs⟩ := List.forall_mem_cons.mp h
    rw [List.cons_append, read, if_neg hquote, if_neg hcomma, if_neg hnewline, if_neg hreturn, ih hcs,
      List.append_assoc, List.singleton_append]

theorem read_start_append (h : ∀ c ∈ cs, IsPlain c) (hne : cs ≠ []) (rest : List Char) :
    read .start [] row (cs ++ rest) = read .plain cs row rest := by
  obtain ⟨c, cs, rfl⟩ := List.exists_cons_of_ne_nil hne
  obtain ⟨⟨hquote, hcomma, hnewline, hreturn⟩, hcs⟩ := List.forall_mem_cons.mp h
  rw [List.cons_append, read, if_neg hquote, if_neg hcomma, if_neg hnewline, if_neg hreturn, read_plain_append hcs]
  rfl

theorem read_plain (h : ∀ c ∈ cs, IsPlain c) :
    read .start [] row (cs ++ delimiter.toChar :: rest) = delimiter.resume cs row rest := by
  by_cases hne : cs = []
  · rw [hne]
    cases delimiter <;> rfl
  · rw [read_start_append h hne, read_plain_delimiter]

theorem read_doubled :
    read .quoted field row (cs.flatMap double ++ '"' :: rest) = read .quote (field ++ cs) row rest := by
  induction cs generalizing field with
  | nil =>
    rw [List.append_nil]
    rfl
  | cons c cs ih =>
    rw [List.flatMap_cons, List.append_assoc, double]
    split_ifs with hc
    · have htwo : read .quoted field row ('"' :: '"' :: (cs.flatMap double ++ '"' :: rest)) =
          read .quoted (field ++ ['"']) row (cs.flatMap double ++ '"' :: rest) := rfl
      rw [List.cons_append, List.singleton_append, htwo, ih, hc, List.append_assoc, List.singleton_append]
    · rw [List.singleton_append, read, if_neg hc, ih, List.append_assoc, List.singleton_append]

/-- A field in quotes is read up to what delimits it, each of its quotes once. -/
theorem read_quoted : read .start [] row ('"' :: (cs.flatMap double ++ '"' :: delimiter.toChar :: rest)) =
    delimiter.resume cs row rest := by
  have hstart : read .start [] row ('"' :: (cs.flatMap double ++ '"' :: delimiter.toChar :: rest)) =
      read .quoted [] row (cs.flatMap double ++ '"' :: delimiter.toChar :: rest) := rfl
  rw [hstart, read_doubled, List.nil_append]
  cases delimiter <;> rfl

/-- A CR behind plain characters is the end of a line if LF follows, and spoils the file if not. -/
theorem read_return (h : ∀ c ∈ cs, IsPlain c) : read .start [] row (cs ++ '\r' :: rest) = read .cr cs row rest := by
  by_cases hne : cs = []
  · rw [hne]
    rfl
  · rw [read_start_append h hne]
    rfl

end AgentVoice.Foundations.Csv

import AgentVoice.Foundations.Csv

/-!
# Rows of the accounting logs

`csv_row` of `src/accounting.rs` puts a column in quotes when it holds a comma, a quote or LF. A CR is not looked for: a
column that holds one and none of the three stands in the file as it is, where a reader takes the CR for the end of the
line or refuses it. So the rows that are read back are those without such a column (`readFile_rows_iff`).
-/

namespace AgentVoice.Accounting

open AgentVoice.Foundations

/-- `value.contains([',', '"', '\n'])`. -/
def needsQuotes (value : String) : Bool := value.toList.any fun c => c == ',' || c == '"' || c == '\n'

/-- A column as it is written: in quotes, with its quotes replaced by two, or as it is. -/
def escapeColumn (value : String) : List Char :=
  if needsQuotes value then '"' :: (value.toList.flatMap Csv.double ++ ['"']) else value.toList

/-- `csv_row`. -/
def csvRow (columns : List String) : String :=
  String.ofList ([','].intercalate (columns.map escapeColumn) ++ ['\n'])

/-- A column whose CR, if it has one, is in quotes. -/
def ReturnQuoted (column : String) : Prop := '\r' ∈ column.toList → needsQuotes column = true

instance (column : String) : Decidable (ReturnQuoted column) := inferInstanceAs (Decidable (_ → _))

/-- A row with at least one column, in which every CR is in quotes. -/
def Decodable (columns : List String) : Prop := columns ≠ [] ∧ ∀ column ∈ columns, ReturnQuoted column

/-! ### One column -/

section

variable {column : String} {row : List String} {rest : List Char} {d : Csv.Delimiter}

theorem ne_of_not_needsQuotes (h : needsQuotes column = false) {c : Char} (hc : c ∈ column.toList) :
    c ≠ '"' ∧ c ≠ ',' ∧ c ≠ '\n' := by
  have hnone := List.any_eq_false.mp h c hc
  rw [Bool.or_eq_true, Bool.or_eq_true, beq_iff_eq, beq_iff_eq, beq_iff_eq, not_or, not_or] at hnone
  exact ⟨hnone.1.2, hnone.1.1, hnone.2⟩

/-- A column whose CR is in quotes is read as it was. -/
theorem read_escapeColumn (h : ReturnQuoted column) :
    Csv.read .start [] row (escapeColumn column ++ d.toChar :: rest) =
      d.resume column.toList row rest := by
  rw [escapeColumn]
  split_ifs with hquotes
  · rw [List.cons_append, List.append_assoc, List.singleton_append, Csv.read_quoted]
  · refine Csv.read_plain fun c hc => ?_
    obtain ⟨hquote, hcomma, hnewline⟩ := ne_of_not_needsQuotes (Bool.eq_false_of_not_eq_true hquotes) hc
    exact ⟨hquote, hcomma, hnewline, by rintro rfl; exact hquotes (h hc)⟩

/-- Of a column with a CR that is not in quotes, the part before the CR is read, and the line must end there. -/
theorem read_escapeColumn_return (h : ¬ ReturnQuoted column) : ∃ before after, column.toList = before ++ '\r' :: after ∧
    ∀ cs, Csv.read .start [] row (escapeColumn column ++ cs) = Csv.read .cr before row (after ++ cs) := by
  obtain ⟨hreturn, hquotes⟩ := not_forall.mp h
  have hplain := Bool.eq_false_of_not_eq_true hquotes
  obtain ⟨before, after, hcolumn, hbefore⟩ := List.eq_append_cons_of_mem hreturn
  refine ⟨before, after, hcolumn, fun cs => ?_⟩
  rw [escapeColumn, if_neg hquotes, hcolumn, List.append_assoc, List.cons_append]
  refine Csv.read_return fun c hc => ?_
  obtain ⟨hquote, hcomma, hnewline⟩ := ne_of_not_needsQuotes hplain (hcolumn ▸ List.mem_append_left _ hc)
  exact ⟨hquote, hcomma, hnewline, by rintro rfl; exact hbefore hc⟩

/-- **A column whose CR is not in quotes is not read back.** -/
theorem head_ne_of_not_returnQuoted (h : ¬ ReturnQuoted column) {records : List (List String)}
    (hread : Csv.read .start [] row (escapeColumn column ++ d.toChar :: rest) = some records)
    (more : List String) : records.head? ≠ some (row ++ column :: more) := by
  obtain ⟨before, after, hcolumn, hbefore⟩ : ∃ before after, column.toList = before ++ '\r' :: after ∧
      ∀ cs, Csv.read .start [] row (escapeColumn column ++ cs) = Csv.read .cr before row (after ++ cs) :=
    read_escapeColumn_return h
  have hplain := Bool.eq_false_of_not_eq_true (not_forall.mp h).2
  rw [hbefore] at hread
  cases after with
  | nil =>
    cases d with
    | comma => cases hread
    | newline =>
      obtain ⟨tail, -, rfl⟩ := Option.map_eq_some_iff.mp hread
      intro heq
      rw [List.head?_cons, Option.some.injEq, List.append_cancel_left_eq, List.cons.injEq] at heq
      have hlength := congrArg (fun s => s.toList.length) heq.1
      rw [String.toList_ofList, hcolumn, List.length_append] at hlength
      simp at hlength
  | cons c after =>
    have hc := (ne_of_not_needsQuotes hplain (c := c) (by rw [hcolumn]; simp)).2.2
    rw [List.cons_append, Csv.read, if_neg hc] at hread
    cases hread

end

/-! ### One row -/

section

variable {columns : List String} {row : List String} {rest : List Char}

theorem intercalate_escapeColumn (column next : String) (columns : List String) :
    [','].intercalate ((column :: next :: columns).map escapeColumn) =
      escapeColumn column ++ ',' :: [','].intercalate ((next :: columns).map escapeColumn) := by
  rw [List.map_cons, List.map_cons, List.intercalate_cons_cons, List.append_assoc, List.singleton_append]

/-- A row whose CRs are in quotes is read as it was. -/
theorem read_row (h : Decodable columns) :
    Csv.read .start [] row ([','].intercalate (columns.map escapeColumn) ++ '\n' :: rest) =
      (Csv.read .start [] [] rest).map ((row ++ columns) :: ·) := by
  obtain ⟨hne, hcolumns⟩ := h
  induction columns generalizing row with
  | nil => exact absurd rfl hne
  | cons column columns ih =>
    obtain ⟨hcolumn, hcolumns⟩ := List.forall_mem_cons.mp hcolumns
    cases columns with
    | nil =>
      rw [List.map_singleton, List.intercalate_singleton]
      refine (read_escapeColumn (d := .newline) hcolumn).trans ?_
      rw [Csv.Delimiter.resume, String.ofList_toList]
    | cons next columns =>
      rw [intercalate_escapeColumn, List.append_assoc, List.cons_append]
      refine (read_escapeColumn (d := .comma) hcolumn).trans ?_
      rw [Csv.Delimiter.resume, String.ofList_toList, ih (List.cons_ne_nil _ _) hcolumns, List.append_assoc,
        List.singleton_append]

/-- A row with a CR that is not in quotes is not read back. -/
theorem head_ne_of_exists (h : ∃ column ∈ columns, ¬ ReturnQuoted column) {records : List (List String)}
    (hread : Csv.read .start [] row ([','].intercalate (columns.map escapeColumn) ++ '\n' :: rest) = some records) :
    records.head? ≠ some (row ++ columns) := by
  induction columns generalizing row with
  | nil =>
    obtain ⟨column, hcolumn, -⟩ := h
    cases hcolumn
  | cons column columns ih =>
    by_cases hcolumn : ReturnQuoted column
    · obtain ⟨other, hother, hreturn⟩ := h
      rcases List.mem_cons.mp hother with rfl | hother
      · exact absurd hcolumn hreturn
      obtain ⟨next, columns, rfl⟩ := List.exists_cons_of_ne_nil (List.ne_nil_of_mem hother)
      rw [intercalate_escapeColumn, List.append_assoc, List.cons_append] at hread
      have hrest := (read_escapeColumn (d := .comma) hcolumn).symm.trans hread
      have := ih ⟨other, hother, hreturn⟩ hrest
      rwa [String.ofList_toList, List.append_assoc, List.singleton_append] at this
    · cases columns with
      | nil =>
        rw [List.map_singleton, List.intercalate_singleton] at hread
        exact head_ne_of_not_returnQuoted (d := .newline) hcolumn hread []
      | cons next columns =>
        rw [intercalate_escapeColumn, List.append_assoc, List.cons_append] at hread
        exact head_ne_of_not_returnQuoted (d := .comma) hcolumn hread _

/-- **A row is read back exactly when it has a column and its CRs are in quotes**, whatever rows follow. -/
theorem read_csvRow_iff {rows : List (List String)} {rest : List Char} :
    Csv.read .start [] [] ((csvRow columns).toList ++ rest) = some (columns :: rows) ↔
      Decodable columns ∧ Csv.read .start [] [] rest = some rows := by
  rw [csvRow, String.toList_ofList, List.append_assoc, List.singleton_append]
  by_cases h : Decodable columns
  · rw [read_row h, and_iff_right h, List.nil_append, Option.map_eq_some_iff]
    constructor
    · rintro ⟨tail, htail, heq⟩
      rw [htail, (List.cons.inj heq).2]
    · exact fun hrest => ⟨rows, hrest, rfl⟩
  · refine iff_of_false (fun hread => ?_) fun hboth => h hboth.1
    by_cases hnil : columns = []
    · rw [hnil] at hread
      obtain ⟨tail, -, heq⟩ := Option.map_eq_some_iff.mp hread
      exact absurd (List.cons.inj heq).1 (List.cons_ne_nil _ _)
    · obtain ⟨column, hcolumn⟩ := not_forall.mp (not_and.mp h hnil)
      obtain ⟨hmem, hreturn⟩ := Classical.not_imp.mp hcolumn
      exact head_ne_of_exists ⟨column, hmem, hreturn⟩ hread rfl

end

/-! ### A file -/

/-- A column that ends in CR is read without it. -/
theorem not_decodes : ¬ ∀ columns, Csv.readFile (csvRow columns) = some [columns] := by
  intro h
  have hread : Csv.readFile (csvRow ["a\r"]) = some [["a"]] := rfl
  have := hread.symm.trans (h ["a\r"])
  revert this
  decide

/-- **Which rows are read back.** A line is one record that decodes to its columns, and a file of lines decodes to its
rows, exactly when every row has a column and every column with a CR is in quotes for a comma, a quote or LF. -/
theorem readFile_rows_iff (columns : List String) (rows : List (List String)) :
    (Csv.readFile (csvRow columns) = some [columns] ↔ Decodable columns) ∧
      (Csv.readFile (String.ofList (rows.flatMap fun row => (csvRow row).toList)) = some rows ↔
        ∀ row ∈ rows, Decodable row) := by
  have hrows : ∀ rows : List (List String),
      Csv.read .start [] [] (rows.flatMap fun row => (csvRow row).toList) = some rows ↔ ∀ row ∈ rows, Decodable row := by
    intro rows
    induction rows with
    | nil => exact iff_of_true rfl (List.forall_mem_nil _)
    | cons row rows ih => rw [List.flatMap_cons, read_csvRow_iff, ih, List.forall_mem_cons]
  refine ⟨?_, ?_⟩
  · have := hrows [columns]
    rwa [List.flatMap_singleton, List.forall_mem_singleton] at this
  · rw [Csv.readFile, String.toList_ofList]
    exact hrows rows

end AgentVoice.Accounting

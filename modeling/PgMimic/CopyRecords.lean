import PgMimic.CopyBoundaries

/-!
# From lines back to rows

What either format has to show of a row for its line to be read back: the line
is the first record of whatever it begins, nothing is stripped from its end, and
its fields are the row's. The decoder then returns the rows up to the first
whose line is the end-of-data marker, and drops the first of them where the
options say the data begins with a header.
-/

namespace PgMimic.Copy

variable {o : CopyOptions}

def fieldsOf (o : CopyOptions) (record : Text) : Row :=
  match o.format with
  | .csv => csvFields o record
  | .text => textFields o record

/-- The line of a row is read as one record with the row's fields. -/
structure Readable (o : CopyOptions) (row : Row) : Prop where
  splits : ∀ rest, splitRecord o (line o row ++ '\n' :: rest) = some (line o row, rest)
  ends : (line o row).getLast? ≠ some '\r'
  fields : fieldsOf o (line o row) = row

/-- The lines of the rows, each with its newline. -/
def lines (o : CopyOptions) (rows : List Row) : Text := rows.flatMap fun row => line o row ++ ['\n']

theorem encode_lines (o : CopyOptions) (rows : List Row) :
    Utf8.encode (lines o rows) = rows.flatMap (encodeRow o) :=
  List.flatMap_assoc

/-- The row's line is not the end-of-data marker. -/
def shown (o : CopyOptions) (row : Row) : Bool := line o row ≠ endOfData

/-- What the rows come to when they are read back. -/
def returned (o : CopyOptions) (skipHeader : Bool) (rows : List Row) : List Row :=
  (rows.takeWhile (shown o)).drop (if skipHeader then 1 else 0)

theorem record_of_readable {row : Row} (h : Readable o row) (p : Progress) :
    record o p (line o row) =
      if line o row = endOfData then ({ p with ended := true }, [])
      else if p.skipHeader then ({ p with skipHeader := false }, [])
      else (p, [row]) := by
  have fields := h.fields
  simp only [record, if_neg h.ends]
  cases hformat : o.format with
  | text =>
    simp only [fieldsOf, hformat] at fields
    simp only [fields]
  | csv =>
    simp only [fieldsOf, hformat] at fields
    simp only [fields]

theorem consume_nil (o : CopyOptions) (p : Progress) : consume o p [] = ([], p, []) := by
  cases stopped : p.ended with
  | true => exact Splitter.consume_of_stopped stopped []
  | false => exact Splitter.consume_of_next_none stopped (records o).next_nil

theorem consume_lines {rows : List Row} (readable : ∀ row ∈ rows, Readable o row) (p : Progress)
    (running : p.ended = false) :
    (consume o p (lines o rows)).1 = returned o p.skipHeader rows ∧
      (consume o p (lines o rows)).2.2 = [] := by
  induction rows generalizing p with
  | nil =>
    have empty : lines o [] = [] := rfl
    rw [empty, consume_nil]
    exact ⟨by simp [returned], rfl⟩
  | cons row rows ih =>
    have first := readable row (List.mem_cons_self ..)
    have others : ∀ row ∈ rows, Readable o row := fun row hrow =>
      readable row (List.mem_cons_of_mem _ hrow)
    have split : (records o).next (lines o (row :: rows)) = some (line o row, lines o rows) := by
      have front := first.splits (lines o rows)
      rwa [← List.singleton_append, ← List.append_assoc] at front
    have taken : consume o p (lines o (row :: rows)) =
        ((record o p (line o row)).2 ++ (consume o (record o p (line o row)).1 (lines o rows)).1,
          (consume o (record o p (line o row)).1 (lines o rows)).2) :=
      Splitter.consume_of_next_some running split
    rw [taken, record_of_readable first p]
    by_cases marker : line o row = endOfData
    · have stopped : consume o { p with ended := true } (lines o rows) =
          ([], { p with ended := true }, []) := Splitter.consume_of_stopped rfl _
      simp only [if_pos marker, stopped, List.append_nil]
      exact ⟨by simp [returned, shown, marker], trivial⟩
    · have visible : shown o row = true := decide_eq_true marker
      cases skip : p.skipHeader with
      | true =>
        obtain ⟨rest, left⟩ := ih others { p with skipHeader := false } running
        simp only [if_neg marker, if_true, List.nil_append]
        refine ⟨?_, left⟩
        rw [rest]
        simp [returned, visible]
      | false =>
        obtain ⟨rest, left⟩ := ih others p running
        simp only [if_neg marker, Bool.false_eq_true, if_false]
        refine ⟨?_, left⟩
        rw [rest, skip]
        simp [returned, visible]

/-- The rows read back from the lines of readable rows. -/
theorem rowsOf_lines {rows : List Row} (readable : ∀ row ∈ rows, Readable o row) :
    rowsOf o [rows.flatMap (encodeRow o)] = some (returned o o.header rows) := by
  obtain ⟨rest, left⟩ := consume_lines readable ⟨false, o.header⟩ rfl
  have whole : [rows.flatMap (encodeRow o)].flatten = Utf8.encode (lines o rows) := by
    rw [List.flatten_singleton, encode_lines]
  rw [rowsOf_eq_textRows whole]
  simp only [textRows, rest, left]
  simp [CopyInDecoder.leftover]

theorem returned_eq_self_iff {rows : List Row} :
    returned o false rows = rows ↔ ∀ row ∈ rows, line o row ≠ endOfData := by
  simp [returned, shown]

/-! ## Joined fields -/

theorem mem_join {delimiter c : Char} {fields : List Text} (h : c ∈ join delimiter fields) :
    c = delimiter ∨ ∃ field ∈ fields, c ∈ field := by
  induction fields with
  | nil => cases h
  | cons one fields ih =>
    cases fields with
    | nil => exact Or.inr ⟨one, List.mem_cons_self .., h⟩
    | cons two more =>
      rw [join, List.mem_append, List.mem_cons] at h
      rcases h with here | rfl | later
      · exact Or.inr ⟨one, List.mem_cons_self .., here⟩
      · exact Or.inl rfl
      · exact (ih later).imp_right fun ⟨field, hfield, hc⟩ =>
          ⟨field, List.mem_cons_of_mem _ hfield, hc⟩

theorem getLast?_join {delimiter c : Char} {fields : List Text} (other : delimiter ≠ c)
    (h : ∀ field ∈ fields, field.getLast? ≠ some c) :
    (join delimiter fields).getLast? ≠ some c := by
  induction fields with
  | nil => simp [join]
  | cons one fields ih =>
    cases fields with
    | nil => exact h one (List.mem_cons_self ..)
    | cons two more =>
      have later := ih fun field hfield => h field (List.mem_cons_of_mem _ hfield)
      cases last : (join delimiter (two :: more)).getLast? with
      | none => simp [join, List.getLast?_append, List.getLast?_cons, last, other]
      | some x =>
        rw [last] at later
        simpa [join, List.getLast?_append, List.getLast?_cons, last] using later

end PgMimic.Copy

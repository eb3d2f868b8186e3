import PgMimic.CopyRecords

/-!
# The text format read back

Every character of a field is written either as itself or as a backslash and a
marker, and neither form leaves a raw newline, carriage return or delimiter
behind. The two scanners of the decoder take these pieces off in step with the
encoder; the null string is no field's text because no marker is an `N`.
-/

namespace PgMimic.Copy

/-- The options the text format is written for: the default null string, and a delimiter
that no escape of the format could be confused with. -/
structure TextOptions (o : CopyOptions) : Prop where
  format : o.format = .text
  nullString : o.nullString = ['\\', 'N']
  delimiter : o.delimiter ∉ ['\\', '\n', '\r', '.', 'b', 'f', 'n', 'r', 't', 'v', 'x', 'N']
  octal : isOctal o.delimiter = false

variable {o : CopyOptions}

theorem TextOptions.field_eq (h : TextOptions o) : field o = textField o := by
  funext f
  rw [field, h.format]

/-- A marker is read back as the character it was written for, and is none of the
characters that records, fields or the null string are recognised by. -/
structure Marks (c marker : Char) : Prop where
  unescapes : ∀ later, unescapeMarker marker later = (c, 1)
  plain : marker ∉ ['\n', '\r', 'N', '.']

/-- What the encoder writes for one character. -/
inductive Escaped (o : CopyOptions) (c : Char) : Prop where
  | marked (marker : Char) (written : escapeText o c = ['\\', marker]) (marks : Marks c marker)
  | plain (written : escapeText o c = [c]) (other : c ≠ '\\' ∧ c ≠ o.delimiter ∧ c ≠ '\n' ∧ c ≠ '\r')

theorem marks_of_textEscape {c : Char} {written : Text} (h : textEscape c = some written) :
    ∃ marker, written = ['\\', marker] ∧ Marks c marker := by
  simp only [textEscape] at h
  split_ifs at h with backslash b f n r t v
  all_goals
    obtain rfl := Option.some.inj h
    subst c
    exact ⟨_, rfl, fun _ => rfl, by decide⟩

theorem other_of_textEscape {c : Char} (h : textEscape c = none) :
    c ≠ '\\' ∧ c ≠ '\n' ∧ c ≠ '\r' := by
  refine ⟨?_, ?_, ?_⟩
  all_goals
    rintro rfl
    cases h

/-- The delimiter stands for itself behind a backslash. -/
theorem marks_delimiter (h : TextOptions o) : Marks o.delimiter o.delimiter := by
  have apart := h.delimiter
  simp only [List.mem_cons, List.not_mem_nil, or_false, not_or] at apart
  obtain ⟨-, newline, return', period, b, f, n, r, t, v, x, N⟩ := apart
  refine ⟨fun later => ?_, ?_⟩
  · have unknown : textUnescape o.delimiter = none := by
      simp only [textUnescape, if_neg b, if_neg f, if_neg n, if_neg r, if_neg t, if_neg v]
    simp only [unescapeMarker, unknown, x, h.octal, false_and, if_false, Bool.false_eq_true]
  · simp only [List.mem_cons, List.not_mem_nil, or_false, not_or]
    exact ⟨newline, return', N, period⟩

theorem escaped (h : TextOptions o) (c : Char) : Escaped o c := by
  cases known : textEscape c with
  | some written =>
    obtain ⟨marker, rfl, marks⟩ := marks_of_textEscape known
    exact .marked marker (by simp only [escapeText, known]) marks
  | none =>
    by_cases delimiter : c = o.delimiter
    · subst delimiter
      exact .marked o.delimiter (by simp only [escapeText, known, if_true]) (marks_delimiter h)
    · obtain ⟨backslash, newline, return'⟩ := other_of_textEscape known
      exact .plain (by simp only [escapeText, known, if_neg delimiter])
        ⟨backslash, delimiter, newline, return'⟩

/-- No newline and no carriage return in a field. -/
theorem mem_textField (h : TextOptions o) {f : Option Text} {c : Char}
    (hc : c ∈ textField o f) : c ≠ '\n' ∧ c ≠ '\r' := by
  cases f with
  | none =>
    rw [textField, h.nullString] at hc
    simp only [List.mem_cons, List.not_mem_nil, or_false] at hc
    rcases hc with rfl | rfl
    · decide
    · decide
  | some value =>
    obtain ⟨x, _, hx⟩ := List.mem_flatMap.mp hc
    cases escaped h x with
    | marked marker written marks =>
      have plain := marks.plain
      rw [written] at hx
      simp only [List.mem_cons, List.not_mem_nil, or_false, not_or] at hx plain
      rcases hx with rfl | rfl
      · decide
      · exact ⟨plain.1, plain.2.1⟩
    | plain written other =>
      rw [written, List.mem_singleton] at hx
      exact hx ▸ other.2.2

theorem mem_line (h : TextOptions o) {row : Row} {c : Char} (hc : c ∈ line o row) :
    c ≠ '\n' ∧ c ≠ '\r' := by
  have apart := h.delimiter
  simp only [List.mem_cons, not_or] at apart
  rcases mem_join hc with rfl | ⟨field, hfield, hc⟩
  · exact ⟨apart.2.1, apart.2.2.1⟩
  · obtain ⟨f, _, rfl⟩ := List.mem_map.mp hfield
    rw [h.field_eq] at hc
    exact mem_textField h hc

theorem splitTextRecord_append {record : Text} (silent : '\n' ∉ record) (rest : Text) :
    splitTextRecord (record ++ '\n' :: rest) = some (record, rest) := by
  induction record with
  | nil => rfl
  | cons c record ih =>
    rw [List.mem_cons, not_or] at silent
    simp only [List.cons_append, splitTextRecord, if_neg (Ne.symm silent.1), ih silent.2]
    rfl

/-! ## The field scanner -/

/-- A field the scanner takes whole, wherever it stands. -/
def Scanned (delimiter : Char) (field : Text) : Prop :=
  ∀ current tail, rawFields delimiter current false (field ++ tail) =
    rawFields delimiter (current ++ field) false tail

theorem Scanned.append {delimiter : Char} {one two : Text} (h : Scanned delimiter one)
    (h' : Scanned delimiter two) : Scanned delimiter (one ++ two) := by
  intro current tail
  rw [List.append_assoc, h, h', List.append_assoc]

theorem scanned_marked (delimiter marker : Char) : Scanned delimiter ['\\', marker] := by
  intro current tail
  simp [rawFields]

theorem scanned_plain {delimiter c : Char} (backslash : c ≠ '\\') (other : c ≠ delimiter) :
    Scanned delimiter [c] := by
  intro current tail
  simp [rawFields, backslash, other]

theorem scanned_textField (h : TextOptions o) (f : Option Text) :
    Scanned o.delimiter (textField o f) := by
  cases f with
  | none =>
    rw [textField, h.nullString]
    exact scanned_marked o.delimiter 'N'
  | some value =>
    induction value with
    | nil =>
      intro current tail
      simp [textField]
    | cons c value ih =>
      refine Scanned.append ?_ ih
      cases escaped h c with
      | marked marker written marks =>
        rw [written]
        exact scanned_marked o.delimiter marker
      | plain written other =>
        rw [written]
        exact scanned_plain other.1 other.2.1

theorem rawFields_join {delimiter : Char} {fields : List Text} (backslash : delimiter ≠ '\\')
    (some_field : fields ≠ []) (scanned : ∀ field ∈ fields, Scanned delimiter field) :
    rawFields delimiter [] false (join delimiter fields) = fields := by
  induction fields with
  | nil => exact absurd rfl some_field
  | cons one fields ih =>
    have first := scanned one (List.mem_cons_self ..)
    cases fields with
    | nil =>
      have whole := first [] []
      simpa [join, rawFields] using whole
    | cons two more =>
      have later := ih (List.cons_ne_nil _ _) fun field hfield =>
        scanned field (List.mem_cons_of_mem _ hfield)
      rw [join, first, rawFields]
      simp [backslash, later]

/-! ## The escapes of one field -/

theorem unescapeFrom_plain {c : Char} (other : c ≠ '\\') (tail : Text) :
    unescapeFrom 0 (c :: tail) = c :: unescapeFrom 0 tail := by
  cases tail with
  | nil => rfl
  | cons next tail => rw [unescapeFrom, if_neg other]

theorem unescapeFrom_escapeText (h : TextOptions o) (c : Char) (tail : Text) :
    unescapeFrom 0 (escapeText o c ++ tail) = c :: unescapeFrom 0 tail := by
  cases escaped h c with
  | marked marker written marks =>
    have read := marks.unescapes tail
    rw [written]
    simp [unescapeFrom, read]
  | plain written other =>
    rw [written]
    exact unescapeFrom_plain other.1 tail

theorem unescapeFrom_flatMap (h : TextOptions o) (value : Text) :
    unescapeFrom 0 (value.flatMap (escapeText o)) = value := by
  induction value with
  | nil => rfl
  | cons c value ih => rw [List.flatMap_cons, unescapeFrom_escapeText h, ih]

/-- A field without a backslash is its own text either way. -/
theorem unescapeFrom_of_no_backslash {field : Text} (none : '\\' ∉ field) :
    unescapeFrom 0 field = field := by
  induction field with
  | nil => rfl
  | cons c field ih =>
    rw [List.mem_cons, not_or] at none
    rw [unescapeFrom_plain (Ne.symm none.1), ih none.2]

theorem unescapeText_eq (field : Text) : unescapeText field = unescapeFrom 0 field := by
  by_cases backslash : '\\' ∈ field
  · rw [unescapeText, if_pos backslash]
  · rw [unescapeText, if_neg backslash, unescapeFrom_of_no_backslash backslash]

theorem unescapeText_textField (h : TextOptions o) (value : Text) :
    unescapeText (textField o (some value)) = value := by
  rw [unescapeText_eq]
  exact unescapeFrom_flatMap h value

/-- No value is written as the null string. -/
theorem textField_ne_nullString (h : TextOptions o) (value : Text) :
    textField o (some value) ≠ o.nullString := by
  rw [h.nullString]
  cases value with
  | nil =>
    intro same
    cases same
  | cons c value =>
    intro same
    rw [textField, List.flatMap_cons] at same
    cases escaped h c with
    | marked marker written marks =>
      have plain := marks.plain
      rw [written] at same
      simp only [List.cons_append, List.nil_append, List.cons.injEq, true_and] at same
      exact plain (by simp [same.1])
    | plain written other =>
      rw [written] at same
      simp only [List.cons_append, List.cons.injEq] at same
      exact other.1 same.1

theorem textFields_line (h : TextOptions o) {row : Row} (some_field : row ≠ []) :
    textFields o (line o row) = row := by
  have apart := h.delimiter
  simp only [List.mem_cons, not_or] at apart
  have raw : rawFields o.delimiter [] false (line o row) = row.map (textField o) := by
    rw [line, h.field_eq]
    refine rawFields_join apart.1 (by simpa using some_field) fun field hfield => ?_
    obtain ⟨f, _, rfl⟩ := List.mem_map.mp hfield
    exact scanned_textField h f
  have read : ∀ f : Option Text, (if textField o f = o.nullString then none
      else some (unescapeText (textField o f))) = f := by
    intro f
    cases f with
    | none => simp [textField]
    | some value => rw [if_neg (textField_ne_nullString h value), unescapeText_textField h]
  rw [textFields, raw, List.map_map]
  simp [Function.comp_def, read]

theorem readable_text (h : TextOptions o) {row : Row} (some_field : row ≠ []) :
    Readable o row where
  splits := by
    intro rest
    rw [splitRecord, h.format]
    exact splitTextRecord_append (fun newline => (mem_line h newline).1 rfl) rest
  ends := fun last => (mem_line h (List.mem_of_getLast? last)).2 rfl
  fields := by
    rw [fieldsOf, h.format]
    exact textFields_line h some_field

/-- The marker is the line of no row: it would be read as a row with another line. -/
theorem line_ne_endOfData (h : TextOptions o) {row : Row} (some_field : row ≠ []) :
    line o row ≠ endOfData := by
  intro marker
  have apart := h.delimiter
  simp only [List.mem_cons, not_or] at apart
  have read := textFields_line h some_field
  have period : textFields o endOfData = [some ['.']] := by
    have one : rawFields o.delimiter [] false endOfData = [endOfData] := by
      simp [rawFields, endOfData]
    rw [textFields, one, h.nullString]
    rfl
  rw [marker, period] at read
  rw [← read, line, h.field_eq] at marker
  have dot : textField o (some ['.']) = ['.'] := by
    have written : escapeText o '.' = ['.'] := by
      have other : '.' ≠ o.delimiter := fun same => apart.2.2.2.1 same.symm
      simp only [escapeText, if_neg other]
      rfl
    simp [textField, written]
  rw [List.map_cons, dot] at marker
  cases marker

/-- Rows of text come back as they were, the first excepted where the options call it a
header. -/
theorem text_round_trip (h : TextOptions o) {rows : List Row}
    (some_field : ∀ row ∈ rows, row ≠ []) :
    rowsOf o [rows.flatMap (encodeRow o)] = some (rows.drop (if o.header then 1 else 0)) := by
  have readable : ∀ row ∈ rows, Readable o row := fun row hrow =>
    readable_text h (some_field row hrow)
  have all : rows.takeWhile (shown o) = rows :=
    List.takeWhile_eq_self_iff.mpr fun row hrow =>
      decide_eq_true (line_ne_endOfData h (some_field row hrow))
  rw [rowsOf_lines readable, returned, all]

theorem text_round_trip_default :
    rowsOf {} [[[some ['\\', '.'], none], [some ['\\', 'N'], some ['a', '\t', '\r']]].flatMap
      (encodeRow {})] =
      some [[some ['\\', '.'], none], [some ['\\', 'N'], some ['a', '\t', '\r']]] :=
  text_round_trip ⟨rfl, rfl, by decide, by decide⟩ (by decide)

/-- With a header announced the first row is taken for it. -/
theorem text_header_takes_first_row :
    TextOptions { header := true } ∧
      rowsOf { header := true } [[[some ['a']]].flatMap (encodeRow { header := true })] ≠
        some [[some ['a']]] :=
  ⟨⟨rfl, rfl, by decide, by decide⟩, by decide⟩

end PgMimic.Copy

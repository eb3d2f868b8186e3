import PgMimic.CopyRecords

/-!
# The CSV format read back

A field is written bare when nothing in it could be taken for something else,
and in quotes otherwise; the record splitter and the field splitter come out of
either with the same idea of where it ends. What the encoder does not consider
is the line as a whole: a row written bare as the end-of-data marker ends the
data, and every row after it is dropped with it.
-/

namespace PgMimic.Copy

/-- Delimiter, quote, escape and null string are told apart from one another and from the
characters that end a line. -/
structure CsvOptions (o : CopyOptions) : Prop where
  format : o.format = .csv
  header : o.header = false
  delimiter_quote : o.delimiter ≠ o.quote
  escape_delimiter : o.escape ≠ o.delimiter
  newline : o.delimiter ≠ '\n' ∧ o.quote ≠ '\n' ∧ o.escape ≠ '\n'
  carriageReturn : o.delimiter ≠ '\r' ∧ o.quote ≠ '\r' ∧ o.escape ≠ '\r'
  nullString : o.delimiter ∉ o.nullString ∧ o.quote ∉ o.nullString ∧ '\n' ∉ o.nullString ∧
    '\r' ∉ o.nullString

variable {o : CopyOptions}

theorem CsvOptions.field_eq (h : CsvOptions o) : field o = csvField o := by
  funext f
  rw [field, h.format]

/-- The text a field shows without quotes. -/
def Bare (o : CopyOptions) (f : Option Text) (text : Text) : Prop :=
  (f = none ∧ text = o.nullString) ∨ (f = some text ∧ needsQuotes o text = false)

/-- Nothing in a bare field is taken for something else. -/
structure Harmless (o : CopyOptions) (text : Text) : Prop where
  delimiter : o.delimiter ∉ text
  quote : o.quote ∉ text
  newline : '\n' ∉ text
  carriageReturn : '\r' ∉ text

/-- The two ways a field is written. -/
inductive Written (o : CopyOptions) (f : Option Text) : Prop where
  | bare (text : Text) (written : csvField o f = text) (bare : Bare o f text)
      (harmless : Harmless o text)
  | quoted (value : Text) (written : csvField o f =
      o.quote :: (value.flatMap (escapeCsv o) ++ [o.quote])) (is : f = some value)

theorem written (h : CsvOptions o) (f : Option Text) : Written o f := by
  cases f with
  | none =>
    obtain ⟨delimiter, quote, newline, carriageReturn⟩ := h.nullString
    exact .bare o.nullString rfl (Or.inl ⟨rfl, rfl⟩) ⟨delimiter, quote, newline, carriageReturn⟩
  | some value =>
    cases needs : needsQuotes o value with
    | true => exact .quoted value (by rw [csvField, if_pos needs]) rfl
    | false =>
      have bare : csvField o (some value) = value := by simp [csvField, needs]
      have harmless := needs
      simp only [needsQuotes, Bool.or_eq_false_iff, decide_eq_false_iff_not] at harmless
      obtain ⟨⟨⟨⟨-, delimiter⟩, quote⟩, newline⟩, carriageReturn⟩ := harmless
      exact .bare value bare (Or.inr ⟨rfl, needs⟩) ⟨delimiter, quote, newline, carriageReturn⟩

/-! ## The record scanner -/

theorem inFront_nil (cut : Option (Text × Text)) : inFront [] cut = cut := by
  cases cut with
  | none => rfl
  | some cut => rfl

theorem inFront_inFront (one two : Text) (cut : Option (Text × Text)) :
    inFront one (inFront two cut) = inFront (one ++ two) cut := by
  cases cut with
  | none => rfl
  | some cut => simp [inFront]

theorem splitCsvRecord_bare {text : Text} (quote : o.quote ∉ text) (newline : '\n' ∉ text)
    (tail : Text) : splitCsvRecord o .outside (text ++ tail) =
      inFront text (splitCsvRecord o .outside tail) := by
  induction text with
  | nil => exact (inFront_nil _).symm
  | cons c text ih =>
    rw [List.mem_cons, not_or] at quote newline
    rw [List.cons_append, splitCsvRecord, if_neg (Ne.symm quote.1), if_neg (Ne.symm newline.1),
      ih quote.2 newline.2, inFront_inFront]
    rfl

/-- An escaped character is gone over without a look at what it is. -/
theorem splitCsvRecord_escapeCsv (c : Char) (tail : Text) :
    splitCsvRecord o .inside (escapeCsv o c ++ tail) =
      inFront (escapeCsv o c) (splitCsvRecord o .inside tail) := by
  by_cases special : c = o.quote ∨ c = o.escape
  · rw [escapeCsv, if_pos special]
    by_cases separate : o.escape = o.quote
    · have doubled : c = o.quote := special.elim id fun same => same.trans separate
      subst doubled
      simp [splitCsvRecord, separate, inFront_inFront]
    · simp [splitCsvRecord, separate, inFront_inFront]
  · rw [not_or] at special
    rw [escapeCsv, if_neg (not_or.mpr special)]
    simp [splitCsvRecord, special.1, special.2]

theorem splitCsvRecord_body (value tail : Text) :
    splitCsvRecord o .inside (value.flatMap (escapeCsv o) ++ tail) =
      inFront (value.flatMap (escapeCsv o)) (splitCsvRecord o .inside tail) := by
  induction value with
  | nil => exact (inFront_nil _).symm
  | cons c value ih =>
    rw [List.flatMap_cons, List.append_assoc, splitCsvRecord_escapeCsv, ih, inFront_inFront]

/-- The quote that ends a field is known by what follows it. -/
theorem splitCsvRecord_close {next : Char} (other : next ≠ o.quote) (tail : Text) :
    splitCsvRecord o .inside (o.quote :: next :: tail) =
      inFront [o.quote] (splitCsvRecord o .outside (next :: tail)) := by
  by_cases separate : o.escape = o.quote
  · simp [splitCsvRecord, separate, other]
  · have apart : ¬ o.quote = o.escape := fun same => separate same.symm
    simp [splitCsvRecord, separate, apart]

theorem splitCsvRecord_field (h : CsvOptions o) (f : Option Text) {next : Char}
    (other : next ≠ o.quote) (tail : Text) :
    splitCsvRecord o .outside (csvField o f ++ next :: tail) =
      inFront (csvField o f) (splitCsvRecord o .outside (next :: tail)) := by
  cases written h f with
  | bare text written bare harmless =>
    rw [written]
    exact splitCsvRecord_bare harmless.quote harmless.newline (next :: tail)
  | quoted value written =>
    rw [written, List.cons_append, List.append_assoc, splitCsvRecord, if_pos rfl,
      splitCsvRecord_body, List.singleton_append, splitCsvRecord_close other, inFront_inFront,
      inFront_inFront]
    rfl

theorem splitCsvRecord_join (h : CsvOptions o) (row : Row) (rest : Text) :
    splitCsvRecord o .outside (join o.delimiter (row.map (csvField o)) ++ '\n' :: rest) =
      some (join o.delimiter (row.map (csvField o)), rest) := by
  have newline : splitCsvRecord o .outside ('\n' :: rest) = some ([], rest) := by
    rw [splitCsvRecord, if_neg (Ne.symm h.newline.2.1), if_pos rfl]
  induction row with
  | nil => exact newline
  | cons f row ih =>
    cases row with
    | nil =>
      have one := splitCsvRecord_field h f (Ne.symm h.newline.2.1) rest
      rw [newline] at one
      simpa [join, inFront] using one
    | cons g more =>
      have skip : ∀ text, splitCsvRecord o .outside (o.delimiter :: text) =
          inFront [o.delimiter] (splitCsvRecord o .outside text) := fun text => by
        rw [splitCsvRecord, if_neg h.delimiter_quote, if_neg h.newline.1]
      simp only [List.map_cons] at ih ⊢
      rw [join, List.append_assoc, List.cons_append, splitCsvRecord_field h f h.delimiter_quote,
        skip, ih, inFront_inFront]
      simp [inFront]

/-! ## The field scanner -/

theorem csvFieldsFrom_bare {text : Text} (quote : o.quote ∉ text) (delimiter : o.delimiter ∉ text)
    (current : Text) (quoted : Bool) (tail : Text) :
    csvFieldsFrom o current quoted .outside (text ++ tail) =
      csvFieldsFrom o (current ++ text) quoted .outside tail := by
  induction text generalizing current with
  | nil => rw [List.nil_append, List.append_nil]
  | cons c text ih =>
    rw [List.mem_cons, not_or] at quote delimiter
    rw [List.cons_append, csvFieldsFrom, if_neg (Ne.symm quote.1), if_neg (Ne.symm delimiter.1),
      ih quote.2 delimiter.2, List.append_assoc, List.singleton_append]

theorem csvFieldsFrom_escapeCsv (c : Char) (current : Text) (quoted : Bool) (tail : Text) :
    csvFieldsFrom o current quoted .inside (escapeCsv o c ++ tail) =
      csvFieldsFrom o (current ++ [c]) quoted .inside tail := by
  by_cases special : c = o.quote ∨ c = o.escape
  · rw [escapeCsv, if_pos special]
    by_cases separate : o.escape = o.quote
    · have doubled : c = o.quote := special.elim id fun same => same.trans separate
      subst doubled
      simp [csvFieldsFrom, separate]
    · simp [csvFieldsFrom, separate]
  · rw [not_or] at special
    rw [escapeCsv, if_neg (not_or.mpr special)]
    simp [csvFieldsFrom, special.1, special.2]

theorem csvFieldsFrom_body (value current : Text) (quoted : Bool) (tail : Text) :
    csvFieldsFrom o current quoted .inside (value.flatMap (escapeCsv o) ++ tail) =
      csvFieldsFrom o (current ++ value) quoted .inside tail := by
  induction value generalizing current with
  | nil => rw [List.flatMap_nil, List.nil_append, List.append_nil]
  | cons c value ih =>
    rw [List.flatMap_cons, List.append_assoc, csvFieldsFrom_escapeCsv, ih, List.append_assoc,
      List.singleton_append]

theorem csvFieldsFrom_close {tail : Text} (other : tail.head? ≠ some o.quote) (current : Text)
    (quoted : Bool) : csvFieldsFrom o current quoted .inside (o.quote :: tail) =
      csvFieldsFrom o current quoted .outside tail := by
  by_cases separate : o.escape = o.quote
  · simp [csvFieldsFrom, separate, other]
  · have apart : ¬ o.quote = o.escape := fun same => separate same.symm
    simp [csvFieldsFrom, separate, apart]

/-- A field is scanned to a text and a mark that mean the field it was written for. -/
theorem csvFieldsFrom_field (h : CsvOptions o) (f : Option Text) :
    ∃ text quoted, csvValue o text quoted = f ∧
      ∀ tail : Text, tail.head? ≠ some o.quote →
        csvFieldsFrom o [] false .outside (csvField o f ++ tail) =
          csvFieldsFrom o text quoted .outside tail := by
  cases written h f with
  | bare text written bare harmless =>
    refine ⟨text, false, ?_, fun tail _ => ?_⟩
    · rcases bare with ⟨rfl, rfl⟩ | ⟨rfl, needs⟩
      · simp [csvValue]
      · simp only [needsQuotes, Bool.or_eq_false_iff, decide_eq_false_iff_not] at needs
        simp [csvValue, needs.1.1.1.1]
    · rw [written, csvFieldsFrom_bare harmless.quote harmless.delimiter, List.nil_append]
  | quoted value written is =>
    refine ⟨value, true, by simp [csvValue, is], fun tail other => ?_⟩
    rw [written, List.cons_append, List.append_assoc, csvFieldsFrom, if_pos rfl,
      csvFieldsFrom_body, List.singleton_append, csvFieldsFrom_close other, List.nil_append]

theorem csvFields_join (h : CsvOptions o) {row : Row} (some_field : row ≠ []) :
    csvFields o (join o.delimiter (row.map (csvField o))) = row := by
  induction row with
  | nil => exact absurd rfl some_field
  | cons f row ih =>
    obtain ⟨text, quoted, value, scanned⟩ := csvFieldsFrom_field h f
    cases row with
    | nil =>
      have one := scanned [] (by simp)
      rw [List.append_nil] at one
      rw [csvFields, List.map_singleton, join, one, csvFieldsFrom, value]
    | cons g more =>
      have later := ih (List.cons_ne_nil _ _)
      have apart : (o.delimiter :: join o.delimiter ((g :: more).map (csvField o))).head? ≠
          some o.quote := by simpa using h.delimiter_quote
      have first := scanned _ apart
      rw [csvFields] at later ⊢
      rw [List.map_cons, List.map_cons, join, ← List.map_cons, first, csvFieldsFrom,
        if_neg h.delimiter_quote, if_pos rfl, value, later]

theorem getLast?_csvField (h : CsvOptions o) (f : Option Text) :
    (csvField o f).getLast? ≠ some '\r' := by
  cases written h f with
  | bare text written bare harmless =>
    rw [written]
    exact fun last => harmless.carriageReturn (List.mem_of_getLast? last)
  | quoted value written =>
    rw [written]
    simpa [List.getLast?_cons, List.getLast?_append] using h.carriageReturn.2.1

theorem readable_csv (h : CsvOptions o) {row : Row} (some_field : row ≠ []) :
    Readable o row where
  splits := by
    intro rest
    rw [splitRecord, h.format, line, h.field_eq]
    exact splitCsvRecord_join h row rest
  ends := by
    rw [line, h.field_eq]
    refine getLast?_join h.carriageReturn.1 fun field hfield => ?_
    obtain ⟨f, _, rfl⟩ := List.mem_map.mp hfield
    exact getLast?_csvField h f
  fields := by
    rw [fieldsOf, h.format, line, h.field_eq]
    exact csvFields_join h some_field

/-! ## The rows that end the data -/

/-- The row is written as the two characters of the end-of-data marker: one bare field
that is the marker, or two whose delimiter is one of its characters. -/
inductive EndsData (o : CopyOptions) : Row → Prop where
  | one {f : Option Text} (marker : Bare o f ['\\', '.']) : EndsData o [f]
  | backslash {f g : Option Text} (delimiter : o.delimiter = '\\') (first : Bare o f [])
      (second : Bare o g ['.']) : EndsData o [f, g]
  | period {f g : Option Text} (delimiter : o.delimiter = '.') (first : Bare o f ['\\'])
      (second : Bare o g []) : EndsData o [f, g]

theorem csvField_of_bare {f : Option Text} {text : Text} (h : Bare o f text) :
    csvField o f = text := by
  rcases h with ⟨rfl, rfl⟩ | ⟨rfl, needs⟩
  · rfl
  · simp [csvField, needs]

/-- In quotes a field begins and ends with the same character. -/
theorem bare_of_csvField (h : CsvOptions o) {f : Option Text} {text : Text}
    (shows : csvField o f = text) (apart : text.length < 2 ∨ text.head? ≠ text.getLast?) :
    Bare o f text := by
  cases written h f with
  | bare text' written bare => exact (written.symm.trans shows) ▸ bare
  | quoted value written =>
    rw [← shows, written] at apart
    rcases apart with short | ends
    · simp only [List.length_cons, List.length_append, List.length_nil] at short
      omega
    · simp [List.getLast?_cons, List.getLast?_append] at ends

theorem join_cons_cons_ne_nil (delimiter : Char) (one two : Text) (more : List Text) :
    join delimiter (one :: two :: more) ≠ [] := by
  simp [join]

/-- One character is left for all the fields behind a delimiter. -/
theorem map_csvField_eq_of_join {row : Row} {c : Char}
    (other : o.delimiter ≠ c) (h : join o.delimiter (row.map (csvField o)) = [c]) :
    ∃ f, row = [f] ∧ csvField o f = [c] := by
  match row with
  | [] => cases h
  | [f] => exact ⟨f, rfl, h⟩
  | f :: g :: more =>
    simp only [List.map_cons, join] at h
    cases shown : csvField o f with
    | nil =>
      rw [shown, List.nil_append, List.cons.injEq] at h
      exact absurd h.1 other
    | cons x text =>
      rw [shown, List.cons_append, List.cons.injEq] at h
      exact absurd h.2 (by simp)

theorem line_eq_endOfData_iff (h : CsvOptions o) {row : Row} (some_field : row ≠ []) :
    line o row = endOfData ↔ EndsData o row := by
  rw [line, h.field_eq]
  constructor
  · intro marker
    match row, some_field with
    | [f], _ => exact .one (bare_of_csvField h marker (Or.inr (by decide)))
    | f :: g :: more, _ =>
      simp only [List.map_cons, join, endOfData] at marker
      rw [← List.map_cons] at marker
      cases shown : csvField o f with
      | nil =>
        rw [shown, List.nil_append, List.cons.injEq] at marker
        have other : o.delimiter ≠ '.' := by rw [marker.1]; decide
        obtain ⟨f', single, second⟩ := map_csvField_eq_of_join other marker.2
        rw [List.cons.injEq] at single
        obtain ⟨rfl, rfl⟩ := single
        exact .backslash marker.1 (bare_of_csvField h shown (Or.inl (by decide)))
          (bare_of_csvField h second (Or.inl (by decide)))
      | cons x text =>
        rw [shown, List.cons_append, List.cons.injEq] at marker
        cases text with
        | nil =>
          rw [List.nil_append, List.cons.injEq] at marker
          obtain ⟨rfl, hdelimiter, nothing⟩ := marker
          cases more with
          | nil =>
            exact .period hdelimiter (bare_of_csvField h shown (Or.inl (by decide)))
              (bare_of_csvField h nothing (Or.inl (by decide)))
          | cons k more => exact absurd nothing (join_cons_cons_ne_nil _ _ _ _)
        | cons y text =>
          have behind := marker.2
          rw [List.cons_append, List.cons.injEq] at behind
          exact absurd behind.2 (by simp)
  · intro ends
    cases ends with
    | one marker => exact csvField_of_bare marker
    | backslash delimiter first second =>
      simp [join, csvField_of_bare first, csvField_of_bare second, delimiter, endOfData]
    | period delimiter first second =>
      simp [join, csvField_of_bare first, csvField_of_bare second, delimiter, endOfData]

/-- Rows of CSV come back as they were exactly if none of them ends the data. -/
theorem csv_round_trip_iff (h : CsvOptions o) {rows : List Row}
    (some_field : ∀ row ∈ rows, row ≠ []) :
    rowsOf o [rows.flatMap (encodeRow o)] = some rows ↔ ∀ row ∈ rows, ¬ EndsData o row := by
  have readable : ∀ row ∈ rows, Readable o row := fun row hrow =>
    readable_csv h (some_field row hrow)
  rw [rowsOf_lines readable, h.header, Option.some.injEq, returned_eq_self_iff]
  constructor
  · intro apart row hrow ends
    exact apart row hrow ((line_eq_endOfData_iff h (some_field row hrow)).mpr ends)
  · intro apart row hrow marker
    exact apart row hrow ((line_eq_endOfData_iff h (some_field row hrow)).mp marker)

def csvOptions : CopyOptions := { format := .csv, delimiter := ',', nullString := [] }

theorem csv_round_trip_quoted :
    rowsOf csvOptions [[[some ['a', ',', '\n'], none], [some [], some ['\\', '.']]].flatMap
        (encodeRow csvOptions)] =
      some [[some ['a', ',', '\n'], none], [some [], some ['\\', '.']]] ↔
        ∀ row ∈ [[some ['a', ',', '\n'], none], [some [], some ['\\', '.']]],
          ¬ EndsData csvOptions row :=
  csv_round_trip_iff ⟨rfl, rfl, by decide, by decide, by decide, by decide, by decide⟩ (by decide)

def markerRows : List Row := [[some ['a']], [some ['\\', '.']], [some ['b']]]

/-- A one-column row holding a backslash and a period takes every later row with it. -/
theorem csv_marker_drops_rows :
    CsvOptions csvOptions ∧
      rowsOf csvOptions [markerRows.flatMap (encodeRow csvOptions)] = some (markerRows.take 1) ∧
      rowsOf csvOptions [markerRows.flatMap (encodeRow csvOptions)] ≠ some markerRows :=
  ⟨⟨rfl, rfl, by decide, by decide, by decide, by decide, by decide⟩, by decide, by decide⟩

end PgMimic.Copy

import PgMimic.CopyCsv
import PgMimic.Lib.Cancels

/-!
# Lines that tell their rows apart

A row is known from its line where a field can be taken off the front of one, whatever
fields stand behind it. Delimiter, quote and escape may stand in each other's way: an
escaped delimiter may be the escape of another character, and a quote that is also the
delimiter may begin a field or end one.
-/

namespace PgMimic.Copy

/-- Different rows of strings have different lines. -/
def Unambiguous (o : CopyOptions) : Prop :=
  ∀ row row' : List Text, row ≠ [] → row' ≠ [] → row ≠ row' →
    encodeRow o (row.map some) ≠ encodeRow o (row'.map some)

/-- The characters that mean something behind a backslash in what `_text_field` writes. -/
def escapeLetters : List Char := ['\\', 'b', 'f', 'n', 'r', 't', 'v']

/-- The delimiter is not the quote, or else quotes are escaped by another character and no
field is empty without them: the null string is the empty one, or the escape never stands in a
field without quotes. -/
def CsvApart (o : CopyOptions) : Prop :=
  o.delimiter ≠ o.quote ∨
    o.escape ≠ o.quote ∧ (o.nullString = [] ∨ o.escape = '\n' ∨ o.escape = '\r')

/-- In text the delimiter is no letter of an escape. -/
def ToldApart (o : CopyOptions) : Prop :=
  match o.format with
  | .text => o.delimiter ∉ escapeLetters
  | .csv => CsvApart o

variable {o : CopyOptions}

theorem encodeRow_inj {row row' : Row} :
    encodeRow o row = encodeRow o row' ↔ line o row = line o row' := by
  constructor
  · intro same
    have texts := congrArg Utf8.completed same
    rw [encodeRow, encodeRow, Utf8.completed_encode, Utf8.completed_encode] at texts
    exact List.append_cancel_right texts
  · intro same
    rw [encodeRow, encodeRow, same]

theorem unambiguous_iff_lines : Unambiguous o ↔ ∀ row row' : List Text, row ≠ [] → row' ≠ [] →
    line o (row.map some) = line o (row'.map some) → row = row' := by
  constructor
  · intro apart row row' some_field some_field' same
    by_contra different
    exact apart row row' some_field some_field' different (encodeRow_inj.mpr same)
  · intro known row row' some_field some_field' different same
    exact different (known row row' some_field some_field' (encodeRow_inj.mp same))

/-! ## Fields and what stands behind them -/

/-- The end of the line, behind a field. -/
def behind (o : CopyOptions) : List Text → Text
  | [] => []
  | value :: more => o.delimiter :: line o ((value :: more).map some)

theorem line_cons (o : CopyOptions) (value : Text) (more : List Text) :
    line o ((value :: more).map some) = field o (some value) ++ behind o more := by
  cases more with
  | nil => exact (List.append_nil _).symm
  | cons next more => rfl

theorem head_behind (more : List Text) : ∀ c ∈ (behind o more).head?, c = o.delimiter := by
  intro c head
  cases more with
  | nil => cases head
  | cons value more => exact (Option.some.inj head).symm

/-- A row is known from its line where a field is from what it begins. -/
theorem line_inj_of_cancels
    (cancels : Cancels (fun value => field o (some value)) fun tail => ∃ more, tail = behind o more)
    {row row' : List Text} (some_field : row ≠ []) (some_field' : row' ≠ [])
    (same : line o (row.map some) = line o (row'.map some)) : row = row' := by
  induction row generalizing row' with
  | nil => exact absurd rfl some_field
  | cons value more ih =>
    cases row' with
    | nil => exact absurd rfl some_field'
    | cons value' more' =>
      rw [line_cons, line_cons] at same
      obtain ⟨rfl, tails⟩ := cancels ⟨more, rfl⟩ ⟨more', rfl⟩ same
      cases more with
      | nil =>
        cases more' with
        | nil => rfl
        | cons next' more' => cases tails
      | cons next more =>
        cases more' with
        | nil => cases tails
        | cons next' more' =>
          have rest := ih (List.cons_ne_nil _ _) (List.cons_ne_nil _ _) (List.cons.inj tails).2
          rw [rest]

/-! ## Text -/

/-- What a marker behind a backslash stands for. -/
def unmark (marker : Char) : Char := (textUnescape marker).getD marker

theorem unmark_of_textEscape {c : Char} {escaped : Text} (h : textEscape c = some escaped) :
    ∃ marker, escaped = ['\\', marker] ∧ unmark marker = c := by
  simp only [textEscape] at h
  split_ifs at h with backslash b f n r t v
  all_goals
    obtain rfl := Option.some.inj h
    subst c
    exact ⟨_, rfl, rfl⟩

theorem textEscape_backslash : textEscape '\\' = some ['\\', '\\'] := rfl

/-- What is written for a character, where no marker stands for two. -/
inductive Shape (o : CopyOptions) (c : Char) : Prop where
  | marked (marker : Char) (written : escapeText o c = ['\\', marker]) (marks : unmark marker = c)
  | plain (written : escapeText o c = [c]) (other : c ≠ '\\') (field : c ≠ o.delimiter)

theorem shape (apart : o.delimiter ∉ escapeLetters) (c : Char) : Shape o c := by
  cases known : textEscape c with
  | some escaped =>
    obtain ⟨marker, rfl, marks⟩ := unmark_of_textEscape known
    exact .marked marker (by simp only [escapeText, known]) marks
  | none =>
    by_cases delimiter : c = o.delimiter
    · rw [← delimiter] at apart
      simp only [escapeLetters, List.mem_cons, List.not_mem_nil, or_false, not_or] at apart
      obtain ⟨-, b, f, n, r, t, v⟩ := apart
      refine .marked c (by simp only [escapeText, known, if_pos delimiter]) ?_
      simp only [unmark, textUnescape, if_neg b, if_neg f, if_neg n, if_neg r, if_neg t, if_neg v,
        Option.getD_none]
    · refine .plain (by simp only [escapeText, known, if_neg delimiter]) ?_ delimiter
      rintro rfl
      rw [textEscape_backslash] at known
      cases known

theorem cancels_escapeText (apart : o.delimiter ∉ escapeLetters) :
    Cancels (escapeText o) fun _ => True := by
  intro a b x y _ _ same
  cases shape apart a with
  | marked marker written marks =>
    cases shape apart b with
    | marked marker' written' marks' =>
      rw [written, written'] at same
      obtain ⟨rfl, rfl⟩ : marker = marker' ∧ x = y := by simpa using same
      exact ⟨marks.symm.trans marks', rfl⟩
    | plain written' other' =>
      rw [written, written'] at same
      exact absurd (List.cons.inj same).1.symm other'
  | plain written other =>
    cases shape apart b with
    | marked marker' written' marks' =>
      rw [written, written'] at same
      exact absurd (List.cons.inj same).1 other
    | plain written' other' =>
      rw [written, written'] at same
      exact List.cons.inj same

theorem cancels_textField (format : o.format = .text) (apart : o.delimiter ∉ escapeLetters) :
    Cancels (fun value => field o (some value)) fun tail => ∃ more, tail = behind o more := by
  have written :
      (fun value => field o (some value)) = fun value => value.flatMap (escapeText o) := by
    funext value
    rw [field, format]
    rfl
  rw [written]
  refine Cancels.flatMap (cancels_escapeText apart) fun c x => ?_
  rintro ⟨more, begins⟩
  have head := @head_behind o more
  rw [← begins] at head
  cases shape apart c with
  | marked marker written marks =>
    rw [written] at head
    have backslash : '\\' = o.delimiter := head '\\' rfl
    exact apart (backslash ▸ List.mem_cons_self)
  | plain written other field =>
    rw [written] at head
    exact field (head c rfl)

/-- A delimiter that is a letter of an escape is escaped as what the letter stands for. -/
theorem text_collision (format : o.format = .text) (letter : o.delimiter ∈ escapeLetters) :
    ∃ row row' : List Text, row ≠ [] ∧ row' ≠ [] ∧ row ≠ row' ∧
      line o (row.map some) = line o (row'.map some) := by
  obtain ⟨fmt, delimiter, nullString, header, quote, escape⟩ := o
  obtain rfl : fmt = .text := format
  have marker : delimiter ≠ '\\' → ∃ c, textUnescape delimiter = some c ∧
      textEscape c = some ['\\', delimiter] ∧ textEscape delimiter = none ∧ c ≠ delimiter := by
    intro other
    simp only [escapeLetters, List.mem_cons, List.not_mem_nil, or_false] at letter
    rcases letter with rfl | rfl | rfl | rfl | rfl | rfl | rfl
    · exact absurd rfl other
    all_goals exact ⟨_, rfl, rfl, rfl, by decide⟩
  by_cases backslash : delimiter = '\\'
  · subst backslash
    exact ⟨[[], ['n']], [['\n']], by decide, by decide, by decide, rfl⟩
  · obtain ⟨c, _, written, raw, other⟩ := marker backslash
    refine ⟨[[c]], [[delimiter]], by simp, by simp, by simpa using other, ?_⟩
    simp [line, join, field, textField, escapeText, written, raw]

/-! ## CSV -/

theorem csvField_quoted {value : Text} (needs : needsQuotes o value = true) :
    csvField o (some value) = o.quote :: (value.flatMap (escapeCsv o) ++ [o.quote]) := by
  rw [csvField, if_pos needs]

theorem csvField_bare {value : Text} (bare : needsQuotes o value = false) :
    csvField o (some value) = value ∧ Harmless o value ∧ value ≠ o.nullString := by
  have parts := bare
  simp only [needsQuotes, Bool.or_eq_false_iff, decide_eq_false_iff_not] at parts
  obtain ⟨⟨⟨⟨null, delimiter⟩, quote⟩, newline⟩, carriageReturn⟩ := parts
  exact ⟨by simp [csvField, bare], ⟨delimiter, quote, newline, carriageReturn⟩, null⟩

/-- What is written for a character in quotes. -/
inductive CsvShape (o : CopyOptions) (c : Char) : Prop where
  | special (written : escapeCsv o c = [o.escape, c]) (is : o.escape = o.quote → c = o.quote)
  | plain (written : escapeCsv o c = [c]) (quote : c ≠ o.quote) (escape : c ≠ o.escape)

theorem csvShape (o : CopyOptions) (c : Char) : CsvShape o c := by
  by_cases special : c = o.quote ∨ c = o.escape
  · refine .special (by rw [escapeCsv, if_pos special]) fun same => ?_
    rcases special with quote | escape
    · exact quote
    · exact escape.trans same
  · rw [not_or] at special
    exact .plain (by rw [escapeCsv, if_neg (not_or.mpr special)]) special.1 special.2

theorem cancels_escapeCsv (o : CopyOptions) : Cancels (escapeCsv o) fun _ => True := by
  intro a b x y _ _ same
  cases csvShape o a with
  | special written =>
    cases csvShape o b with
    | special written' =>
      rw [written, written'] at same
      simpa using same
    | plain written' quote escape =>
      rw [written, written'] at same
      exact absurd (List.cons.inj same).1.symm escape
  | plain written quote escape =>
    cases csvShape o b with
    | special written' =>
      rw [written, written'] at same
      exact absurd (List.cons.inj same).1 escape
    | plain written' =>
      rw [written, written'] at same
      exact List.cons.inj same

/-- The closing quote, followed by no second one where that would be an escaped quote. -/
def Closes (o : CopyOptions) (tail : Text) : Prop :=
  ∃ rest, tail = o.quote :: rest ∧ (o.escape = o.quote → rest.head? ≠ some o.quote)

theorem cancels_body (o : CopyOptions) :
    Cancels (fun value : Text => value.flatMap (escapeCsv o)) (Closes o) := by
  refine Cancels.flatMap (cancels_escapeCsv o) fun c x => ?_
  rintro ⟨rest, begins, single⟩
  cases csvShape o c with
  | special written is =>
    rw [written, List.cons_append, List.cons.injEq] at begins
    obtain ⟨same, rfl⟩ := begins
    exact single same (congrArg some (is same))
  | plain written quote =>
    rw [written, List.cons_append, List.cons.injEq] at begins
    exact quote begins.1

theorem closes_behind (apart : CsvApart o) (more : List Text) :
    Closes o (o.quote :: behind o more) := by
  refine ⟨behind o more, rfl, fun same head => ?_⟩
  have delimiter := head_behind more o.quote head
  rcases apart with other | ⟨separate, -⟩
  · exact other delimiter.symm
  · exact separate same

/-- A text without quote or escape that runs up to the first quote of a quoted body is that body. -/
theorem eq_of_body {text value tail rest : Text} (quote : o.quote ∉ text) (escape : o.escape ∉ text)
    (separate : o.escape ≠ o.quote) (stops : ∀ c ∈ tail.head?, c = o.quote)
    (same : text ++ tail = value.flatMap (escapeCsv o) ++ o.quote :: rest) : text = value := by
  induction value generalizing text with
  | nil =>
    cases text with
    | nil => rfl
    | cons a text => exact absurd ((List.cons.inj same).1 ▸ List.mem_cons_self) quote
  | cons c value ih =>
    rw [List.flatMap_cons, List.append_assoc] at same
    cases csvShape o c with
    | special written =>
      rw [written] at same
      cases text with
      | nil =>
        rw [List.nil_append] at same
        rw [same] at stops
        exact absurd (stops o.escape rfl) separate
      | cons a text => exact absurd ((List.cons.inj same).1 ▸ List.mem_cons_self) escape
    | plain written other =>
      rw [written] at same
      cases text with
      | nil =>
        rw [List.nil_append] at same
        rw [same] at stops
        exact absurd (stops c rfl) other
      | cons a text =>
        rw [List.mem_cons, not_or] at quote escape
        obtain ⟨rfl, tails⟩ := List.cons.inj same
        rw [ih quote.2 escape.2 tails]

/-- A quoted field is not read as one without quotes. -/
theorem bare_ne_quoted (format : o.format = .csv) (apart : CsvApart o) {value value' : Text}
    (bare : needsQuotes o value = false) (needs : needsQuotes o value' = true) (more : List Text)
    (tail : Text) : value ++ behind o more ≠ csvField o (some value') ++ tail := by
  intro same
  rw [csvField_quoted needs, List.cons_append, List.append_assoc, List.singleton_append] at same
  obtain ⟨-, harmless, null⟩ := csvField_bare bare
  cases value with
  | cons c value => exact harmless.quote ((List.cons.inj same).1 ▸ List.mem_cons_self)
  | nil =>
    have head := @head_behind o more
    rw [List.nil_append] at same
    rw [same] at head
    have delimiter : o.quote = o.delimiter := head o.quote rfl
    obtain ⟨separate, ends⟩ : o.escape ≠ o.quote ∧ (o.escape = '\n' ∨ o.escape = '\r') := by
      rcases apart with other | ⟨separate, empty | ends⟩
      · exact absurd delimiter.symm other
      · exact absurd empty.symm null
      · exact ⟨separate, ends⟩
    cases more with
    | nil => cases same
    | cons next more =>
      have body := (List.cons.inj same).2
      rw [line_cons, field, format] at body
      simp only at body
      cases needs' : needsQuotes o next with
      | true =>
        -- The next field begins with a quote, and no body does.
        rw [csvField_quoted needs'] at body
        cases value' with
        | nil => exact null (by simpa [needsQuotes] using needs)
        | cons c value' =>
          rw [List.flatMap_cons] at body
          cases csvShape o c with
          | special written =>
            rw [written] at body
            exact separate (List.cons.inj body).1.symm
          | plain written quote =>
            rw [written] at body
            exact quote (List.cons.inj body).1.symm
      | false =>
        obtain ⟨written, plain, _⟩ := csvField_bare needs'
        have escape : o.escape ∉ next := by
          rcases ends with newline | carriageReturn
          · exact newline ▸ plain.newline
          · exact carriageReturn ▸ plain.carriageReturn
        have stops : ∀ c ∈ (behind o more).head?, c = o.quote := fun c inside =>
          (head_behind more c inside).trans delimiter.symm
        rw [written] at body
        rw [eq_of_body plain.quote escape separate stops body, needs] at needs'
        cases needs'

theorem cancels_csvField (format : o.format = .csv) (apart : CsvApart o) :
    Cancels (fun value => field o (some value)) fun tail => ∃ more, tail = behind o more := by
  have written : field o = csvField o := by
    funext f
    rw [field, format]
  rw [written]
  rintro value value' x y ⟨more, rfl⟩ ⟨more', rfl⟩ same
  cases needs : needsQuotes o value with
  | true =>
    cases needs' : needsQuotes o value' with
    | true =>
      simp only [csvField_quoted needs, csvField_quoted needs', List.cons_append, List.append_assoc,
        List.cons.injEq, true_and] at same
      obtain ⟨rfl, tails⟩ :=
        cancels_body o (closes_behind apart more) (closes_behind apart more') same
      exact ⟨rfl, (List.cons.inj tails).2⟩
    | false =>
      obtain ⟨shown, -, -⟩ := csvField_bare needs'
      simp only [shown] at same
      exact absurd same.symm (bare_ne_quoted format apart needs' needs more' _)
  | false =>
    obtain ⟨shown, harmless, -⟩ := csvField_bare needs
    simp only [shown] at same
    cases needs' : needsQuotes o value' with
    | true => exact absurd same (bare_ne_quoted format apart needs needs' more _)
    | false =>
      obtain ⟨shown', harmless', -⟩ := csvField_bare needs'
      rw [shown'] at same
      exact cancels_of_not_mem harmless.delimiter harmless'.delimiter (head_behind more)
        (head_behind more') same

/-- A quote that is also the delimiter: fields are taken for parts of one, or empty fields for
its quotes. -/
theorem csv_collision (format : o.format = .csv) (mixed : ¬ CsvApart o) :
    ∃ row row' : List Text, row ≠ [] ∧ row' ≠ [] ∧ row ≠ row' ∧
      line o (row.map some) = line o (row'.map some) := by
  obtain ⟨fmt, delimiter, nullString, header, quote, escape⟩ := o
  obtain rfl : fmt = .csv := format
  simp only [CsvApart, not_or, not_not, not_and] at mixed
  obtain ⟨rfl, mixed⟩ := mixed
  by_cases doubled : escape = delimiter
  · subst doubled
    by_cases empty : nullString = []
    · subst empty
      refine ⟨[[escape, escape, escape]], [[], [], []], by simp, by simp, by simp, ?_⟩
      simp [line, join, field, csvField, needsQuotes, escapeCsv]
    · refine ⟨[[escape]], [[], [], [], [], []], by simp, by simp, by simp, ?_⟩
      simp [line, join, field, csvField, needsQuotes, escapeCsv, Ne.symm empty]
  · obtain ⟨filled, newline, carriageReturn⟩ := mixed doubled
    by_cases one : nullString = [escape]
    · subst one
      refine ⟨[[escape, delimiter]], [[], [escape, escape, escape], [], []], by simp, by simp,
        by simp, ?_⟩
      simp [line, join, field, csvField, needsQuotes, escapeCsv, Ne.symm doubled,
        Ne.symm newline, Ne.symm carriageReturn]
    · refine ⟨[[delimiter]], [[], [escape], [], []], by simp, by simp, by simp, ?_⟩
      simp [line, join, field, csvField, needsQuotes, escapeCsv, Ne.symm doubled,
        Ne.symm newline, Ne.symm carriageReturn, Ne.symm filled, Ne.symm one]

/-- No two rows look alike exactly where the options are told apart. -/
theorem unambiguous_iff (o : CopyOptions) : Unambiguous o ↔ ToldApart o := by
  have settle : ∀ {apart : Prop},
      (apart → Cancels (fun value => field o (some value)) fun tail => ∃ more, tail = behind o more) →
      (¬ apart → ∃ row row' : List Text, row ≠ [] ∧ row' ≠ [] ∧ row ≠ row' ∧
        line o (row.map some) = line o (row'.map some)) → (Unambiguous o ↔ apart) := by
    intro apart cancels collision
    rw [unambiguous_iff_lines]
    constructor
    · intro known
      by_contra mixed
      obtain ⟨row, row', some_field, some_field', different, same⟩ := collision mixed
      exact different (known row row' some_field some_field' same)
    · intro holds row row' some_field some_field' same
      exact line_inj_of_cancels (cancels holds) some_field some_field' same
  cases format : o.format with
  | text =>
    rw [ToldApart, format]
    exact settle (cancels_textField format) fun letter => text_collision format (not_not.mp letter)
  | csv =>
    rw [ToldApart, format]
    exact settle (cancels_csvField format) (csv_collision format)

end PgMimic.Copy

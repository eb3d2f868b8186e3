import PgMimic.Copy

/-!
# COPY data in pieces

The decoder keeps the bytes of a truncated character and the text of an
undecided record, and both are looked at again when more arrives. After any
number of pieces its state is the one the whole of them would have left, so the
rows of a COPY depend on its bytes and not on the CopyData messages.
-/

namespace PgMimic.Copy

/-- The rows of a whole text. -/
def textRows (o : CopyOptions) (text : Text) : List Row :=
  let (rows, progress, pending) := consume o ⟨false, o.header⟩ text
  rows ++ CopyInDecoder.leftover o progress pending

theorem consume_append (o : CopyOptions) (p : Progress) (text more : Text) :
    consume o p (text ++ more) =
      ((consume o p text).1 ++
          (consume o (consume o p text).2.1 ((consume o p text).2.2 ++ more)).1,
        (consume o (consume o p text).2.1 ((consume o p text).2.2 ++ more)).2) :=
  @Splitter.consume_append _ _ _ _ (records o) (reader o) p text more

namespace CopyInDecoder

/-- The decoder has been fed these bytes and has returned these rows. -/
def Fed (o : CopyOptions) (bytes : List UInt8) (rows : List Row) (d : CopyInDecoder) : Prop :=
  d.held = Utf8.left bytes ∧
    consume o ⟨false, o.header⟩ (Utf8.completed bytes) = (rows, d.progress, d.pending)

theorem start_fed (o : CopyOptions) : Fed o [] [] (start o) :=
  ⟨rfl, Splitter.consume_of_next_none rfl (records o).next_nil⟩

theorem Fed.feed {o : CopyOptions} {text : Text} {before piece : List UInt8} {rows : List Row}
    {d : CopyInDecoder} (h : Fed o before rows d) (valid : before ++ piece <+: Utf8.encode text) :
    ∃ now d', d.feed o piece = some (now, d') ∧ Fed o (before ++ piece) (rows ++ now) d' := by
  obtain ⟨held, consumed⟩ := h
  obtain ⟨arrived, decoded, completed⟩ := Utf8.decode_of_prefix valid
  have law := consume_append o ⟨false, o.header⟩ (Utf8.completed before) arrived
  rw [← completed, consumed] at law
  have fed : d.feed o piece =
      some ((consume o d.progress (d.pending ++ arrived)).1,
        ⟨Utf8.left (before ++ piece), (consume o d.progress (d.pending ++ arrived)).2.2,
          (consume o d.progress (d.pending ++ arrived)).2.1⟩) := by
    rw [CopyInDecoder.feed, held, decoded]
    rfl
  exact ⟨_, _, fed, rfl, law⟩

theorem Fed.finish {o : CopyOptions} {text : Text} {rows : List Row} {d : CopyInDecoder}
    (h : Fed o (Utf8.encode text) rows d) :
    ∃ later, d.finish o = some later ∧ rows ++ later = textRows o text := by
  obtain ⟨held, consumed⟩ := h
  rw [Utf8.left_encode] at held
  rw [Utf8.completed_encode] at consumed
  have settled : consume o d.progress d.pending = ([], d.progress, d.pending) := by
    have law := @Splitter.consume_left _ _ _ _ (records o) (reader o) ⟨false, o.header⟩ text
    change consume o (consume o ⟨false, o.header⟩ text).2.1
      (consume o ⟨false, o.header⟩ text).2.2 = ([], (consume o ⟨false, o.header⟩ text).2) at law
    rw [consumed] at law
    exact law
  refine ⟨leftover o d.progress d.pending, ?_, ?_⟩
  · rw [CopyInDecoder.finish, if_pos held, settled]
    rfl
  · rw [textRows, consumed]

theorem Fed.decode {o : CopyOptions} {text : Text} {pieces : List (List UInt8)}
    {before : List UInt8} {rows : List Row} {d : CopyInDecoder} (h : Fed o before rows d)
    (whole : before ++ pieces.flatten = Utf8.encode text) :
    ∃ later, d.decode o pieces = some later ∧ rows ++ later = textRows o text := by
  induction pieces generalizing before rows d with
  | nil =>
    rw [List.flatten_nil, List.append_nil] at whole
    rw [whole] at h
    exact h.finish
  | cons piece pieces ih =>
    rw [List.flatten_cons, ← List.append_assoc] at whole
    obtain ⟨now, d', fed, h'⟩ := h.feed ⟨pieces.flatten, whole⟩
    obtain ⟨later, decoded, same⟩ := ih h' whole
    refine ⟨now ++ later, ?_, ?_⟩
    · simp only [CopyInDecoder.decode, fed, Option.bind_some, decoded, Option.map_some]
    · rw [← List.append_assoc, same]

end CopyInDecoder

/-- The rows of a COPY are those of its text, however the bytes were cut. -/
theorem rowsOf_eq_textRows {o : CopyOptions} {text : Text} {pieces : List (List UInt8)}
    (whole : pieces.flatten = Utf8.encode text) : rowsOf o pieces = some (textRows o text) := by
  obtain ⟨later, decoded, same⟩ := (CopyInDecoder.start_fed o).decode whole
  rw [rowsOf, decoded, ← same, List.nil_append]

/-- For every option, every valid UTF-8 byte string and every way of cutting it, the rows
returned piece by piece and at the end are those of the bytes fed whole. -/
theorem rowsOf_any_cut (o : CopyOptions) {bytes : List UInt8} {pieces : List (List UInt8)}
    (valid : bytes.toByteArray.IsValidUTF8) (cut : pieces.flatten = bytes) :
    ∃ rows, rowsOf o pieces = some rows ∧ rowsOf o [bytes] = some rows := by
  obtain ⟨text, encoded⟩ := valid
  have whole : bytes = Utf8.encode text := List.toByteArray_inj.mp encoded
  refine ⟨textRows o text, rowsOf_eq_textRows (cut.trans whole), rowsOf_eq_textRows ?_⟩
  rw [List.flatten_singleton, whole]

/-- Cut inside the two bytes of a character, as well as inside a row. -/
theorem rowsOf_any_cut_in_character :
    ∃ rows, rowsOf {} [[49, 9, 115, 110, 195], [182, 119, 10, 50, 9, 120, 10]] = some rows ∧
      rowsOf {} [[49, 9, 115, 110, 195, 182, 119, 10, 50, 9, 120, 10]] = some rows :=
  rowsOf_any_cut {} ⟨['1', '\t', 's', 'n', 'ö', 'w', '\n', '2', '\t', 'x', '\n'], by decide⟩ rfl

end PgMimic.Copy

import PgMimic.CopySpelling
import PgMimic.Patterns

/-!
# Identifiers

An identifier as PostgreSQL spells it, against `_IDENT`, which has no dollar sign outside
quotes and no doubled quote inside them.
-/

namespace PgMimic.StatementText

open PgMimic.Copy (Text)
open PgMimic.Endpoint (TextTables doubled)
open PgMimic.Patterns

/-- Letters, digits and underscores, those that `\w` matches, and dollar signs; or any text in
double quotes, with the quotes in it doubled. A letter that is none to `\w`, a combining mark,
is as far from the patterns as a dollar sign. -/
inductive Identifier (t : TextTables) where
  | unquoted (name : Text) (some_ : name ≠ []) (letters : ∀ c ∈ name, t.isWord c = true ∨ c = '$')
  | quoted (name : Text) (some_ : name ≠ [])

namespace Identifier

variable {t : TextTables}

def spelling : Identifier t → Text
  | unquoted name _ _ => name
  | quoted name _ => '"' :: (doubled '"' name ++ ['"'])

def isQuoted : Identifier t → Bool
  | unquoted _ _ _ => false
  | quoted _ _ => true

/-- There is no dollar sign in it, or no doubled quote. -/
def Plain : Identifier t → Prop
  | unquoted name _ _ => '$' ∉ name
  | quoted name _ => '"' ∉ name

end Identifier

section Runs

variable {p : Char → Bool} {run rest : Text}

theorem takeWhile_run (all : ∀ c ∈ run, p c = true) (stops : ∀ c ∈ rest.head?, p c = false) :
    (run ++ rest).takeWhile p = run ∧ (run ++ rest).dropWhile p = rest := by
  rw [List.takeWhile_append_of_pos all, List.dropWhile_append_of_pos all]
  cases rest with
  | nil => simp
  | cons c rest =>
    have stop := stops c rfl
    simp [stop]

/-- What stands behind an optional word is tried with the word, and then without. -/
theorem findSome?_pair (g : Text → Option Text) (behind : Option Text) (text : Text) :
    [behind, some text].findSome? (fun rest => rest.bind g) = (behind.bind g).or (g text) := by
  rw [List.findSome?_cons, List.findSome?_cons, List.findSome?_nil, Option.bind_some]
  cases behind.bind g with
  | some name => rfl
  | none => cases g text <;> rfl

end Runs

section Reading

variable {t : TextTables} {text rest name after : Text}

theorem quotedIdent_of_head (other : '"' ∉ text.head?) : quotedIdent text = none := by
  unfold quotedIdent
  split
  · exact absurd rfl other
  · rfl

/-- A quoted run is read up to its first quote. -/
theorem quotedIdent_run {run : Text} (bare : '"' ∉ run) :
    quotedIdent ('"' :: (run ++ '"' :: rest)) =
      if run = [] then none else some ('"' :: run ++ ['"'], rest) := by
  have reads : (run ++ '"' :: rest).takeWhile (· ≠ '"') = run ∧
      (run ++ '"' :: rest).dropWhile (· ≠ '"') = '"' :: rest := by
    refine takeWhile_run (fun c member => ?_) (fun c member => ?_)
    · exact decide_eq_true fun same => bare (same ▸ member)
    · obtain rfl := Option.some.inj member
      simp
  simp only [quotedIdent, reads.1, reads.2]

theorem ident_of_head (tables : WordTables t) :
    ident t ('"' :: text) = quotedIdent ('"' :: text) := by
  have bare : t.isWord '"' = false := tables.ascii '"' (by decide)
  rw [ident, List.takeWhile_cons_of_neg (by simp [bare])]
  cases quotedIdent ('"' :: text) <;> rfl

theorem ident_of_bare (other : '"' ∉ text.head?) :
    ident t text = if text.takeWhile t.isWord = [] then none
      else some (text.takeWhile t.isWord, text.dropWhile t.isWord) := by
  rw [ident, quotedIdent_of_head other]
  rfl

theorem Identifier.letter_solid {name : Text} (tables : WordTables t)
    (letters : ∀ c ∈ name, t.isWord c = true ∨ c = '$') :
    ∀ c ∈ name, isSpace c = false ∧ c ≠ ';' := by
  intro c member
  rcases letters c member with word | rfl
  · constructor
    · by_contra space
      rw [Bool.not_eq_false] at space
      rw [tables.space c space] at word
      cases word
    · rintro rfl
      rw [tables.ascii ';' (by decide)] at word
      cases word
  · exact ⟨rfl, by decide⟩

/-- An identifier does not begin with what ends a statement. -/
theorem Identifier.begun (tables : WordTables t) (id : Identifier t) :
    ∃ c later, id.spelling = c :: later ∧ isSpace c = false ∧ c ≠ ';' := by
  cases id with
  | unquoted name some_ letters =>
    obtain ⟨c, later, rfl⟩ := List.exists_cons_of_ne_nil some_
    exact ⟨c, later, rfl, letter_solid tables letters c (by simp)⟩
  | quoted name some_ => exact ⟨'"', _, rfl, rfl, by decide⟩

theorem Identifier.solid_last (tables : WordTables t) (id : Identifier t) :
    ∀ c ∈ id.spelling.getLast?, isSpace c = false := by
  cases id with
  | unquoted name some_ letters =>
    intro c member
    exact (letter_solid tables letters c (List.mem_of_getLast? member)).1
  | quoted name some_ =>
    change ∀ c ∈ ('"' :: doubled '"' name ++ ['"']).getLast?, isSpace c = false
    rw [List.getLast?_concat]
    intro c member
    obtain rfl := Option.some.inj member
    rfl

theorem Identifier.unquoted_head {name : Text} (tables : WordTables t) (some_ : name ≠ [])
    (letters : ∀ c ∈ name, t.isWord c = true ∨ c = '$') : '"' ∉ (name ++ rest).head? := by
  obtain ⟨c, later, rfl⟩ := List.exists_cons_of_ne_nil some_
  intro quote
  obtain rfl := Option.some.inj quote
  rcases letters '"' (by simp) with word | same
  · rw [tables.ascii '"' (by decide)] at word
    cases word
  · cases same

/-- A plain identifier is read whole. -/
theorem ident_plain (tables : WordTables t) (id : Identifier t) (plain : id.Plain)
    (stops : ∀ c ∈ rest.head?, t.isWord c = false) :
    ident t (id.spelling ++ rest) = some (id.spelling, rest) := by
  cases id with
  | unquoted name some_ letters =>
    have words : ∀ c ∈ name, t.isWord c = true := by
      intro c member
      rcases letters c member with word | rfl
      · exact word
      · exact absurd member plain
    obtain ⟨taken, left⟩ := takeWhile_run words stops
    change ident t (name ++ rest) = some (name, rest)
    rw [ident_of_bare (Identifier.unquoted_head tables some_ letters), taken, left, if_neg some_]
  | quoted name some_ =>
    have same : doubled '"' name = name := Endpoint.doubled_eq_self plain
    change ident t ('"' :: (doubled '"' name ++ ['"']) ++ rest) =
      some ('"' :: (doubled '"' name ++ ['"']), rest)
    rw [same, List.cons_append, List.append_assoc, List.cons_append, List.nil_append,
      ident_of_head tables, quotedIdent_run plain, if_neg some_]
    rfl

/-- Any other is not: what is left begins with the dollar sign, or the second quote. -/
theorem ident_not_plain (tables : WordTables t) (id : Identifier t) (other : ¬id.Plain)
    (found : ident t (id.spelling ++ rest) = some (name, after)) :
    ∃ c later, after = c :: later ∧ (c = '$' ∨ c = '"') := by
  cases id with
  | unquoted name' some_ letters =>
    have dollar : '$' ∈ name' := not_not.mp other
    obtain ⟨before, behind, rfl, bare⟩ := List.eq_append_cons_of_mem dollar
    have words : ∀ c ∈ before, t.isWord c = true := by
      intro c member
      rcases letters c (by simp [member]) with word | rfl
      · exact word
      · exact absurd member bare
    have stop : t.isWord '$' = false := tables.ascii '$' (by decide)
    have stops : ∀ c ∈ ('$' :: (behind ++ rest)).head?, t.isWord c = false := by
      intro c member
      obtain rfl := Option.some.inj member
      exact stop
    obtain ⟨taken, left⟩ := takeWhile_run words stops
    change ident t ((before ++ '$' :: behind) ++ rest) = some (name, after) at found
    rw [ident_of_bare (Identifier.unquoted_head tables some_ letters), List.append_assoc,
      List.cons_append, taken, left] at found
    split at found
    · cases found
    · cases found
      exact ⟨'$', _, rfl, Or.inl rfl⟩
  | quoted name' some_ =>
    have quote : '"' ∈ name' := not_not.mp other
    obtain ⟨before, behind, rfl, bare⟩ := List.eq_append_cons_of_mem quote
    have text :
        (Identifier.quoted (before ++ '"' :: behind) some_ : Identifier t).spelling ++ rest =
        '"' :: (before ++ '"' :: ('"' :: (doubled '"' behind ++ '"' :: rest))) := by
      change '"' :: (doubled '"' (before ++ '"' :: behind) ++ ['"']) ++ rest = _
      rw [Endpoint.doubled_append, Endpoint.doubled_eq_self bare, Endpoint.doubled_cons_quote]
      simp
    rw [text, ident_of_head tables, quotedIdent_run bare] at found
    split at found
    · cases found
    · cases found
      exact ⟨'"', _, rfl, Or.inr rfl⟩

end Reading

/-! ## Where a statement ends with one -/

/-- A semicolon with white space in front of it, or nothing. -/
inductive Closing : Text → Prop where
  | nothing : Closing []
  | semicolon {before : Text} (blank : ∀ c ∈ before, isSpace c = true) : Closing (before ++ [';'])

/-- No letter of the word is white space, or a sign that names and statements have. -/
def unmarked (letters : String) : Bool :=
  letters.toList.all fun c => !isSpace c && c ≠ ';' && c ≠ '"' && c ≠ '$'

theorem of_unmarked {letters : String} (marks : unmarked letters = true) :
    ∀ c ∈ letters.toList, isSpace c = false ∧ c ≠ ';' ∧ c ≠ '"' ∧ c ≠ '$' := by
  intro c member
  have bare := List.all_eq_true.mp marks c member
  simp only [Bool.and_eq_true, Bool.not_eq_true', decide_eq_true_eq] at bare
  exact ⟨bare.1.1.1, bare.1.1.2, bare.1.2, bare.2⟩

section Ends

variable {t : TextTables} {closing text rest : Text}

theorem ends_closing (closed : Closing closing) : ends closing = true := by
  cases closed with
  | nothing => rfl
  | semicolon blank =>
    rw [ends, List.dropWhile_append_of_pos blank]
    rfl

theorem Closing.head (closed : Closing closing) :
    ∀ c ∈ closing.head?, isSpace c = true ∨ c = ';' := by
  intro c member
  cases closed with
  | nothing => cases member
  | @semicolon before blank =>
    cases before with
    | nil => exact Or.inr (Option.some.inj member).symm
    | cons a before =>
      obtain rfl := Option.some.inj member
      exact Or.inl (blank a (by simp))

theorem stops_closing (tables : WordTables t) (closed : Closing closing) :
    ∀ c ∈ closing.head?, t.isWord c = false := by
  intro c member
  rcases closed.head c member with space | rfl
  · exact tables.space c space
  · exact tables.ascii ';' (by decide)

/-- A statement does not end in front of what is neither white space nor a semicolon. -/
theorem ends_eq_false {run : Text} {c : Char} (blank : ∀ a ∈ run, isSpace a = true)
    (solid : isSpace c = false) (other : c ≠ ';') : ends (run ++ c :: rest) = false := by
  rw [ends, List.dropWhile_append_of_pos blank, List.dropWhile_cons_of_neg (by simp [solid])]
  split
  · next same => exact absurd (List.cons.inj same).1 other
  · rfl

theorem ends_cons_eq_false {c : Char} (solid : isSpace c = false) (other : c ≠ ';') :
    ends (c :: rest) = false := by
  have nothing : ∀ a ∈ ([] : Text), isSpace a = true := by simp
  exact ends_eq_false nothing solid other

theorem lastIdent_eq_none
    (open_ : ∀ name after, ident t text = some (name, after) → ends after = false) :
    lastIdent t text = none := by
  rw [lastIdent]
  cases found : ident t text with
  | none => rfl
  | some both =>
    obtain ⟨name, after⟩ := both
    simp [open_ name after found]

/-- The name at the end of a statement is read if and only if it is plain. -/
theorem lastIdent_spelling (tables : WordTables t) (id : Identifier t) (closed : Closing closing) :
    (lastIdent t (id.spelling ++ closing)).isSome = true ↔ id.Plain := by
  constructor
  · intro found
    by_contra other
    rw [lastIdent_eq_none] at found
    · cases found
    · intro name after read
      obtain ⟨c, later, rfl, same⟩ := ident_not_plain tables id other read
      have solid : isSpace c = false ∧ c ≠ ';' := by
        rcases same with rfl | rfl <;> exact ⟨rfl, by decide⟩
      exact ends_cons_eq_false solid.1 solid.2
  · intro plain
    rw [lastIdent, ident_plain tables id plain (stops_closing tables closed)]
    simp [ends_closing closed]

/-- A word with something behind it is no name at the end of a statement. -/
theorem lastIdent_word {letters : String} {read gap : Text} {c : Char}
    (reads : Reads letters read) (some_ : read ≠ [])
    (marks : unmarked letters = true)
    (blank : ∀ a ∈ gap, isSpace a = true) (begun : isSpace c = false) (other : c ≠ ';')
    (stops : ∀ a ∈ (gap ++ c :: rest).head?, t.isWord a = false) :
    lastIdent t (read ++ (gap ++ c :: rest)) = none := by
  have solid : ∀ a ∈ read, isSpace a = false ∧ a ≠ ';' ∧ a ≠ '"' := by
    intro a member
    have folded : foldCase a ∈ letters.toList := by
      rw [← show read.map foldCase = letters.toList from reads]
      exact List.mem_map_of_mem member
    obtain ⟨bare, semicolon, quote, _⟩ := of_unmarked marks _ folded
    refine ⟨?_, ?_, ?_⟩
    · by_contra space
      rw [Bool.not_eq_false] at space
      rw [foldCase_of_isSpace space, space] at bare
      cases bare
    · rintro rfl
      exact semicolon rfl
    · rintro rfl
      exact quote rfl
  have unquoted : '"' ∉ (read ++ (gap ++ c :: rest)).head? := by
    obtain ⟨a, later, rfl⟩ := List.exists_cons_of_ne_nil some_
    intro quote
    exact (solid a (by simp)).2.2 (Option.some.inj quote)
  apply lastIdent_eq_none
  intro name after found
  rw [ident_of_bare unquoted] at found
  split at found
  · cases found
  · cases found
    by_cases whole : ∀ a ∈ read, t.isWord a = true
    · rw [(takeWhile_run whole stops).2]
      exact ends_eq_false blank begun other
    · -- it stops inside the word
      have inside : read.dropWhile t.isWord ≠ [] := by
        rw [ne_eq, List.dropWhile_eq_nil_iff]
        exact whole
      obtain ⟨a, later, split⟩ := List.exists_cons_of_ne_nil inside
      have member : a ∈ read := (List.dropWhile_suffix _).subset (by rw [split]; simp)
      rw [List.dropWhile_append, split]
      exact ends_cons_eq_false (solid a member).1 (solid a member).2.1

/-- A name that is not plain is no word. -/
theorem fold_not_plain {letters : String} (id : Identifier t) (other : ¬id.Plain)
    (marks : unmarked letters = true) : id.spelling.map foldCase ≠ letters.toList := by
  intro same
  cases id with
  | unquoted name some_ _ =>
    have inside : '$' ∈ letters.toList := by
      rw [← same]
      exact List.mem_map.mpr ⟨'$', not_not.mp other, rfl⟩
    exact absurd rfl (of_unmarked marks '$' inside).2.2.2
  | quoted name some_ =>
    have inside : '"' ∈ letters.toList := by
      rw [← same]
      exact List.mem_cons_self
    exact absurd rfl (of_unmarked marks '"' inside).2.2.1

/-- A name that is not the word may begin with it, but then neither white space nor a
semicolon follows. -/
theorem keyword_spelling {letters : String} {left : Text} (tables : WordTables t)
    (id : Identifier t) (marks : unmarked letters = true) (some_ : letters.toList ≠ [])
    (other : id.spelling.map foldCase ≠ letters.toList) (closed : Closing closing)
    (found : keyword letters.toList (id.spelling ++ closing) = some left) :
    ∃ c later, left = c :: later ∧ isSpace c = false ∧ c ≠ ';' := by
  cases id with
  | unquoted name some_ word =>
    have stops : ∀ c ∈ closing.head?, foldCase c ∉ letters.toList := by
      intro c member inside
      rcases closed.head c member with space | rfl
      · rw [foldCase_of_isSpace space] at inside
        rw [(of_unmarked marks c inside).1] at space
        cases space
      · exact absurd rfl (of_unmarked marks ';' inside).2.1
    obtain ⟨c, later, rfl, inside⟩ := keyword_name other stops found
    exact ⟨c, later, rfl, Identifier.letter_solid tables word c inside⟩
  | quoted name _ =>
    have first := prefix_of_keyword found
    obtain ⟨a, word, split⟩ := List.exists_cons_of_ne_nil some_
    rw [split] at first
    obtain rfl : a = '"' := (List.cons_prefix_cons.mp first).1
    exact absurd rfl (of_unmarked marks '"' (by rw [split]; simp)).2.2.1

theorem spaced_spelling {letters : String} (tables : WordTables t) (id : Identifier t)
    (marks : unmarked letters = true) (some_ : letters.toList ≠ [])
    (other : id.spelling.map foldCase ≠ letters.toList) (closed : Closing closing) :
    spaced letters.toList (id.spelling ++ closing) = none := by
  rw [spaced]
  cases found : keyword letters.toList (id.spelling ++ closing) with
  | none => rfl
  | some left =>
    obtain ⟨c, later, rfl, solid, _⟩ := keyword_spelling tables id marks some_ other closed found
    exact spaces_of_begun (begun_cons solid later)

end Ends

end PgMimic.StatementText

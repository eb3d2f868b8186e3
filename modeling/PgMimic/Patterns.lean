import PgMimic.Lib.Backtracking
import PgMimic.StatementText

/-!
# What the middleware's patterns are made of

The pieces that the regular expressions over raw SQL share: words in any case, white
space, identifiers, and the end of a statement.
-/

namespace PgMimic.Patterns

open Backtracking (Pattern)
open Backtracking.Pattern
open PgMimic.Copy (Text)
open PgMimic.Endpoint (TextTables)
open PgMimic.StatementText (keyword foldCase bounded)

/-- A word of a pattern whose case is ignored. -/
def word (letters : String) : Pattern Char Unit :=
  ⟨fun text => (keyword letters.toList text).toList.map fun rest => ((), rest)⟩

def sign (c : Char) : Pattern Char Unit := do let _ ← one (· = c)

/-- `\s*`. -/
def spaces : Pattern Char Unit := do let _ ← many isSpace

/-- `\s+`. -/
def gap : Pattern Char Unit := do let _ ← many1 isSpace

/-- `$`, which is also satisfied before a line feed that ends the text. -/
def dollar : Pattern Char Unit :=
  ⟨fun text => if text = [] ∨ text = ['\n'] then [((), text)] else []⟩

/-- `\s*;?\s*$`. -/
def ending : Pattern Char Unit := do
  spaces
  let _ ← optional (sign ';')
  spaces
  dollar

/-- `(.+?)\s*;?\s*$`. -/
def reluctant (ok : Char → Bool) : Pattern Char Text := do
  let value ← few1 ok
  ending
  pure value

/-- A run in double quotes, the quotes included. -/
def quoted (ok : Char → Bool) : Pattern Char Text := do
  sign '"'
  let name ← many1 ok
  sign '"'
  pure ('"' :: name ++ ['"'])

section Tables

variable (t : TextTables)

/-- `\b` behind a word. -/
def boundary : Pattern Char Unit :=
  ⟨fun text => if bounded t text then [((), text)] else []⟩

/-- `_IDENT`. -/
def ident : Pattern Char Text := either (quoted (· ≠ '"')) (many1 t.isWord)

/-- `_SETTING_NAME`. -/
def settingWord : Pattern Char Text :=
  either (quoted fun c => c ≠ '"' ∧ c ≠ '.') (many1 t.isWord)

end Tables

/-- What `\w` matches in ASCII, and that it matches no white space. -/
structure WordTables (t : TextTables) : Prop where
  ascii : ∀ c : Char, c.toNat < 128 → t.isWord c = (c.isAlphanum || c = '_')
  space : ∀ c : Char, isSpace c = true → t.isWord c = false

/-! ## Texts that patterns are matched with -/

/-- White space, at least some. -/
def Gap (text : Text) : Prop := text ≠ [] ∧ ∀ c ∈ text, isSpace c = true

/-- A word in any case. -/
def Reads (letters : String) (text : Text) : Prop := text.map foldCase = letters.toList

/-- A pattern's word is not empty and begins with no white space. -/
def Lettered (letters : String) : Prop := ∃ c rest, letters.toList = c :: rest ∧ isSpace c = false

/-- A text that does not begin with white space. -/
def Begun (text : Text) : Prop := ∀ c ∈ text.head?, isSpace c = false

theorem begun_cons {c : Char} (solid : isSpace c = false) (text : Text) : Begun (c :: text) := by
  intro d member
  obtain rfl : c = d := Option.some.inj member
  exact solid

/-- What holds of each of the characters of white space. -/
theorem of_isSpace {p : Char → Bool}
    (every : ([9, 10, 11, 12, 13, 28, 29, 30, 31, 32, 133, 160, 5760, 8192, 8193, 8194, 8195, 8196,
      8197, 8198, 8199, 8200, 8201, 8202, 8232, 8233, 8239, 8287, 12288] : List Nat).all
        (fun n => p (Char.ofNat n)) = true) {c : Char} (space : isSpace c = true) : p c = true := by
  rw [isSpace, decide_eq_true_eq] at space
  rw [← Char.ofNat_toNat c]
  exact List.all_eq_true.mp every _ space

/-- No character of ASCII that is printed is white space. -/
theorem isSpace_of_printed {c : Char} (range : 33 ≤ c.toNat ∧ c.toNat ≤ 126) :
    isSpace c = false := by
  simp only [isSpace, decide_eq_false_iff_not, List.mem_cons, List.not_mem_nil, or_false]
  omega

theorem isDigit_range {c : Char} (digit : c.isDigit = true) : 48 ≤ c.toNat ∧ c.toNat ≤ 57 := by
  simpa [Char.isDigit, UInt32.le_iff_toNat_le] using digit

/-- Only the small letters of ASCII have a capital there. -/
theorem toUpper_eq_self {c : Char} (other : ¬(97 ≤ c.toNat ∧ c.toNat ≤ 122)) : c.toUpper = c := by
  refine dif_neg fun lower => ?_
  simp only [UInt32.le_iff_toNat_le] at lower
  exact other lower

theorem foldCase_of_isSpace {c : Char} (space : isSpace c = true) : foldCase c = c := by
  have kept : ∀ {c : Char}, isSpace c = true → decide (foldCase c = c) = true :=
    fun space => of_isSpace (p := fun c => decide (foldCase c = c)) (by decide) space
  exact of_decide_eq_true (kept space)

theorem wordTables_ascii : WordTables Endpoint.asciiTables where
  ascii := fun _ _ => rfl
  space := by
    intro c space
    have bare : (!Endpoint.asciiTables.isWord c) = true :=
      of_isSpace (p := fun c => !Endpoint.asciiTables.isWord c) (by decide) space
    simpa using bare

theorem begun_of_reads {letters : String} {text rest : Text} (reads : Reads letters text)
    (lettered : Lettered letters) : Begun (text ++ rest) := by
  obtain ⟨c, word, spelled, solid⟩ := lettered
  rw [Reads, spelled] at reads
  obtain ⟨d, text, rfl, rfl, _⟩ := List.map_eq_cons_iff.mp reads
  apply begun_cons
  by_contra space
  rw [Bool.not_eq_false] at space
  rw [foldCase_of_isSpace space, space] at solid
  cases solid

section Steps

variable {γ : Type} {c : γ} {text rest : Text} {f : Unit → Pattern Char γ}

theorem mem_word {letters : String} {b : Unit} :
    (b, rest) ∈ (word letters).ways text ↔ keyword letters.toList text = some rest := by
  simp [word]

theorem keyword_append {letters : String} {read : Text} (reads : Reads letters read) :
    keyword letters.toList (read ++ text) = some text := by
  have length : letters.toList.length = read.length := by rw [← reads, List.length_map]
  rw [Reads] at reads
  rw [keyword, length, List.take_left' rfl, List.drop_left' rfl, if_pos reads]

theorem ways_word_bind {letters : String} {read : Text} (reads : Reads letters read) :
    (word letters >>= f).ways (read ++ text) = (f ()).ways text := by
  rw [ways_bind]
  simp only [word, keyword_append reads, Option.toList_some, List.map_cons, List.map_nil,
    List.flatMap_singleton]

theorem ways_word_of_none {letters : String} (other : keyword letters.toList text = none) :
    (word letters).ways text = [] := by
  simp [word, other]

theorem refuses_word {letters : String} (lettered : Lettered letters) :
    Refuses isSpace (word letters) := by
  obtain ⟨b, word, spelled, solid⟩ := lettered
  intro a text space
  have different : foldCase a ≠ b := by
    rintro rfl
    rw [foldCase_of_isSpace space, space] at solid
    cases solid
  apply ways_word_of_none
  simp [keyword, spelled, different]

theorem refuses_sign {a : Char} (solid : isSpace a = false) : Refuses isSpace (sign a) := by
  apply Refuses.bind
  intro b text space
  have different : b ≠ a := by
    rintro rfl
    rw [space] at solid
    cases solid
  simp [one, different]

theorem mem_sign {a : Char} {b : Unit} :
    (b, rest) ∈ (sign a).ways text ↔ text = a :: rest := by
  simp [sign, mem_one]

theorem ways_sign_of_head {a : Char} (other : a ∉ text.head?) : (sign a).ways text = [] := by
  apply bind_eq_nil
  cases text with
  | nil => rfl
  | cons b text =>
    have different : b ≠ a := fun same => other (by rw [same]; rfl)
    simp [one, different]

theorem ways_quoted_of_head {ok : Char → Bool} (other : '"' ∉ text.head?) :
    (quoted ok).ways text = [] := bind_eq_nil (ways_sign_of_head other)

theorem ways_spaces_bind {run : Text} (all : ∀ c ∈ run, isSpace c = true) (begun : Begun text)
    (refuses : Refuses isSpace (f ())) : (spaces >>= f).ways (run ++ text) = (f ()).ways text := by
  rw [spaces, bind_assoc, ways_many_bind all begun]
  · rw [pure_bind]
  · exact fun _ => by rw [pure_bind]; exact refuses

theorem ways_gap_bind {run : Text} (g : Gap run) (begun : Begun text)
    (refuses : Refuses isSpace (f ())) : (gap >>= f).ways (run ++ text) = (f ()).ways text := by
  rw [gap, bind_assoc, ways_many1_bind g.1 g.2 begun]
  · rw [pure_bind]
  · exact fun _ => by rw [pure_bind]; exact refuses

theorem mem_gap {b : Unit} : (b, rest) ∈ gap.ways text ↔ ∃ run, Gap run ∧ text = run ++ rest := by
  simp only [gap, mem_bind, mem_many1, mem_pure]
  constructor
  · rintro ⟨run, _, ⟨split, nonempty, all⟩, _, rfl⟩
    exact ⟨run, ⟨nonempty, all⟩, split⟩
  · rintro ⟨run, ⟨nonempty, all⟩, split⟩
    exact ⟨run, rest, ⟨split, nonempty, all⟩, trivial, rfl⟩

theorem mem_spaces {b : Unit} :
    (b, rest) ∈ spaces.ways text ↔ ∃ run, (∀ c ∈ run, isSpace c = true) ∧ text = run ++ rest := by
  simp only [spaces, mem_bind, mem_many, mem_pure]
  constructor
  · rintro ⟨run, _, ⟨split, all⟩, _, rfl⟩
    exact ⟨run, all, split⟩
  · rintro ⟨run, all, split⟩
    exact ⟨run, rest, ⟨split, all⟩, trivial, rfl⟩

end Steps

/-! ## Words -/

/-- A keyword and the white space behind it. -/
def Keyword (letters : String) (text : Text) : Prop :=
  ∃ read behind, Reads letters read ∧ Gap behind ∧ text = read ++ behind

section Keywords

variable {letters letters' : String} {γ : Type} {c : γ} {text read rest : Text}
  {f : Unit → Pattern Char γ}

/-- What white space has been taken of is white space and then the rest. -/
theorem blank_split {run before : Text} (all : ∀ c ∈ run, isSpace c = true) (begun : Begun text)
    (split : before ++ text = run ++ rest) :
    ∃ left, before = run ++ left ∧ rest = left ++ text := by
  rcases List.append_eq_append_iff.mp split with ⟨more, rfl, rfl⟩ | ⟨left, rfl, rfl⟩
  · cases more with
    | nil => exact ⟨[], by simp, rfl⟩
    | cons a more =>
      have solid := begun a rfl
      rw [all a (by simp)] at solid
      cases solid
  · exact ⟨left, rfl, rfl⟩

theorem keyword_eq_some (h : keyword letters.toList text = some rest) :
    (text.take letters.toList.length).map foldCase = letters.toList ∧
      rest = text.drop letters.toList.length := by
  rw [keyword, Option.ite_none_right_eq_some, Option.some.injEq] at h
  exact ⟨h.1, h.2.symm⟩

theorem prefix_of_keyword (h : keyword letters.toList text = some rest) :
    letters.toList <+: text.map foldCase := by
  obtain ⟨reads, _⟩ := keyword_eq_some h
  rw [← reads]
  exact (List.take_prefix _ text).map foldCase

/-- Two words neither of which begins with the other. -/
theorem keyword_eq_none (reads : Reads letters' read)
    (shorter : ¬letters.toList <+: letters'.toList)
    (longer : ¬letters'.toList <+: letters.toList) :
    keyword letters.toList (read ++ rest) = none := by
  cases h : keyword letters.toList (read ++ rest) with
  | none => rfl
  | some left =>
    have first := prefix_of_keyword h
    have second : letters'.toList <+: (read ++ rest).map foldCase := by
      rw [← show read.map foldCase = letters'.toList from reads, List.map_append]
      exact List.prefix_append _ _
    rcases List.prefix_or_prefix_of_prefix first second with before | before
    · exact absurd before shorter
    · exact absurd before longer

/-- A name that is not the word may begin with it, but then more of the name follows. -/
theorem keyword_name {name left : Text} (other : name.map foldCase ≠ letters.toList)
    (stops : ∀ c ∈ rest.head?, foldCase c ∉ letters.toList)
    (found : keyword letters.toList (name ++ rest) = some left) :
    ∃ c later, left = c :: later ∧ c ∈ name := by
  obtain ⟨reads, rfl⟩ := keyword_eq_some found
  have length : ((name ++ rest).take letters.toList.length).length = letters.toList.length := by
    rw [← List.length_map (f := foldCase), reads]
  rcases Nat.lt_trichotomy letters.toList.length name.length with shorter | same | longer
  · have some_left : name.drop letters.toList.length ≠ [] := by
      simpa using shorter
    rw [List.drop_append_of_le_length (Nat.le_of_lt shorter)]
    obtain ⟨c, later, split⟩ := List.exists_cons_of_ne_nil some_left
    have inside : c ∈ name.drop letters.toList.length := by
      rw [split]
      exact List.mem_cons_self
    exact ⟨c, later ++ rest, by rw [split]; rfl, List.mem_of_mem_drop inside⟩
  · rw [same, List.take_left' rfl] at reads
    exact absurd reads other
  · cases rest with
    | nil =>
      rw [List.append_nil, List.length_take] at length
      omega
    | cons a rest =>
      apply absurd _ (stops a rfl)
      rw [← reads, List.take_append, List.map_append]
      apply List.mem_append_right
      obtain ⟨n, more⟩ := Nat.exists_eq_add_of_lt longer
      rw [show letters.toList.length - name.length = n + 1 by omega]
      simp

theorem ways_word_gap {name : Text} (plain : ∀ c ∈ name, isSpace c = false)
    (other : name.map foldCase ≠ letters.toList)
    (stops : ∀ c ∈ rest.head?, foldCase c ∉ letters.toList) :
    (word letters >>= fun _ => gap >>= f).ways (name ++ rest) = [] := by
  rw [List.eq_nil_iff_forall_not_mem]
  rintro ⟨b, last⟩ member
  obtain ⟨_, left, first, later⟩ := mem_bind.mp member
  obtain ⟨_, _, space, _⟩ := mem_bind.mp later
  obtain ⟨run, ⟨nonempty, all⟩, rfl⟩ := mem_gap.mp space
  obtain ⟨c, more, split, inside⟩ := keyword_name other stops (mem_word.mp first)
  obtain ⟨a, run, rfl⟩ := List.exists_cons_of_ne_nil nonempty
  obtain rfl : a = c := (List.cons.inj split).1
  have solid := plain a inside
  rw [all a (by simp)] at solid
  cases solid

theorem Keyword.begun (k : Keyword letters text) (lettered : Lettered letters) :
    Begun (text ++ rest) := by
  obtain ⟨read, behind, reads, _, rfl⟩ := k
  rw [List.append_assoc]
  exact begun_of_reads reads lettered

theorem Keyword.ways_bind (k : Keyword letters text) (begun : Begun rest)
    (refuses : Refuses isSpace (f ())) :
    (word letters >>= fun _ => gap >>= f).ways (text ++ rest) = (f ()).ways rest := by
  obtain ⟨read, behind, reads, g, rfl⟩ := k
  rw [List.append_assoc, ways_word_bind reads, ways_gap_bind g begun refuses]

theorem Keyword.none (k : Keyword letters' text) (shorter : ¬letters.toList <+: letters'.toList)
    (longer : ¬letters'.toList <+: letters.toList) :
    keyword letters.toList (text ++ rest) = none := by
  obtain ⟨read, behind, reads, _, rfl⟩ := k
  rw [List.append_assoc]
  exact keyword_eq_none reads shorter longer

/-! `WORD\s+`, where the white space behind a word is taken whole. -/

theorem spaces_gap {run : Text} (g : Gap run) (begun : Begun text) :
    StatementText.spaces (run ++ text) = some text := by
  obtain ⟨c, run, rfl⟩ := List.exists_cons_of_ne_nil g.1
  have all : ∀ a ∈ run, isSpace a = true := fun a member => g.2 a (List.mem_cons_of_mem c member)
  rw [List.cons_append, StatementText.spaces, if_pos (g.2 c (by simp)),
    List.dropWhile_append_of_pos all]
  cases text with
  | nil => rfl
  | cons a text => rw [List.dropWhile_cons_of_neg (by simp [begun a rfl])]

theorem spaces_of_begun (begun : Begun text) : StatementText.spaces text = none := by
  cases text with
  | nil => rfl
  | cons c text => exact if_neg (by simp [begun c rfl])

theorem Keyword.spaced (k : Keyword letters text) (begun : Begun rest) :
    StatementText.spaced letters.toList (text ++ rest) = some rest := by
  obtain ⟨read, behind, reads, g, rfl⟩ := k
  rw [StatementText.spaced, List.append_assoc, keyword_append reads]
  exact spaces_gap g begun

theorem spaced_of_reads (reads : Reads letters read) (begun : Begun rest) :
    StatementText.spaced letters.toList (read ++ rest) = none := by
  rw [StatementText.spaced, keyword_append reads]
  exact spaces_of_begun begun

theorem spaced_eq_none (reads : Reads letters' read)
    (shorter : ¬letters.toList <+: letters'.toList) (longer : ¬letters'.toList <+: letters.toList) :
    StatementText.spaced letters.toList (read ++ rest) = none := by
  rw [StatementText.spaced, keyword_eq_none reads shorter longer]
  rfl

theorem Keyword.spaced_none (k : Keyword letters' text)
    (shorter : ¬letters.toList <+: letters'.toList) (longer : ¬letters'.toList <+: letters.toList) :
    StatementText.spaced letters.toList (text ++ rest) = Option.none := by
  rw [StatementText.spaced, k.none shorter longer]
  rfl

end Keywords

/-! ## Where a statement ends -/

section Ends

variable {text rest : Text}

/-- At the end there is white space, and one semicolon at most. -/
theorem mem_ending {b : Unit} (h : (b, rest) ∈ ending.ways text) :
    ∀ c ∈ text, isSpace c = true ∨ c = ';' := by
  simp only [ending, mem_bind, mem_spaces, mem_optional, mem_sign] at h
  obtain
    ⟨_, _, ⟨before, blank, rfl⟩, _, between, semicolon, _, _, ⟨after, blank', split⟩, last⟩ := h
  have finished : ∀ c ∈ between, isSpace c = true := by
    intro c member
    rw [split, List.mem_append] at member
    rcases member with inside | inside
    · exact blank' c inside
    · simp only [dollar] at last
      split at last
      · rename_i done
        rcases done with rfl | rfl
        · cases inside
        · obtain rfl := List.mem_singleton.mp inside
          rfl
      · cases last
  intro c member
  rw [List.mem_append] at member
  rcases member with inside | inside
  · exact Or.inl (blank c inside)
  · rcases semicolon with ⟨_, _, rfl⟩ | ⟨_, rfl⟩
    · rcases List.mem_cons.mp inside with rfl | inside
      · exact Or.inr rfl
      · exact Or.inl (finished c inside)
    · exact Or.inl (finished c inside)

theorem ending_nil : ((), []) ∈ ending.ways [] := by
  simp [ending, mem_spaces, mem_optional, mem_sign, dollar]

/-- Of a text whose last character is neither, the whole of it. -/
theorem mem_reluctant {ok : Char → Bool} {value : Text}
    (last : ∀ c ∈ text.getLast?, isSpace c = false ∧ c ≠ ';') :
    (value, rest) ∈ (reluctant ok).ways text ↔
      value = text ∧ rest = [] ∧ text ≠ [] ∧ ∀ c ∈ text, ok c = true := by
  simp only [reluctant, mem_bind, mem_few1, mem_pure]
  constructor
  · rintro ⟨_, after, ⟨rfl, nonempty, all⟩, _, _, ended, rfl, rfl⟩
    have nothing : after = [] := by
      by_contra something
      have tail : (value ++ after).getLast? = some (after.getLast something) := by
        rw [List.getLast?_append_of_ne_nil _ something,
          List.getLast?_eq_getLast_of_ne_nil something]
      obtain ⟨solid, other⟩ := last _ tail
      rcases mem_ending ended _ (List.getLast_mem something) with space | semicolon
      · rw [solid] at space
        cases space
      · exact other semicolon
    subst nothing
    rw [List.append_nil]
    refine ⟨rfl, ?_, nonempty, all⟩
    simp only [ending, mem_bind, mem_spaces, mem_optional, mem_sign] at ended
    obtain
      ⟨_, _, ⟨before, _, split⟩, _, between, semicolon, _, _, ⟨after, _, split'⟩, done⟩ := ended
    obtain ⟨rfl, rfl⟩ := List.append_eq_nil_iff.mp split.symm
    rcases semicolon with ⟨_, _, absurd⟩ | ⟨_, rfl⟩
    · cases absurd
    · obtain ⟨rfl, rfl⟩ := List.append_eq_nil_iff.mp split'.symm
      simpa [dollar] using done
  · rintro ⟨rfl, rfl, nonempty, all⟩
    exact ⟨value, [], ⟨(List.append_nil _).symm, nonempty, all⟩, (), [], ending_nil, rfl, rfl⟩

end Ends

end PgMimic.Patterns

import PgMimic.Arrays
import PgMimic.Lib.Trim

/-!
# What is read as an array literal

The texts `parse_array_literal` accepts are given by a grammar of their own, which is the
parser's and looser than that of an array literal. A text is spelled in one way at most.
-/

namespace PgMimic.Arrays

open Outcomes (bind_ok)
open PgMimic.Copy (Text)
open PgMimic.Endpoint (TextTables)
open Trim

/-! ## The grammar -/

/-- An element as it is written: without quotes, or in them. -/
inductive Leaf where
  | bare (token : Text)
  | quoted (text : Text)

/-- A text between quotes: any character can be escaped, and two of them are. -/
inductive Quotes : Text → Text → Prop where
  | nil : Quotes [] []
  | escaped (c : Char) {text word : Text} : Quotes text word → Quotes (c :: text) ('\\' :: c :: word)
  | plain {c : Char} {text word : Text} : c ≠ '\\' → c ≠ '"' → Quotes text word →
      Quotes (c :: text) (c :: word)

/-- A token ends at a comma or a brace. It is not taken for a list or a quoted element. -/
structure IsToken (token : Text) : Prop where
  solid : Solid isSpace token
  inside : ∀ c ∈ token, ends c = false
  noBrace : token.head? ≠ some '{'
  noQuote : token.head? ≠ some '"'

def Leaf.Spells : Leaf → Text → Prop
  | .bare token, word => word = token ∧ IsToken token
  | .quoted text, word => ∃ inner, word = '"' :: (inner ++ ['"']) ∧ Quotes text inner

/-- Blanks may stand on both sides. -/
def Padded (spelled : Text → Prop) (text : Text) : Prop :=
  ∃ before word after, text = before ++ (word ++ after) ∧ Blank isSpace before ∧
    Blank isSpace after ∧ spelled word

mutual

def Spells : Nested Leaf → Text → Prop
  | .leaf leaf, word => leaf.Spells word
  | .list items, word => ∃ body, word = '{' :: (body ++ ['}']) ∧
      (items = [] ∧ Blank isSpace body ∨ ¬Blank isSpace body ∧ SpellsItems items body)

/-- One item or more, with commas between them. -/
def SpellsItems : List (Nested Leaf) → Text → Prop
  | [], _ => False
  | [item], body => Padded (Spells item) body
  | item :: next :: items, body => ∃ padded later, body = padded ++ ',' :: later ∧
      Padded (Spells item) padded ∧ SpellsItems (next :: items) later

end

/-- Between the braces. -/
def SpellsBody (items : List (Nested Leaf)) (body : Text) : Prop :=
  items = [] ∧ Blank isSpace body ∨ ¬Blank isSpace body ∧ SpellsItems items body

/-- What is in front of a list with these bounds. Nothing is asked of them but a bracket
to begin with, up to the first equals sign. -/
def Front (bounds front : Text) : Prop :=
  bounds = [] ∧ front = [] ∨ bounds.head? = some '[' ∧ (∀ c ∈ bounds, c ≠ '=') ∧
    ∃ gap, front = bounds ++ '=' :: gap ∧ Blank isSpace gap

def Spelling (text bounds : Text) (items : List (Nested Leaf)) : Prop :=
  ∃ front body, Padded (· = front ++ '{' :: (body ++ ['}'])) text ∧ Front bounds front ∧
    SpellsBody items body

theorem padded_of_spelled {spelled : Text → Prop} {word : Text} (holds : spelled word) :
    Padded spelled word :=
  ⟨[], word, [], by simp, by simp [Blank], by simp [Blank], holds⟩

/-- What a reader makes of an element as it is written. -/
def Reader.read {α : Type} (r : Reader α) : Leaf → α
  | .bare token => r.bare token
  | .quoted text => r.quoted text

/-! ## Quoted elements -/

theorem parseQuoted_escaped (c : Char) (rest : Text) : parseQuoted ('\\' :: c :: rest) =
    (parseQuoted rest >>= fun read => .ok (c :: read.1, read.2)) := by
  rw [parseQuoted.eq_def]
  rfl

theorem parseQuoted_end (rest : Text) : parseQuoted ('"' :: rest) = .ok ([], rest) := by
  rw [parseQuoted.eq_def]
  rfl

theorem parseQuoted_plain {c : Char} (rest : Text) (escape : c ≠ '\\') (quote : c ≠ '"') :
    parseQuoted (c :: rest) = (parseQuoted rest >>= fun read => .ok (c :: read.1, read.2)) := by
  rw [parseQuoted.eq_def]
  simp only [if_neg escape, if_neg quote]

theorem parseQuoted_sound (text : Text) : ∀ chars rest, parseQuoted text = .ok (chars, rest) →
    ∃ inner, text = inner ++ '"' :: rest ∧ Quotes chars inner := by
  induction text using parseQuoted.induct with
  | case1 =>
    intro chars rest read
    cases read
  | case2 =>
    intro chars rest read
    cases read
  | case3 escaped text ih =>
    intro chars rest read
    rw [parseQuoted_escaped] at read
    obtain ⟨⟨chars', rest'⟩, later, same⟩ := bind_ok.mp read
    cases same
    obtain ⟨inner, rfl, spelled⟩ := ih _ _ later
    exact ⟨'\\' :: escaped :: inner, rfl, .escaped escaped spelled⟩
  | case4 text =>
    intro chars rest read
    rw [parseQuoted_end] at read
    cases read
    exact ⟨[], rfl, .nil⟩
  | case5 c text escape quote ih =>
    intro chars rest read
    rw [parseQuoted_plain _ escape quote] at read
    obtain ⟨⟨chars', rest'⟩, later, same⟩ := bind_ok.mp read
    cases same
    obtain ⟨inner, rfl, spelled⟩ := ih _ _ later
    exact ⟨c :: inner, rfl, .plain escape quote spelled⟩

theorem parseQuoted_complete {chars inner : Text} (spelled : Quotes chars inner) (rest : Text) :
    parseQuoted (inner ++ '"' :: rest) = .ok (chars, rest) := by
  induction spelled with
  | nil => exact parseQuoted_end rest
  | escaped c spelled ih =>
    simp only [List.cons_append, parseQuoted_escaped, ih]
    rfl
  | plain escape quote spelled ih =>
    rw [List.cons_append, parseQuoted_plain _ escape quote, ih]
    rfl

/-! ## Elements without quotes -/

theorem blank_inside {text : Text} (blank : Blank isSpace text) : ∀ c ∈ text, ends c = false := by
  intro c member
  have space := blank c member
  by_contra ending
  simp only [ends, Bool.not_eq_false, Bool.or_eq_true, decide_eq_true_eq] at ending
  rcases ending with rfl | rfl <;> exact absurd space (by decide)

theorem token_taken {token after : Text} {c : Char} (rest : Text) (valid : IsToken token)
    (blank : Blank isSpace after) (ending : ends c = true) :
    (token ++ (after ++ c :: rest)).takeWhile (fun c => !ends c) = token ++ after ∧
      (token ++ (after ++ c :: rest)).dropWhile (fun c => !ends c) = c :: rest := by
  have inside : ∀ d ∈ token ++ after, (!ends d) = true := by
    intro d member
    rcases List.mem_append.mp member with left | right
    · rw [valid.inside d left]
      rfl
    · rw [blank_inside blank d right]
      rfl
  rw [← List.append_assoc]
  constructor
  · rw [List.takeWhile_append_of_pos inside, List.takeWhile_cons_of_neg (by simp [ending]),
      List.append_nil]
  · rw [List.dropWhile_append_of_pos inside, List.dropWhile_cons_of_neg (by simp [ending])]

theorem bareToken_of_token {token after : Text} {c : Char} (rest : Text) (valid : IsToken token)
    (blank : Blank isSpace after) (ending : ends c = true) :
    bareToken (token ++ (after ++ c :: rest)) = token := by
  have none : Blank isSpace ([] : Text) := fun _ member => absurd member List.not_mem_nil
  rw [bareToken, (token_taken rest valid blank ending).1]
  exact trim_of_solid none valid.solid blank

/-- A text that begins with none of the three characters the loop looks for has a token
in front. -/
theorem token_split {c : Char} {rest : Text} (solid : isSpace c = false) (brace : c ≠ '{')
    (quote : c ≠ '"') : ∃ after, Blank isSpace after ∧ IsToken (bareToken (c :: rest)) ∧
      c :: rest = bareToken (c :: rest) ++ (after ++ (c :: rest).dropWhile fun c => !ends c) := by
  have whole : c :: rest = ((c :: rest).takeWhile fun c => !ends c) ++
      (c :: rest).dropWhile fun c => !ends c := List.takeWhile_append_dropWhile.symm
  have inside : ∀ d ∈ (c :: rest).takeWhile fun c => !ends c, ends d = false := by
    intro d member
    simpa using List.mem_takeWhile_imp member
  have front : ∀ d ∈ ((c :: rest).takeWhile fun c => !ends c).head?, d = c := by
    intro d member
    by_cases ending : ends c
    · rw [List.takeWhile_cons_of_neg (by simp [ending])] at member
      cases member
    · rw [List.takeWhile_cons_of_pos (by simp [ending])] at member
      exact (Option.some.inj member).symm
  obtain ⟨before, after, split, blank, blank'⟩ :=
    trim_split (p := isSpace) ((c :: rest).takeWhile fun c => !ends c)
  have none : before = [] := by
    cases before with
    | nil => rfl
    | cons d before =>
      have same : d = c := by
        apply front
        rw [split]
        rfl
      rw [same] at blank
      exact absurd (blank c List.mem_cons_self) (by simp [solid])
  rw [none, List.nil_append] at split
  have head : ∀ d ∈ (bareToken (c :: rest)).head?, d = c := by
    intro d member
    apply front
    rw [split]
    exact List.mem_head?_append_of_mem_head? member
  refine ⟨after, blank', ⟨solid_trim _, ?_, ?_, ?_⟩, ?_⟩
  · intro d member
    apply inside
    rw [split]
    exact List.mem_append_left _ member
  · intro first
    exact brace (head _ first).symm
  · intro first
    exact quote (head _ first).symm
  · rw [← List.append_assoc]
    exact whole.trans (congrArg (· ++ _) split)

/-! ## What follows an element -/

section Parser

variable (t : TextTables) {α : Type} (size : Nat) (r : Reader α)

abbrev Loop (α : Type) := Text → Result (List (Nested α) × Text)

theorem parseNext_blank (item : Nested α) {after : Text} (blank : Blank isSpace after) (text : Text)
    (loop : Loop α) :
    parseNext t size item (after ++ text) loop = parseNext t size item text loop := by
  simp only [parseNext, skipSpace, dropWhile_blank blank]

theorem parseNext_comma (item : Nested α) (text : Text) (loop : Loop α) :
    parseNext t size item (',' :: text) loop =
      (loop text >>= fun read => .ok (item :: read.1, read.2)) := rfl

/-- Blanks, and a comma with what the loop reads after it or the closing brace. -/
theorem parseNext_sound {item : Nested α} {text rest : Text} {loop : Loop α}
    {items : List (Nested α)} (read : parseNext t size item text loop = .ok (items, rest)) :
    ∃ after, Blank isSpace after ∧ (text = after ++ '}' :: rest ∧ items = [item] ∨
      ∃ later others, text = after ++ ',' :: later ∧ loop later = .ok (others, rest) ∧
        items = item :: others) := by
  obtain ⟨after, split, blank⟩ := dropWhile_split (p := isSpace) text
  refine ⟨after, blank, ?_⟩
  rw [split, parseNext_blank t size item blank] at read
  cases left : text.dropWhile isSpace with
  | nil =>
    rw [left] at read
    cases read
  | cons c later =>
    rw [left] at split read
    have solid : isSpace c = false := head_dropWhile text c (by rw [left]; rfl)
    have stays : skipSpace (c :: later) = c :: later := List.dropWhile_cons_of_neg (by simp [solid])
    simp only [parseNext, stays] at read
    by_cases comma : c = ','
    · rw [if_pos comma] at read
      obtain ⟨⟨others, rest'⟩, looped, same⟩ := bind_ok.mp read
      cases same
      exact Or.inr ⟨later, others, by rw [← comma]; exact split, looped, rfl⟩
    · by_cases brace : c = '}'
      · rw [if_neg comma, if_pos brace] at read
        cases read
        exact Or.inl ⟨by rw [← brace]; exact split, rfl⟩
      · rw [if_neg comma, if_neg brace] at read
        cases read

/-! ## Soundness -/

/-- What `parseItems` has read: items and the closing brace. -/
def ReadItems (text rest : Text) (items : List (Nested α)) : Prop :=
  ∃ written body, text = body ++ '}' :: rest ∧ SpellsItems written body ∧
    items = Nested.mapAll r.read written

def ReadBody (text rest : Text) (items : List (Nested α)) : Prop :=
  ∃ written body, text = body ++ '}' :: rest ∧ SpellsBody written body ∧
    items = Nested.mapAll r.read written

theorem readItems_of_next {before word tail rest : Text} {written : Nested Leaf} {loop : Loop α}
    {items : List (Nested α)} (blank : Blank isSpace before) (spelled : Spells written word)
    (read : parseNext t size (written.map r.read) tail loop = .ok (items, rest))
    (sound : ∀ text items rest, loop text = .ok (items, rest) → ReadItems r text rest items) :
    ReadItems r (before ++ (word ++ tail)) rest items := by
  obtain ⟨after, blank', ⟨rfl, rfl⟩ | ⟨later, others, rfl, looped, rfl⟩⟩ :=
    parseNext_sound t size read
  · refine ⟨[written], before ++ (word ++ after), by simp, ?_, rfl⟩
    exact ⟨before, word, after, rfl, blank, blank', spelled⟩
  · obtain ⟨written', body, rfl, spelled', rfl⟩ := sound _ _ _ looped
    cases written' with
    | nil => cases spelled'
    | cons next written' =>
      refine ⟨written :: next :: written', before ++ (word ++ after) ++ ',' :: body, by simp, ?_,
        rfl⟩
      exact ⟨_, body, rfl, ⟨before, word, after, rfl, blank, blank', spelled⟩, spelled'⟩

/-- By induction on the fuel, the two parsers together: a list is read with one less. -/
theorem parse_sound (fuel : Nat) :
    (∀ text items rest, parseBraced t size r fuel text = .ok (items, rest) →
      ReadBody r text rest items) ∧
    ∀ text items rest, parseItems t size r fuel text = .ok (items, rest) →
      ReadItems r text rest items := by
  induction fuel with
  | zero =>
    constructor <;> intro text items rest read <;> cases read
  | succ fuel ih =>
    constructor
    · intro text items rest read
      obtain ⟨before, split, blank⟩ := dropWhile_split (p := isSpace) text
      rw [parseBraced] at read
      split at read
      case h_1 later closed =>
        cases read
        refine ⟨[], before, ?_, Or.inl ⟨rfl, blank⟩, rfl⟩
        rw [← closed]
        exact split
      case h_2 opened =>
        obtain ⟨written, body, rfl, spelled, rfl⟩ := ih.2 _ _ _ read
        refine ⟨written, body, rfl, Or.inr ⟨?_, spelled⟩, rfl⟩
        intro blank
        apply opened rest
        rw [skipSpace, dropWhile_blank blank]
        exact List.dropWhile_cons_of_neg (by decide)
    · intro text items rest read
      obtain ⟨before, split, blank⟩ := dropWhile_split (p := isSpace) text
      cases left : text.dropWhile isSpace with
      | nil =>
        simp only [parseItems, skipSpace, left] at read
        cases read
      | cons c later =>
        have solid : isSpace c = false := head_dropWhile text c (by rw [left]; rfl)
        simp only [parseItems, skipSpace, left] at read
        rw [left] at split
        rw [split]
        by_cases brace : c = '{'
        · subst brace
          rw [if_pos rfl] at read
          obtain ⟨⟨inner, later'⟩, opened, next⟩ := bind_ok.mp read
          obtain ⟨written, body, rfl, spelled, rfl⟩ := ih.1 _ _ _ opened
          have word : Spells (.list written) ('{' :: (body ++ ['}'])) := ⟨body, rfl, spelled⟩
          simpa using readItems_of_next t size r blank word next ih.2
        · by_cases quote : c = '"'
          · subst quote
            rw [if_neg (by decide), if_pos rfl] at read
            obtain ⟨⟨chars, later'⟩, quoted, next⟩ := bind_ok.mp read
            obtain ⟨inner, rfl, spelled⟩ := parseQuoted_sound _ _ _ quoted
            have word : Spells (.leaf (.quoted chars)) ('"' :: (inner ++ ['"'])) :=
              ⟨inner, rfl, spelled⟩
            simpa using readItems_of_next t size r blank word next ih.2
          · rw [if_neg brace, if_neg quote] at read
            obtain ⟨after, blank', token, whole⟩ := token_split solid brace quote
            have word : Spells (.leaf (.bare (bareToken (c :: later)))) (bareToken (c :: later)) :=
              ⟨rfl, token⟩
            rw [← parseNext_blank t size _ blank'] at read
            have found := readItems_of_next t size r blank word read ih.2
            rwa [← whole] at found

/-! ## Completeness -/

theorem ends_solid {c : Char} (ending : ends c = true) : isSpace c = false := by
  simp only [ends, Bool.or_eq_true, decide_eq_true_eq] at ending
  rcases ending with rfl | rfl <;> decide

/-- Where the loop finds a token, the blanks behind an empty one skipped with those in front. -/
theorem skipSpace_token {before token after : Text} {c : Char} (later : Text)
    (blank : Blank isSpace before) (valid : IsToken token) (blank' : Blank isSpace after)
    (ending : ends c = true) : ∃ after', Blank isSpace after' ∧
      skipSpace (before ++ (token ++ (after ++ c :: later))) = token ++ (after' ++ c :: later) := by
  have none : Blank isSpace ([] : Text) := fun _ member => absurd member List.not_mem_nil
  rw [skipSpace, dropWhile_blank blank]
  cases token with
  | nil =>
    refine ⟨[], none, ?_⟩
    rw [List.nil_append, dropWhile_blank blank']
    exact List.dropWhile_cons_of_neg (by simp [ends_solid ending])
  | cons d token =>
    refine ⟨after, blank', ?_⟩
    exact List.dropWhile_cons_of_neg (by simp [valid.solid.1 d rfl])

theorem parseItems_token {before token after : Text} {c : Char} (later : Text) (fuel : Nat)
    (blank : Blank isSpace before) (valid : IsToken token) (blank' : Blank isSpace after)
    (ending : ends c = true) :
    parseItems t size r (fuel + 1) (before ++ (token ++ (after ++ c :: later))) =
      parseNext t size (.leaf (r.bare token)) (c :: later) (parseItems t size r fuel) := by
  obtain ⟨after', blank'', found⟩ := skipSpace_token later blank valid blank' ending
  have name := bareToken_of_token later valid blank'' ending
  have next := (token_taken later valid blank'' ending).2
  rw [parseItems, found]
  have front : ∀ d ∈ (token ++ (after' ++ c :: later)).head?, d ≠ '{' ∧ d ≠ '"' := by
    intro d member
    cases token with
    | nil =>
      cases after' with
      | nil =>
        obtain rfl : c = d := Option.some.inj member
        constructor <;> rintro rfl <;> exact absurd ending (by decide)
      | cons e after' =>
        obtain rfl : e = d := Option.some.inj member
        have space := blank'' e List.mem_cons_self
        constructor <;> rintro rfl <;> exact absurd space (by decide)
    | cons e token =>
      obtain rfl : e = d := Option.some.inj member
      constructor <;> rintro rfl
      · exact valid.noBrace rfl
      · exact valid.noQuote rfl
  generalize token ++ (after' ++ c :: later) = text at name next front
  cases text with
  | nil => cases next
  | cons d text =>
    obtain ⟨brace, quote⟩ := front d rfl
    simp only [if_neg brace, if_neg quote, name, next]

theorem parseItems_quoted {before inner chars : Text} (tail : Text) (fuel : Nat)
    (blank : Blank isSpace before) (spelled : Quotes chars inner) :
    parseItems t size r (fuel + 1) (before ++ ('"' :: (inner ++ ['"']) ++ tail)) =
      parseNext t size (.leaf (r.quoted chars)) tail (parseItems t size r fuel) := by
  have found :
      skipSpace (before ++ ('"' :: (inner ++ ['"']) ++ tail)) = '"' :: (inner ++ '"' :: tail) := by
    rw [skipSpace, dropWhile_blank blank, List.cons_append, List.append_assoc]
    exact List.dropWhile_cons_of_neg (by decide)
  rw [parseItems, found]
  simp only [if_neg (show ¬ '"' = '{' by decide), if_pos, parseQuoted_complete spelled]
  rfl

theorem parseItems_list {before body tail : Text} {items : List (Nested α)} (fuel : Nat)
    (blank : Blank isSpace before)
    (read : parseBraced t size r fuel (body ++ '}' :: tail) = .ok (items, tail)) :
    parseItems t size r (fuel + 1) (before ++ ('{' :: (body ++ ['}']) ++ tail)) =
      parseNext t size (.list items) tail (parseItems t size r fuel) := by
  have found :
      skipSpace (before ++ ('{' :: (body ++ ['}']) ++ tail)) = '{' :: (body ++ '}' :: tail) := by
    rw [skipSpace, dropWhile_blank blank, List.cons_append, List.append_assoc]
    exact List.dropWhile_cons_of_neg (by decide)
  rw [parseItems, found]
  simp only [if_pos, read]
  rfl

/-- One turn of the loop, its lists read with the fuel it passes on. -/
theorem parseItems_element {x : Nested Leaf} {before word after : Text} {c : Char} (later : Text)
    (fuel : Nat) (blank : Blank isSpace before) (spelled : Spells x word)
    (blank' : Blank isSpace after) (ending : ends c = true)
    (lists : ∀ items body, word = '{' :: (body ++ ['}']) → SpellsBody items body → ∀ tail,
      parseBraced t size r fuel (body ++ '}' :: tail) = .ok (Nested.mapAll r.read items, tail)) :
    parseItems t size r (fuel + 1) (before ++ (word ++ (after ++ c :: later))) =
      parseNext t size (x.map r.read) (c :: later) (parseItems t size r fuel) := by
  match x, spelled with
  | .leaf (.bare token), ⟨same, valid⟩ =>
    rw [same]
    exact parseItems_token t size r later fuel blank valid blank' ending
  | .leaf (.quoted text), ⟨inner, same, quoted⟩ =>
    rw [same, parseItems_quoted t size r _ fuel blank quoted, parseNext_blank t size _ blank']
    rfl
  | .list items, ⟨body, same, braced⟩ =>
    have read := lists items body same braced (after ++ c :: later)
    rw [same, parseItems_list t size r fuel blank read, parseNext_blank t size _ blank']
    rfl

theorem spells_front {x : Nested Leaf} {d : Char} {word : Text} (spelled : Spells x (d :: word)) :
    isSpace d = false ∧ d ≠ '}' := by
  match x, spelled with
  | .leaf (.bare token), ⟨same, valid⟩ =>
    refine ⟨valid.solid.1 d (by rw [← same]; rfl), ?_⟩
    rintro rfl
    exact absurd (valid.inside '}' (by simp [← same])) (by decide)
  | .leaf (.quoted text), ⟨inner, same, _⟩ =>
    obtain ⟨rfl, _⟩ := List.cons.inj same
    decide
  | .list items, ⟨body, same, _⟩ =>
    obtain ⟨rfl, _⟩ := List.cons.inj same
    decide

/-- What an item has in front is no closing brace, so only a blank body is an empty list. -/
theorem padded_front {x : Nested Leaf} {padded : Text} (spelled : Padded (Spells x) padded)
    (solid : ¬Blank isSpace padded) (rest later : Text) :
    skipSpace (padded ++ rest) ≠ '}' :: later := by
  obtain ⟨before, word, after, rfl, blank, blank', spelled⟩ := spelled
  cases word with
  | nil => exact absurd (blank_append_iff.mpr ⟨blank, blank'⟩) solid
  | cons d word =>
    obtain ⟨visible, brace⟩ := spells_front spelled
    rw [skipSpace, List.append_assoc, dropWhile_blank blank]
    simp only [List.cons_append, List.dropWhile_cons, visible]
    intro same
    exact brace (List.cons.inj same).1

theorem body_front {items : List (Nested Leaf)} {body : Text} (spelled : SpellsItems items body)
    (solid : ¬Blank isSpace body) (rest later : Text) :
    skipSpace (body ++ rest) ≠ '}' :: later := by
  match items, spelled with
  | [item], padded => exact padded_front padded solid rest later
  | item :: next :: items, ⟨padded, body', same, spelled, _⟩ =>
    rw [same, List.append_assoc]
    by_cases blank : Blank isSpace padded
    · rw [skipSpace, dropWhile_blank blank]
      intro comma
      exact absurd (List.cons.inj comma).1 (by decide)
    · exact padded_front spelled blank _ later

/-- By induction on the fuel: a nested list is at least two characters shorter. -/
theorem parse_complete (fuel : Nat) :
    (∀ items body rest, SpellsBody items body → 2 * body.length + 2 ≤ fuel →
      parseBraced t size r fuel (body ++ '}' :: rest) = .ok (Nested.mapAll r.read items, rest)) ∧
    ∀ items body rest, SpellsItems items body → 2 * body.length + 1 ≤ fuel →
      parseItems t size r fuel (body ++ '}' :: rest) = .ok (Nested.mapAll r.read items, rest) := by
  induction fuel with
  | zero =>
    constructor <;> intro items body rest spelled enough <;> omega
  | succ fuel ih =>
    constructor
    · intro items body rest spelled enough
      rcases spelled with ⟨rfl, blank⟩ | ⟨solid, spelled⟩
      · have closed : skipSpace (body ++ '}' :: rest) = '}' :: rest := by
          rw [skipSpace, dropWhile_blank blank]
          exact List.dropWhile_cons_of_neg (by decide)
        rw [parseBraced, closed]
        rfl
      · rw [parseBraced, ih.2 items body rest spelled (by omega)]
        split
        case h_1 later closed => exact absurd closed (body_front spelled solid _ later)
        case h_2 => rfl
    · intro items body rest spelled enough
      have lists :
          ∀ word, word.length ≤ body.length → ∀ items inner, word = '{' :: (inner ++ ['}']) →
          SpellsBody items inner → ∀ tail, parseBraced t size r fuel (inner ++ '}' :: tail) =
            .ok (Nested.mapAll r.read items, tail) := by
        intro word short items inner same braced tail
        rw [same, List.length_cons, List.length_append, List.length_singleton] at short
        exact ih.1 items inner tail braced (by omega)
      match items, spelled with
      | [item], ⟨before, word, after, same, blank, blank', spelled⟩ =>
        have short : word.length ≤ body.length := by
          rw [same, List.length_append, List.length_append]
          omega
        rw [same, List.append_assoc, List.append_assoc, parseItems_element t size r rest fuel blank
          spelled blank' rfl (lists word short)]
        rfl
      | item :: next :: items,
          ⟨padded, later, same, ⟨before, word, after, same', blank, blank', spelled⟩, others⟩ =>
        rw [same, same'] at enough lists ⊢
        simp only [List.length_append, List.length_cons] at enough lists
        have short : word.length ≤ before.length + (word.length + after.length) +
            (later.length + 1) := by omega
        have read := ih.2 (next :: items) later rest others (by omega)
        rw [List.append_assoc, List.append_assoc, List.append_assoc, List.cons_append,
          parseItems_element t size r _ fuel blank spelled blank' rfl (lists word short),
          parseNext_comma, read]
        rfl

end Parser

/-! ## Literals -/

theorem splitBounds_sound {text bounds body : Text}
    (split : splitBounds text = some (bounds, body)) :
    ∃ front, text = front ++ body ∧ Front bounds front := by
  rw [splitBounds] at split
  by_cases bracket : text.head? = some '['
  · rw [if_pos bracket] at split
    cases dropped : text.dropWhile (· ≠ '=') with
    | nil =>
      simp only [dropped] at split
      cases split
    | cons c rest =>
      simp only [dropped] at split
      have whole : text.takeWhile (· ≠ '=') ++ c :: rest = text := by
        rw [← dropped]
        exact List.takeWhile_append_dropWhile
      have equals : c = '=' := by
        have stop := head_dropWhile (p := fun c => decide (c ≠ '=')) text c (by rw [dropped]; rfl)
        simpa using stop
      obtain ⟨gap, split', blank⟩ := dropWhile_split (p := isSpace) rest
      obtain ⟨rfl, rfl⟩ := Prod.mk.inj (Option.some.inj split)
      refine ⟨text.takeWhile (· ≠ '=') ++ '=' :: gap, ?_, Or.inr ⟨?_, ?_, gap, rfl, blank⟩⟩
      · rw [equals] at whole
        rw [List.append_assoc, List.cons_append, ← split']
        exact whole.symm
      · cases text with
        | nil => cases bracket
        | cons d text =>
          obtain rfl := Option.some.inj bracket
          rfl
      · intro d member
        simpa using List.mem_takeWhile_imp member
  · rw [if_neg bracket] at split
    obtain ⟨rfl, rfl⟩ := Prod.mk.inj (Option.some.inj split)
    exact ⟨[], rfl, Or.inl ⟨rfl, rfl⟩⟩

theorem splitBounds_complete {bounds front : Text} (body : Text) (spelled : Front bounds front) :
    splitBounds (front ++ '{' :: body) = some (bounds, '{' :: body) := by
  rcases spelled with ⟨rfl, rfl⟩ | ⟨bracket, inside, gap, rfl, blank⟩
  · rfl
  · have inside' : ∀ c ∈ bounds, decide (c ≠ '=') = true :=
      fun c member => by simp [inside c member]
    have found : (bounds ++ '=' :: gap ++ '{' :: body).head? = some '[' := by
      rw [List.append_assoc]
      exact List.mem_head?_append_of_mem_head? bracket
    have rest : (gap ++ '{' :: body).dropWhile isSpace = '{' :: body := by
      rw [dropWhile_blank blank]
      exact List.dropWhile_cons_of_neg (by decide)
    rw [splitBounds, if_pos found, List.append_assoc, List.dropWhile_append_of_pos inside',
      List.takeWhile_append_of_pos inside']
    simp [rest]

theorem solid_of_front {bounds front : Text} (body : Text) (spelled : Front bounds front) :
    Solid isSpace (front ++ '{' :: (body ++ ['}'])) := by
  constructor
  · intro c member
    rcases spelled with ⟨rfl, rfl⟩ | ⟨bracket, _, gap, rfl, _⟩
    · obtain rfl : '{' = c := Option.some.inj member
      decide
    · rw [List.append_assoc, List.mem_head?_append_of_mem_head? bracket] at member
      obtain rfl : '[' = c := Option.some.inj member
      decide
  · intro c member
    rw [← List.cons_append, ← List.append_assoc, List.getLast?_append] at member
    obtain rfl : '}' = c := Option.some.inj member
    decide

theorem strip_spelling {text front body bounds : Text} (spelled : Front bounds front)
    (padded : Padded (· = front ++ '{' :: (body ++ ['}'])) text) :
    Endpoint.strip text = front ++ '{' :: (body ++ ['}']) := by
  obtain ⟨before, word, after, rfl, blank, blank', rfl⟩ := padded
  exact trim_of_solid blank (solid_of_front body spelled) blank'

section Parser

variable (t : TextTables) {α : Type} (r : Reader α)

theorem parseLiteral_sound {text : Text} {items : List (Nested α)}
    (read : parseLiteral t r text = .ok items) :
    ∃ bounds written, Spelling text bounds written ∧ items = Nested.mapAll r.read written := by
  rw [parseLiteral] at read
  cases split : splitBounds (Endpoint.strip text) with
  | none =>
    rw [split] at read
    cases read
  | some parts =>
    obtain ⟨bounds, body⟩ := parts
    simp only [split] at read
    obtain ⟨front, stripped, spelled⟩ := splitBounds_sound split
    split at read
    case h_1 inner =>
      obtain ⟨⟨value, rest⟩, braced, closed⟩ := bind_ok.mp read
      obtain ⟨written, inside, rfl, spelled', rfl⟩ := (parse_sound t _ r _).1 _ _ _ braced
      by_cases blank : Endpoint.strip rest = []
      · rw [if_pos blank] at closed
        cases closed
        obtain ⟨before, after, padded, blank', blank''⟩ := trim_split (p := isSpace) text
        refine ⟨bounds, written, ⟨front, inside, ?_, spelled, spelled'⟩, rfl⟩
        refine ⟨before, _, rest ++ after, ?_, blank', ?_, rfl⟩
        · have whole : trim isSpace text = front ++ '{' :: (inside ++ '}' :: rest) := stripped
          rw [whole] at padded
          simpa using padded
        · exact blank_append_iff.mpr ⟨trim_eq_nil_iff.mp blank, blank''⟩
      · rw [if_neg blank] at closed
        cases closed
    case h_2 => cases read

theorem parseLiteral_complete {text bounds : Text} {written : List (Nested Leaf)}
    (spelled : Spelling text bounds written) :
    parseLiteral t r text = .ok (Nested.mapAll r.read written) := by
  obtain ⟨front, body, padded, front', braced⟩ := spelled
  have read := (parse_complete t ('{' :: (body ++ ['}'])).length r
    (2 * ('{' :: (body ++ ['}'])).length)).1 written body [] braced (by simp; omega)
  rw [parseLiteral, strip_spelling front' padded, splitBounds_complete _ front']
  simp only [read]
  rfl

/-- The parser accepts what the grammar spells, and reads it as it is written. -/
theorem parseLiteral_iff {text : Text} {items : List (Nested α)} :
    parseLiteral t r text = .ok items ↔
      ∃ bounds written, Spelling text bounds written ∧ items = Nested.mapAll r.read written := by
  constructor
  · exact parseLiteral_sound t r
  · rintro ⟨bounds, written, spelled, rfl⟩
    exact parseLiteral_complete t r spelled

end Parser

/-- The reader that keeps an element as it is written. -/
def spellings : Reader Leaf where
  bare := .bare
  quoted := .quoted

theorem mapAll_spellings (items : List (Nested Leaf)) :
    Nested.mapAll spellings.read items = items := by
  have same : ∀ leaf, spellings.read leaf = leaf := fun leaf => by cases leaf <;> rfl
  rw [Nested.mapAll_eq, List.map_congr_left (fun x _ => x.map_eq_self same), List.map_id']

/-- A text is spelled in one way. -/
theorem spelling_unique (t : TextTables) {text bounds bounds' : Text}
    {written written' : List (Nested Leaf)} (spelled : Spelling text bounds written)
    (spelled' : Spelling text bounds' written') : bounds = bounds' ∧ written = written' := by
  have read := parseLiteral_complete t spellings spelled
  have read' := parseLiteral_complete t spellings spelled'
  rw [mapAll_spellings] at read read'
  obtain ⟨front, body, padded, front', _⟩ := spelled
  obtain ⟨front₂, body₂, padded₂, front₂', _⟩ := spelled'
  have split := splitBounds_complete (body ++ ['}']) front'
  have split' := splitBounds_complete (body₂ ++ ['}']) front₂'
  rw [← strip_spelling front' padded] at split
  rw [← strip_spelling front₂' padded₂, split] at split'
  exact ⟨(Prod.mk.inj (Option.some.inj split')).1, Except.ok.inj (read.symm.trans read')⟩

end PgMimic.Arrays

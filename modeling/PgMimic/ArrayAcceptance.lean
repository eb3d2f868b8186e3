import PgMimic.ArrayText

/-!
# What is accepted as an array literal

Every text that is not spelled by the grammar of `parse_array_literal` is a ValueError. Of
the spelled ones it accepts more than the literals of an array, and which more is the list
of their flaws.
-/

namespace PgMimic.Arrays

open PgMimic.Copy (Text)
open PgMimic.Endpoint (TextTables asciiTables)
open Trim

/-! ## What is raised -/

def OnlyValueErrors {α : Type} (result : Result α) : Prop :=
  ∀ e, result = .error e → ∃ text, e = .valueError text

theorem onlyValueErrors_ok {α : Type} (a : α) : OnlyValueErrors (.ok a) :=
  fun _ raised => nomatch raised

theorem onlyValueErrors_malformed {α : Type} (text : String) :
    OnlyValueErrors (malformed text : Result α) :=
  fun _ raised => ⟨text, (Except.error.inj raised).symm⟩

theorem onlyValueErrors_bind {α β : Type} {x : Result α} {f : α → Result β}
    (first : OnlyValueErrors x) (later : ∀ a, x = .ok a → OnlyValueErrors (f a)) :
    OnlyValueErrors (x >>= f) := by
  cases x with
  | error e =>
    intro e' raised
    obtain rfl : e = e' := Except.error.inj raised
    exact first e rfl
  | ok a => exact later a rfl

theorem parseQuoted_raises (text : Text) : OnlyValueErrors (parseQuoted text) := by
  induction text using parseQuoted.induct with
  | case1 => exact onlyValueErrors_malformed _
  | case2 => exact onlyValueErrors_malformed _
  | case3 escaped text ih =>
    rw [parseQuoted_escaped]
    exact onlyValueErrors_bind ih fun _ _ => onlyValueErrors_ok _
  | case4 text =>
    rw [parseQuoted_end]
    exact onlyValueErrors_ok _
  | case5 c text escape quote ih =>
    rw [parseQuoted_plain _ escape quote]
    exact onlyValueErrors_bind ih fun _ _ => onlyValueErrors_ok _

section Parser

variable (t : TextTables) {α : Type} (size : Nat) (r : Reader α)

theorem parseNext_raises (item : Nested α) (text : Text) (loop : Loop α)
    (looped : ∀ later, later.length < text.length → OnlyValueErrors (loop later)) :
    OnlyValueErrors (parseNext t size item text loop) := by
  rw [parseNext]
  cases left : skipSpace text with
  | nil => exact onlyValueErrors_malformed _
  | cons c later =>
    have shorter : later.length < text.length := by
      have bound := (List.dropWhile_suffix (l := text) isSpace).length_le
      rw [show text.dropWhile isSpace = c :: later from left, List.length_cons] at bound
      omega
    simp only
    split
    · exact onlyValueErrors_bind (looped later shorter) fun _ _ => onlyValueErrors_ok _
    · split
      · exact onlyValueErrors_ok _
      · exact onlyValueErrors_malformed _

/-- The fuel is enough: each turn of the loop, and each list in it, begins further on. -/
theorem parse_raises (fuel : Nat) :
    (∀ text : Text, 2 * text.length + 2 ≤ fuel → OnlyValueErrors (parseBraced t size r fuel text)) ∧
    ∀ text : Text, 2 * text.length + 1 ≤ fuel →
      OnlyValueErrors (parseItems t size r fuel text) := by
  induction fuel with
  | zero =>
    constructor <;> intro text enough <;> omega
  | succ fuel ih =>
    constructor
    · intro text enough
      rw [parseBraced]
      split
      · exact onlyValueErrors_ok _
      · exact ih.2 text (by omega)
    · intro text enough
      rw [parseItems]
      cases left : skipSpace text with
      | nil => exact onlyValueErrors_malformed _
      | cons c rest =>
        have bound := (List.dropWhile_suffix (l := text) isSpace).length_le
        rw [show text.dropWhile isSpace = c :: rest from left, List.length_cons] at bound
        simp only
        split
        · apply onlyValueErrors_bind (ih.1 rest (by omega))
          rintro ⟨items, tail⟩ read
          obtain ⟨written, body, split, _, _⟩ := (parse_sound t size r fuel).1 _ _ _ read
          rw [split, List.length_append, List.length_cons] at bound
          exact parseNext_raises t size _ tail _ fun later shorter => ih.2 later (by omega)
        · split
          · apply onlyValueErrors_bind (parseQuoted_raises rest)
            rintro ⟨chars, tail⟩ read
            obtain ⟨inner, split, _⟩ := parseQuoted_sound _ _ _ read
            rw [split, List.length_append, List.length_cons] at bound
            exact parseNext_raises t size _ tail _ fun later shorter => ih.2 later (by omega)
          · have shorter' := (List.dropWhile_suffix (l := c :: rest) fun c => !ends c).length_le
            rw [List.length_cons] at shorter'
            exact parseNext_raises t size _ _ _ fun later shorter => ih.2 later (by omega)

theorem parseLiteral_raises (text : Text) : OnlyValueErrors (parseLiteral t r text) := by
  rw [parseLiteral]
  split
  · exact onlyValueErrors_malformed _
  · split
    · apply onlyValueErrors_bind
      · exact (parse_raises t _ r _).1 _ (by simp only [List.length_cons]; omega)
      · rintro ⟨value, tail⟩ _
        simp only
        split
        · exact onlyValueErrors_ok _
        · exact onlyValueErrors_malformed _
    · exact onlyValueErrors_malformed _

end Parser

/-! ## Literals of an array -/

def IsInteger (text : Text) : Prop :=
  ∃ sign digits, text = sign ++ digits ∧ (sign = [] ∨ sign = ['-'] ∨ sign = ['+']) ∧
    digits ≠ [] ∧ ∀ c ∈ digits, c.isDigit

/-- `[3]` or `[1:3]`. -/
def IsBound (text : Text) : Prop :=
  ∃ range, text = '[' :: (range ++ [']']) ∧
    (IsInteger range ∨ ∃ lower upper, range = lower ++ ':' :: upper ∧ IsInteger lower ∧ IsInteger upper)

/-- None at all, or one for each dimension, with blanks where they like. -/
def IsBounds (bounds : Text) : Prop :=
  ∃ groups : List Text, bounds = groups.flatten ∧ ∀ group ∈ groups, Padded IsBound group

/-- The text is a literal: its bounds are bounds, its elements without quotes are not
empty, and the lists at one depth are lists of one length or elements. -/
def IsLiteral (t : TextTables) (text : Text) (value : List Item) : Prop :=
  ∃ bounds written, Spelling text bounds written ∧ IsBounds bounds ∧
    (∀ token, .bare token ∈ (Nested.list written).leaves → token ≠ []) ∧
    (Nested.list written).Rectangular ∧ value = Nested.mapAll (elements t).read written

/-- If a text is accepted it is a literal, its value can be formatted and comes back from
that; if it is not, a ValueError is raised. -/
def OnlyLiterals (t : TextTables) (text : Text) : Prop :=
  (∀ value, parseArrayLiteral t text = .ok value → IsLiteral t text value ∧
    (Nested.list value).Rectangular ∧
    (formatArrayLiteral t value >>= parseArrayLiteral t) = .ok value) ∧
  OnlyValueErrors (parseArrayLiteral t text)

/-- What the parser does not look at. -/
inductive Flaw (t : TextTables) (bounds : Text) (written : List (Nested Leaf)) : Prop where
  | bounds : ¬IsBounds bounds → Flaw t bounds written
  | empty : .bare [] ∈ (Nested.list written).leaves → Flaw t bounds written
  | ragged : ¬(Nested.list written).Rectangular → Flaw t bounds written
  | edge (text : Text) : .quoted text ∈ (Nested.list written).leaves → quotes t text = false →
      Endpoint.strip text ≠ text → Flaw t bounds written

/-! ## Elements -/

theorem padded_of_member {items : List (Nested Leaf)} {body : Text}
    (spelled : SpellsItems items body) :
    ∀ x ∈ items, ∃ word, Spells x word := by
  induction items generalizing body with
  | nil => cases spelled
  | cons item items ih =>
    cases items with
    | nil =>
      obtain ⟨_, word, _, _, _, _, holds⟩ := spelled
      intro x member
      rw [List.mem_singleton.mp member]
      exact ⟨word, holds⟩
    | cons next items =>
      obtain ⟨_, later, _, ⟨_, word, _, _, _, _, holds⟩, others⟩ := spelled
      intro x member
      rcases List.mem_cons.mp member with rfl | member
      · exact ⟨word, holds⟩
      · exact ih others x member

theorem tokens_of_spelled (x : Nested Leaf) : ∀ word, Spells x word →
    ∀ token, .bare token ∈ x.leaves → IsToken token := by
  induction x using Nested.induct with
  | leaf leaf =>
    intro word spelled token member
    obtain rfl : Leaf.bare token = leaf := List.mem_singleton.mp member
    exact spelled.2
  | list items ih =>
    rintro word ⟨body, _, ⟨rfl, _⟩ | ⟨_, spelled⟩⟩ token member
    · cases member
    · rw [Nested.leaves, Nested.leavesAll_eq] at member
      obtain ⟨x, inside, member⟩ := List.mem_flatMap.mp member
      obtain ⟨word', holds⟩ := padded_of_member spelled x inside
      exact ih x inside word' holds token member

variable (t : TextTables)

/-- The elements without quotes have been stripped already. -/
theorem read_survives {text bounds : Text} {written : List (Nested Leaf)}
    (spelled : Spelling text bounds written) (leaf : Leaf)
    (member : leaf ∈ (Nested.list written).leaves) :
    Survives t ((elements t).read leaf) ↔
      ∀ text, leaf = .quoted text → quotes t text = true ∨ Endpoint.strip text = text := by
  cases leaf with
  | bare token =>
    obtain ⟨front, body, _, _, braced⟩ := spelled
    have valid := tokens_of_spelled (.list written) _ ⟨body, rfl, braced⟩ token member
    refine iff_of_true ?_ fun _ absurd' => nomatch absurd'
    simp only [Reader.read, elements]
    split
    · trivial
    · exact Or.inr (trim_eq_self_iff.mpr valid.solid)
  | quoted text =>
    constructor
    · rintro survives _ ⟨⟩
      exact survives
    · intro edges
      exact edges text rfl

theorem comes_back_iff {text bounds : Text} {written : List (Nested Leaf)}
    (spelled : Spelling text bounds written) (shape : (Nested.list written).Rectangular) :
    (formatArrayLiteral t (Nested.mapAll (elements t).read written) >>= parseArrayLiteral t) =
        .ok (Nested.mapAll (elements t).read written) ↔
      ∀ text, .quoted text ∈ (Nested.list written).leaves →
        quotes t text = true ∨ Endpoint.strip text = text := by
  have shape' : (Nested.list (Nested.mapAll (elements t).read written)).Rectangular :=
    (Nested.rectangular_map (x := .list written)).mpr shape
  have leaves := Nested.leaves_map (elements t).read (.list written)
  rw [Nested.map] at leaves
  rw [(formatArrayLiteral_ok t).mpr ⟨shape', rfl⟩]
  refine (parse_formatted_iff t _).trans ?_
  rw [leaves, List.forall_mem_map,
    forall₂_congr fun leaf member => read_survives t spelled leaf member]
  constructor
  · intro survives text member
    exact survives _ member text rfl
  · rintro edges leaf member text rfl
    exact edges text member

/-! ## Acceptance -/

theorem literal_of_flawless {text bounds : Text} {written : List (Nested Leaf)}
    (spelled : Spelling text bounds written) (flawless : ¬Flaw t bounds written) :
    IsLiteral t text (Nested.mapAll (elements t).read written) ∧
      (Nested.list (Nested.mapAll (elements t).read written)).Rectangular ∧
      (formatArrayLiteral t (Nested.mapAll (elements t).read written) >>= parseArrayLiteral t) =
        .ok (Nested.mapAll (elements t).read written) := by
  have shape : (Nested.list written).Rectangular := by
    by_contra ragged
    exact flawless (.ragged ragged)
  refine ⟨⟨bounds, written, spelled, ?_, ?_, shape, rfl⟩, ?_, ?_⟩
  · by_contra junk
    exact flawless (.bounds junk)
  · rintro token member rfl
    exact flawless (.empty member)
  · exact (Nested.rectangular_map (x := .list written)).mpr shape
  · refine (comes_back_iff t spelled shape).mpr fun text member => ?_
    by_contra lost
    obtain ⟨plain, blank⟩ := not_or.mp lost
    exact flawless (.edge text member (Bool.eq_false_iff.mpr plain) blank)

/-- A text is dealt with as it should be exactly if it is not spelled with a flaw. -/
theorem onlyLiterals_iff (text : Text) :
    OnlyLiterals t text ↔ ¬∃ bounds written, Spelling text bounds written ∧ Flaw t bounds written := by
  constructor
  · rintro ⟨accepted, _⟩ ⟨bounds, written, spelled, flaw⟩
    obtain ⟨⟨bounds', written', spelled', proper, filled, shape, _⟩, _, back⟩ :=
      accepted _ (parseLiteral_complete t (elements t) spelled)
    obtain ⟨rfl, rfl⟩ := spelling_unique t spelled spelled'
    cases flaw with
    | bounds junk => exact junk proper
    | empty member => exact filled [] member rfl
    | ragged uneven => exact uneven shape
    | edge text member plain blank =>
      rcases (comes_back_iff t spelled shape).mp back text member with quoted | same
      · rw [plain] at quoted
        cases quoted
      · exact blank same
  · intro flawless
    refine ⟨fun value read => ?_, parseLiteral_raises t (elements t) text⟩
    obtain ⟨bounds, written, spelled, rfl⟩ := (parseLiteral_iff t (elements t)).mp read
    exact literal_of_flawless t spelled fun flaw => flawless ⟨bounds, written, spelled, flaw⟩

/-- A comma with nothing behind it is taken for an empty text. -/
theorem danglingComma_accepted :
    parseArrayLiteral asciiTables "{a,}".toList = .ok [.leaf (some ['a']), .leaf (some [])] ∧
      ¬OnlyLiterals asciiTables "{a,}".toList := by
  have read : parseArrayLiteral asciiTables "{a,}".toList =
      .ok [.leaf (some ['a']), .leaf (some [])] := by rfl
  have spell : parseLiteral asciiTables spellings "{a,}".toList =
      .ok [.leaf (.bare ['a']), .leaf (.bare [])] := by rfl
  refine ⟨read, fun holds => ?_⟩
  obtain ⟨bounds, written, spelled, same⟩ := parseLiteral_sound asciiTables spellings spell
  rw [mapAll_spellings] at same
  obtain ⟨⟨bounds', written', spelled', _, filled, _, _⟩, _⟩ := holds.1 _ read
  obtain ⟨_, rfl⟩ := spelling_unique asciiTables spelled spelled'
  exact filled [] (by simp [← same, Nested.leaves, Nested.leavesAll]) rfl

end PgMimic.Arrays

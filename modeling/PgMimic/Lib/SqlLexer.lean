import PgMimic.Lib.Scanner
import Mathlib.Data.List.TakeWhile

/-!
# The lexical elements of PostgreSQL's SQL

As far as they decide what a parenthesis means: string constants with doubled quotes,
escape strings, dollar-quoted constants, quoted identifiers and comments. A word is one
element, so that an `E` or a `$` inside it begins nothing. Of block comments only those are
read that hold no other, and a text that breaks off inside an element has no elements
there.
-/

namespace SqlLexer

abbrev Text := List Char

inductive Element where
  | literal
  | lineComment
  | blockComment
  | opening
  | closing
  /-- A word, or one other character. -/
  | other
deriving DecidableEq, Repr

def isIdentStart (c : Char) : Bool := c.isAlpha || c = '_' || 128 ≤ c.toNat

/-- Of an identifier past its first character. -/
def isIdentCont (c : Char) : Bool := isIdentStart c || c.isDigit || c = '$'

/-- Of the tag of a dollar quote past its first character. -/
def isTagCont (c : Char) : Bool := isIdentStart c || c.isDigit

/-- What follows a literal in which the quote is doubled. -/
def closeQuoted (quote : Char) : Text → Option Text
  | [] => none
  | [c] => if c = quote then some [] else none
  | c :: d :: rest =>
    if c ≠ quote then closeQuoted quote (d :: rest)
    else if d = quote then closeQuoted quote rest
    else some (d :: rest)

/-- What follows an escape string: a backslash takes the next character with it. -/
def closeEscaped : Text → Option Text
  | [] => none
  | [c] => if c = '\'' then some [] else none
  | c :: d :: rest =>
    if c = '\\' ∨ c = '\'' ∧ d = '\'' then closeEscaped rest
    else if c = '\'' then some (d :: rest)
    else closeEscaped (d :: rest)

/-- What follows the first fence. -/
def closeFence (fence : Text) : Text → Option Text
  | [] => none
  | c :: rest =>
    if fence.isPrefixOf (c :: rest) then some ((c :: rest).drop fence.length)
    else closeFence fence rest

/-- What follows a block comment that holds no other. -/
def closeComment : Text → Option Text
  | [] | [_] => none
  | c :: d :: rest =>
    if c = '*' ∧ d = '/' then some rest
    else if c = '/' ∧ d = '*' then none
    else closeComment (d :: rest)

def tagOf : Text → Text
  | [] => []
  | c :: rest => if isIdentStart c then c :: rest.takeWhile isTagCont else []

/-- What follows the fence that opens a dollar-quoted constant, its first `$` read. -/
def afterOpening (text : Text) : Option (Text × Text) :=
  match text.drop (tagOf text).length with
  | '$' :: body => some ('$' :: tagOf text ++ ['$'], body)
  | _ => none

/-- The element that begins with a character, and what follows it. -/
def elementAt (c : Char) (rest : Text) : Option (Element × Text) :=
  if c = '\'' ∨ c = '"' then (closeQuoted c rest).map (.literal, ·)
  else if (c = 'e' ∨ c = 'E') ∧ rest.head? = some '\'' then
    (closeEscaped rest.tail).map (.literal, ·)
  else if isIdentStart c then some (.other, rest.dropWhile isIdentCont)
  else if c = '$' then
    match afterOpening rest with
    | some (fence, body) => (closeFence fence body).map (.literal, ·)
    | none => some (.other, rest)
  else if c = '-' ∧ rest.head? = some '-' then
    some (.lineComment, rest.dropWhile fun c => c ≠ '\n' ∧ c ≠ '\r')
  else if c = '/' ∧ rest.head? = some '*' then (closeComment rest.tail).map (.blockComment, ·)
  else if c = '(' then some (.opening, rest)
  else if c = ')' then some (.closing, rest)
  else some (.other, rest)

def nextElement : Text → Option (Element × Text)
  | [] => none
  | c :: rest => elementAt c rest

/-! ## Every element takes something -/

section Lengths

variable {text rest : Text}

theorem length_closeQuoted {quote : Char} (closed : closeQuoted quote text = some rest) :
    rest.length < text.length := by
  induction text using closeQuoted.induct quote with
  | case1 => cases closed
  | case2 =>
    rw [closeQuoted, if_pos rfl, Option.some.injEq] at closed
    rw [← closed]
    exact Nat.zero_lt_one
  | case3 c other => simp [closeQuoted, other] at closed
  | case4 c d more other ih =>
    rw [closeQuoted, if_pos other] at closed
    exact Nat.lt_succ_of_lt (ih closed)
  | case5 c more same ih =>
    rw [closeQuoted, if_neg same, if_pos rfl] at closed
    exact Nat.lt_succ_of_lt (Nat.lt_succ_of_lt (ih closed))
  | case6 c d more same other =>
    rw [closeQuoted, if_neg same, if_neg other, Option.some.injEq] at closed
    rw [← closed]
    exact Nat.lt_succ_self _

theorem length_closeEscaped (closed : closeEscaped text = some rest) :
    rest.length < text.length := by
  induction text using closeEscaped.induct with
  | case1 => cases closed
  | case2 =>
    rw [closeEscaped, if_pos rfl, Option.some.injEq] at closed
    rw [← closed]
    exact Nat.zero_lt_one
  | case3 c other => simp [closeEscaped, other] at closed
  | case4 c d more goes ih =>
    rw [closeEscaped, if_pos goes] at closed
    exact Nat.lt_succ_of_lt (Nat.lt_succ_of_lt (ih closed))
  | case5 d more stops =>
    rw [closeEscaped, if_neg stops, if_pos rfl, Option.some.injEq] at closed
    rw [← closed]
    exact Nat.lt_succ_self _
  | case6 c d more goes other ih =>
    rw [closeEscaped, if_neg goes, if_neg other] at closed
    exact Nat.lt_succ_of_lt (ih closed)

theorem length_closeFence {fence : Text} (filled : fence ≠ [])
    (closed : closeFence fence text = some rest) :
    rest.length < text.length := by
  induction text with
  | nil => cases closed
  | cons c more ih =>
    rw [closeFence] at closed
    split_ifs at closed with here
    · obtain rfl := Option.some.inj closed
      have some_taken := List.length_pos_of_ne_nil filled
      rw [List.length_drop, List.length_cons]
      omega
    · exact Nat.lt_succ_of_lt (ih closed)

theorem length_closeComment (closed : closeComment text = some rest) :
    rest.length < text.length := by
  induction text using closeComment.induct with
  | case1 => cases closed
  | case2 => cases closed
  | case3 c d more ends =>
    rw [closeComment, if_pos ends, Option.some.injEq] at closed
    rw [← closed]
    exact Nat.lt_succ_of_lt (Nat.lt_succ_self _)
  | case4 c d more goes nested =>
    rw [closeComment, if_neg goes, if_pos nested] at closed
    cases closed
  | case5 c d more goes flat ih =>
    rw [closeComment, if_neg goes, if_neg flat] at closed
    exact Nat.lt_succ_of_lt (ih closed)

theorem length_afterOpening {parts : Text × Text} (opens : afterOpening text = some parts) :
    parts.1 ≠ [] ∧ parts.2.length < text.length := by
  rw [afterOpening] at opens
  split at opens
  · rename_i body starts
    obtain rfl := Option.some.inj opens
    have whole := congrArg List.length starts
    rw [List.length_drop, List.length_cons] at whole
    exact ⟨List.cons_ne_nil _ _, by change body.length < text.length; omega⟩
  · cases opens

theorem of_map_literal {kind element : Element} {closed : Option Text}
    (found : closed.map (kind, ·) = some (element, rest)) : closed = some rest := by
  obtain ⟨after, closed, same⟩ := Option.map_eq_some_iff.mp found
  rw [closed, (Prod.mk.inj same).2]

theorem length_elementAt {element : Element} {c : Char}
    (found : elementAt c text = some (element, rest)) : rest.length ≤ text.length := by
  have tail := List.length_tail (l := text)
  rw [elementAt] at found
  split_ifs at found with quote escape start dollar line block opening closing
  · exact Nat.le_of_lt (length_closeQuoted (of_map_literal found))
  · have shorter := length_closeEscaped (of_map_literal found)
    omega
  · obtain ⟨_, rfl⟩ := Prod.mk.inj (Option.some.inj found)
    exact List.length_dropWhile_le _ _
  · cases opens : afterOpening text with
    | none =>
      simp only [opens, Option.some.injEq, Prod.mk.injEq] at found
      exact Nat.le_of_eq (congrArg List.length found.2.symm)
    | some parts =>
      obtain ⟨filled, shorter⟩ := length_afterOpening opens
      simp only [opens] at found
      have body := length_closeFence filled (of_map_literal found)
      omega
  · obtain ⟨_, rfl⟩ := Prod.mk.inj (Option.some.inj found)
    exact List.length_dropWhile_le _ _
  · have shorter := length_closeComment (of_map_literal found)
    omega
  all_goals
    obtain ⟨_, rfl⟩ := Prod.mk.inj (Option.some.inj found)
    exact Nat.le_refl _

theorem length_nextElement {element : Element} (found : nextElement text = some (element, rest)) :
    rest.length < text.length := by
  cases text with
  | nil => cases found
  | cons c later => exact Nat.lt_succ_of_le (length_elementAt found)

end Lengths

/-! ## What an element is made of -/

section Pieces

variable {text rest : Text} {element : Element}

theorem split_of_closeComment (closed : closeComment text = some rest) :
    ∃ body, text = body ++ rest := by
  induction text using closeComment.induct with
  | case1 => cases closed
  | case2 => cases closed
  | case3 c d more ends =>
    rw [closeComment, if_pos ends, Option.some.injEq] at closed
    exact ⟨[c, d], by rw [closed]; rfl⟩
  | case4 c d more goes nested =>
    rw [closeComment, if_neg goes, if_pos nested] at closed
    cases closed
  | case5 c d more goes flat ih =>
    rw [closeComment, if_neg goes, if_neg flat] at closed
    obtain ⟨body, split⟩ := ih closed
    exact ⟨c :: body, by rw [split]; rfl⟩

/-- What the text of an element says of its parentheses. -/
def Piece : Element → Text → Prop
  | .opening, piece => piece = ['(']
  | .closing, piece => piece = [')']
  | .other, piece => '(' ∉ piece ∧ ')' ∉ piece
  | .literal, _ | .lineComment, _ | .blockComment, _ => True

theorem piece_word {c : Char} (start : isIdentStart c = true) (rest : Text) :
    Piece .other (c :: rest.takeWhile isIdentCont) := by
  have letter : ∀ d ∈ c :: rest.takeWhile isIdentCont, isIdentCont d = true := by
    intro d inside
    rcases List.mem_cons.mp inside with rfl | inside
    · rw [isIdentCont, start, Bool.true_or, Bool.true_or]
    · exact List.mem_takeWhile_imp inside
  constructor
  · intro inside
    exact absurd (letter '(' inside) (by decide)
  · intro inside
    exact absurd (letter ')' inside) (by decide)

theorem piece_of_elementAt {c : Char} (found : elementAt c text = some (element, rest))
    (unquoted : element ≠ .literal) : ∃ piece, c :: text = piece ++ rest ∧ Piece element piece := by
  rw [elementAt] at found
  have literal : ∀ closed : Option Text,
      closed.map (Element.literal, ·) ≠ some (element, rest) := by
    intro closed same
    obtain ⟨_, _, same⟩ := Option.map_eq_some_iff.mp same
    exact unquoted (Prod.mk.inj same).1.symm
  split_ifs at found with quote escape start dollar line block opening closing
  · exact absurd found (literal _)
  · exact absurd found (literal _)
  · obtain ⟨rfl, rfl⟩ := Prod.mk.inj (Option.some.inj found)
    refine ⟨c :: text.takeWhile isIdentCont, ?_, piece_word start text⟩
    rw [List.cons_append, List.takeWhile_append_dropWhile]
  · split at found
    · exact absurd found (literal _)
    · obtain ⟨rfl, rfl⟩ := Prod.mk.inj (Option.some.inj found)
      exact ⟨[c], rfl, by simp [dollar], by simp [dollar]⟩
  · obtain ⟨rfl, rfl⟩ := Prod.mk.inj (Option.some.inj found)
    refine ⟨c :: text.takeWhile fun c => c ≠ '\n' ∧ c ≠ '\r', ?_, trivial⟩
    rw [List.cons_append, List.takeWhile_append_dropWhile]
  · obtain ⟨after, closed, same⟩ := Option.map_eq_some_iff.mp found
    obtain ⟨rfl, rfl⟩ := Prod.mk.inj same
    obtain ⟨body, split⟩ := split_of_closeComment closed
    obtain ⟨d, later, rfl⟩ : ∃ d later, text = d :: later := by
      cases text with
      | nil => exact absurd block.2 (by simp)
      | cons d later => exact ⟨d, later, rfl⟩
    refine ⟨c :: d :: body, ?_, trivial⟩
    rw [List.cons_append, List.cons_append, ← split]
    rfl
  · obtain ⟨rfl, rfl⟩ := Prod.mk.inj (Option.some.inj found)
    exact ⟨[c], rfl, congrArg ([·]) opening⟩
  · obtain ⟨rfl, rfl⟩ := Prod.mk.inj (Option.some.inj found)
    exact ⟨[c], rfl, congrArg ([·]) closing⟩
  · obtain ⟨rfl, rfl⟩ := Prod.mk.inj (Option.some.inj found)
    exact ⟨[c], rfl, fun h => opening (List.mem_singleton.mp h).symm,
      fun h => closing (List.mem_singleton.mp h).symm⟩

end Pieces

/-! ## Parentheses -/

def lexer : Scanner Char Element where
  next := nextElement
  shorter := length_nextElement

def elements (text : Text) : List Element := (lexer.scan text).1.map Prod.fst

/-- The whole text has elements. -/
def lexes (text : Text) : Bool := (lexer.scan text).2.isEmpty

/-- Every parenthesis that is opened is closed, and none is closed before. -/
def matched : Nat → List Element → Bool
  | depth, [] => depth = 0
  | depth, .opening :: later => matched (depth + 1) later
  | 0, .closing :: _ => false
  | depth + 1, .closing :: later => matched depth later
  | depth, _ :: later => matched depth later

section Matched

variable {depth : Nat} {front later later' : List Element}

theorem matched_skip {element : Element} (opens : element ≠ .opening) (closes : element ≠ .closing)
    (depth : Nat) (later : List Element) :
    matched depth (element :: later) = matched depth later := by
  cases element with
  | opening => exact absurd rfl opens
  | closing => exact absurd rfl closes
  | literal | lineComment | blockComment | other => cases depth <;> rfl

theorem matched_cons_of_imp
    (later_of : ∀ depth, matched depth later = true → matched depth later' = true)
    (element : Element) (closed : matched depth (element :: later) = true) :
    matched depth (element :: later') = true := by
  cases element with
  | opening => exact later_of (depth + 1) closed
  | closing =>
    cases depth with
    | zero => cases closed
    | succ depth => exact later_of depth closed
  | literal | lineComment | blockComment | other =>
    rw [matched_skip (by decide) (by decide)] at closed ⊢
    exact later_of depth closed

/-- Elements that close what they open do so in front of any others. -/
theorem matched_append (closed : matched depth front = true) (extra : Nat) (later : List Element) :
    matched (depth + extra) (front ++ later) = matched extra later := by
  induction front generalizing depth with
  | nil =>
    obtain rfl : depth = 0 := of_decide_eq_true closed
    rw [Nat.zero_add, List.nil_append]
  | cons element front ih =>
    cases element with
    | opening =>
      have inner := @ih (depth + 1) closed
      rw [Nat.add_right_comm] at inner
      exact inner
    | closing =>
      cases depth with
      | zero => cases closed
      | succ depth =>
        rw [Nat.add_right_comm]
        exact ih closed
    | literal | lineComment | blockComment | other =>
      rw [matched_skip (by decide) (by decide)] at closed
      rw [List.cons_append, matched_skip (by decide) (by decide), ih closed]

end Matched

/-- The parentheses of a text are balanced outside its literals and comments. -/
def balanced (text : Text) : Bool := lexes text && matched 0 (elements text)

def endsInLineComment (text : Text) : Bool := (elements text).getLast? = some .lineComment

example : balanced "SELECT (1) -- )".toList = true ∧
    endsInLineComment "SELECT 1 -- )".toList = true := by
  decide

example : balanced "SELECT '(', $a$)$a$, E'\\')' /* ) */".toList = true := by decide

end SqlLexer

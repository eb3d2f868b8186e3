import PgMimic.CopyEndpoint
import PgMimic.Lib.Trim

/-!
# Texts written token by token

A client writes words, string constants with their quotes doubled, and punctuation, with any
space between them, as long as no token runs into the next. `_tokens` reads such a text
back as the tokens it was written for, and the space around it does not matter.
-/

namespace PgMimic.Endpoint

open PgMimic.Copy (Text)
open Trim (Blank Solid trim)

/-- The body of a string constant. -/
def doubled (quote : Char) (value : Text) : Text :=
  value.flatMap fun c => if c = quote then [quote, quote] else [c]

/-- A string constant. -/
def literal (value : Text) : Text := '\'' :: (doubled '\'' value ++ ['\''])

section Quotes

variable {quote : Char} {tail : Text}

theorem doubled_cons_quote (value : Text) :
    doubled quote (quote :: value) = quote :: quote :: doubled quote value := by
  simp [doubled]

theorem doubled_cons_other {c : Char} (other : c ≠ quote) (value : Text) :
    doubled quote (c :: value) = c :: doubled quote value := by
  simp [doubled, other]

theorem doubled_append (quote : Char) (value value' : Text) :
    doubled quote (value ++ value') = doubled quote value ++ doubled quote value' :=
  List.flatMap_append

theorem doubled_eq_self {value : Text} (absent : quote ∉ value) : doubled quote value = value := by
  induction value with
  | nil => rfl
  | cons c value ih =>
    rw [List.mem_cons, not_or] at absent
    rw [doubled_cons_other (Ne.symm absent.1), ih absent.2]

/-- The quote that closes the constant is the one no second follows. -/
theorem closeQuote_doubled_append (single : tail.head? ≠ some quote) (value : Text) :
    closeQuote quote (doubled quote value ++ quote :: tail) = some tail := by
  induction value with
  | nil => exact closeQuote_single single
  | cons c value ih =>
    by_cases same : c = quote
    · subst same
      rw [doubled_cons_quote, List.cons_append, List.cons_append, closeQuote_doubled, ih]
      rfl
    · rw [doubled_cons_other same, List.cons_append, closeQuote_of_ne same, ih]

theorem undouble_doubled (quote : Char) (value : Text) :
    undouble quote (doubled quote value) = value := by
  induction value with
  | nil => rfl
  | cons c value ih =>
    by_cases same : c = quote
    · subst same
      rw [doubled_cons_quote, undouble, if_pos ⟨rfl, rfl⟩, ih]
    · rw [doubled_cons_other same]
      cases rest : doubled quote value with
      | nil =>
        rw [rest] at ih
        rw [← ih]
        rfl
      | cons d later =>
        rw [rest] at ih
        rw [undouble, if_neg fun both => same both.1, ih]

end Quotes

/-! ## One token -/

/-- How a token is written in front of the rest of the text. -/
inductive Written : Token → Text → Text → Prop where
  | word {text rest : Text} (filled : text ≠ []) (bare : ∀ c ∈ text, isBare c = true)
      (dollar : text.head? ≠ some '$') (stops : ∀ c ∈ rest.head?, isBare c = false) :
      Written (.word text) text rest
  | string {value rest : Text} (stops : rest.head? ≠ some '\'') :
      Written ⟨.string, value⟩ (literal value) rest
  | punct {c : Char} {rest : Text} (is : isPunct c = true) : Written (.punct c) [c] rest

variable {t : TextTables} {token : Token} {piece rest : Text}

/-- Something is written, and none of it is space at either end. -/
theorem Written.solid (written : Written token piece rest) : piece ≠ [] ∧ Solid isSpace piece := by
  cases written with
  | word filled bare =>
    refine ⟨filled, fun c head => ?_, fun c last => ?_⟩
    · exact not_space_of_isBare (bare c (List.mem_of_mem_head? head))
    · exact not_space_of_isBare (bare c (List.mem_of_getLast? last))
  | string =>
    refine ⟨List.cons_ne_nil _ _, fun c head => ?_, fun c last => ?_⟩
    · obtain rfl := Option.some.inj head
      rfl
    · rw [literal, ← List.cons_append, List.getLast?_concat] at last
      obtain rfl := Option.some.inj last
      rfl
  | punct is =>
    refine ⟨List.cons_ne_nil _ _, fun c head => ?_, fun c last => ?_⟩
    · obtain rfl := Option.some.inj head
      exact not_space_of_isPunct is
    · obtain rfl := Option.some.inj last
      exact not_space_of_isPunct is

/-- Only a semicolon is written with one at its end. -/
theorem Written.getLast (written : Written token piece rest) (other : token ≠ .punct ';') :
    piece.getLast? ≠ some ';' := by
  intro last
  cases written with
  | word filled bare =>
    have semicolon := bare ';' (List.mem_of_getLast? last)
    cases semicolon
  | string =>
    rw [literal, ← List.cons_append, List.getLast?_concat] at last
    cases last
  | punct is =>
    obtain rfl := Option.some.inj last
    exact other rfl

/-- A token may end the text, or what begins like the rest may follow it. -/
theorem Written.of_head {rest' : Text} (written : Written token piece rest)
    (heads : rest'.head? = none ∨ rest'.head? = rest.head?) : Written token piece rest' := by
  cases written with
  | word filled bare dollar stops =>
    refine .word filled bare dollar fun c head => ?_
    rcases heads with none | same
    · rw [none] at head
      cases head
    · exact stops c (same ▸ head)
  | string stops =>
    refine .string ?_
    rcases heads with none | same
    · rw [none]
      exact fun h => by cases h
    · rw [same]
      exact stops
  | punct is => exact .punct is

theorem bareWord_written {text : Text} (bare : ∀ c ∈ text, isBare c = true)
    (stops : ∀ c ∈ rest.head?, isBare c = false) :
    bareWord (text ++ rest) = (.word text, rest) := by
  have none_left : text.dropWhile isBare = [] := List.dropWhile_eq_nil_iff.mpr bare
  have all : text.takeWhile isBare = text := List.takeWhile_eq_self_iff.mpr bare
  rw [bareWord_append stops, bareWord, all, none_left]
  rfl

/-- The token is read off the front, over the space before it. -/
theorem nextToken_written {spaces : Text} (blank : Blank isSpace spaces)
    (written : Written token piece rest) :
    nextToken t (spaces ++ (piece ++ rest)) = some (token, rest) := by
  obtain ⟨filled, solid⟩ := written.solid
  obtain ⟨c, later, rfl⟩ := List.exists_cons_of_ne_nil filled
  have starts : (spaces ++ (c :: later ++ rest)).dropWhile isSpace = c :: (later ++ rest) := by
    rw [Trim.dropWhile_blank blank]
    exact Trim.dropWhile_solid fun d head => solid.1 d head
  rw [nextToken, starts]
  simp only
  cases written with
  | word filled bare dollar stops =>
    have whole := bareWord_written bare stops
    have isBareC := bare c List.mem_cons_self
    have single : c ≠ '\'' := fun same => by rw [same] at isBareC; cases isBareC
    have double : c ≠ '"' := fun same => by rw [same] at isBareC; cases isBareC
    have punct : ¬ isPunct c = true := fun is => by simp [isBare, is] at isBareC
    have plain : c ≠ '$' := fun same => dollar (congrArg some same)
    rw [List.cons_append] at whole
    rw [tokenAt, if_neg single, if_neg double, if_neg punct, if_neg plain, whole]
  | @string value _ stops =>
    have split : doubled '\'' value ++ ['\''] ++ rest = doubled '\'' value ++ '\'' :: rest := by
      rw [List.append_assoc, List.singleton_append]
    have body : taken (doubled '\'' value ++ ['\''] ++ rest) rest = doubled '\'' value ++ ['\''] :=
      taken_of_split rfl
    rw [tokenAt, if_pos rfl, split, closeQuote_doubled_append stops, ← split, Option.map_some, body,
      List.dropLast_concat, undouble_doubled]
  | punct is =>
    have single : c ≠ '\'' := fun same => by rw [same] at is; cases is
    have double : c ≠ '"' := fun same => by rw [same] at is; cases is
    rw [tokenAt, if_neg single, if_neg double, if_pos is]
    rfl

/-! ## A text of tokens -/

/-- The text is the tokens, each with space in front of it, and space at the end. -/
inductive SpelledAs : List Token → Text → Prop where
  | nil {text : Text} (blank : Blank isSpace text) : SpelledAs [] text
  | cons {token : Token} {more : List Token} {spaces piece rest : Text}
      (blank : Blank isSpace spaces) (written : Written token piece rest)
      (later : SpelledAs more rest) : SpelledAs (token :: more) (spaces ++ (piece ++ rest))

variable {found : List Token} {text : Text}

theorem scan_spelled (spelled : SpelledAs found text) :
    ((scanner t).scan text).1.map Prod.fst = found ∧ strip ((scanner t).scan text).2 = [] := by
  induction spelled with
  | @nil text blank =>
    have stuck : nextToken t text = none := by
      rw [nextToken, List.dropWhile_eq_nil_iff.mpr blank]
    rw [Scanner.scan_of_next_none (s := scanner t) stuck]
    exact ⟨rfl, Trim.trim_eq_nil_iff.mpr blank⟩
  | cons blank written later ih =>
    rw [Scanner.scan_of_next_some (s := scanner t) (nextToken_written blank written)]
    exact ⟨congrArg _ ih.1, ih.2⟩

theorem tokenize_spelled (spelled : SpelledAs found text) : tokenize t text = .ok found := by
  obtain ⟨read, blank⟩ := scan_spelled (t := t) spelled
  have all : tokens t text 0 = (((scanner t).scan text).1.map (place text.length), none) := by
    simp only [tokens, List.drop_zero, if_pos blank]
  have same : (((scanner t).scan text).1.map (place text.length)).map Placed.token = found := by
    rw [← read, List.map_map]
    rfl
  rw [tokenize, all]
  simp only [same]

/-! ## Space around the text -/

/-- The text up to the end of its last token. -/
theorem SpelledAs.core (spelled : SpelledAs found text) :
    ∃ core after, text = core ++ after ∧ Blank isSpace after ∧ SpelledAs found core ∧
      (core = [] ↔ found = []) ∧ (∀ c ∈ core.getLast?, isSpace c = false) ∧
      ((∀ token ∈ found, token ≠ .punct ';') → core.getLast? ≠ some ';') := by
  induction spelled with
  | nil blank =>
    refine ⟨[], _, rfl, blank, .nil fun c inside => ?_, by simp, by simp, by simp⟩
    exact absurd inside List.not_mem_nil
  | @cons token more spaces piece rest blank written later ih =>
    obtain ⟨core, after, split, blank', rest_spelled, empty, last, other⟩ := ih
    obtain ⟨filled, solid⟩ := written.solid
    have heads : core.head? = none ∨ core.head? = rest.head? := by
      cases core with
      | nil => exact Or.inl rfl
      | cons c core => exact Or.inr (by rw [split]; rfl)
    have ends : (spaces ++ (piece ++ core)).getLast? =
        if core = [] then piece.getLast? else core.getLast? := by
      have whole : piece ++ core ≠ [] := by simp [filled]
      rw [List.getLast?_append_of_ne_nil spaces whole]
      by_cases nothing : core = []
      · rw [if_pos nothing, nothing, List.append_nil]
      · rw [if_neg nothing, List.getLast?_append_of_ne_nil piece nothing]
    refine ⟨spaces ++ (piece ++ core), after, by rw [split]; simp, blank',
      .cons blank (written.of_head heads) rest_spelled, by simp [filled], ?_, fun plain => ?_⟩
    · rw [ends]
      split_ifs with nothing
      · exact solid.2
      · exact last
    · rw [ends]
      split_ifs with nothing
      · exact written.getLast (plain token List.mem_cons_self)
      · exact other fun later inside => plain later (List.mem_cons_of_mem token inside)

theorem strip_spelled (spelled : SpelledAs found text) : SpelledAs found (strip text) ∧
    ((∀ token ∈ found, token ≠ .punct ';') → (strip text).getLast? ≠ some ';') := by
  obtain ⟨core, after, rfl, blank, core_spelled, empty, last, other⟩ := spelled.core
  have nothing : Blank isSpace ([] : Text) := fun c inside => absurd inside List.not_mem_nil
  cases core_spelled with
  | nil =>
    obtain rfl := empty.mpr rfl
    have none_left : strip ([] ++ after) = [] := Trim.trim_eq_nil_iff.mpr blank
    rw [none_left]
    exact ⟨.nil nothing, other⟩
  | @cons token more spaces piece rest front written later =>
    obtain ⟨filled, solid⟩ := written.solid
    have whole : piece ++ rest ≠ [] := by simp [filled]
    rw [List.getLast?_append_of_ne_nil spaces whole] at last other
    have within : Solid isSpace (piece ++ rest) :=
      ⟨fun c head => solid.1 c (by rwa [List.head?_append_of_ne_nil piece filled] at head), last⟩
    have stripped : strip (spaces ++ (piece ++ rest) ++ after) = piece ++ rest := by
      rw [List.append_assoc]
      exact Trim.trim_of_solid front within blank
    rw [stripped]
    exact ⟨.cons nothing written later, other⟩

/-- The text, or the text and a semicolon. -/
def Terminated (text whole : Text) : Prop :=
  whole = text ∨ ∃ after, whole = text ++ ';' :: after ∧ Blank isSpace after

/-- One semicolon at the end is dropped, whatever space stands around it. -/
theorem stripTerminator_spelled {whole : Text} (spelled : SpelledAs found text)
    (plain : ∀ token ∈ found, token ≠ .punct ';') (ends : Terminated text whole) :
    SpelledAs found (stripTerminator whole) := by
  obtain ⟨stripped, other⟩ := strip_spelled spelled
  rcases ends with rfl | ⟨after, rfl, blank⟩
  · rw [stripTerminator]
    simp only [if_neg (other plain)]
    exact stripped
  · obtain ⟨before, split, front⟩ := Trim.dropWhile_split (p := isSpace) text
    have solid : Solid isSpace (text.dropWhile isSpace ++ [';']) := by
      refine ⟨fun c head => ?_, fun c last => ?_⟩
      · cases rest : text.dropWhile isSpace with
        | nil =>
          rw [rest] at head
          obtain rfl := Option.some.inj head
          rfl
        | cons d rest' =>
          rw [rest] at head
          obtain rfl := Option.some.inj head
          exact solid_of_dropWhile rest
      · rw [List.getLast?_concat] at last
        obtain rfl := Option.some.inj last
        rfl
    have whole : strip (text ++ ';' :: after) = text.dropWhile isSpace ++ [';'] := by
      have parts : text ++ ';' :: after = before ++ (text.dropWhile isSpace ++ [';'] ++ after) := by
        conv_lhs => rw [split]
        simp
      rw [parts]
      exact Trim.trim_of_solid front solid blank
    have dropped : strip (text.dropWhile isSpace) = strip text := by
      rw [strip, strip, Trim.dropWhile_solid (Trim.head_dropWhile text)]
    rw [stripTerminator, whole]
    simp only [List.getLast?_concat, if_true, List.dropLast_concat, dropped]
    exact stripped

end PgMimic.Endpoint

import Mathlib.Data.List.TakeWhile
import PgMimic.Copy
import PgMimic.Lib.Scanner
import PgMimic.Lib.Trim
import PgMimic.SetText

/-!
# The tokens of a COPY statement

`_tokens` makes one pass over the text and knows string constants in quotes or dollar
quotes, quoted identifiers, five characters of punctuation, and words. Everything else a
text can hold is read as one of these.
-/

namespace PgMimic.Endpoint

open PgMimic.Copy (Text CopyOptions Format)

/-- What Python takes from the Unicode tables: `str.lower`, `str.upper`, `repr` and `\w`. -/
structure TextTables where
  lower : Text → Text
  upper : Text → Text
  repr : Text → Text
  isWord : Char → Bool
  upper_ascii : ∀ word, (∀ c ∈ word, c.toNat < 128) → upper word = word.map Char.toUpper

/-- The tables of a text in ASCII. -/
def asciiTables : TextTables where
  lower := List.map Char.toLower
  upper := List.map Char.toUpper
  repr := fun text => '\'' :: text ++ ['\'']
  isWord := fun c => c.isAlphanum || c = '_'
  upper_ascii := fun _ _ => rfl

/-- `str.strip`. -/
def strip (text : Text) : Text :=
  ((text.dropWhile isSpace).reverse.dropWhile isSpace).reverse

/-! ## Tokens -/

inductive TokenKind where
  | string
  | punct
  | word
deriving DecidableEq

structure Token where
  kind : TokenKind
  value : Text
deriving DecidableEq

def Token.punct (c : Char) : Token := ⟨.punct, [c]⟩

def Token.word (text : Text) : Token := ⟨.word, text⟩

/-- What follows the closing quote. A doubled quote goes on with the literal, but where
nothing closes it after all its first half is the closing quote. -/
def closeQuote (quote : Char) : Text → Option Text
  | [] => none
  | [c] => if c = quote then some [] else none
  | c :: d :: rest =>
    if c ≠ quote then closeQuote quote (d :: rest)
    else if d = quote then (closeQuote quote rest).orElse fun _ => some (d :: rest)
    else some (d :: rest)

/-- `replace("''", "'")`. -/
def undouble (quote : Char) : Text → Text
  | c :: d :: rest =>
    if c = quote ∧ d = quote then quote :: undouble quote rest else c :: undouble quote (d :: rest)
  | short => short

/-- `[A-Za-z_]\w*|`. -/
def dollarTag (t : TextTables) : Text → Text
  | [] => []
  | c :: rest => if c.isAlpha ∨ c = '_' then c :: rest.takeWhile t.isWord else []

/-- The text in front of the first fence, and what follows it. -/
def breakAt (fence : Text) : Text → Option (Text × Text)
  | [] => if fence = [] then some ([], []) else none
  | c :: rest =>
    if fence.isPrefixOf (c :: rest) then some ([], (c :: rest).drop fence.length)
    else (breakAt fence rest).map fun parts => (c :: parts.1, parts.2)

/-- The body of a dollar-quoted constant whose first `$` has been read. -/
def dollarQuoted (t : TextTables) (text : Text) : Option (Text × Text) :=
  let tag := dollarTag t text
  match text.drop tag.length with
  | '$' :: body => breakAt ('$' :: tag ++ ['$']) body
  | _ => none

def isPunct (c : Char) : Bool := c = '(' || c = ')' || c = ',' || c = '*' || c = ';'

/-- `[^\s(),*;'"]`. -/
def isBare (c : Char) : Bool := !isSpace c && !isPunct c && c != '\'' && c != '"'

/-- A word with the characters before anything that ends it. -/
def bareWord (text : Text) : Token × Text := (.word (text.takeWhile isBare), text.dropWhile isBare)

/-- What the match took of the text, by what it left. -/
def taken (text after : Text) : Text := text.take (text.length - after.length)

/-- `_TOKEN_RE` at a character that is no space. -/
def tokenAt (t : TextTables) (c : Char) (rest : Text) : Option (Token × Text) :=
  if c = '\'' then
    (closeQuote c rest).map fun after => (⟨.string, undouble c (taken rest after).dropLast⟩, after)
  else if c = '"' then
    (closeQuote c rest).map fun after => (.word (taken (c :: rest) after), after)
  else if isPunct c then some (.punct c, rest)
  else if c = '$' then
    match dollarQuoted t rest with
    | some (body, after) => some (⟨.string, body⟩, after)
    | none => some (bareWord (c :: rest))
  else some (bareWord (c :: rest))

/-- `_TOKEN_RE.match`. -/
def nextToken (t : TextTables) (text : Text) : Option (Token × Text) :=
  match text.dropWhile isSpace with
  | [] => none
  | c :: rest => tokenAt t c rest

/-! ### What a token leaves -/

theorem not_space_of_isBare {c : Char} (bare : isBare c = true) : isSpace c = false := by
  simp only [isBare, Bool.and_eq_true, Bool.not_eq_true'] at bare
  exact bare.1.1.1

theorem not_punct_of_isBare {c : Char} (bare : isBare c = true) : isPunct c = false := by
  simp only [isBare, Bool.and_eq_true, Bool.not_eq_true'] at bare
  exact bare.1.1.2

theorem not_space_of_isPunct {c : Char} (punct : isPunct c = true) : isSpace c = false := by
  simp only [isPunct, Bool.or_eq_true, decide_eq_true_eq] at punct
  rcases punct with (((rfl | rfl) | rfl) | rfl) | rfl
  all_goals rfl

section Quotes

variable {quote : Char} {text after tail : Text}

theorem closeQuote_of_ne {c : Char} (other : c ≠ quote) (rest : Text) :
    closeQuote quote (c :: rest) = closeQuote quote rest := by
  cases rest with
  | nil => simp [closeQuote, other]
  | cons d rest => rw [closeQuote, if_pos other]

theorem closeQuote_doubled (quote : Char) (rest : Text) :
    closeQuote quote (quote :: quote :: rest) =
    (closeQuote quote rest).orElse fun _ => some (quote :: rest) := by
  rw [closeQuote, if_neg (not_not.mpr rfl), if_pos rfl]

theorem closeQuote_single {rest : Text} (single : rest.head? ≠ some quote) :
    closeQuote quote (quote :: rest) = some rest := by
  cases rest with
  | nil => rw [closeQuote, if_pos rfl]
  | cons d rest =>
    have other : d ≠ quote := fun same => single (by rw [same]; rfl)
    rw [closeQuote, if_neg (not_not.mpr rfl), if_neg other]

/-- A text by the character it begins with: another, one quote, or two. -/
theorem quote_induction {motive : Text → Prop} (quote : Char) (nil : motive [])
    (other : ∀ c rest, c ≠ quote → motive rest → motive (c :: rest))
    (single : ∀ rest : Text, rest.head? ≠ some quote → motive (quote :: rest))
    (doubled : ∀ rest, motive rest → motive (quote :: quote :: rest)) (text : Text) :
    motive text := by
  induction text using closeQuote.induct quote with
  | case1 => exact nil
  | case2 => exact single [] (fun h => by cases h)
  | case3 c differs => exact other c [] differs nil
  | case4 c d rest differs ih => exact other c (d :: rest) differs ih
  | case5 d rest same ih => exact not_not.mp same ▸ doubled rest ih
  | case6 c d rest same differs =>
    obtain rfl : c = quote := not_not.mp same
    exact single (d :: rest) (fun h => differs (Option.some.inj h))

theorem split_of_closeQuote (closed : closeQuote quote text = some after) :
    ∃ body, text = body ++ quote :: after := by
  induction text using quote_induction quote with
  | nil => cases closed
  | other c rest differs ih =>
    rw [closeQuote_of_ne differs] at closed
    obtain ⟨body, rfl⟩ := ih closed
    exact ⟨c :: body, rfl⟩
  | single rest once =>
    obtain rfl := Option.some.inj ((closeQuote_single once).symm.trans closed)
    exact ⟨[], rfl⟩
  | doubled rest ih =>
    rw [closeQuote_doubled] at closed
    cases later : closeQuote quote rest with
    | none =>
      rw [later] at closed
      obtain rfl := Option.some.inj closed
      exact ⟨[], rfl⟩
    | some found =>
      rw [later] at closed
      obtain rfl := Option.some.inj closed
      obtain ⟨body, rfl⟩ := ih later
      exact ⟨quote :: quote :: body, rfl⟩

theorem length_of_closeQuote (closed : closeQuote quote text = some after) :
    after.length < text.length := by
  obtain ⟨body, rfl⟩ := split_of_closeQuote closed
  rw [List.length_append, List.length_cons]
  omega

theorem closeQuote_of_not_mem (absent : quote ∉ text) : closeQuote quote text = none := by
  cases closed : closeQuote quote text with
  | none => rfl
  | some after =>
    obtain ⟨body, rfl⟩ := split_of_closeQuote closed
    exact absurd (List.mem_append_right body List.mem_cons_self) absent

/-- A tail without quotes closes nothing. -/
theorem closeQuote_append (absent : quote ∉ tail) (text : Text) :
    closeQuote quote (text ++ tail) = (closeQuote quote text).map (· ++ tail) := by
  induction text using quote_induction quote with
  | nil => exact closeQuote_of_not_mem absent
  | other c rest differs ih =>
    rw [List.cons_append, closeQuote_of_ne differs, closeQuote_of_ne differs, ih]
  | single rest once =>
    have still : (rest ++ tail).head? ≠ some quote := by
      intro h
      cases rest with
      | nil => exact absent (List.mem_of_mem_head? h)
      | cons d rest => exact once h
    rw [List.cons_append, closeQuote_single still, closeQuote_single once]
    rfl
  | doubled rest ih =>
    rw [List.cons_append, List.cons_append, closeQuote_doubled, closeQuote_doubled, ih]
    cases closeQuote quote rest <;> rfl

end Quotes

section Fences

variable {fence text body after tail : Text}

theorem split_of_breakAt (found : breakAt fence text = some (body, after)) :
    text = body ++ fence ++ after := by
  induction text generalizing body with
  | nil =>
    by_cases empty : fence = []
    · simp_all [breakAt]
    · simp [breakAt, empty] at found
  | cons c rest ih =>
    rw [breakAt] at found
    by_cases here : fence.isPrefixOf (c :: rest)
    · rw [if_pos here, Option.some.injEq, Prod.mk.injEq] at found
      obtain ⟨rfl, rfl⟩ := found
      obtain ⟨more, split⟩ := List.isPrefixOf_iff_prefix.mp here
      rw [← split, List.drop_left]
      rfl
    · rw [if_neg here, Option.map_eq_some_iff] at found
      obtain ⟨⟨inner, left⟩, later, same⟩ := found
      obtain ⟨rfl, rfl⟩ := Prod.mk.inj same
      rw [ih later]
      rfl

theorem breakAt_of_not_mem {c : Char} (inside : c ∈ fence) (absent : c ∉ text) :
    breakAt fence text = none := by
  cases found : breakAt fence text with
  | none => rfl
  | some parts =>
    obtain ⟨body, after⟩ := parts
    rw [split_of_breakAt found] at absent
    exact absurd (List.mem_append_left after (List.mem_append_right body inside)) absent

/-- A list that ends in something the tail has not is a prefix only of what is in front. -/
theorem prefix_append_iff {c : Char} (absent : c ∉ tail) (last : fence.getLast? = some c) :
    fence <+: text ++ tail ↔ fence <+: text := by
  constructor
  · intro front
    rcases List.prefix_or_prefix_of_prefix front (List.prefix_append text tail) with short | long
    · exact short
    · obtain ⟨more, rfl⟩ := long
      have inTail : more <+: tail := List.prefix_append_right_inj text |>.mp front
      cases more with
      | nil => rw [List.append_nil]
      | cons d more =>
        rw [List.getLast?_append_of_ne_nil text (List.cons_ne_nil d more)] at last
        exact absurd (inTail.subset (List.mem_of_getLast? last)) absent
  · intro front
    exact front.trans (List.prefix_append text tail)

/-- A fence that ends in a character the tail has not ends in front of the tail. -/
theorem breakAt_append {c : Char} (absent : c ∉ tail) (last : fence.getLast? = some c)
    (text : Text) : breakAt fence (text ++ tail) =
      (breakAt fence text).map fun parts => (parts.1, parts.2 ++ tail) := by
  have inside : c ∈ fence := List.mem_of_getLast? last
  induction text with
  | nil =>
    have filled : fence ≠ [] := List.ne_nil_of_mem inside
    rw [List.nil_append, breakAt_of_not_mem inside absent, breakAt, if_neg filled]
    rfl
  | cons d rest ih =>
    rw [List.cons_append, breakAt, breakAt, ih]
    by_cases here : fence.isPrefixOf (d :: rest)
    · have front := List.isPrefixOf_iff_prefix.mp here
      have still : fence.isPrefixOf (d :: (rest ++ tail)) :=
        List.isPrefixOf_iff_prefix.mpr (front.trans (List.prefix_append (d :: rest) tail))
      rw [if_pos here, if_pos still, ← List.cons_append,
        List.drop_append_of_le_length front.length_le]
      rfl
    · have still : ¬ fence.isPrefixOf (d :: (rest ++ tail)) := fun h =>
        here (List.isPrefixOf_iff_prefix.mpr
          ((prefix_append_iff absent last).mp (List.isPrefixOf_iff_prefix.mp h)))
      rw [if_neg here, if_neg still, Option.map_map, Option.map_map]
      rfl

end Fences

/-- What can stand behind a text without any of its tokens running into it. -/
structure Plain (tail : Text) : Prop where
  stops : ∀ c ∈ tail.head?, isBare c = false
  quote : '\'' ∉ tail
  ident : '"' ∉ tail
  dollar : '$' ∉ tail

section Tokens

variable {t : TextTables} {text rest tail : Text} {token : Token}

theorem bareWord_append (stops : ∀ c ∈ tail.head?, isBare c = false) (text : Text) :
    bareWord (text ++ tail) = ((bareWord text).1, (bareWord text).2 ++ tail) := by
  have none_taken : tail.takeWhile isBare = [] ∧ tail.dropWhile isBare = tail := by
    cases tail with
    | nil => exact ⟨rfl, rfl⟩
    | cons c tail => simp [stops c rfl]
  simp only [bareWord, List.takeWhile_append, List.dropWhile_append, none_taken]
  by_cases whole : (text.takeWhile isBare).length = text.length
  · have all : text.takeWhile isBare = text := (List.takeWhile_prefix isBare).eq_of_length whole
    have empty : text.dropWhile isBare = [] := by
      have parts := @List.takeWhile_append_dropWhile _ isBare text
      rw [all] at parts
      exact List.self_eq_append_right.mp parts.symm
    simp [all, empty]
  · rw [if_neg whole]
    cases left : text.dropWhile isBare with
    | nil =>
      have parts := @List.takeWhile_append_dropWhile _ isBare text
      rw [left, List.append_nil] at parts
      exact absurd (congrArg List.length parts) whole
    | cons c rest => rfl

/-- The tag ends where something follows it, or takes the text up and perhaps more. -/
theorem dollarTag_append (t : TextTables) (text tail : Text) :
    (∃ d more, text = dollarTag t text ++ d :: more ∧
        dollarTag t (text ++ tail) = dollarTag t text) ∨
      text = dollarTag t text ∧ text.length ≤ (dollarTag t (text ++ tail)).length := by
  cases text with
  | nil => exact Or.inr ⟨rfl, Nat.zero_le _⟩
  | cons c rest =>
    by_cases letter : c.isAlpha ∨ c = '_'
    · rw [List.cons_append, dollarTag, dollarTag, if_pos letter, if_pos letter,
        List.takeWhile_append]
      by_cases whole : (rest.takeWhile t.isWord).length = rest.length
      · have all : rest.takeWhile t.isWord = rest := (List.takeWhile_prefix _).eq_of_length whole
        rw [if_pos whole, all]
        exact Or.inr ⟨rfl, by simp⟩
      · rw [if_neg whole]
        cases left : rest.dropWhile t.isWord with
        | nil =>
          have parts := @List.takeWhile_append_dropWhile _ t.isWord rest
          rw [left, List.append_nil] at parts
          exact absurd (congrArg List.length parts) whole
        | cons d more =>
          refine Or.inl ⟨d, more, ?_, rfl⟩
          rw [List.cons_append, ← left, List.takeWhile_append_dropWhile]
    · rw [List.cons_append, dollarTag, dollarTag, if_neg letter, if_neg letter]
      exact Or.inl ⟨c, rest, rfl, rfl⟩

theorem dollarQuoted_of_head {text : Text}
    (head : (text.drop (dollarTag t text).length).head? ≠ some '$') :
    dollarQuoted t text = none := by
  rw [dollarQuoted]
  split
  · rename_i body starts
    rw [starts] at head
    exact absurd rfl head
  · rfl

theorem dollarQuoted_of_split {d : Char} {more : Text}
    (split : text = dollarTag t text ++ d :: more) :
    dollarQuoted t text =
      if d = '$' then breakAt ('$' :: dollarTag t text ++ ['$']) more else none := by
  have first : text.drop (dollarTag t text).length = d :: more := by
    have dropped := congrArg (List.drop (dollarTag t text).length) split
    rwa [List.drop_left] at dropped
  by_cases dollar : d = '$'
  · rw [if_pos dollar]
    subst dollar
    simp only [dollarQuoted, first]
  · rw [if_neg dollar]
    apply dollarQuoted_of_head
    rw [first]
    exact fun h => dollar (Option.some.inj h)

theorem split_of_dollarQuoted {parts : Text × Text} (quoted : dollarQuoted t text = some parts) :
    ∃ body, text = body ++ parts.2 := by
  rw [dollarQuoted] at quoted
  split at quoted
  · rename_i body starts
    refine ⟨text.take (dollarTag t text).length ++
      '$' :: (parts.1 ++ ('$' :: dollarTag t text ++ ['$'])), ?_⟩
    have fenced := split_of_breakAt quoted
    rw [List.append_assoc, List.cons_append, ← fenced, ← starts, List.take_append_drop]
  · cases quoted

theorem dollarQuoted_append (absent : '$' ∉ tail) (text : Text) :
    dollarQuoted t (text ++ tail) =
      (dollarQuoted t text).map fun parts => (parts.1, parts.2 ++ tail) := by
  rcases dollarTag_append t text tail with ⟨d, more, split, tag⟩ | ⟨all, longer⟩
  · have longer : text ++ tail = dollarTag t (text ++ tail) ++ d :: (more ++ tail) := by
      rw [tag, ← List.cons_append, ← List.append_assoc, ← split]
    rw [dollarQuoted_of_split split, dollarQuoted_of_split longer, tag]
    by_cases dollar : d = '$'
    · rw [if_pos dollar, if_pos dollar]
      exact breakAt_append absent List.getLast?_concat more
    · rw [if_neg dollar, if_neg dollar]
      rfl
  · have alone : dollarQuoted t text = none := by
      apply dollarQuoted_of_head
      rw [← all, List.drop_length]
      exact fun h => by cases h
    have together : dollarQuoted t (text ++ tail) = none := by
      apply dollarQuoted_of_head
      rw [List.drop_append, List.drop_eq_nil_of_le longer, List.nil_append]
      intro head
      exact absent (List.mem_of_mem_drop (List.mem_of_mem_head? head))
    rw [alone, together]
    rfl

theorem taken_append {text after : Text} (tail : Text) (shorter : after.length ≤ text.length) :
    taken (text ++ tail) (after ++ tail) = taken text after := by
  have same : (text ++ tail).length - (after ++ tail).length = text.length - after.length := by
    rw [List.length_append, List.length_append]
    omega
  rw [taken, taken, same, List.take_append_of_le_length (Nat.sub_le _ _)]

theorem tokenAt_append (plain : Plain tail) (c : Char) (text : Text) :
    tokenAt t c (text ++ tail) =
      (tokenAt t c text).map fun taken => (taken.1, taken.2 ++ tail) := by
  have bare := bareWord_append plain.stops (c :: text)
  rw [List.cons_append] at bare
  by_cases single : c = '\''
  · subst single
    rw [tokenAt, tokenAt, if_pos rfl, if_pos rfl, closeQuote_append plain.quote]
    cases closed : closeQuote '\'' text with
    | none => rfl
    | some after =>
      have shorter := length_of_closeQuote closed
      have body := taken_append tail (Nat.le_of_lt shorter)
      simp only [Option.map_some, body]
  by_cases double : c = '"'
  · subst double
    rw [tokenAt, tokenAt, if_neg single, if_neg single, if_pos rfl, if_pos rfl,
      closeQuote_append plain.ident]
    cases closed : closeQuote '"' text with
    | none => rfl
    | some after =>
      have shorter := length_of_closeQuote closed
      have body := @taken_append ('"' :: text) after tail (Nat.le_succ_of_le (Nat.le_of_lt shorter))
      rw [List.cons_append] at body
      simp only [Option.map_some, body]
  by_cases punct : isPunct c = true
  · rw [tokenAt, tokenAt, if_neg single, if_neg single, if_neg double, if_neg double,
      if_pos punct, if_pos punct]
    rfl
  rw [tokenAt, tokenAt, if_neg single, if_neg single, if_neg double, if_neg double,
    if_neg punct, if_neg punct, bare]
  by_cases dollar : c = '$'
  · rw [if_pos dollar, if_pos dollar, dollarQuoted_append plain.dollar]
    cases dollarQuoted t text with
    | none => rfl
    | some parts => rfl
  · rw [if_neg dollar, if_neg dollar]
    rfl

theorem nextToken_append (plain : Plain tail) (taken : nextToken t text = some (token, rest)) :
    nextToken t (text ++ tail) = some (token, rest ++ tail) := by
  rw [nextToken] at taken
  cases starts : text.dropWhile isSpace with
  | nil => simp [starts] at taken
  | cons c later =>
    simp only [starts] at taken
    have still : (text ++ tail).dropWhile isSpace = c :: (later ++ tail) := by
      rw [List.dropWhile_append, starts]
      rfl
    simp only [nextToken, still, tokenAt_append plain, taken, Option.map_some]

theorem taken_of_split {text body after : Text} (split : text = body ++ after) :
    taken text after = body := by
  rw [taken, split, List.length_append, Nat.add_sub_cancel, List.take_left]

/-- A token takes something off the front, and a word is exactly what it takes. -/
theorem tokenAt_split {c : Char} {after : Text} (solid : isSpace c = false)
    (found : tokenAt t c rest = some (token, after)) :
    ∃ body, c :: rest = body ++ after ∧ body ≠ [] ∧ (token.kind = .word → token.value = body) := by
  have bare : (bareWord (c :: rest)).2.length < (c :: rest).length →
      some (bareWord (c :: rest)) = some (token, after) → ∃ body, c :: rest = body ++ after ∧
        body ≠ [] ∧ (token.kind = .word → token.value = body) := by
    intro shorter same
    obtain ⟨rfl, rfl⟩ := Prod.mk.inj (Option.some.inj same)
    refine ⟨_, List.takeWhile_append_dropWhile.symm, ?_, fun _ => rfl⟩
    intro empty
    have parts := @List.takeWhile_append_dropWhile _ isBare (c :: rest)
    rw [empty, List.nil_append] at parts
    exact absurd (congrArg List.length parts) (Nat.ne_of_lt shorter)
  by_cases single : c = '\''
  · rw [tokenAt, if_pos single, Option.map_eq_some_iff] at found
    obtain ⟨left, closed, same⟩ := found
    obtain ⟨rfl, rfl⟩ := Prod.mk.inj same
    obtain ⟨body, split⟩ := split_of_closeQuote closed
    refine ⟨c :: (body ++ [c]), by rw [split]; simp, by simp, fun h => by cases h⟩
  by_cases double : c = '"'
  · rw [tokenAt, if_neg single, if_pos double, Option.map_eq_some_iff] at found
    obtain ⟨left, closed, same⟩ := found
    obtain ⟨rfl, rfl⟩ := Prod.mk.inj same
    obtain ⟨body, split⟩ := split_of_closeQuote closed
    have whole : c :: rest = (c :: (body ++ [c])) ++ left := by rw [split]; simp
    exact ⟨c :: (body ++ [c]), whole, by simp, fun _ => taken_of_split whole⟩
  by_cases punct : isPunct c = true
  · rw [tokenAt, if_neg single, if_neg double, if_pos punct] at found
    obtain ⟨rfl, rfl⟩ := Prod.mk.inj (Option.some.inj found)
    exact ⟨[c], rfl, by simp, fun h => by cases h⟩
  have isBareC : isBare c = true := by simp [isBare, solid, single, double, punct]
  have shorter : (bareWord (c :: rest)).2.length < (c :: rest).length := by
    rw [bareWord, List.dropWhile_cons_of_pos isBareC]
    exact Nat.lt_succ_of_le (List.length_dropWhile_le _ _)
  rw [tokenAt, if_neg single, if_neg double, if_neg punct] at found
  by_cases dollar : c = '$'
  · rw [if_pos dollar] at found
    cases quoted : dollarQuoted t rest with
    | none => exact bare shorter (by simpa only [quoted] using found)
    | some parts =>
      simp only [quoted, Option.some.injEq, Prod.mk.injEq] at found
      obtain ⟨rfl, rfl⟩ := found
      obtain ⟨body, split⟩ := split_of_dollarQuoted quoted
      exact ⟨c :: body, by rw [split]; rfl, by simp, fun h => by cases h⟩
  · rw [if_neg dollar] at found
    exact bare shorter found

theorem strip_eq_nil_iff (text : Text) : strip text = [] ↔ text.dropWhile isSpace = [] := by
  rw [List.dropWhile_eq_nil_iff]
  exact Trim.trim_eq_nil_iff

theorem solid_of_dropWhile {c : Char} (starts : text.dropWhile isSpace = c :: rest) :
    isSpace c = false := by
  have stopped := List.head_dropWhile_not isSpace (l := text) (by rw [starts]; simp)
  simpa only [starts, List.head_cons] using stopped

/-- Nothing but space in front of the tail is skipped; anything else still stops the scan. -/
theorem nextToken_left (plain : Plain tail) (stuck : nextToken t text = none) :
    nextToken t (text ++ tail) = if strip text = [] then nextToken t tail else none := by
  rw [nextToken] at stuck
  cases starts : text.dropWhile isSpace with
  | nil =>
    rw [if_pos ((strip_eq_nil_iff text).mpr starts), nextToken, nextToken, List.dropWhile_append,
      starts]
    rfl
  | cons c later =>
    simp only [starts] at stuck
    have solid : strip text ≠ [] := by
      rw [Ne, strip_eq_nil_iff, starts]
      exact List.cons_ne_nil c later
    have still : (text ++ tail).dropWhile isSpace = c :: (later ++ tail) := by
      rw [List.dropWhile_append, starts]
      rfl
    rw [if_neg solid, nextToken]
    simp only [still, tokenAt_append plain, stuck, Option.map_none]

theorem nextToken_split (found : nextToken t text = some (token, rest)) :
    ∃ body, text.dropWhile isSpace = body ++ rest ∧ body ≠ [] ∧
      (token.kind = .word → token.value = body) := by
  rw [nextToken] at found
  cases starts : text.dropWhile isSpace with
  | nil => simp [starts] at found
  | cons c later =>
    simp only [starts] at found
    exact tokenAt_split (solid_of_dropWhile starts) found

theorem length_of_nextToken (found : nextToken t text = some (token, rest)) :
    rest.length < text.length := by
  obtain ⟨body, split, filled, _⟩ := nextToken_split found
  have within := List.length_dropWhile_le isSpace text
  have some_taken := List.length_pos_of_ne_nil filled
  rw [split, List.length_append] at within
  omega

end Tokens

/-! ## The scan -/

def scanner (t : TextTables) : Scanner Char Token where
  next := nextToken t
  shorter := length_of_nextToken

/-- A token with the offset it ends at. -/
structure Placed where
  token : Token
  stop : Nat
deriving DecidableEq

def place (length : Nat) (found : Token × Text) : Placed := ⟨found.1, length - found.2.length⟩

def unreadable (t : TextTables) (left : Text) : PgError :=
  ⟨"42601", "could not parse COPY options at " ++ String.ofList (t.repr (strip left)), []⟩

/-- `_tokens`: what it yields, and the error it breaks off with. -/
def tokens (t : TextTables) (text : Text) (position : Nat) : List Placed × Option PgError :=
  let (found, left) := (scanner t).scan (text.drop position)
  (found.map (place text.length), if strip left = [] then none else some (unreadable t left))

end PgMimic.Endpoint

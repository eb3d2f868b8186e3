import PgMimic.CopySyntax
import PgMimic.Patterns

/-!
# Targets in quotation marks

A client quotes every name of a target and doubles the quotes in it. The tokenizer, the
scan for the endpoint, the scan for the parenthesis and the splits at dots and commas each
keep track of the quotes in their own way. They agree on such a target, whatever its names
are, and each name is read back as it was.
-/

namespace PgMimic.Endpoint

open PgMimic.Copy (Text CopyOptions)
open PgMimic.Patterns (Gap isSpace_of_printed toUpper_eq_self)
open Trim (Blank Solid)

/-- Tables that also keep a quotation mark, which has no other case. -/
structure QuoteTables extends CaseTables where
  upper_quote : ∀ word, '"' ∈ word → '"' ∈ upper word

/-- A name in double quotes, with the quotes in it doubled. -/
def quotedName (name : Text) : Text := '"' :: (doubled '"' name ++ ['"'])

/-- Names in quotes with the separator between them, and any space around them. -/
inductive Separated (separator : Char) : List Text → Text → Prop where
  | last {name before after : Text} (blank : Blank isSpace before) (blank' : Blank isSpace after) :
      Separated separator [name] (before ++ (quotedName name ++ after))
  | more {names : List Text} {name before after text : Text} (blank : Blank isSpace before)
      (blank' : Blank isSpace after) (others : Separated separator names text) :
      Separated separator (name :: names)
        (before ++ (quotedName name ++ (after ++ separator :: text)))

def endpointNames : Direction → String × String
  | .copyIn => ("FROM", "STDIN")
  | .copyOut => ("TO", "STDOUT")

/-- A COPY of these columns up to its endpoint, the names of the schemas in front of the
table's. -/
inductive QuotedCopy (direction : Direction) (schemas : List Text) (table : Text)
    (columns : List Text) : Text → Prop where
  | intro {before copy gap target list after first between second : Text}
      (before_ : Blank isSpace before) (copy_ : Keyword "COPY" copy) (gap_ : Gap gap)
      (target_ : Separated '.' (schemas ++ [table]) target) (list_ : Separated ',' columns list)
      (after_ : Blank isSpace after) (first_ : Keyword (endpointNames direction).1 first)
      (between_ : Gap between) (second_ : Keyword (endpointNames direction).2 second) :
      QuotedCopy direction schemas table columns
        (before ++ (copy ++ (gap ++ (target ++ '(' :: (list ++ ')' :: (after ++ (first ++
          (between ++ second))))))))

/-! ## A name -/

section Names

variable {name rest : Text}

theorem quotedName_append (name rest : Text) :
    quotedName name ++ rest = '"' :: (doubled '"' name ++ '"' :: rest) := by
  rw [quotedName, List.cons_append, List.append_assoc, List.singleton_append]

theorem quotedName_ne_nil (name : Text) : quotedName name ≠ [] := List.cons_ne_nil _ _

theorem getLast_quotedName (name : Text) : (quotedName name).getLast? = some '"' := by
  rw [quotedName, ← List.cons_append, List.getLast?_concat]

theorem solid_of_ends {text : Text} {c d : Char} (head : text.head? = some c)
    (last : text.getLast? = some d) (begins : isSpace c = false) (ends : isSpace d = false) :
    Solid isSpace text := by
  refine ⟨fun e inside => ?_, fun e inside => ?_⟩
  · rw [head] at inside
    exact Option.some.inj inside ▸ begins
  · rw [last] at inside
    exact Option.some.inj inside ▸ ends

theorem solid_quotedName (name : Text) : Solid isSpace (quotedName name) :=
  solid_of_ends rfl (getLast_quotedName name) rfl rfl

/-- The name is one token, with its quotes. -/
theorem nextToken_quotedName {t : TextTables} (other : rest.head? ≠ some '"') (name : Text) :
    nextToken t (quotedName name ++ rest) = some (.word (quotedName name), rest) := by
  have starts : (quotedName name ++ rest).dropWhile isSpace = quotedName name ++ rest :=
    Trim.dropWhile_solid fun c head => (solid_quotedName name).1 c head
  rw [nextToken, starts, quotedName_append]
  simp only
  rw [tokenAt, if_neg (by decide), if_pos rfl, closeQuote_doubled_append other, Option.map_some,
    ← quotedName_append, taken_of_split rfl]

theorem unquote_quotedName {t : TextTables} {before after : Text} (blank : Blank isSpace before)
    (blank' : Blank isSpace after) :
    unquoteIdentifier t (before ++ (quotedName name ++ after)) = name := by
  have stripped : strip (before ++ (quotedName name ++ after)) = quotedName name :=
    Trim.trim_of_solid blank (solid_quotedName name) blank'
  have long : 2 ≤ (quotedName name).length := by
    simp only [quotedName, List.length_cons, List.length_append, List.length_nil]
    omega
  have body : (quotedName name).tail.dropLast = doubled '"' name := List.dropLast_concat
  simp only [unquoteIdentifier, stripped]
  rw [if_pos ⟨long, rfl, getLast_quotedName name⟩, body, undouble_doubled]

end Names

/-! ## Quotes that close -/

/-- Every quote that is opened is closed, and the mark stands in quotes alone. -/
inductive Closed (mark : Char) : Text → Prop where
  | nil : Closed mark []
  | plain {c : Char} {text : Text} (bare : c ≠ '"') (other : c ≠ mark) (rest : Closed mark text) :
      Closed mark (c :: text)
  | quoted {name text : Text} (rest : Closed mark text) : Closed mark (quotedName name ++ text)

section Closing

variable {mark : Char} {text text' : Text}

theorem Closed.append (closed : Closed mark text) (closed' : Closed mark text') :
    Closed mark (text ++ text') := by
  induction closed with
  | nil => exact closed'
  | plain bare other rest ih => exact .plain bare other ih
  | quoted rest ih =>
    rw [List.append_assoc]
    exact .quoted ih

theorem Closed.blank (solid : isSpace mark = false) (blank : Blank isSpace text) :
    Closed mark text := by
  induction text with
  | nil => exact .nil
  | cons c text ih =>
    have space : isSpace c = true := blank c List.mem_cons_self
    refine .plain ?_ ?_ (ih fun d inside => blank d (List.mem_cons_of_mem c inside))
    · rintro rfl
      cases space
    · rintro rfl
      rw [solid] at space
      cases space

theorem Closed.name (name : Text) : Closed mark (quotedName name) := by
  have alone := @Closed.quoted mark name [] .nil
  rwa [List.append_nil] at alone

/-- Names with another separator between them. -/
theorem Separated.closed {separator : Char} {names : List Text} (solid : isSpace mark = false)
    (other : separator ≠ mark) (bare : separator ≠ '"')
    (separated : Separated separator names text) :
    Closed mark text := by
  induction separated with
  | last blank blank' =>
    exact (Closed.blank solid blank).append ((Closed.name _).append (.blank solid blank'))
  | more blank blank' others ih =>
    exact (Closed.blank solid blank).append ((Closed.name _).append
      ((Closed.blank solid blank').append (.plain bare other ih)))

/-! ### The scan for the parenthesis -/

theorem openingParen_doubled (position : Nat) (name rest : Text) :
    openingParen position true (doubled '"' name ++ rest) =
      openingParen (position + (doubled '"' name).length) true rest := by
  induction name generalizing position with
  | nil => rfl
  | cons c name ih =>
    by_cases quote : c = '"'
    · subst quote
      rw [doubled_cons_quote, List.cons_append, List.cons_append, openingParen, if_pos rfl,
        openingParen, if_pos rfl]
      simp only [Bool.not_true, Bool.not_false, ih, List.length_cons]
      congr 1
      omega
    · rw [doubled_cons_other quote, List.cons_append, openingParen, if_neg quote, if_neg (by simp),
        ih, List.length_cons]
      congr 1
      omega

/-- Behind quotes that close, the scan goes on as it began. -/
theorem openingParen_closed (closed : Closed '(' text) (position : Nat) (rest : Text) :
    openingParen position false (text ++ rest) =
      openingParen (position + text.length) false rest := by
  induction closed generalizing position with
  | nil => rfl
  | @plain c text bare other closed ih =>
    rw [List.cons_append, openingParen, if_neg bare, if_neg fun h => other h.1, ih,
      List.length_cons]
    congr 1
    omega
  | @quoted name text closed ih =>
    rw [List.append_assoc, quotedName_append, openingParen, if_pos rfl, Bool.not_false,
      openingParen_doubled, openingParen, if_pos rfl, Bool.not_true, ih]
    congr 1
    simp only [quotedName, List.length_cons, List.length_append, List.length_nil]
    omega

/-! ### The splits -/

theorem split_doubled (bare : mark ≠ '"') (current name rest : Text) :
    splitOutsideQuotes mark current true (doubled '"' name ++ rest) =
      splitOutsideQuotes mark (current ++ doubled '"' name) true rest := by
  induction name generalizing current with
  | nil =>
    rw [doubled, List.flatMap_nil, List.nil_append, List.append_nil]
  | cons c name ih =>
    by_cases quote : c = '"'
    · subst quote
      have other : ¬ ('"' = mark) := fun same => bare same.symm
      rw [doubled_cons_quote, List.cons_append, List.cons_append, splitOutsideQuotes]
      simp only [if_true, other, false_and, if_false]
      rw [splitOutsideQuotes]
      simp only [if_true, other, false_and, if_false, Bool.not_true, Bool.not_false]
      rw [ih, List.append_assoc, List.append_assoc]
      rfl
    · rw [doubled_cons_other quote, List.cons_append, splitOutsideQuotes]
      simp only [if_neg quote, reduceCtorEq, and_false, if_false]
      rw [ih, List.append_assoc, List.singleton_append]

theorem split_closed (bare : mark ≠ '"') (closed : Closed mark text) (current rest : Text) :
    splitOutsideQuotes mark current false (text ++ rest) =
      splitOutsideQuotes mark (current ++ text) false rest := by
  induction closed generalizing current with
  | nil => rw [List.nil_append, List.append_nil]
  | @plain c text plain other closed ih =>
    rw [List.cons_append, splitOutsideQuotes]
    simp only [if_neg plain, other, false_and, if_false]
    rw [ih, List.append_assoc, List.singleton_append]
  | @quoted name text closed ih =>
    have other : ¬ ('"' = mark) := fun same => bare same.symm
    rw [List.append_assoc, quotedName_append, splitOutsideQuotes]
    simp only [if_true, other, false_and, if_false, Bool.not_false]
    rw [split_doubled bare, splitOutsideQuotes]
    simp only [if_true, other, false_and, if_false, Bool.not_true]
    rw [ih, quotedName]
    congr 1
    simp

end Closing

/-! ## Names between separators -/

section Separating

variable {separator : Char} {names : List Text} {text : Text}

theorem blank_nil : Blank isSpace ([] : Text) := fun _ inside => absurd inside List.not_mem_nil

theorem Separated.filled (separated : Separated separator names text) : text ≠ [] := by
  cases separated with
  | last => simp [quotedName_ne_nil]
  | more => simp [quotedName_ne_nil]

/-- Space in front of the first name belongs to no name. -/
theorem Separated.front (separated : Separated separator names text) : ∃ before core,
    text = before ++ core ∧ Blank isSpace before ∧ Separated separator names core ∧
      core.head? = some '"' := by
  cases separated with
  | last blank blank' => exact ⟨_, _, rfl, blank, .last blank_nil blank', rfl⟩
  | more blank blank' others => exact ⟨_, _, rfl, blank, .more blank_nil blank' others, rfl⟩

/-- Nor does space behind the last one. -/
theorem Separated.back (separated : Separated separator names text) : ∃ core after,
    text = core ++ after ∧ Blank isSpace after ∧ Separated separator names core ∧
      core.getLast? = some '"' := by
  induction separated with
  | @last name before after blank blank' =>
    refine ⟨before ++ (quotedName name ++ []), after, by simp, blank', .last blank blank_nil, ?_⟩
    rw [List.append_nil, List.getLast?_append_of_ne_nil before (quotedName_ne_nil name),
      getLast_quotedName]
  | @more names name before between text blank blank' others ih =>
    obtain ⟨core, after, rfl, blank'', separated, last⟩ := ih
    refine ⟨before ++ (quotedName name ++ (between ++ separator :: core)), after, by simp, blank'',
      .more blank blank' separated, ?_⟩
    have filled : core ≠ [] := by
      rintro rfl
      cases last
    have whole : before ++ (quotedName name ++ (between ++ separator :: core)) =
        before ++ (quotedName name ++ (between ++ [separator])) ++ core := by simp
    rw [whole, List.getLast?_append_of_ne_nil _ filled, last]

/-- Where it begins with a name, only the space behind the last is stripped. -/
theorem Separated.stripped (separated : Separated separator names text)
    (begun : text.head? = some '"') : Separated separator names (strip text) := by
  obtain ⟨core, after, rfl, blank, separated', last⟩ := separated.back
  have filled : core ≠ [] := by
    rintro rfl
    cases last
  rw [List.head?_append_of_ne_nil core filled] at begun
  have solid : Solid isSpace core := solid_of_ends begun last rfl rfl
  have same : strip (core ++ after) = core := Trim.trim_of_solid blank_nil solid blank
  rwa [same]

/-- Split at the separators, each name is read back. -/
theorem Separated.names_split {t : TextTables} (solid : isSpace separator = false)
    (bare : separator ≠ '"') (separated : Separated separator names text) :
    (splitOutsideQuotes separator [] false text).map (unquoteIdentifier t) = names := by
  have blank_closed : ∀ {blank : Text}, Blank isSpace blank → Closed separator blank :=
    fun blank => Closed.blank solid blank
  induction separated with
  | @last name before after blank blank' =>
    have closed : Closed separator (before ++ (quotedName name ++ after)) :=
      (blank_closed blank).append ((Closed.name _).append (blank_closed blank'))
    have whole := split_closed bare closed [] []
    rw [List.append_nil] at whole
    rw [whole, splitOutsideQuotes, List.nil_append, List.map_singleton,
      unquote_quotedName blank blank']
  | @more names name before after text blank blank' others ih =>
    have closed : Closed separator (before ++ (quotedName name ++ after)) :=
      (blank_closed blank).append ((Closed.name _).append (blank_closed blank'))
    have parts : before ++ (quotedName name ++ (after ++ separator :: text)) =
        before ++ (quotedName name ++ after) ++ separator :: text := by simp
    rw [parts, split_closed bare closed, splitOutsideQuotes]
    simp only [if_neg bare, and_self, if_true, List.nil_append]
    rw [List.map_cons, unquote_quotedName blank blank', ih]

end Separating

/-- The target is read back as the table and the columns. -/
theorem parseTarget_quoted {t : TextTables} {schemas columns : List Text} {table target list : Text}
    (target_ : Separated '.' (schemas ++ [table]) target) (begun : target.head? = some '"')
    (list_ : Separated ',' columns list) :
    parseTarget t (target ++ '(' :: (list ++ [')'])) = (some table, some columns) := by
  have last : (target ++ '(' :: (list ++ [')'])).getLast? = some ')' := by
    rw [← List.cons_append, ← List.append_assoc, List.getLast?_concat]
  have head : (target ++ '(' :: (list ++ [')'])).head? = some '"' := by
    rw [List.head?_append, begun]
    rfl
  have stripped : strip (target ++ '(' :: (list ++ [')'])) = target ++ '(' :: (list ++ [')']) :=
    Trim.trim_eq_self_iff.mpr (solid_of_ends head last rfl rfl)
  have opens : openingParen 0 false (target ++ '(' :: (list ++ [')'])) = .inl target.length := by
    have closed : Closed '(' target := target_.closed rfl (by decide) (by decide)
    rw [openingParen_closed closed, openingParen, if_neg (by decide), if_pos ⟨rfl, rfl⟩,
      Nat.zero_add]
  have inner : (target ++ '(' :: (list ++ [')'])).dropLast.drop (target.length + 1) = list := by
    rw [← List.cons_append, ← List.append_assoc, List.dropLast_concat, ← List.drop_drop,
      List.drop_left]
    rfl
  have split :
      splitTarget (target ++ '(' :: (list ++ [')'])) = (some (strip target), some list) := by
    simp only [splitTarget, opens, last, ne_eq, not_true_eq_false, if_false, List.take_left, inner]
  have names := (target_.stripped begun).names_split (t := t) rfl (by decide)
  have last_name : unquoteIdentifier t
      ((splitOutsideQuotes '.' [] false (strip target)).getLastD []) = table := by
    have table_last := congrArg List.getLast? names
    rw [List.getLast?_map, List.getLast?_concat, Option.map_eq_some_iff] at table_last
    obtain ⟨part, found, read⟩ := table_last
    rw [List.getLastD_eq_getLast?, found]
    exact read
  obtain ⟨c, later, rfl⟩ := List.exists_cons_of_ne_nil list_.filled
  have columns_read := list_.names_split (t := t) rfl (by decide)
  have query : ¬ (target ++ '(' :: (c :: later ++ [')'])).head? = some '(' := by
    rw [head]
    decide
  simp only [parseTarget, stripped, if_neg query, split, columns_read, last_name]

/-! ## Up to the endpoint -/

section Keywords

theorem isBare_of_lower {c : Char} (lower : 97 ≤ c.toNat ∧ c.toNat ≤ 122) : isBare c = true := by
  have other : ∀ d : Char, d.toNat < 97 → c ≠ d := by
    rintro d small rfl
    omega
  have space : isSpace c = false := isSpace_of_printed (by omega)
  simp [isBare, isPunct, space, other]

/-- A keyword is as plain a word in any case. -/
theorem Keyword.plain {name : String} {word : Text} (key : Keyword name word)
    (plain : PlainWord name.toList) : PlainWord word := by
  obtain ⟨_, capitals⟩ := key
  refine ⟨?_, fun c inside => ?_, fun dollar => ?_⟩
  · rintro rfl
    exact plain.filled capitals.symm
  · by_cases lower : 97 ≤ c.toNat ∧ c.toNat ≤ 122
    · exact isBare_of_lower lower
    · have inside' := List.mem_map_of_mem (f := Char.toUpper) inside
      rw [capitals, toUpper_eq_self lower] at inside'
      exact plain.bare c inside'
  · apply plain.dollar
    rw [← capitals, List.head?_map, dollar]
    decide

theorem endpointNames_words (direction : Direction) :
    (endpointNames direction).1.toList = (endpointWords direction).1 ∧
      (endpointNames direction).2.toList = (endpointWords direction).2 := by
  cases direction with
  | copyIn => exact ⟨rfl, rfl⟩
  | copyOut => exact ⟨rfl, rfl⟩

/-- COPY and all the space behind it. -/
theorem copyHead_spelled {before copy gap rest : Text} (blank : Blank isSpace before)
    (key : Keyword "COPY" copy) (g : Gap gap) (solid : ∀ c ∈ rest.head?, isSpace c = false) :
    copyHead (before ++ (copy ++ gap) ++ rest) = some (before ++ (copy ++ gap)).length := by
  have parts : before ++ (copy ++ gap) ++ rest = before ++ (copy ++ (gap ++ rest)) := by simp
  have plain : PlainWord copy := key.plain (.of_all (by decide) (by decide) (by decide))
  have size : copy.length = 4 := by
    have same := congrArg List.length key.2
    rwa [List.length_map] at same
  have start : (before ++ (copy ++ (gap ++ rest))).dropWhile isSpace = copy ++ (gap ++ rest) := by
    rw [Trim.dropWhile_blank blank]
    refine Trim.dropWhile_solid fun c head => ?_
    rw [List.head?_append_of_ne_nil copy plain.filled] at head
    exact plain.not_space (List.mem_of_mem_head? head)
  have behind : (copy ++ (gap ++ rest)).drop 4 = gap ++ rest := List.drop_left' size
  have word : (copy ++ (gap ++ rest)).take 4 = copy := List.take_left' size
  have target : (gap ++ rest).dropWhile isSpace = rest := by
    rw [Trim.dropWhile_blank g.2]
    exact Trim.dropWhile_solid solid
  have wide : 0 < gap.length := List.length_pos_of_ne_nil g.1
  simp only [copyHead, parts, start, behind, word, target, key.2, true_and, List.length_append]
  rw [if_pos (by omega)]
  exact congrArg some (by omega)

end Keywords

section Scanning

/-- No endpoint ends in front of the rest, and there the parentheses stand this deep. -/
def Passes (t : TextTables) (depth depth' : Int) (text rest : Text) : Prop :=
  ∀ length previous, ∃ previous',
    search t depth previous (placed t length text) =
      search t depth' previous' (placed t length rest)

variable {t : TextTables} {token : Token} {text middle rest spaces : Text}
  {depth depth' depth'' : Int}

theorem nextToken_blank (blank : Blank isSpace spaces) (text : Text) :
    nextToken t (spaces ++ text) = nextToken t text := by
  rw [nextToken, nextToken, Trim.dropWhile_blank blank]

theorem placed_blank (blank : Blank isSpace spaces) (length : Nat) (text : Text) :
    placed t length (spaces ++ text) = placed t length text := by
  have same := nextToken_blank (t := t) blank text
  cases next : nextToken t text with
  | none =>
    rw [placed, placed, Scanner.scan_of_next_none (s := scanner t) next,
      Scanner.scan_of_next_none (s := scanner t) (same.trans next)]
  | some found => rw [placed_next next, placed_next (same.trans next)]

theorem Passes.trans (first : Passes t depth depth' text middle)
    (second : Passes t depth' depth'' middle rest) : Passes t depth depth'' text rest := by
  intro length previous
  obtain ⟨previous', front⟩ := first length previous
  obtain ⟨previous'', back⟩ := second length previous'
  exact ⟨previous'', front.trans back⟩

theorem passes_blank (blank : Blank isSpace spaces) (text : Text) :
    Passes t depth depth (spaces ++ text) text :=
  fun length previous => ⟨previous, by rw [placed_blank blank]⟩

theorem passes_punct {c : Char} (punct : isPunct c = true) (rest : Text) :
    Passes t depth (depthAfter depth (.punct c)) (c :: rest) rest := by
  have written : Written (.punct c) [c] rest := .punct punct
  have next := nextToken_written (t := t) blank_nil written
  rw [List.nil_append, List.singleton_append] at next
  intro length previous
  refine ⟨none, ?_⟩
  have word : ¬ ((Token.punct c).kind = .word ∧ depth = 0) := fun h => by cases h.1
  rw [placed_next next, search, if_neg word]

/-- A word that ends no endpoint. -/
theorem passes_word {word : Text} (next : nextToken t text = some (.word word, rest))
    (other : ∀ first, endpointOf first (t.upper word) = none) : Passes t depth depth text rest := by
  intro length previous
  rw [placed_next next]
  by_cases outside : depth = 0
  · refine ⟨some (t.upper word, length - rest.length - word.length), ?_⟩
    rw [search, if_pos ⟨rfl, outside⟩]
    cases previous with
    | none => rw [outside]; rfl
    | some first => simp only [Option.bind_some, Token.word, other, Option.map_none, outside]
  · refine ⟨none, ?_⟩
    have same : depthAfter depth (.word word) = depth := by
      rw [depthAfter, if_neg (fun h => by cases h), if_neg (fun h => by cases h)]
    rw [search, if_neg fun h => outside h.2, same]

/-- A character that something else may follow, or none. -/
theorem head_blank {motive : Char → Prop} (blank : Blank isSpace spaces)
    (space : ∀ c, isSpace c = true → motive c) (begins : ∀ c ∈ rest.head?, motive c) :
    ∀ c ∈ (spaces ++ rest).head?, motive c := by
  cases spaces with
  | nil => exact begins
  | cons d spaces =>
    intro c head
    obtain rfl := Option.some.inj head
    exact space d (blank d List.mem_cons_self)

theorem not_bare_of_isSpace {c : Char} (space : isSpace c = true) : isBare c = false := by
  simp [isBare, space]

theorem endpointOf_other {word : Text} (other : word ≠ "STDIN".toList ∧ word ≠ "STDOUT".toList)
    (first : Text) : endpointOf first word = none := by
  rw [endpointOf, if_neg fun h => other.1 h.2, if_neg fun h => other.2 h.2]

/-- No endpoint has a quote in it. -/
theorem endpointOf_quote {word : Text} (quote : '"' ∈ word) (first : Text) :
    endpointOf first word = none := by
  refine endpointOf_other ⟨?_, ?_⟩ first
  all_goals
    rintro rfl
    revert quote
    decide

end Scanning

section Targets

variable {t : QuoteTables} {depth : Int} {rest : Text}

/-- Whatever a name in quotes reads, it is no word of an endpoint. -/
theorem passes_name {name after : Text} (blank : Blank isSpace after)
    (other : rest.head? ≠ some '"') :
    Passes t.toTextTables depth depth (quotedName name ++ (after ++ rest)) (after ++ rest) := by
  have behind : (after ++ rest).head? ≠ some '"' := by
    intro head
    refine head_blank (motive := fun c => c ≠ '"') blank ?_ ?_ '"' head rfl
    · rintro c space rfl
      cases space
    · rintro c head' rfl
      exact other head'
  refine passes_word (nextToken_quotedName behind name) fun first => ?_
  exact endpointOf_quote (t.upper_quote _ List.mem_cons_self) first

theorem Separated.begins {separator : Char} {names : List Text} {text : Text}
    (separated : Separated separator names text) :
    ∀ c ∈ (text ++ rest).head?, isBare c = false := by
  have quote :
      ∀ {name behind : Text}, ∀ c ∈ (quotedName name ++ behind).head?, isBare c = false := by
    intro name behind c head
    obtain rfl := Option.some.inj head
    rfl
  cases separated with
  | last blank blank' =>
    simp only [List.append_assoc]
    exact head_blank blank (fun c => not_bare_of_isSpace) quote
  | more blank blank' others =>
    simp only [List.append_assoc]
    exact head_blank blank (fun c => not_bare_of_isSpace) quote

/-- Nor is any of the names, where the separator stays as deep. -/
theorem Separated.passes {separator : Char} {names : List Text} {text : Text}
    (separated : Separated separator names text) (bare : separator ≠ '"')
    (mark : ∀ text : Text, (∀ c ∈ text.head?, isBare c = false) →
      Passes t.toTextTables depth depth (separator :: text) text) (other : rest.head? ≠ some '"') :
    Passes t.toTextTables depth depth (text ++ rest) rest := by
  induction separated with
  | @last name before after blank blank' =>
    rw [List.append_assoc, List.append_assoc]
    exact ((passes_blank blank _).trans (passes_name blank' other)).trans (passes_blank blank' rest)
  | @more names name before after text blank blank' others ih =>
    have parts : before ++ (quotedName name ++ (after ++ separator :: text)) ++ rest =
        before ++ (quotedName name ++ (after ++ separator :: (text ++ rest))) := by simp
    have separates : (separator :: (text ++ rest)).head? ≠ some '"' :=
      fun head => bare (Option.some.inj head)
    have read := @passes_name t depth (separator :: (text ++ rest)) name after blank' separates
    have name_passes := (passes_blank blank _).trans read
    have mark_passes := (passes_blank blank' _).trans (mark (text ++ rest) others.begins)
    rw [parts]
    exact (name_passes.trans mark_passes).trans ih

/-- A dot is a word of its own in front of a name. -/
theorem passes_dot (begins : ∀ c ∈ rest.head?, isBare c = false) :
    Passes t.toTextTables depth depth ('.' :: rest) rest := by
  have dot : PlainWord ['.'] := .of_all (by decide) (by decide) (by decide)
  have next := nextToken_written (t := t.toTextTables) blank_nil (dot.written begins)
  rw [List.nil_append, List.singleton_append] at next
  have upper : t.upper ['.'] = ['.'] := t.upper_ascii ['.'] (by simp)
  refine passes_word next fun first => ?_
  rw [upper]
  exact endpointOf_other (by decide) first

/-- The whole target, parentheses and all. -/
theorem passes_target {names columns : List Text} {target list : Text}
    (target_ : Separated '.' names target) (list_ : Separated ',' columns list) :
    Passes t.toTextTables 0 0 (target ++ '(' :: (list ++ ')' :: rest)) rest := by
  have front : Passes t.toTextTables 0 0 _ ('(' :: (list ++ ')' :: rest)) :=
    target_.passes (by decide) (fun text => passes_dot) (by simp)
  have opens : Passes t.toTextTables 0 1 _ _ := passes_punct (c := '(') rfl (list ++ ')' :: rest)
  have inside : Passes t.toTextTables 1 1 _ (')' :: rest) :=
    list_.passes (by decide) (fun text _ => passes_punct (c := ',') rfl text) (by simp)
  have closes : Passes t.toTextTables 1 0 _ _ := passes_punct (c := ')') rfl rest
  exact ((front.trans opens).trans inside).trans closes

end Targets

section Statements

/-- The keywords of the endpoint, in any case and with any space between them. -/
theorem search_words {t : TextTables} {direction : Direction} {first between second tail : Text}
    (first_ : Keyword (endpointNames direction).1 first) (g : Gap between)
    (second_ : Keyword (endpointNames direction).2 second)
    (apart : ∀ c ∈ tail.head?, isBare c = false) (length : Nat) (previous : Previous) :
    search t 0 previous (placed t length (first ++ (between ++ (second ++ tail)))) =
      some ⟨direction, length - (between ++ (second ++ tail)).length - first.length,
        length - tail.length⟩ := by
  obtain ⟨name, name'⟩ := endpointNames_words direction
  obtain ⟨plain, plain'⟩ := plain_endpointWords direction
  have capitals : t.upper first = (endpointWords direction).1 := by
    rw [t.upper_ascii first first_.1, first_.2, name]
  have capitals' : t.upper second = (endpointWords direction).2 := by
    rw [t.upper_ascii second second_.1, second_.2, name']
  have stops : ∀ c ∈ (between ++ (second ++ tail)).head?, isBare c = false := by
    rw [List.head?_append_of_ne_nil between g.1]
    exact fun c head => not_bare_of_isSpace (g.2 c (List.mem_of_mem_head? head))
  have one := nextToken_written (t := t) blank_nil ((first_.plain (name ▸ plain)).written stops)
  have two := nextToken_written (t := t) g.2 ((second_.plain (name' ▸ plain')).written apart)
  rw [List.nil_append] at one
  rw [placed_next one, placed_next two]
  exact search_endpoint capitals capitals' previous _

theorem heads_quoted {t : QuoteTables} {direction : Direction} {names columns : List Text}
    {before copy gap target list after first between second : Text}
    (before_ : Blank isSpace before) (copy_ : Keyword "COPY" copy) (gap_ : Gap gap)
    (target_ : Separated '.' names target) (begun : target.head? = some '"')
    (list_ : Separated ',' columns list) (after_ : Blank isSpace after)
    (first_ : Keyword (endpointNames direction).1 first) (between_ : Gap between)
    (second_ : Keyword (endpointNames direction).2 second) :
    Heads t.toTextTables
      (before ++ (copy ++ (gap ++ (target ++ '(' :: (list ++ ')' :: (after ++ (first ++
        (between ++ second)))))))) direction (target ++ '(' :: (list ++ [')'])) := by
  intro tail apart
  have sql : before ++ (copy ++ (gap ++ (target ++ '(' :: (list ++ ')' :: (after ++ (first ++
      (between ++ second))))))) ++ tail = before ++ (copy ++ gap) ++
        (target ++ '(' :: (list ++ [')']) ++ after ++ (first ++ (between ++ second) ++ tail)) := by
    simp
  have begins : (target ++ '(' :: (list ++ [')'])).head? = some '"' := by
    rw [List.head?_append, begun]
    rfl
  have ends : (target ++ '(' :: (list ++ [')'])).getLast? = some ')' := by
    rw [← List.cons_append, ← List.append_assoc, List.getLast?_concat]
  have stripped : strip (target ++ '(' :: (list ++ [')']) ++ after) =
      target ++ '(' :: (list ++ [')']) :=
    Trim.trim_of_solid blank_nil (solid_of_ends begins ends rfl rfl) after_
  have solid : ∀ c ∈ (target ++ '(' :: (list ++ [')']) ++ after ++
      (first ++ (between ++ second) ++ tail)).head?, isSpace c = false := by
    intro c head
    rw [List.append_assoc, List.head?_append, begins] at head
    obtain rfl := Option.some.inj head
    rfl
  have head := copyHead_spelled before_ copy_ gap_ solid
  have found : ∀ length, search t.toTextTables 0 none (placed t.toTextTables length
      (target ++ '(' :: (list ++ [')']) ++ after ++ (first ++ (between ++ second) ++ tail))) =
      some ⟨direction, length - (first ++ (between ++ second) ++ tail).length,
        length - tail.length⟩ := by
    intro length
    have parts :
        target ++ '(' :: (list ++ [')']) ++ after ++ (first ++ (between ++ second) ++ tail) =
        target ++ '(' :: (list ++ ')' :: (after ++ (first ++ (between ++ (second ++ tail))))) := by
      simp
    have words := search_words (t := t.toTextTables) first_ between_ second_ apart length
    obtain ⟨previous, passed⟩ :=
      @passes_target t (after ++ (first ++ (between ++ (second ++ tail))))
      names columns target list target_ list_ length none
    rw [parts, passed, placed_blank after_, words, Option.some.injEq, Found.mk.injEq]
    refine ⟨rfl, ?_, rfl⟩
    simp only [List.length_append]
    omega
  have read := findEndpoint_of_search head (found _) (by rw [stripped]; simp)
  rwa [stripped, ← sql] at read

/-- Behind such a COPY the options follow as behind any other. -/
theorem QuotedCopy.heads {t : QuoteTables} {direction : Direction} {schemas columns : List Text}
    {table front : Text} (copy : QuotedCopy direction schemas table columns front) :
    ∃ target, Heads t.toTextTables front direction target ∧
      parseTarget t.toTextTables target = (some table, some columns) := by
  obtain ⟨before_, copy_, gap_, target_, list_, after_, first_, between_, second_⟩ := copy
  rename_i before copy gap target list after first between second
  -- The space in front of the first name is read together with that behind COPY.
  obtain ⟨spaces, core, rfl, blank, separated, begun⟩ := target_.front
  have wide : Gap (gap ++ spaces) :=
    ⟨by simp [gap_.1], Trim.blank_append_iff.mpr ⟨gap_.2, blank⟩⟩
  refine ⟨core ++ '(' :: (list ++ [')']), ?_, parseTarget_quoted separated begun list_⟩
  have heads := heads_quoted (t := t) before_ copy_ wide separated begun list_ after_ first_
    between_ second_
  simpa only [List.append_assoc] using heads

theorem writtenOptions_none : WrittenOptions {} [] := by
  have asks : Asks {} [] := by
    constructor
    · intro item inside
      cases inside
    all_goals simp
  exact .intro asks (.legacy (Or.inl rfl) .nil) (.nil blank_nil) (Or.inl rfl)
    (fun c head => by cases head)

/-- The table and the columns are read back with whatever options follow. -/
theorem quoted_copy_options {t : QuoteTables} {direction : Direction} {schemas columns : List Text}
    {table front tail : Text} {o : CopyOptions}
    (copy : QuotedCopy direction schemas table columns front) (written : WrittenOptions o tail) :
    parseCopy t.toTextTables (front ++ tail) =
      .ok (some ⟨direction, some table, some columns, o⟩) := by
  obtain ⟨target, heads, read⟩ := copy.heads (t := t)
  have parsed := parseCopy_written heads written
  rwa [read] at parsed

/-- The names in quotes, with nothing but the separator between them. -/
def separatedBy (separator : Char) : List Text → Text
  | [] => []
  | [name] => quotedName name
  | name :: next :: names => quotedName name ++ separator :: separatedBy separator (next :: names)

/-- `COPY "schema"."table" ("column") FROM STDIN`, or `TO STDOUT`. -/
def copySql (direction : Direction) (schemas : List Text) (table : Text) (columns : List Text) :
    Text :=
  ['C', 'O', 'P', 'Y', ' '] ++ (separatedBy '.' (schemas ++ [table]) ++
    ' ' :: '(' :: (separatedBy ',' columns ++ ')' :: ' ' :: ((endpointWords direction).1 ++
      ' ' :: (endpointWords direction).2)))

theorem separatedBy_spelled {separator : Char} {names : List Text} (some_ : names ≠ [])
    {after : Text} (blank : Blank isSpace after) :
    Separated separator names (separatedBy separator names ++ after) := by
  induction names with
  | nil => exact absurd rfl some_
  | cons name names ih =>
    cases names with
    | nil => exact .last blank_nil blank
    | cons next names =>
      have others := ih (List.cons_ne_nil next names)
      have more : Separated separator (name :: next :: names) _ := .more blank_nil blank_nil others
      rwa [List.nil_append, List.nil_append, ← List.cons_append, ← List.append_assoc] at more

/-- There is such a COPY for any names. -/
theorem copySql_quoted (direction : Direction) (schemas : List Text) (table : Text)
    {columns : List Text} (some_ : columns ≠ []) :
    QuotedCopy direction schemas table columns (copySql direction schemas table columns) := by
  have space : Gap [' '] := ⟨by simp, by simp [isSpace]⟩
  obtain ⟨name, name'⟩ := endpointNames_words direction
  have keywords : Keyword (endpointNames direction).1 (endpointWords direction).1 ∧
      Keyword (endpointNames direction).2 (endpointWords direction).2 := by
    rw [Keyword, Keyword, name, name']
    cases direction with
    | copyIn => exact ⟨⟨by simp [endpointWords], by decide⟩, by simp [endpointWords], by decide⟩
    | copyOut => exact ⟨⟨by simp [endpointWords], by decide⟩, by simp [endpointWords], by decide⟩
  have list : Separated ',' columns (separatedBy ',' columns ++ []) :=
    separatedBy_spelled some_ blank_nil
  have target :
      Separated '.' (schemas ++ [table]) (separatedBy '.' (schemas ++ [table]) ++ [' ']) :=
    separatedBy_spelled (by simp) space.2
  rw [List.append_nil] at list
  have copy : Keyword "COPY" ['C', 'O', 'P', 'Y'] := ⟨by simp, by decide⟩
  have spelled :=
    QuotedCopy.intro blank_nil copy space target list space.2 keywords.1 space keywords.2
  simpa [copySql] using spelled

def asciiQuotes : QuoteTables :=
  { asciiCases with upper_quote := fun _ quote => List.mem_map_of_mem (f := Char.toUpper) quote }

/-- A COPY that quotes the names of its target, whatever they are, is read as what it says. -/
theorem quoted_copy_read_back {t : QuoteTables} {direction : Direction}
    {schemas columns : List Text} {table sql : Text}
    (copy : QuotedCopy direction schemas table columns sql) :
    parseCopy t.toTextTables sql = .ok (some ⟨direction, some table, some columns, {}⟩) := by
  obtain ⟨target, heads, read⟩ := copy.heads (t := t)
  have parsed := parseCopy_written heads writtenOptions_none
  rwa [read, List.append_nil] at parsed

/-- The separators, the parentheses and the endpoint itself are names like any others. -/
theorem separators_as_names : parseCopy asciiQuotes.toTextTables
    (copySql .copyIn [['a', '.', 'b']] ['t', '"', '('] [['x', '"', ',', ' ', 'y'], "FROM STDIN".toList]) =
      .ok (some ⟨.copyIn, some ['t', '"', '('],
        some [['x', '"', ',', ' ', 'y'], "FROM STDIN".toList], {}⟩) :=
  quoted_copy_read_back (copySql_quoted .copyIn [['a', '.', 'b']] ['t', '"', '('] (by simp))

end Statements

end PgMimic.Endpoint

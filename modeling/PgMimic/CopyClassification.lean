import PgMimic.CopyLexing

/-!
# A copy-out of a query is no copy-in

A query that its own parentheses close is read back as a copy-out without a table. No
query makes `parse_copy` answer with a copy-in: where an endpoint shows in the query, the
`) TO STDOUT` behind it is part of the option list, and no option list ends like that.
What the tokenizer takes for the parentheses of the query decides which of the two it is.
-/

namespace PgMimic.Endpoint

open PgMimic.Copy (Text CopyOptions)
open PgMimic.Patterns (WordTables)

def closingText : Text := [')', ' ', 'T', 'O', ' ', 'S', 'T', 'D', 'O', 'U', 'T']

/-- What stands behind the query, on a line of its own where the query ends in a comment. -/
def ending (newline : Bool) : Text := if newline then '\n' :: closingText else closingText

/-- `COPY (query) TO STDOUT`. -/
def copyOut (query : Text) : Text :=
  ['C', 'O', 'P', 'Y', ' ', '('] ++ (query ++ ending (SqlLexer.endsInLineComment query))

/-- The tokenizer breaks off in the statement. -/
def untokenizable (t : TextTables) (sql : Text) : Prop :=
  ∃ head, copyHead sql = some head ∧ (tokens t sql head).2 ≠ none

/-- A copy-out without a table or columns, or no COPY where the text cannot be tokenized. -/
def ReadAsCopyOut (t : TextTables) (query : Text) : Prop :=
  (∃ options, parseCopy t (copyOut query) = .ok (some ⟨.copyOut, none, none, options⟩)) ∨
    parseCopy t (copyOut query) = .ok none ∧ untokenizable t (copyOut query)

/-- The parentheses of the query, as the tokenizer reads them, keep every endpoint inside
and are closed where the query ends, if it is read to its end. -/
structure Contained (t : TextTables) (query : Text) : Prop where
  covered : search t 1 none (tokens t query 0).1 = none
  closed : (tokens t query 0).2 = none →
    ((tokens t query 0).1.map Placed.token).foldl depthAfter 1 = 1

/-! ## The end of the statement -/

def closingTokens : List Token :=
  [.punct ')', .word ['T', 'O'], .word ['S', 'T', 'D', 'O', 'U', 'T']]

theorem plain_ending (newline : Bool) : Plain (ending newline) := by
  have stops : ∀ c ∈ (ending newline).head?, isBare c = false := by
    intro c head
    cases newline with
    | false => obtain rfl := Option.some.inj head; rfl
    | true => obtain rfl := Option.some.inj head; rfl
  cases newline with
  | false => exact ⟨stops, by decide, by decide, by decide⟩
  | true => exact ⟨stops, by decide, by decide, by decide⟩

section Scans

variable {t : TextTables}

theorem scan_ending (t : TextTables) (newline : Bool) :
    (scanner t).scan (ending newline) =
      ([(.punct ')', [' ', 'T', 'O', ' ', 'S', 'T', 'D', 'O', 'U', 'T']),
        (.word ['T', 'O'], [' ', 'S', 'T', 'D', 'O', 'U', 'T']),
        (.word ['S', 'T', 'D', 'O', 'U', 'T'], [])], []) := by
  cases newline with
  | false => rfl
  | true => rfl

/-- Where the scan of a text stops at nothing but space, the ending is read behind it. -/
theorem scan_blank (newline : Bool) {left : Text} (stuck : nextToken t left = none)
    (blank : strip left = []) :
    (scanner t).scan (left ++ ending newline) = (scanner t).scan (ending newline) := by
  have next := nextToken_left (t := t) (plain_ending newline) stuck
  rw [if_pos blank] at next
  cases first : nextToken t (ending newline) with
  | none =>
    have scanned := scan_ending t newline
    rw [Scanner.scan_of_next_none first] at scanned
    cases scanned
  | some found =>
    rw [first] at next
    rw [Scanner.scan_of_next_some (s := scanner t) first,
      Scanner.scan_of_next_some (s := scanner t) next]

theorem scan_solid (newline : Bool) {left : Text} (stuck : nextToken t left = none)
    (solid : strip left ≠ []) :
    (scanner t).scan (left ++ ending newline) = ([], left ++ ending newline) := by
  have next := nextToken_left (t := t) (plain_ending newline) stuck
  rw [if_neg solid] at next
  exact Scanner.scan_of_next_none next

/-- A text in front of the ending: all its tokens, and the ending's unless the tokenizer
breaks off before. -/
theorem scan_before (t : TextTables) (newline : Bool) (text : Text) :
    (scanner t).scan (text ++ ending newline) =
      if strip ((scanner t).scan text).2 = [] then
        (((scanner t).scan text).1.map (fun found => (found.1, found.2 ++ ending newline)) ++
          ((scanner t).scan (ending newline)).1, [])
      else
        (((scanner t).scan text).1.map (fun found => (found.1, found.2 ++ ending newline)),
          ((scanner t).scan text).2 ++ ending newline) := by
  have reads : (scanner t).ReadsBefore (ending newline) :=
    fun found => nextToken_append (plain_ending newline) found
  have stuck : nextToken t ((scanner t).scan text).2 = none :=
    Scanner.next_left (s := scanner t) text
  rw [Scanner.scan_append reads]
  by_cases blank : strip ((scanner t).scan text).2 = []
  · rw [if_pos blank, scan_blank newline stuck blank, scan_ending]
  · rw [if_neg blank, scan_solid newline stuck blank, List.append_nil]

/-- What is found stands in the text: a token, and behind it what follows. -/
theorem found_within {text : Text} {found : Token × Text}
    (inside : found ∈ ((scanner t).scan text).1) : found.2 <:+ text ∧
      (found.1.kind = .word → found.1.value.length + found.2.length ≤ text.length) := by
  induction text using Scanner.scan_induction (s := scanner t) with
  | stuck text none =>
    rw [Scanner.scan_of_next_none none] at inside
    exact False.elim (List.not_mem_nil inside)
  | step text token rest taken ih =>
    obtain ⟨body, split, _, value⟩ := nextToken_split taken
    have whole : (body ++ rest) <:+ text := split ▸ List.dropWhile_suffix isSpace
    have later : rest <:+ text := (List.suffix_append body rest).trans whole
    have fits := whole.length_le
    rw [List.length_append] at fits
    rw [Scanner.scan_of_next_some taken] at inside
    rcases List.mem_cons.mp inside with rfl | further
    · refine ⟨later, fun word => ?_⟩
      rw [value word]
      exact fits
    · obtain ⟨suffix, room⟩ := ih further
      exact ⟨suffix.trans later, fun word => Nat.le_trans (room word) (by omega)⟩

end Scans

/-! ## The search -/

section Search

variable {t : TextTables}

/-- What one token completes, with the word in front of it. -/
def completes (t : TextTables) (depth : Int) (previous : Previous) (p : Placed) : Option Found :=
  if p.token.kind = .word ∧ depth = 0 then
    previous.bind fun word => (endpointOf word.1 (t.upper p.token.value)).map fun direction =>
      ⟨direction, word.2, p.stop⟩
  else none

def previousAfter (t : TextTables) (depth : Int) (p : Placed) : Previous :=
  if p.token.kind = .word ∧ depth = 0 then
    some (t.upper p.token.value, p.stop - p.token.value.length)
  else none

theorem depthAfter_word {token : Token} (word : token.kind = .word) (depth : Int) :
    depthAfter depth token = depth := by
  have other : ∀ c, token ≠ .punct c := fun c same => by rw [same] at word; cases word
  rw [depthAfter, if_neg (other '('), if_neg (other ')')]

theorem search_cons (depth : Int) (previous : Previous) (p : Placed) (later : List Placed) :
    search t depth previous (p :: later) = (completes t depth previous p).or
      (search t (depthAfter depth p.token) (previousAfter t depth p) later) := by
  obtain ⟨token, stop⟩ := p
  by_cases word : token.kind = .word ∧ depth = 0
  · rw [search, if_pos word, completes, if_pos word, previousAfter, if_pos word,
      depthAfter_word word.1]
    cases previous.bind fun word => (endpointOf word.1 (t.upper token.value)).map fun direction =>
        (⟨direction, word.2, stop⟩ : Found) with
    | none => rfl
    | some found => rfl
  · rw [search, if_neg word, completes, if_neg word, previousAfter, if_neg word]
    rfl

theorem search_append (depth : Int) (previous : Previous) (front later : List Placed) :
    ∃ previous', search t depth previous (front ++ later) =
      (search t depth previous front).or
        (search t ((front.map Placed.token).foldl depthAfter depth) previous' later) := by
  induction front generalizing depth previous with
  | nil => exact ⟨previous, rfl⟩
  | cons p front ih =>
    obtain ⟨previous', same⟩ := ih (depthAfter depth p.token) (previousAfter t depth p)
    refine ⟨previous', ?_⟩
    rw [List.cons_append, search_cons, search_cons, same, Option.or_assoc]
    rfl

theorem isSome_completes (depth : Int) (previous : Previous) (p : Placed) :
    (completes t depth previous p).isSome = decide (p.token.kind = .word ∧ depth = 0 ∧
      ((previous.map Prod.fst).bind fun word =>
        endpointOf word (t.upper p.token.value)).isSome = true) := by
  by_cases word : p.token.kind = .word ∧ depth = 0
  · cases previous with
    | none => simp [completes]
    | some last => simp [completes, word]
  · rw [completes, if_neg word]
    exact (decide_eq_false fun h => word ⟨h.1, h.2.1⟩).symm

theorem words_previousAfter (depth : Int) (p : Placed) :
    (previousAfter t depth p).map Prod.fst =
      if p.token.kind = .word ∧ depth = 0 then some (t.upper p.token.value) else none := by
  rw [previousAfter]
  split_ifs with word
  · rfl
  · rfl

/-- Where the tokens stand does not matter to whether an endpoint is found. -/
theorem search_isSome_congr {depth : Int} {previous previous' : Previous} {l l' : List Placed}
    (words : previous.map Prod.fst = previous'.map Prod.fst)
    (same : l.map Placed.token = l'.map Placed.token) :
    (search t depth previous l).isSome = (search t depth previous' l').isSome := by
  induction l generalizing depth previous previous' l' with
  | nil =>
    rw [List.map_nil, eq_comm, List.map_eq_nil_iff] at same
    rw [same]
    rfl
  | cons p l ih =>
    cases l' with
    | nil => cases same
    | cons p' l' =>
      rw [List.map_cons, List.map_cons, List.cons.injEq] at same
      obtain ⟨token, rest⟩ := same
      have hits :
          (completes t depth previous p).isSome = (completes t depth previous' p').isSome := by
        rw [isSome_completes, isSome_completes, words, token]
      have next :
          (previousAfter t depth p).map Prod.fst = (previousAfter t depth p').map Prod.fst := by
        rw [words_previousAfter, words_previousAfter, token]
      rw [search_cons, search_cons, Option.isSome_or, Option.isSome_or, hits, token, ih next rest]

/-- An endpoint starts where a word does, and ends where one does. -/
theorem search_within {P Q : Nat → Prop} {depth : Int} {previous : Previous} {l : List Placed}
    {found : Found} (before : ∀ word ∈ previous, P word.2)
    (starts : ∀ p ∈ l, p.token.kind = .word → P (p.stop - p.token.value.length))
    (stops : ∀ p ∈ l, Q p.stop) (hit : search t depth previous l = some found) :
    P found.start ∧ Q found.stop := by
  induction l generalizing depth previous with
  | nil => cases hit
  | cons p l ih =>
    rw [search_cons] at hit
    cases done : completes t depth previous p with
    | some here =>
      rw [done, Option.some_or, Option.some.injEq] at hit
      subst hit
      rw [completes] at done
      split_ifs at done with word
      obtain ⟨last, known, one⟩ := Option.bind_eq_some_iff.mp done
      obtain ⟨direction, _, rfl⟩ := Option.map_eq_some_iff.mp one
      exact ⟨before last known, stops p List.mem_cons_self⟩
    | none =>
      rw [done, Option.none_or] at hit
      refine ih ?_ (fun q inside => starts q (List.mem_cons_of_mem p inside))
        (fun q inside => stops q (List.mem_cons_of_mem p inside)) hit
      intro word known
      rw [previousAfter] at known
      split_ifs at known with here
      · obtain rfl := Option.some.inj known
        exact starts p List.mem_cons_self here.1
      · cases known

end Search

/-! ## The option list behind the query -/

section Options

variable {t : TextTables}

/-- A list of tokens no option list is: it ends in the closing tokens, or is their end. -/
def Unfinished (found : List Token) : Prop :=
  (∃ front, found = front ++ closingTokens) ∨ found = closingTokens.tail

theorem upper_closing (t : TextTables) :
    t.upper ['T', 'O'] = ['T', 'O'] ∧ t.upper ['S', 'T', 'D', 'O', 'U', 'T'] =
      ['S', 'T', 'D', 'O', 'U', 'T'] := by
  constructor
  · exact t.upper_ascii _ (by simp)
  · exact t.upper_ascii _ (by simp)

/-- What is dropped up to a token the ending does not begin with ends before it or with it. -/
theorem dropWhile_closing {p : Token → Bool} (stops : p (.punct ')') = false) (front : List Token) :
    ∃ later, (front ++ closingTokens).dropWhile p = later ++ closingTokens ∧
      later.length ≤ front.length := by
  rw [List.dropWhile_append]
  cases left : front.dropWhile p with
  | nil =>
    refine ⟨[], ?_, Nat.zero_le _⟩
    simp [closingTokens, stops]
  | cons token later =>
    refine ⟨token :: later, rfl, ?_⟩
    rw [← left]
    exact List.length_dropWhile_le p front

theorem readOptionName_before {token : Token} {front rest : List Token} {name : String}
    (read : readOptionName t token (front ++ closingTokens) = .ok (name, rest)) :
    ∃ later, rest = later ++ closingTokens ∧ later.length ≤ front.length := by
  rw [readOptionName] at read
  split_ifs at read with word
  simp only at read
  split_ifs at read with force
  · obtain ⟨_, rfl⟩ := Prod.mk.inj (Except.ok.inj read)
    exact dropWhile_closing (by simp [Token.punct]) front
  · obtain ⟨_, rfl⟩ := Prod.mk.inj (Except.ok.inj read)
    exact ⟨front, rfl, Nat.le_refl _⟩

theorem valueAt_closing (later : List Token) : ∃ e, valueAt t (.punct ')') later = .error e := by
  simp [valueAt, Token.punct]

theorem valueAt_before {token : Token} {front rest : List Token} {value : OptionValue}
    (read : valueAt t token (front ++ closingTokens) = .ok (value, rest)) :
    Unfinished rest ∧ rest.length ≤ front.length + 3 := by
  rw [valueAt] at read
  split_ifs at read with plain opening
  · obtain ⟨_, rfl⟩ := Prod.mk.inj (Except.ok.inj read)
    exact ⟨Or.inl ⟨front, rfl⟩, by rw [List.length_append]; rfl⟩
  · obtain ⟨later, dropped, shorter⟩ := dropWhile_closing (p := fun next => !closes next)
      (by decide) front
    simp only [dropped, Except.ok.injEq, Prod.mk.injEq] at read
    obtain ⟨_, rfl⟩ := read
    cases later with
    | nil => exact ⟨Or.inr rfl, by simp [closingTokens]⟩
    | cons first later =>
      refine ⟨Or.inl ⟨later, rfl⟩, ?_⟩
      simp only [List.cons_append, List.drop_succ_cons, List.drop_zero, List.length_append,
        List.length_cons, closingTokens, List.length_nil] at shorter ⊢
      omega

theorem readOptionValue_before {name : String} {front rest : List Token} {value : OptionValue}
    (read : readOptionValue t name (front ++ closingTokens) = .ok (value, rest)) :
    Unfinished rest ∧ rest.length ≤ front.length + 3 := by
  obtain ⟨e, refused⟩ := @valueAt_closing t closingTokens.tail
  cases front with
  | nil =>
    have punct : ¬ ((Token.punct ')').kind = .word ∧ upperName t (Token.punct ')').value = "AS" ∧
        name ∈ asNoiseOptions) := fun h => by cases h.1
    change readOptionValue t name (.punct ')' :: closingTokens.tail) = _ at read
    rw [readOptionValue.eq_def] at read
    simp only [if_neg punct, refused] at read
    cases read
  | cons token front =>
    rw [List.cons_append, readOptionValue.eq_def] at read
    simp only at read
    split_ifs at read with noise
    · cases front with
      | nil =>
        change valueAt t (.punct ')') closingTokens.tail = _ at read
        rw [refused] at read
        cases read
      | cons next front =>
        obtain ⟨unfinished, shorter⟩ := valueAt_before (t := t) read
        exact ⟨unfinished, by simp only [List.length_cons]; omega⟩
    · obtain ⟨unfinished, shorter⟩ := valueAt_before (t := t) read
      exact ⟨unfinished, by simp only [List.length_cons]; omega⟩

theorem readFlagValue_before (front : List Token) :
    Unfinished (readFlagValue t (front ++ closingTokens)).2 ∧
      (readFlagValue t (front ++ closingTokens)).2.length ≤ front.length + 3 := by
  cases front with
  | nil => exact ⟨Or.inl ⟨[], rfl⟩, Nat.le_refl _⟩
  | cons token front =>
    have whole : Unfinished (token :: (front ++ closingTokens)) ∧
        (token :: (front ++ closingTokens)).length ≤ (token :: front).length + 3 :=
      ⟨Or.inl ⟨token :: front, rfl⟩, by simp [closingTokens]⟩
    have rest : Unfinished (front ++ closingTokens) ∧
        (front ++ closingTokens).length ≤ (token :: front).length + 3 :=
      ⟨Or.inl ⟨front, rfl⟩, by simp [closingTokens]⟩
    rw [List.cons_append, readFlagValue]
    by_cases word : token.kind ≠ .word
    · rw [if_pos word]
      exact whole
    · rw [if_neg word]
      cases booleanWords.lookup (upperName t token.value) with
      | some value => exact rest
      | none =>
        by_cases matched : upperName t token.value = "MATCH"
        · simpa only [if_pos matched] using rest
        · simpa only [if_neg matched] using whole

theorem readOption_before {name : String} {front rest : List Token} {value : OptionValue}
    (read : readOption t name (front ++ closingTokens) = .ok (value, rest)) :
    Unfinished rest ∧ rest.length ≤ front.length + 3 := by
  rw [readOption] at read
  split_ifs at read with valued flag
  · exact readOptionValue_before read
  · have flagged := @readFlagValue_before t front
    rwa [Except.ok.inj read] at flagged

theorem afterList_before (front : List Token) :
    ∃ e, afterList t (front ++ closingTokens) = .error e := by
  cases front with
  | nil => exact ⟨_, rfl⟩
  | cons token front => exact ⟨_, rfl⟩

/-- A list begins with no closing parenthesis, and nothing stands behind its own. -/
theorem optionLoop_closing (parenthesised : Bool) (fuel : Nat) :
    ∃ e, optionLoop t parenthesised (fuel + 1) closingTokens = .error e := by
  cases parenthesised with
  | true => exact ⟨_, rfl⟩
  | false => exact ⟨_, rfl⟩

/-- TO is no option. -/
theorem optionLoop_tail (parenthesised : Bool) (fuel : Nat) :
    ∃ e, optionLoop t parenthesised (fuel + 1) closingTokens.tail = .error e := by
  have named : upperName t ['T', 'O'] = "TO" := by rw [upperName, (upper_closing (t := t)).1]
  have name : readOptionName t (.word ['T', 'O']) [.word ['S', 'T', 'D', 'O', 'U', 'T']] =
      .ok ("TO", [.word ['S', 'T', 'D', 'O', 'U', 'T']]) := by
    simp [readOptionName, Token.word, named]
  have unknown : readOption t "TO" [.word ['S', 'T', 'D', 'O', 'U', 'T']] =
      .error (syntaxError ("unrecognized COPY option \"" ++ lowerName t "TO" ++ "\"")) := by
    simp [readOption, valueOptions, flagOptions]
  refine ⟨syntaxError ("unrecognized COPY option \"" ++ lowerName t "TO" ++ "\""), ?_⟩
  change optionLoop t parenthesised (fuel + 1)
    (.word ['T', 'O'] :: [.word ['S', 'T', 'D', 'O', 'U', 'T']]) = _
  rw [optionLoop, if_neg (by decide)]
  simp only [bind, Except.bind, name, unknown]

/-- No option list ends in the closing tokens. -/
theorem optionLoop_unfinished {parenthesised : Bool} {fuel : Nat} {found : List Token}
    (enough : found.length ≤ fuel) (unfinished : Unfinished found) :
    ∃ e, optionLoop t parenthesised fuel found = .error e := by
  induction fuel generalizing found with
  | zero =>
    have empty := List.eq_nil_of_length_eq_zero (Nat.le_zero.mp enough)
    rcases unfinished with ⟨front, same⟩ | same
    · rw [empty] at same
      cases front <;> cases same
    · rw [empty] at same
      cases same
  | succ fuel ih =>
    rcases unfinished with ⟨front, rfl⟩ | rfl
    · cases front with
      | nil => exact optionLoop_closing _ _
      | cons token front =>
        rw [List.cons_append] at enough ⊢
        have room : (front ++ closingTokens).length ≤ fuel := Nat.le_of_succ_le_succ enough
        have fits : front.length + 3 ≤ fuel := by
          rwa [List.length_append] at room
        by_cases punct : token.kind = .punct
        · rw [optionLoop, if_pos punct]
          split_ifs with comma ends
          · exact ih room (Or.inl ⟨front, rfl⟩)
          · exact afterList_before front
          · exact ⟨_, rfl⟩
        · rw [optionLoop, if_neg punct]
          cases named : readOptionName t token (front ++ closingTokens) with
          | error e => exact ⟨e, rfl⟩
          | ok name =>
            obtain ⟨name, later⟩ := name
            obtain ⟨left, rfl, shorter⟩ := readOptionName_before named
            cases valued : readOption t name (left ++ closingTokens) with
            | error e => exact ⟨e, by simp only [bind, Except.bind, valued]⟩
            | ok value =>
              obtain ⟨value, rest⟩ := value
              obtain ⟨unfinished, fewer⟩ := readOption_before valued
              obtain ⟨e, refused⟩ := ih (Nat.le_trans fewer (by omega)) unfinished
              exact ⟨e, by simp only [bind, Except.bind, valued, refused]⟩
    · exact optionLoop_tail _ _

theorem strip_before_ne (text : Text) (newline : Bool) : strip (text ++ ending newline) ≠ [] := by
  rw [Ne, strip_eq_nil_iff, List.dropWhile_eq_nil_iff]
  intro blank
  have solid : isSpace ')' = true := by
    apply blank
    apply List.mem_append_right
    cases newline <;> decide
  exact absurd solid (by decide)

theorem tokenize_before (t : TextTables) (text : Text) (newline : Bool) :
    (∃ e, tokenize t (text ++ ending newline) = .error e) ∨
      ∃ front, tokenize t (text ++ ending newline) = .ok (front ++ closingTokens) := by
  by_cases blank : strip ((scanner t).scan text).2 = []
  · refine Or.inr ⟨((scanner t).scan text).1.map Prod.fst, ?_⟩
    simp only [tokenize, tokens, List.drop_zero, scan_before, if_pos blank, scan_ending]
    simp [strip, closingTokens, place, Function.comp_def]
  · refine Or.inl ⟨unreadable t (((scanner t).scan text).2 ++ ending newline), ?_⟩
    simp only [tokenize, tokens, List.drop_zero, scan_before, if_neg blank,
      if_neg (strip_before_ne _ newline)]

theorem dropWith_before (front : List Token) :
    ∃ later, dropWith t (front ++ closingTokens) = later ++ closingTokens := by
  cases front with
  | nil => exact ⟨[], rfl⟩
  | cons token front =>
    rw [List.cons_append, dropWith]
    split_ifs
    · exact ⟨front, rfl⟩
    · exact ⟨token :: front, rfl⟩

theorem optionItems_before (t : TextTables) (text : Text) (newline : Bool) :
    ∃ e, optionItems t (text ++ ending newline) = .error e := by
  rcases tokenize_before t text newline with ⟨e, refused⟩ | ⟨front, found⟩
  · exact ⟨e, by rw [optionItems, refused]; rfl⟩
  · obtain ⟨later, dropped⟩ := @dropWith_before t front
    simp only [optionItems, found, bind, Except.bind, dropped]
    cases later with
    | nil => exact optionLoop_closing false 3
    | cons token later =>
      by_cases opening : token = .punct '('
      · simp only [List.cons_append, if_pos opening]
        exact optionLoop_unfinished (Nat.le_succ _) (Or.inl ⟨later, rfl⟩)
      · simp only [List.cons_append, if_neg opening]
        exact optionLoop_unfinished (Nat.le_succ _) (Or.inl ⟨token :: later, rfl⟩)

/-- An option list that ends like the statement is refused. -/
theorem parseOptions_before (t : TextTables) (text : Text) (newline : Bool) :
    ∃ e, parseOptions t (text ++ ending newline) = .error e := by
  obtain ⟨e, refused⟩ := optionItems_before t text newline
  exact ⟨e, by rw [parseOptions, refused]; rfl⟩

theorem dropWhile_before (text : Text) (newline : Bool) :
    ∃ later newline', (text ++ ending newline).dropWhile isSpace = later ++ ending newline' := by
  rw [List.dropWhile_append]
  cases text.dropWhile isSpace with
  | nil =>
    refine ⟨[], false, ?_⟩
    cases newline <;> rfl
  | cons c later => exact ⟨c :: later, newline, rfl⟩

theorem getLast?_before (text : Text) (newline : Bool) :
    (text ++ ending newline).getLast? = some 'T' := by
  cases newline with
  | false => rw [ending, if_neg Bool.false_ne_true, List.getLast?_append]; rfl
  | true => rw [ending, if_pos rfl, List.getLast?_append]; rfl

/-- Stripped of space, an option list that ends like the statement still does. -/
theorem stripTerminator_before (text : Text) (newline : Bool) :
    ∃ later newline', stripTerminator (text ++ ending newline) = later ++ ending newline' := by
  obtain ⟨later, newline', front⟩ := dropWhile_before text newline
  have last := getLast?_before later newline'
  have back : ((later ++ ending newline').reverse.dropWhile isSpace).reverse =
      later ++ ending newline' := by
    apply Trim.rdropWhile_solid
    rw [last]
    intro c shown
    obtain rfl := Option.some.inj shown
    rfl
  refine ⟨later, newline', ?_⟩
  simp only [stripTerminator, strip, front, back, last]
  rw [if_neg (by decide)]

end Options

/-! ## The statement as a whole -/

section Statement

variable {t : TextTables} {query : Text}

theorem copyHead_copyOut (query : Text) : copyHead (copyOut query) = some 5 := by
  refine @copyHead_keyword ('(' :: (query ++ ending (SqlLexer.endsInLineComment query))) ?_
  intro c head
  obtain rfl := Option.some.inj head
  rfl

/-- The tokens of the query, where they stand in the statement. -/
def inQuery (t : TextTables) (query : Text) : List Placed :=
  ((scanner t).scan query).1.map fun found =>
    place (copyOut query).length (found.1, found.2 ++ ending (SqlLexer.endsInLineComment query))

/-- The tokens of the ending, where they stand in the statement. -/
def atEnd (query : Text) : List Placed :=
  let length := (copyOut query).length
  [⟨.punct ')', length - 10⟩, ⟨.word ['T', 'O'], length - 7⟩,
    ⟨.word ['S', 'T', 'D', 'O', 'U', 'T'], length⟩]

theorem token_inQuery (t : TextTables) (query : Text) :
    (inQuery t query).map Placed.token = (tokens t query 0).1.map Placed.token := by
  simp only [inQuery, tokens, List.drop_zero, List.map_map]
  rfl

theorem readable_iff (t : TextTables) (query : Text) :
    (tokens t query 0).2 = none ↔ strip ((scanner t).scan query).2 = [] := by
  simp only [tokens, List.drop_zero]
  split_ifs with blank
  · exact iff_of_true rfl blank
  · exact iff_of_false (fun h => by cases h) blank

/-- The tokenizer breaks off in the statement exactly where it does in the query. -/
theorem untokenizable_copyOut (t : TextTables) (query : Text) :
    untokenizable t (copyOut query) ↔ (tokens t query 0).2 ≠ none := by
  have opening : (scanner t).next ((copyOut query).drop 5) =
      some (.punct '(', query ++ ending (SqlLexer.endsInLineComment query)) := rfl
  have scanned := Scanner.scan_of_next_some opening
  rw [scan_before] at scanned
  have breaks : (tokens t (copyOut query) 5).2 = none ↔ (tokens t query 0).2 = none := by
    rw [readable_iff]
    by_cases blank : strip ((scanner t).scan query).2 = []
    · rw [if_pos blank] at scanned
      simp only [tokens, scanned]
      exact iff_of_true rfl blank
    · rw [if_neg blank] at scanned
      simp only [tokens, scanned, if_neg (strip_before_ne _ _)]
      exact iff_of_false (fun h => by cases h) blank
  constructor
  · rintro ⟨head, place, broken⟩ readable
    obtain rfl := Option.some.inj ((copyHead_copyOut query).symm.trans place)
    exact broken (breaks.mpr readable)
  · intro broken
    exact ⟨5, copyHead_copyOut query, fun readable => broken (breaks.mp readable)⟩

theorem tokens_copyOut (t : TextTables) (query : Text) :
    ∃ stop, (tokens t (copyOut query) 5).1 = ⟨.punct '(', stop⟩ :: (inQuery t query ++
      if strip ((scanner t).scan query).2 = [] then atEnd query else []) := by
  have opening : (scanner t).next ((copyOut query).drop 5) =
      some (.punct '(', query ++ ending (SqlLexer.endsInLineComment query)) := rfl
  have scanned := Scanner.scan_of_next_some opening
  rw [scan_before] at scanned
  refine ⟨(copyOut query).length - (query ++ ending (SqlLexer.endsInLineComment query)).length, ?_⟩
  by_cases blank : strip ((scanner t).scan query).2 = []
  · rw [if_pos blank, scan_ending] at scanned
    simp only [tokens, scanned, if_pos blank, List.map_cons, List.map_append, List.map_map]
    rfl
  · rw [if_neg blank] at scanned
    simp only [tokens, scanned, if_neg blank, List.map_cons, List.map_map, List.append_nil]
    rfl

/-- The search enters the parentheses of the query. -/
theorem search_copyOut (t : TextTables) (query : Text) :
    search t 0 none (tokens t (copyOut query) 5).1 = search t 1 none (inQuery t query ++
      if strip ((scanner t).scan query).2 = [] then atEnd query else []) := by
  obtain ⟨stop, same⟩ := tokens_copyOut t query
  rw [same, search_cons]
  rfl

theorem strip_opening (text : Text) : ∃ rest, strip ('(' :: text) = '(' :: rest := by
  have front : ('(' :: text).dropWhile isSpace = '(' :: text := rfl
  rw [strip, front, List.reverse_cons, List.dropWhile_append]
  cases text.reverse.dropWhile isSpace with
  | nil => exact ⟨[], rfl⟩
  | cons c rest => exact ⟨(c :: rest).reverse, by simp⟩

/-- A target that starts at the parenthesis of the query is a query. -/
theorem target_copyOut {start : Nat} (within : 6 ≤ start) :
    ∃ rest, strip (((copyOut query).take start).drop 5) = '(' :: rest := by
  obtain ⟨more, rfl⟩ := Nat.exists_eq_add_of_le' within
  exact strip_opening ((query ++ ending (SqlLexer.endsInLineComment query)).take more)

theorem findEndpoint_copyOut {found : Found}
    (hit : search t 0 none (tokens t (copyOut query) 5).1 = some found) (within : 6 ≤ found.start) :
    ∃ rest, findEndpoint t (copyOut query) =
      some (found.direction, '(' :: rest, stripTerminator ((copyOut query).drop found.stop)) := by
  obtain ⟨rest, target⟩ := @target_copyOut query found.start within
  refine ⟨rest, ?_⟩
  simp only [findEndpoint, copyHead_copyOut, hit, target]
  rw [if_neg (List.cons_ne_nil _ _)]

theorem parseTarget_opening (rest : Text) : parseTarget t ('(' :: rest) = (none, none) := by
  obtain ⟨later, target⟩ := strip_opening rest
  simp only [parseTarget, target, List.head?_cons, if_true]

theorem length_copyOut (query : Text) : (copyOut query).length =
    6 + query.length + (ending (SqlLexer.endsInLineComment query)).length := by
  rw [copyOut, List.length_append, List.length_append, Nat.add_assoc]
  rfl

theorem starts_inQuery {p : Placed} (inside : p ∈ inQuery t query) (word : p.token.kind = .word) :
    6 ≤ p.stop - p.token.value.length := by
  have length := length_copyOut query
  obtain ⟨f, found, rfl⟩ := List.mem_map.mp inside
  have room := (found_within found).2 word
  simp only [place, List.length_append]
  omega

theorem stops_inQuery {p : Placed} (inside : p ∈ inQuery t query) :
    ∃ rest newline, (copyOut query).drop p.stop = rest ++ ending newline := by
  obtain ⟨f, found, rfl⟩ := List.mem_map.mp inside
  obtain ⟨body, split⟩ := (found_within found).1
  refine ⟨f.2, SqlLexer.endsInLineComment query, ?_⟩
  have whole : copyOut query = (['C', 'O', 'P', 'Y', ' ', '('] ++ body) ++
      (f.2 ++ ending (SqlLexer.endsInLineComment query)) := by
    rw [copyOut, List.append_assoc, ← List.append_assoc body, split]
  rw [place, whole, List.length_append, Nat.add_sub_cancel, List.drop_left]

/-- An endpoint in the query leaves the end of the statement among the options. -/
theorem parseCopy_of_uncovered (uncovered : search t 1 none (tokens t query 0).1 ≠ none) :
    ∃ e, parseCopy t (copyOut query) = .error e := by
  have some_found : (search t 1 none (inQuery t query)).isSome = true := by
    rw [@search_isSome_congr t 1 none none _ _ rfl (token_inQuery t query)]
    exact Option.isSome_iff_ne_none.mpr uncovered
  obtain ⟨found, inside⟩ := Option.isSome_iff_exists.mp some_found
  have hit : search t 0 none (tokens t (copyOut query) 5).1 = some found := by
    obtain ⟨previous, both⟩ := search_append (t := t) 1 none (inQuery t query)
      (if strip ((scanner t).scan query).2 = [] then atEnd query else [])
    rw [search_copyOut, both, inside, Option.some_or]
  have ends := search_within (P := fun start => 6 ≤ start)
    (Q := fun stop => ∃ rest newline, (copyOut query).drop stop = rest ++ ending newline)
    (fun word known => by cases known) (fun p => starts_inQuery) (fun p => stops_inQuery) inside
  obtain ⟨within, rest, newline, options⟩ := ends
  obtain ⟨target, endpoint⟩ := findEndpoint_copyOut hit within
  obtain ⟨later, newline', stripped⟩ := stripTerminator_before rest newline
  obtain ⟨e, refused⟩ := parseOptions_before t later newline'
  refine ⟨e, ?_⟩
  simp only [parseCopy, endpoint, options, stripped, refused, bind, Except.bind]

theorem search_of_covered (covered : search t 1 none (tokens t query 0).1 = none) :
    search t 1 none (inQuery t query) = none := by
  have same := @search_isSome_congr t 1 none none _ _ rfl (token_inQuery t query)
  rw [covered] at same
  exact Option.isSome_eq_false_iff.mp same |> Option.isNone_iff_eq_none.mp

/-- At the end of the statement the search finds the endpoint if the query was closed. -/
theorem search_atEnd (depth : Int) (previous : Previous) :
    search t depth previous (atEnd query) =
      if depth = 1 then some ⟨.copyOut, (copyOut query).length - 9, (copyOut query).length⟩
      else none := by
  obtain ⟨first, second⟩ := upper_closing (t := t)
  have punct : ¬ ((Token.punct ')').kind = .word ∧ depth = 0) := fun h => by cases h.1
  have after : depthAfter depth (.punct ')') = depth - 1 := rfl
  simp only [atEnd, search, if_neg punct, after]
  by_cases closed : depth = 1
  · subst closed
    simp only [Token.word, first, second]
    simp [endpointOf]
    omega
  · have other : depth - 1 ≠ 0 := by omega
    simp [other, closed]

/-- A query that is closed where it ends is read as the copy-out it stands in. -/
theorem parseCopy_of_closed (covered : search t 1 none (tokens t query 0).1 = none)
    (readable : (tokens t query 0).2 = none)
    (closed : ((tokens t query 0).1.map Placed.token).foldl depthAfter 1 = 1) :
    parseCopy t (copyOut query) = .ok (some ⟨.copyOut, none, none, {}⟩) := by
  have blank := (readable_iff t query).mp readable
  obtain ⟨previous, both⟩ := search_append (t := t) 1 none (inQuery t query) (atEnd query)
  have hit := search_copyOut t query
  rw [if_pos blank, both, search_of_covered covered, Option.none_or, token_inQuery, closed,
    search_atEnd, if_pos rfl] at hit
  have within : 6 ≤ (copyOut query).length - 9 := by
    have long : 11 ≤ (ending (SqlLexer.endsInLineComment query)).length := by
      cases SqlLexer.endsInLineComment query <;> decide
    rw [length_copyOut]
    omega
  obtain ⟨rest, endpoint⟩ := findEndpoint_copyOut hit within
  have options : parseOptions t (stripTerminator ((copyOut query).drop (copyOut query).length)) =
      .ok {} := by
    rw [List.drop_length]
    rfl
  simp only [parseCopy, endpoint, parseTarget_opening, options, bind, Except.bind]

theorem parseCopy_of_no_endpoint (missed : search t 0 none (tokens t (copyOut query) 5).1 = none) :
    parseCopy t (copyOut query) = .ok none := by
  simp only [parseCopy, findEndpoint, copyHead_copyOut, missed]

/-- A query that is not closed where it ends hides the endpoint. -/
theorem parseCopy_of_open (covered : search t 1 none (tokens t query 0).1 = none)
    (unclosed : ((tokens t query 0).1.map Placed.token).foldl depthAfter 1 ≠ 1) :
    parseCopy t (copyOut query) = .ok none := by
  apply parseCopy_of_no_endpoint
  rw [search_copyOut]
  by_cases blank : strip ((scanner t).scan query).2 = []
  · obtain ⟨previous, both⟩ := search_append (t := t) 1 none (inQuery t query) (atEnd query)
    rw [if_pos blank, both, search_of_covered covered, Option.none_or, token_inQuery,
      search_atEnd, if_neg unclosed]
  · rw [if_neg blank, List.append_nil, search_of_covered covered]

/-- A query the tokenizer breaks off in is no COPY. -/
theorem parseCopy_of_unreadable (covered : search t 1 none (tokens t query 0).1 = none)
    (unreadable : (tokens t query 0).2 ≠ none) : parseCopy t (copyOut query) = .ok none := by
  apply parseCopy_of_no_endpoint
  have solid : strip ((scanner t).scan query).2 ≠ [] :=
    fun blank => unreadable ((readable_iff t query).mpr blank)
  rw [search_copyOut, if_neg solid, List.append_nil, search_of_covered covered]

end Statement

section Classification

variable {t : TextTables} {query : Text}

/-- The three ways the statement can be read where no endpoint shows in the query. -/
theorem parseCopy_of_covered (covered : search t 1 none (tokens t query 0).1 = none) :
    parseCopy t (copyOut query) = .ok (some ⟨.copyOut, none, none, {}⟩) ∨
      parseCopy t (copyOut query) = .ok none := by
  by_cases readable : (tokens t query 0).2 = none
  · by_cases closed : ((tokens t query 0).1.map Placed.token).foldl depthAfter 1 = 1
    · exact Or.inl (parseCopy_of_closed covered readable closed)
    · exact Or.inr (parseCopy_of_open covered closed)
  · exact Or.inr (parseCopy_of_unreadable covered readable)

/-- No copy-out of a query is read as a copy-in. -/
theorem copyOut_never_in {parsed : ParsedCopy}
    (read : parseCopy t (copyOut query) = .ok (some parsed)) : parsed.direction = .copyOut := by
  by_cases covered : search t 1 none (tokens t query 0).1 = none
  · rcases parseCopy_of_covered covered with out | missed
    · obtain rfl := Option.some.inj (Except.ok.inj (out.symm.trans read))
      rfl
    · rw [missed] at read
      cases read
  · obtain ⟨e, refused⟩ := parseCopy_of_uncovered covered
    rw [refused] at read
    cases read

/-- The copy-out of a query is read as one, or not read where it cannot be tokenized,
exactly if the tokenizer sees no endpoint outside the query's parentheses and sees these
closed where it gets to the end of the query. -/
theorem read_iff_contained (t : TextTables) (query : Text) :
    ReadAsCopyOut t query ↔ Contained t query := by
  constructor
  · intro read
    have covered : search t 1 none (tokens t query 0).1 = none := by
      by_contra uncovered
      obtain ⟨e, refused⟩ := parseCopy_of_uncovered uncovered
      rcases read with ⟨options, out⟩ | ⟨missed, _⟩
      · rw [refused] at out
        cases out
      · rw [refused] at missed
        cases missed
    refine ⟨covered, fun readable => ?_⟩
    by_contra unclosed
    have missed := parseCopy_of_open covered unclosed
    rcases read with ⟨options, out⟩ | ⟨_, broken⟩
    · rw [missed] at out
      cases out
    · exact (untokenizable_copyOut t query).mp broken readable
  · rintro ⟨covered, closed⟩
    by_cases readable : (tokens t query 0).2 = none
    · exact Or.inl ⟨_, parseCopy_of_closed covered readable (closed readable)⟩
    · exact Or.inr ⟨parseCopy_of_unreadable covered readable,
        (untokenizable_copyOut t query).mpr readable⟩

/-- Matched parentheses keep the search inside the query's own. -/
theorem search_of_matched {depth : Nat} {previous : Previous} {l : List Placed}
    (closed : SqlLexer.matched depth (l.map fun p => tokenElement p.token) = true) :
    search t (depth + 1) previous l = none ∧
      (l.map Placed.token).foldl depthAfter (depth + 1) = 1 := by
  induction l generalizing depth previous with
  | nil =>
    obtain rfl : depth = 0 := of_decide_eq_true closed
    exact ⟨rfl, rfl⟩
  | cons p l ih =>
    have inside : ¬ (p.token.kind = .word ∧ ((depth : Int) + 1 = 0)) := fun h => by omega
    rw [search_cons, completes, if_neg inside, Option.none_or, List.map_cons, List.foldl_cons]
    rw [List.map_cons] at closed
    by_cases opening : p.token = .punct '('
    · rw [depthAfter, if_pos opening]
      rw [tokenElement, if_pos opening] at closed
      exact @ih (depth + 1) _ closed
    by_cases closing : p.token = .punct ')'
    · rw [depthAfter, if_neg opening, if_pos closing]
      rw [tokenElement, if_neg opening, if_pos closing] at closed
      cases depth with
      | zero => cases closed
      | succ depth =>
        have same : ((depth + 1 : Nat) : Int) + 1 - 1 = depth + 1 := by omega
        rw [same]
        exact ih closed
    · rw [depthAfter, if_neg opening, if_neg closing]
      rw [tokenElement, if_neg opening, if_neg closing,
        SqlLexer.matched_skip (by decide) (by decide)] at closed
      exact ih closed

theorem contained_of_matched (closed : SqlLexer.matched 0 (parens t query) = true) :
    Contained t query := by
  have same : (tokens t query 0).1.map (fun p => tokenElement p.token) = parens t query := by
    simp only [tokens, List.drop_zero, List.map_map]
    rfl
  rw [← same] at closed
  obtain ⟨covered, shut⟩ := @search_of_matched t 0 none _ closed
  exact ⟨covered, fun _ => shut⟩

end Classification

/-- No copy-out is read as a copy-in. A query whose parentheses are balanced is read as the
copy-out it stands in where the tokenizer reads its elements as PostgreSQL does; of any
query whatever this holds exactly if the tokenizer finds it contained. -/
theorem copyOut_classified {t : TextTables} (tables : WordTables t) (query : Text) :
    (∀ parsed, parseCopy t (copyOut query) = .ok (some parsed) → parsed.direction = .copyOut) ∧
      (SqlLexer.balanced query = true → readsAlike t query = true → ReadAsCopyOut t query) ∧
      (ReadAsCopyOut t query ↔ Contained t query) := by
  refine ⟨fun parsed read => copyOut_never_in read, fun balanced alike => ?_,
    read_iff_contained t query⟩
  apply (read_iff_contained t query).mpr
  exact contained_of_matched (matched_parens_of_readsAlike tables balanced alike)

/-- `SELECT f(')', $a$)$a$, E'(', $1) -- $5, ()`. -/
def wellRead : Text := "SELECT f(')', $a$)$a$, E'(', $1) -- $5, ()".toList

theorem wellRead_classified : ReadAsCopyOut asciiTables wellRead :=
  (copyOut_classified Patterns.wordTables_ascii wellRead).2.1 (by decide +kernel)
    (by decide +kernel)

instance (t : TextTables) (query : Text) : Decidable (Contained t query) :=
  decidable_of_iff (search t 1 none (tokens t query 0).1 = none ∧
      ((tokens t query 0).2 = none →
        ((tokens t query 0).1.map Placed.token).foldl depthAfter 1 = 1))
    ⟨fun h => ⟨h.1, h.2⟩, fun h => ⟨h.covered, h.closed⟩⟩

/-- The query is balanced, and its copy-out is refused or not recognised. -/
def Misread (t : TextTables) (query : Text) : Prop :=
  SqlLexer.balanced query = true ∧ readsAlike t query = false ∧ ¬ ReadAsCopyOut t query

theorem misread_of_uncontained {t : TextTables} {query : Text}
    (uncontained : SqlLexer.balanced query = true ∧ readsAlike t query = false ∧
      ¬ Contained t query) : Misread t query := by
  obtain ⟨balanced, unlike, uncovered⟩ := uncontained
  refine ⟨balanced, unlike, fun read => ?_⟩
  exact uncovered ((read_iff_contained t query).mp read)

/-- An escape string, both kinds of comment, a dollar quote behind an operator, and one whose
tag is not in ASCII. -/
theorem misread_not_out :
    Misread asciiTables "SELECT E'\\') FROM STDIN '".toList ∧
    Misread asciiTables "SELECT 1 -- (".toList ∧
    Misread asciiTables "SELECT 1 /* ) */".toList ∧
    Misread asciiTables "SELECT 1||$$($$".toList ∧
    Misread asciiTables "SELECT $é$)$é$".toList := by
  refine ⟨?_, ?_, ?_, ?_, ?_⟩ <;>
  exact misread_of_uncontained (by decide +kernel)

end PgMimic.Endpoint

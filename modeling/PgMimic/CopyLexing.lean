import PgMimic.CopyEndpoint
import PgMimic.Lib.SqlLexer
import PgMimic.Patterns

/-!
# Where the tokenizer reads a query as PostgreSQL does

`_tokens` knows string constants with doubled quotes, quoted identifiers and dollar quotes.
It does not know escape strings and comments, and it reads on in a word where an operator
ends for PostgreSQL. `readsAlike` says, in PostgreSQL's elements, of which queries this
makes no difference to the parentheses: then the tokenizer sees every parenthesis that
PostgreSQL sees, and besides these only what a comment opens and closes itself.
-/

namespace PgMimic.Endpoint

open PgMimic.Copy (Text)
open PgMimic.Patterns (WordTables)
open SqlLexer (Element)

/-! ## The condition on the elements of a query -/

def parenOf (c : Char) : Element :=
  if c = '(' then .opening else if c = ')' then .closing else .other

/-- A text without quotes in which no dollar sign opens a constant: it stands behind a
character of a word, or there is no fence. -/
def mild (after : Text) : Bool → Text → Bool
  | _, [] => true
  | inWord, c :: rest =>
    c ≠ '\'' && c ≠ '"' &&
      (c ≠ '$' || inWord || (SqlLexer.afterOpening (rest ++ after)).isNone) &&
      mild after (isBare c) rest

/-- The tag of a dollar quote is spelled `[A-Za-z_]\w*`. -/
def plainTag (t : TextTables) : Text → Bool
  | [] => true
  | c :: rest => (c.isAlpha || c = '_') && rest.all t.isWord

/-- A dollar quote stands behind no word and has a plain tag, and an escape string ends where
it would end without the `E`. -/
def literalAlike (t : TextTables) (inWord : Bool) (text after : Text) : Bool :=
  match text with
  | [] => true
  | c :: rest =>
    if c = '\'' ∨ c = '"' then true
    else if c = '$' then !inWord && plainTag t (SqlLexer.tagOf rest)
    else SqlLexer.closeQuoted '\'' rest.tail = some after

/-- The parentheses of a comment match among themselves. -/
def elementAlike (t : TextTables) (inWord : Bool) (text : Text) : Element × Text → Bool
  | (.literal, after) => literalAlike t inWord text after
  | (.lineComment, after) | (.blockComment, after) =>
    mild after inWord (taken text after) &&
      SqlLexer.matched 0 ((taken text after).map parenOf)
  | (_, after) => mild after inWord (taken text after)

/-- The tokenizer is in a word behind the element. -/
def endsInWord (inWord : Bool) (text : Text) : Element × Text → Bool
  | (.literal, _) => false
  | (_, after) => (taken text after).foldl (fun _ c => isBare c) inWord

def alikeFrom (t : TextTables) : Bool → Text → List (Element × Text) → Bool
  | _, _, [] => true
  | inWord, text, found :: later =>
    elementAlike t inWord text found && alikeFrom t (endsInWord inWord text found) found.2 later

/-- No element of the query is read otherwise than PostgreSQL reads it, as far as
parentheses go. -/
def readsAlike (t : TextTables) (query : Text) : Bool :=
  alikeFrom t false query (SqlLexer.lexer.scan query).1

/-! ## The parentheses the tokenizer sees -/

def tokenElement (token : Token) : Element :=
  if token = .punct '(' then .opening else if token = .punct ')' then .closing else .other

def parens (t : TextTables) (text : Text) : List Element :=
  ((scanner t).scan text).1.map fun found => tokenElement found.1

/-- Where the tokenizer goes on: in the middle of a word it first comes to its end. -/
def resume (inWord : Bool) (text : Text) : Text := if inWord then text.dropWhile isBare else text

section Steps

variable {t : TextTables} {c : Char} {inWord : Bool} {text rest after : Text} {depth : Nat}

theorem parens_of_some {token : Token} (next : nextToken t text = some (token, after)) :
    parens t text = tokenElement token :: parens t after := by
  rw [parens, Scanner.scan_of_next_some (s := scanner t) next]
  rfl

theorem tokenElement_of_kind {token : Token} (unpunctuated : token.kind ≠ .punct) :
    tokenElement token = .other := by
  have other : ∀ c, token ≠ .punct c := fun c same => unpunctuated (by rw [same]; rfl)
  rw [tokenElement, if_neg (other '('), if_neg (other ')')]

theorem parenOf_of_not_punct (unpunctuated : isPunct c = false) : parenOf c = .other := by
  have other : c ≠ '(' ∧ c ≠ ')' := by
    constructor
    · rintro rfl
      exact absurd unpunctuated (by decide)
    · rintro rfl
      exact absurd unpunctuated (by decide)
  rw [parenOf, if_neg other.1, if_neg other.2]

theorem tokenElement_punct (c : Char) : tokenElement (.punct c) = parenOf c := by
  have same : ∀ d, Token.punct c = Token.punct d ↔ c = d := by
    intro d
    constructor
    · intro h
      injection h with _ value
      exact (List.cons.inj value).1
    · exact congrArg Token.punct
  simp only [tokenElement, same, parenOf]

theorem matched_parens {token : Token} (unpunctuated : token.kind ≠ .punct)
    (next : nextToken t text = some (token, after)) :
    SqlLexer.matched depth (parens t text) = SqlLexer.matched depth (parens t after) := by
  rw [parens_of_some next, tokenElement_of_kind unpunctuated]
  exact SqlLexer.matched_skip (by decide) (by decide) depth _

theorem resume_of_not_bare (stops : isBare c = false) (inWord : Bool) (rest : Text) :
    resume inWord (c :: rest) = c :: rest := by
  cases inWord with
  | false => rfl
  | true => exact List.dropWhile_cons_of_neg (by rw [stops]; decide)

theorem nextToken_solid (solid : isSpace c = false) (rest : Text) :
    nextToken t (c :: rest) = tokenAt t c rest := by
  rw [nextToken, List.dropWhile_cons_of_neg (by rw [solid]; decide)]

theorem parens_space (space : isSpace c = true) (rest : Text) :
    parens t (c :: rest) = parens t rest := by
  have same : nextToken t (c :: rest) = nextToken t rest := by
    rw [nextToken, nextToken, List.dropWhile_cons_of_pos space]
  cases next : nextToken t rest with
  | none =>
    rw [parens, parens, Scanner.scan_of_next_none (s := scanner t) next,
      Scanner.scan_of_next_none (s := scanner t) (same.trans next)]
  | some found => rw [parens_of_some next, parens_of_some (same.trans next)]

theorem parens_punct (punct : isPunct c = true) (rest : Text) :
    parens t (c :: rest) = parenOf c :: parens t rest := by
  have solid : isSpace c = false := not_space_of_isPunct punct
  have unquoted : c ≠ '\'' ∧ c ≠ '"' := by
    constructor
    · rintro rfl
      exact absurd punct (by decide)
    · rintro rfl
      exact absurd punct (by decide)
  have next : nextToken t (c :: rest) = some (.punct c, rest) := by
    rw [nextToken_solid solid, tokenAt, if_neg unquoted.1, if_neg unquoted.2, if_pos punct]
  rw [parens_of_some next, tokenElement_punct]

/-- A character that begins or goes on with a word. -/
theorem matched_bare (bare : isBare c = true)
    (unopened : c = '$' → inWord = true ∨ dollarQuoted t rest = none) :
    SqlLexer.matched depth (parens t (resume inWord (c :: rest))) =
      SqlLexer.matched depth (parens t (resume true rest)) := by
  cases inWord with
  | true => rw [resume, resume, if_pos rfl, if_pos rfl, List.dropWhile_cons_of_pos bare]
  | false =>
    have apart := bare
    simp only [isBare, Bool.and_eq_true, Bool.not_eq_true', bne_iff_ne, ne_eq] at apart
    obtain ⟨⟨⟨solid, punct⟩, single⟩, double⟩ := apart
    have found : tokenAt t c rest = some (bareWord (c :: rest)) := by
      rw [tokenAt, if_neg single, if_neg double, if_neg (by rw [punct]; decide)]
      by_cases dollar : c = '$'
      · have none_open := (unopened dollar).resolve_left (by decide)
        rw [if_pos dollar, none_open]
      · rw [if_neg dollar]
    have next : nextToken t (c :: rest) =
        some (.word ((c :: rest).takeWhile isBare), rest.dropWhile isBare) := by
      rw [nextToken_solid solid, found, bareWord, List.dropWhile_cons_of_pos bare]
    rw [resume, resume, if_neg (by decide), if_pos rfl]
    exact matched_parens (fun h => by cases h) next

/-- A character outside all literals is to the tokenizer what it is to PostgreSQL. -/
theorem matched_char (single : c ≠ '\'') (double : c ≠ '"')
    (unopened : c = '$' → inWord = true ∨ dollarQuoted t rest = none) :
    SqlLexer.matched depth (parens t (resume inWord (c :: rest))) =
      SqlLexer.matched depth (parenOf c :: parens t (resume (isBare c) rest)) := by
  by_cases bare : isBare c = true
  · have other : parenOf c = .other := parenOf_of_not_punct (not_punct_of_isBare bare)
    rw [matched_bare bare unopened, other, bare,
      SqlLexer.matched_skip (by decide) (by decide)]
  have stops : isBare c = false := Bool.eq_false_iff.mpr bare
  rw [resume_of_not_bare stops, stops]
  by_cases space : isSpace c = true
  · have unpunctuated : isPunct c = false := by
      by_contra punct
      rw [not_space_of_isPunct (Bool.of_not_eq_false punct)] at space
      cases space
    have other : parenOf c = .other := parenOf_of_not_punct unpunctuated
    rw [parens_space space, other, SqlLexer.matched_skip (by decide) (by decide)]
    rfl
  · have punct : isPunct c = true := by
      by_contra none
      simp [isBare, space, none, single, double] at stops
    rw [parens_punct punct]
    rfl

end Steps

/-! ## Literals -/

section Literals

variable {t : TextTables} {c : Char} {inWord : Bool} {text rest after body fence : Text}
  {depth : Nat}

theorem closeQuote_of_closeQuoted {quote : Char}
    (closed : SqlLexer.closeQuoted quote text = some after) :
    closeQuote quote text = some after := by
  induction text using SqlLexer.closeQuoted.induct quote with
  | case1 => cases closed
  | case2 =>
    rw [SqlLexer.closeQuoted, if_pos rfl] at closed
    rw [closeQuote, if_pos rfl, closed]
  | case3 c other => simp [SqlLexer.closeQuoted, other] at closed
  | case4 c d more other ih =>
    rw [SqlLexer.closeQuoted, if_pos other] at closed
    rw [closeQuote, if_pos other, ih closed]
  | case5 c more same ih =>
    rw [SqlLexer.closeQuoted, if_neg same, if_pos rfl] at closed
    rw [closeQuote, if_neg same, if_pos rfl, ih closed]
    rfl
  | case6 c d more same other =>
    rw [SqlLexer.closeQuoted, if_neg same, if_neg other] at closed
    rw [closeQuote, if_neg same, if_neg other, closed]

theorem matched_quoted (quote : c = '\'' ∨ c = '"')
    (closed : SqlLexer.closeQuoted c rest = some after) :
    SqlLexer.matched depth (parens t (resume inWord (c :: rest))) =
      SqlLexer.matched depth (parens t after) := by
  have closes := closeQuote_of_closeQuoted closed
  rcases quote with rfl | rfl
  · rw [resume_of_not_bare rfl]
    have next : nextToken t ('\'' :: rest) =
        some (⟨.string, undouble '\'' (taken rest after).dropLast⟩, after) := by
      rw [nextToken_solid rfl, tokenAt, if_pos rfl, closes]
      rfl
    exact matched_parens (fun h => by cases h) next
  · rw [resume_of_not_bare rfl]
    have next : nextToken t ('"' :: rest) = some (.word (taken ('"' :: rest) after), after) := by
      rw [nextToken_solid rfl, tokenAt, if_neg (by decide), if_pos rfl, closes]
      rfl
    exact matched_parens (fun h => by cases h) next

theorem isTagCont_of_isWord (tables : WordTables t) (word : t.isWord c = true) :
    SqlLexer.isTagCont c = true := by
  by_cases ascii : c.toNat < 128
  · rw [tables.ascii c ascii] at word
    simp only [Char.isAlphanum, Bool.or_eq_true, decide_eq_true_eq] at word
    simp only [SqlLexer.isTagCont, SqlLexer.isIdentStart, Bool.or_eq_true, decide_eq_true_eq]
    tauto
  · have wide : 128 ≤ c.toNat := Nat.le_of_not_lt ascii
    simp [SqlLexer.isTagCont, SqlLexer.isIdentStart, wide]

theorem isIdentStart_of_letter (letter : c.isAlpha = true ∨ c = '_') :
    SqlLexer.isIdentStart c = true := by
  rcases letter with alpha | rfl
  · rw [SqlLexer.isIdentStart, alpha, Bool.true_or, Bool.true_or]
  · rfl

/-- The tag that is read is PostgreSQL's, unless no dollar sign stands behind it. -/
theorem dollarTag_cases (tables : WordTables t) (text : Text) :
    dollarTag t text = SqlLexer.tagOf text ∨
      (text.drop (dollarTag t text).length).head? ≠ some '$' := by
  cases text with
  | nil => exact Or.inl rfl
  | cons c rest =>
    by_cases letter : c.isAlpha = true ∨ c = '_'
    · rw [dollarTag, SqlLexer.tagOf, if_pos letter, if_pos (isIdentStart_of_letter letter),
        List.length_cons, List.drop_succ_cons]
      by_cases fenced : (rest.drop (rest.takeWhile t.isWord).length).head? = some '$'
      · obtain ⟨body, starts⟩ := List.head?_eq_some_iff.mp fenced
        have whole : rest = rest.takeWhile t.isWord ++ '$' :: body := by
          conv_lhs => rw [← List.take_append_drop (rest.takeWhile t.isWord).length rest, starts]
          rw [List.prefix_iff_eq_take.mp (List.takeWhile_prefix t.isWord) |>.symm]
        have words : ∀ d ∈ rest.takeWhile t.isWord, SqlLexer.isTagCont d = true :=
          fun d inside => isTagCont_of_isWord tables (List.mem_takeWhile_imp inside)
        have same : rest.takeWhile SqlLexer.isTagCont = rest.takeWhile t.isWord := by
          conv_lhs => rw [whole]
          rw [List.takeWhile_append_of_pos words, List.takeWhile_cons_of_neg (by decide),
            List.append_nil]
        exact Or.inl (by rw [same])
      · exact Or.inr fenced
    · rw [dollarTag, if_neg letter]
      by_cases dollar : c = '$'
      · subst dollar
        exact Or.inl rfl
      · exact Or.inr fun h => dollar (Option.some.inj h)

theorem dollarQuoted_of_unopened (tables : WordTables t)
    (unopened : SqlLexer.afterOpening text = none) : dollarQuoted t text = none := by
  rcases dollarTag_cases tables text with same | head
  · apply dollarQuoted_of_head
    intro head
    obtain ⟨body, starts⟩ := List.head?_eq_some_iff.mp head
    rw [same] at starts
    simp only [SqlLexer.afterOpening, starts] at unopened
    cases unopened
  · exact dollarQuoted_of_head head

theorem dollarTag_of_plain (tables : WordTables t)
    (plain : plainTag t (SqlLexer.tagOf text) = true) : dollarTag t text = SqlLexer.tagOf text := by
  cases text with
  | nil => rfl
  | cons c rest =>
    by_cases start : SqlLexer.isIdentStart c = true
    · rw [SqlLexer.tagOf, if_pos start] at plain ⊢
      simp only [plainTag, Bool.and_eq_true, Bool.or_eq_true, decide_eq_true_eq,
        List.all_eq_true] at plain
      obtain ⟨letter, words⟩ := plain
      have stops : (rest.dropWhile SqlLexer.isTagCont).takeWhile t.isWord = [] := by
        cases left : rest.dropWhile SqlLexer.isTagCont with
        | nil => rfl
        | cons d more =>
          have stopped := List.head_dropWhile_not SqlLexer.isTagCont (l := rest)
            (by rw [left]; exact List.cons_ne_nil d more)
          simp only [left, List.head_cons] at stopped
          apply List.takeWhile_cons_of_neg
          intro word
          rw [isTagCont_of_isWord tables word] at stopped
          cases stopped
      have same : rest.takeWhile t.isWord = rest.takeWhile SqlLexer.isTagCont := by
        conv_lhs => rw [← @List.takeWhile_append_dropWhile _ SqlLexer.isTagCont rest]
        rw [List.takeWhile_append_of_pos words, stops, List.append_nil]
      rw [dollarTag, if_pos letter, same]
    · have letter : ¬ (c.isAlpha = true ∨ c = '_') := fun h => start (isIdentStart_of_letter h)
      rw [SqlLexer.tagOf, if_neg start, dollarTag, if_neg letter]

theorem breakAt_of_closeFence (closed : SqlLexer.closeFence fence text = some after) :
    ∃ body, breakAt fence text = some (body, after) := by
  induction text with
  | nil => cases closed
  | cons c rest ih =>
    rw [SqlLexer.closeFence] at closed
    rw [breakAt]
    split_ifs at closed ⊢ with here
    · exact ⟨[], by rw [Option.some.inj closed]⟩
    · obtain ⟨body, found⟩ := ih closed
      exact ⟨c :: body, by rw [found]; rfl⟩

/-- A dollar quote that PostgreSQL reads is read to the same end where its tag is plain. -/
theorem dollarQuoted_of_plain (tables : WordTables t)
    (plain : plainTag t (SqlLexer.tagOf text) = true)
    (opens : SqlLexer.afterOpening text = some (fence, body))
    (closed : SqlLexer.closeFence fence body = some after) :
    ∃ inner, dollarQuoted t text = some (inner, after) := by
  rw [SqlLexer.afterOpening] at opens
  split at opens
  · rename_i more starts
    obtain ⟨rfl, rfl⟩ := Prod.mk.inj (Option.some.inj opens)
    obtain ⟨inner, found⟩ := breakAt_of_closeFence closed
    refine ⟨inner, ?_⟩
    simp only [dollarQuoted, dollarTag_of_plain tables plain, starts]
    exact found
  · cases opens

/-- A literal that is read alike is one token, which hides its parentheses. -/
theorem matched_literal (tables : WordTables t)
    (found : SqlLexer.elementAt c rest = some (.literal, after))
    (alike : literalAlike t inWord (c :: rest) after = true) :
    SqlLexer.matched depth (parens t (resume inWord (c :: rest))) =
      SqlLexer.matched depth (parens t after) := by
  rw [SqlLexer.elementAt] at found
  rw [literalAlike] at alike
  by_cases quote : c = '\'' ∨ c = '"'
  · rw [if_pos quote] at found
    exact matched_quoted quote (SqlLexer.of_map_literal found)
  rw [if_neg quote] at found alike
  by_cases dollar : c = '$'
  · subst dollar
    rw [if_pos rfl, Bool.and_eq_true, Bool.not_eq_true'] at alike
    obtain ⟨rfl, plain⟩ := alike
    rw [if_neg (by simp), if_neg (by decide), if_pos rfl] at found
    cases opens : SqlLexer.afterOpening rest with
    | none =>
      rw [opens] at found
      cases found
    | some parts =>
      rw [opens] at found
      have closed := SqlLexer.of_map_literal found
      obtain ⟨inner, quoted⟩ := dollarQuoted_of_plain tables plain opens closed
      have next : nextToken t ('$' :: rest) = some (⟨.string, inner⟩, after) := by
        rw [nextToken_solid rfl, tokenAt, if_neg (by decide), if_neg (by decide),
          if_neg (by decide), if_pos rfl, quoted]
      exact matched_parens (fun h => by cases h) next
  rw [if_neg dollar, decide_eq_true_eq] at alike
  by_cases escape : (c = 'e' ∨ c = 'E') ∧ rest.head? = some '\''
  · obtain ⟨tail, rfl⟩ := List.head?_eq_some_iff.mp escape.2
    have bare : isBare c = true := by
      rcases escape.1 with rfl | rfl <;> rfl
    rw [matched_bare bare fun h => absurd h dollar]
    exact matched_quoted (Or.inl rfl) alike
  · rw [if_neg escape] at found
    split_ifs at found <;> simp at found

end Literals

/-! ## Everything else -/

section Elements

variable {t : TextTables} {inWord : Bool} {text piece after : Text} {depth : Nat}
  {element : Element}

theorem matched_mild (tables : WordTables t) (calm : mild after inWord piece = true)
    (closed : SqlLexer.matched depth (piece.map parenOf ++
      parens t (resume (piece.foldl (fun _ c => isBare c) inWord) after)) = true) :
    SqlLexer.matched depth (parens t (resume inWord (piece ++ after))) = true := by
  induction piece generalizing inWord depth with
  | nil => exact closed
  | cons c rest ih =>
    simp only [mild, Bool.and_eq_true, Bool.or_eq_true, decide_eq_true_eq,
      Option.isNone_iff_eq_none] at calm
    obtain ⟨⟨⟨single, double⟩, dollar⟩, calm⟩ := calm
    have unopened : c = '$' → inWord = true ∨ dollarQuoted t (rest ++ after) = none := by
      intro same
      rcases dollar with (other | word) | fence
      · exact absurd same other
      · exact Or.inl word
      · exact Or.inr (dollarQuoted_of_unopened tables fence)
    rw [List.cons_append, matched_char single double unopened]
    exact SqlLexer.matched_cons_of_imp (fun depth later => ih calm later) _ closed

theorem matched_unpunctuated (opening : '(' ∉ text) (closing : ')' ∉ text) :
    SqlLexer.matched 0 (text.map parenOf) = true := by
  induction text with
  | nil => rfl
  | cons c rest ih =>
    rw [List.mem_cons, not_or] at opening closing
    have other : parenOf c = .other := by
      rw [parenOf, if_neg (Ne.symm opening.1), if_neg (Ne.symm closing.1)]
    rw [List.map_cons, other, SqlLexer.matched_skip (by decide) (by decide)]
    exact ih opening.2 closing.2

/-- A text that closes what it opens leaves the depth as it is. -/
theorem matched_piece (tables : WordTables t) (calm : mild after inWord piece = true)
    (alone : SqlLexer.matched 0 (piece.map parenOf) = true)
    (closed : SqlLexer.matched depth
      (parens t (resume (piece.foldl (fun _ c => isBare c) inWord) after)) = true) :
    SqlLexer.matched depth (parens t (resume inWord (piece ++ after))) = true := by
  apply matched_mild tables calm
  have behind := SqlLexer.matched_append alone depth
    (parens t (resume (piece.foldl (fun _ c => isBare c) inWord) after))
  rwa [Nat.zero_add, closed] at behind

/-- What an element does to the depth, it does in the tokenizer's reading of it. -/
theorem matched_element (tables : WordTables t)
    (found : SqlLexer.nextElement text = some (element, after))
    (alike : elementAlike t inWord text (element, after) = true)
    (closed : SqlLexer.matched depth (element ::
      parens t (resume (endsInWord inWord text (element, after)) after)) = true) :
    SqlLexer.matched depth (parens t (resume inWord text)) = true := by
  cases text with
  | nil => cases found
  | cons c rest =>
    by_cases literal : element = .literal
    · subst literal
      rw [matched_literal tables found alike]
      rwa [SqlLexer.matched_skip (by decide) (by decide)] at closed
    obtain ⟨piece, split, made⟩ := SqlLexer.piece_of_elementAt found literal
    have front : taken (c :: rest) after = piece := taken_of_split split
    rw [split]
    cases element with
    | literal => exact absurd rfl literal
    | lineComment | blockComment =>
      simp only [elementAlike, endsInWord, front, Bool.and_eq_true] at alike closed
      rw [SqlLexer.matched_skip (by decide) (by decide)] at closed
      exact matched_piece tables alike.1 alike.2 closed
    | opening | closing =>
      obtain rfl := made
      simp only [elementAlike, endsInWord, front] at alike closed
      exact matched_mild tables alike closed
    | other =>
      simp only [elementAlike, endsInWord, front] at alike closed
      rw [SqlLexer.matched_skip (by decide) (by decide)] at closed
      exact matched_piece tables alike (matched_unpunctuated made.1 made.2) closed

/-- Along the whole text: where the parentheses of its elements match, those match that the
tokenizer sees. -/
theorem matched_parens_of_elements (tables : WordTables t)
    (complete : (SqlLexer.lexer.scan text).2 = [])
    (alike : alikeFrom t inWord text (SqlLexer.lexer.scan text).1 = true)
    (closed : SqlLexer.matched depth (SqlLexer.elements text) = true) :
    SqlLexer.matched depth (parens t (resume inWord text)) = true := by
  induction text using Scanner.scan_induction (s := SqlLexer.lexer) generalizing inWord depth with
  | stuck text none =>
    rw [SqlLexer.elements, Scanner.scan_of_next_none none] at closed
    rw [Scanner.scan_of_next_none none] at complete
    obtain rfl : text = [] := complete
    cases inWord <;> exact closed
  | step text element after found ih =>
    rw [Scanner.scan_of_next_some found] at complete alike
    rw [SqlLexer.elements, Scanner.scan_of_next_some found, List.map_cons] at closed
    rw [alikeFrom, Bool.and_eq_true] at alike
    apply matched_element tables found alike.1
    exact SqlLexer.matched_cons_of_imp (fun depth later => ih complete alike.2 later) _ closed

theorem matched_parens_of_readsAlike (tables : WordTables t)
    (balanced : SqlLexer.balanced text = true) (alike : readsAlike t text = true) :
    SqlLexer.matched 0 (parens t text) = true := by
  rw [SqlLexer.balanced, Bool.and_eq_true, SqlLexer.lexes, List.isEmpty_iff] at balanced
  have shut : SqlLexer.matched 0 (parens t (resume false text)) = true :=
    matched_parens_of_elements tables balanced.1 alike balanced.2
  exact shut

end Elements

end PgMimic.Endpoint

import PgMimic.PreparedNames

/-!
# The arguments of EXECUTE

An argument is read back from the texts of its tokens, which for a literal is what stands
between its quotes. What `_argument_value` makes of them is the argument's own value unless
a string looks like something else, or a number has a sign.
-/

namespace PgMimic.Protocols

open PgMimic.Copy (Text)
open PgMimic.Endpoint (TextTables literal)
open PgMimic.StatementText
open PgMimic.Patterns

/-- An argument as it is written: NULL in any case, a number, or a string. -/
inductive Argument where
  | null (word : Text) (reads : word.map Char.toUpper = "NULL".toList)
  | number (negative : Bool) (whole : Text) (fraction : Option Text) (some_ : whole ≠ [])
      (digits : ∀ c ∈ whole ++ fraction.getD [], c.isDigit = true)
  | string (s : Text)

namespace Argument

/-- A number without its sign. -/
def magnitude (whole : Text) (fraction : Option Text) : Text :=
  match fraction with
  | none => whole
  | some digits => whole ++ '.' :: digits

def spelling : Argument → Text
  | null word _ => word
  | number negative whole fraction _ _ =>
    if negative then '-' :: magnitude whole fraction else magnitude whole fraction
  | string s => literal s

/-- What it stands for: NULL, the text of the number, or the string. -/
def value : Argument → Option Text
  | null _ _ => none
  | number negative whole fraction _ _ =>
    some (if negative then '-' :: magnitude whole fraction else magnitude whole fraction)
  | string s => some s

/-- The tokens of one argument. A minus sign is a token of its own, and the text of a
literal's is its content. -/
def tokens : Argument → List ArgumentToken
  | null word _ => [.word word]
  | number negative whole fraction _ _ =>
    if negative then [.word ['-'], .word (magnitude whole fraction)]
    else [.word (magnitude whole fraction)]
  | string s => [.word s]

/-- No number with a sign; no string with white space at an end, and none that reads NULL. -/
def Exact (t : TextTables) : Argument → Prop
  | null _ _ => True
  | number negative _ _ _ _ => negative = false
  | string s => Trim.Solid isSpace s ∧ t.upper s ≠ "NULL".toList

end Argument

/-- Arguments between commas, with white space around them. -/
inductive ArgumentList : List Argument → Text → Prop where
  | none {gap : Text} (blank : ∀ c ∈ gap, isSpace c = true) : ArgumentList [] gap
  | one {before after : Text} (a : Argument) (blank : ∀ c ∈ before, isSpace c = true)
      (blank' : ∀ c ∈ after, isSpace c = true) :
      ArgumentList [a] (before ++ (a.spelling ++ after))
  | cons {before after rest : Text} {b : Argument} {args : List Argument} (a : Argument)
      (blank : ∀ c ∈ before, isSpace c = true) (blank' : ∀ c ∈ after, isSpace c = true)
      (later : ArgumentList (b :: args) rest) :
      ArgumentList (a :: b :: args) (before ++ (a.spelling ++ (after ++ ',' :: rest)))

/-- The tokens of a list, with a comma between one argument's and the next one's. -/
def listTokens (args : List Argument) : List ArgumentToken :=
  [ArgumentToken.comma].intercalate (args.map Argument.tokens)

section Values

variable {t : TextTables}

theorem argumentValue_word {text : Text} : argumentValue t [.word text] =
    if t.upper (Endpoint.strip text) = "NULL".toList then none else some (Endpoint.strip text) := by
  rw [argumentValue]
  simp only [List.map_cons, List.map_nil, List.intercalate_singleton]
  rfl

/-- The text of a number has neither white space nor a letter. -/
theorem magnitude_plain {whole : Text} {fraction : Option Text}
    (digits : ∀ c ∈ whole ++ fraction.getD [], c.isDigit = true) :
    ∀ c ∈ Argument.magnitude whole fraction, 46 ≤ c.toNat ∧ c.toNat ≤ 57 := by
  intro c member
  have range : c.isDigit = true → 46 ≤ c.toNat ∧ c.toNat ≤ 57 := by
    intro digit
    have := isDigit_range digit
    omega
  cases fraction with
  | none =>
    change c ∈ whole at member
    exact range (digits c (List.mem_append_left _ member))
  | some more =>
    simp only [Argument.magnitude, List.mem_append, List.mem_cons] at member
    rcases member with inside | rfl | inside
    · exact range (digits c (by simp [inside]))
    · decide
    · exact range (digits c (by simp [inside]))

theorem magnitude_ne_nil {whole : Text} (fraction : Option Text) (some_ : whole ≠ []) :
    Argument.magnitude whole fraction ≠ [] := by
  cases fraction with
  | none => exact some_
  | some digits => simp [Argument.magnitude]

/-- Text without letters does not read NULL. -/
theorem upper_ne_null {text : Text} (some_ : text ≠ [])
    (plain : ∀ c ∈ text, 32 ≤ c.toNat ∧ c.toNat ≤ 57) : t.upper text ≠ "NULL".toList := by
  intro same
  rw [t.upper_ascii text fun c member => by have := (plain c member).2; omega] at same
  obtain ⟨c, rest, rfl⟩ := List.exists_cons_of_ne_nil some_
  have range := plain c (by simp)
  have first : c.toUpper = 'N' := (List.cons.inj same).1
  rw [toUpper_eq_self (by omega)] at first
  rw [first] at range
  exact absurd range.2 (by decide)

theorem null_plain :
    "NULL".toList.all (fun c => decide (c.toNat < 128) && !isSpace c) = true := by decide

/-- The letters of the word NULL, in either case. -/
theorem null_letter {c : Char} (letter : c.toUpper ∈ "NULL".toList) :
    c.toNat < 128 ∧ isSpace c = false := by
  by_cases lower : 97 ≤ c.toNat ∧ c.toNat ≤ 122
  · exact ⟨by omega, isSpace_of_printed (by omega)⟩
  · rw [toUpper_eq_self lower] at letter
    have every := List.all_eq_true.mp null_plain c letter
    simpa using every

theorem strip_plain {text : Text} (plain : ∀ c ∈ text, isSpace c = false) :
    Endpoint.strip text = text :=
  Trim.trim_eq_self_iff.mpr ⟨fun c member => plain c (List.mem_of_mem_head? member),
    fun c member => plain c (List.mem_of_getLast? member)⟩

theorem isSpace_of_magnitude {c : Char} (range : 46 ≤ c.toNat ∧ c.toNat ≤ 57) :
    isSpace c = false :=
  isSpace_of_printed (by omega)

theorem argumentValue_minus {text : Text} (some_ : text ≠ [])
    (plain : ∀ c ∈ text, 46 ≤ c.toNat ∧ c.toNat ≤ 57) :
    argumentValue t [.word ['-'], .word text] = some ('-' :: ' ' :: text) := by
  have joined : [' '].intercalate
      ([ArgumentToken.word ['-'], .word text].map ArgumentToken.content) = '-' :: ' ' :: text := by
    simp [ArgumentToken.content, List.intercalate_cons_cons]
  have solid : Trim.Solid isSpace ('-' :: ' ' :: text) := by
    refine ⟨fun c member => ?_, fun c member => ?_⟩
    · obtain rfl := Option.some.inj member
      rfl
    · rw [show '-' :: ' ' :: text = ['-', ' '] ++ text from rfl,
        List.getLast?_append_of_ne_nil _ some_] at member
      exact isSpace_of_magnitude (plain c (List.mem_of_getLast? member))
  have range : ∀ c ∈ '-' :: ' ' :: text, 32 ≤ c.toNat ∧ c.toNat ≤ 57 := by
    intro c member
    rcases List.mem_cons.mp member with rfl | member
    · decide
    · rcases List.mem_cons.mp member with rfl | member
      · decide
      · have := plain c member
        omega
  have stripped : Endpoint.strip ('-' :: ' ' :: text) = '-' :: ' ' :: text :=
    Trim.trim_eq_self_iff.mpr solid
  rw [argumentValue, joined, stripped, if_neg (upper_ne_null (by simp) range)]

/-- One argument, from its own tokens. -/
theorem argumentValue_iff (a : Argument) :
    argumentValue t a.tokens = a.value ↔ a.Exact t := by
  cases a with
  | null word reads =>
    have letters : ∀ c ∈ word, c.toNat < 128 ∧ isSpace c = false := by
      intro c member
      have inside : c.toUpper ∈ "NULL".toList := by
        rw [← reads]
        exact List.mem_map_of_mem member
      exact null_letter inside
    refine iff_of_true ?_ trivial
    change argumentValue t [.word word] = none
    rw [argumentValue_word, strip_plain fun c member => (letters c member).2,
      t.upper_ascii word fun c member => (letters c member).1, if_pos reads]
  | number negative whole fraction some_ digits =>
    have range := magnitude_plain digits
    have nonempty := magnitude_ne_nil fraction some_
    cases negative with
    | true =>
      refine iff_of_false ?_ (by simp [Argument.Exact])
      change argumentValue t [.word ['-'], .word (Argument.magnitude whole fraction)] ≠
        some ('-' :: Argument.magnitude whole fraction)
      rw [argumentValue_minus nonempty range]
      intro same
      have shorter := congrArg List.length (Option.some.inj same)
      simp at shorter
    | false =>
      refine iff_of_true ?_ rfl
      change argumentValue t [.word (Argument.magnitude whole fraction)] =
        some (Argument.magnitude whole fraction)
      rw [argumentValue_word, strip_plain fun c member => isSpace_of_magnitude (range c member),
        if_neg (upper_ne_null nonempty fun c member => by have := range c member; omega)]
  | string s =>
    change argumentValue t [.word s] = some s ↔ Trim.Solid isSpace s ∧ t.upper s ≠ "NULL".toList
    rw [argumentValue_word]
    constructor
    · intro same
      split at same
      · cases same
      · next other =>
        have kept : Endpoint.strip s = s := Option.some.inj same
        rw [kept] at other
        exact ⟨Trim.trim_eq_self_iff.mp kept, other⟩
    · rintro ⟨solid, other⟩
      have kept : Endpoint.strip s = s := Trim.trim_eq_self_iff.mpr solid
      rw [kept, if_neg other]

end Values

section Lists

variable {t : TextTables} {args : List Argument} {text : Text}

theorem tokens_apart (a : Argument) :
    ∀ token ∈ a.tokens, decide (token = ArgumentToken.comma) = false := by
  cases a with
  | null word reads => simp [Argument.tokens]
  | number negative whole fraction some_ digits => cases negative <;> simp [Argument.tokens]
  | string s => simp [Argument.tokens]

/-- The commas between the arguments are the ones the list is split on. -/
theorem splitOnP_listTokens (some_ : args ≠ []) :
    (listTokens args).splitOnP (fun token => decide (token = .comma)) =
      args.map Argument.tokens := by
  induction args with
  | nil => exact absurd rfl some_
  | cons a args ih =>
    cases args with
    | nil =>
      rw [listTokens, List.map_singleton, List.intercalate_singleton]
      exact List.splitOnP_eq_singleton (tokens_apart a)
    | cons b args =>
      have split : listTokens (a :: b :: args) = a.tokens ++ .comma :: listTokens (b :: args) := by
        rw [listTokens, List.map_cons, List.map_cons, List.intercalate_cons_cons]
        simp [listTokens]
      rw [split, List.splitOnP_append_cons_of_forall_mem (tokens_apart a) _ rfl, ih (by simp)]
      rfl

/-- A list of some arguments is not blank. -/
theorem strip_list (listed : ArgumentList args text) : Endpoint.strip text = [] ↔ args = [] := by
  have visible : ∀ a : Argument, ∃ c ∈ a.spelling, isSpace c = false := by
    intro a
    cases a with
    | null word reads =>
      cases word with
      | nil => cases reads
      | cons c word =>
        have first : c.toUpper ∈ "NULL".toList := by
          rw [← reads]
          simp
        exact ⟨c, by simp [Argument.spelling], (null_letter first).2⟩
    | number negative whole fraction some_ digits =>
      obtain ⟨c, rest, split⟩ := List.exists_cons_of_ne_nil (magnitude_ne_nil fraction some_)
      have inside : c ∈ Argument.magnitude whole fraction := by
        rw [split]
        exact List.mem_cons_self
      refine ⟨c, ?_, isSpace_of_magnitude (magnitude_plain digits c inside)⟩
      cases negative <;> simp [Argument.spelling, inside]
    | string s => exact ⟨'\'', List.mem_cons_self, rfl⟩
  have some_ : ∀ (a : Argument) (before rest : Text),
      ¬Trim.Blank isSpace (before ++ (a.spelling ++ rest)) := by
    intro a before rest blank
    obtain ⟨c, member, solid⟩ := visible a
    have space := blank c (by simp [member])
    rw [solid] at space
    cases space
  rw [show Endpoint.strip text = Trim.trim isSpace text from rfl, Trim.trim_eq_nil_iff]
  cases listed with
  | none blank => exact iff_of_true blank rfl
  | one a _ _ => exact iff_of_false (some_ a _ _) (by simp)
  | cons a _ _ _ => exact iff_of_false (some_ a _ _) (by simp)

/-- A list is bound as it is written if and only if each argument is. -/
theorem splitArguments_iff {tokenize : Text → Option (List ArgumentToken)}
    (listed : ArgumentList args text) (tokenized : tokenize text = some (listTokens args)) :
    splitArguments t tokenize text = .ok (args.map Argument.value) ↔ ∀ a ∈ args, a.Exact t := by
  by_cases none_ : args = []
  · rw [splitArguments, if_pos ((strip_list listed).mpr none_), none_]
    simp
  · rw [splitArguments, if_neg fun blank => none_ ((strip_list listed).mp blank), tokenized]
    simp only [splitOnP_listTokens none_, Except.ok.injEq, List.map_map]
    rw [List.map_inj_left]
    simp only [Function.comp_apply, argumentValue_iff]

end Lists

/-! ## The statement -/

/-- `EXECUTE name (arguments) [;]`. -/
inductive ExecuteListSpelling {t : TextTables} (id : Identifier t) (arguments : Text) :
    Text → Prop where
  | intro {execute gap closing : Text} (execute_ : Keyword "EXECUTE" execute)
      (blank : ∀ c ∈ gap, isSpace c = true) (closing_ : Closing closing) :
      ExecuteListSpelling id arguments
        (execute ++ (id.spelling ++ (gap ++ '(' :: (arguments ++ ')' :: closing))))

section Statement

variable {t : TextTables} {id : Identifier t} {arguments closing sql : Text}

theorem closing_unclosed (closed : Closing closing) : ')' ∉ closing := by
  intro member
  cases closed with
  | nothing => cases member
  | semicolon blank =>
    rcases List.mem_append.mp member with inside | inside
    · exact absurd (blank _ inside) (by decide)
    · exact absurd (List.mem_singleton.mp inside) (by decide)

/-- The parenthesis that closes the list is the last one. -/
theorem find_closing (closed : Closing closing) :
    ((List.range (arguments ++ ')' :: closing).length).reverse.find? fun n =>
      decide ((arguments ++ ')' :: closing)[n]? = some ')') &&
        ends ((arguments ++ ')' :: closing).drop (n + 1))) = some arguments.length := by
  have length : (arguments ++ ')' :: closing).length = (arguments.length + 1) + closing.length := by
    simp only [List.length_append, List.length_cons]
    omega
  rw [length, List.range_add, List.reverse_append, List.find?_append]
  have later : ((List.range closing.length).map (arguments.length + 1 + ·)).reverse.find? (fun n =>
      decide ((arguments ++ ')' :: closing)[n]? = some ')') &&
        ends ((arguments ++ ')' :: closing).drop (n + 1))) = none := by
    rw [List.find?_eq_none]
    intro n member
    obtain ⟨k, _, rfl⟩ := List.mem_map.mp (List.mem_reverse.mp member)
    have inside : (arguments ++ ')' :: closing)[arguments.length + 1 + k]? = closing[k]? := by
      rw [List.getElem?_append_right (by omega),
        show arguments.length + 1 + k - arguments.length = k + 1 by omega]
      rfl
    rw [inside]
    intro both
    have found := (Bool.and_eq_true_iff.mp both).1
    exact closing_unclosed closed (List.mem_of_getElem? (of_decide_eq_true found))
  rw [later, Option.none_or, List.range_succ, List.reverse_append, List.reverse_singleton,
    List.singleton_append, List.find?_cons_of_pos]
  have here : (arguments ++ ')' :: closing)[arguments.length]? = some ')' := by
    rw [List.getElem?_append_right (Nat.le_refl _), Nat.sub_self]
    rfl
  have rest : (arguments ++ ')' :: closing).drop (arguments.length + 1) = closing := by
    rw [← List.drop_drop, List.drop_left' rfl]
    rfl
  rw [here, rest, ends_closing closed]
  rfl

theorem readExecute_list (tables : WordTables t) (plain : id.Plain)
    (spelled : ExecuteListSpelling id arguments sql) :
    readExecute t sql = some (id.spelling, arguments) := by
  cases spelled with
  | @intro execute gap closing execute_ blank closing_ =>
    have stops : ∀ c ∈ (gap ++ '(' :: (arguments ++ ')' :: closing)).head?, t.isWord c = false := by
      intro c member
      cases gap with
      | nil =>
        obtain rfl := Option.some.inj member
        exact tables.ascii '(' (by decide)
      | cons a gap =>
        obtain rfl := Option.some.inj member
        exact tables.space _ (blank _ (by simp))
    have opened : (gap ++ '(' :: (arguments ++ ')' :: closing)).dropWhile isSpace =
        '(' :: (arguments ++ ')' :: closing) := by
      rw [List.dropWhile_append_of_pos blank]
      exact List.dropWhile_cons_of_neg (by decide)
    rw [readExecute, skip_keyword execute_ ⟨_, _, rfl, rfl⟩,
      execute_.spaced (begun_spelling tables id _), Option.bind_some,
      ident_plain tables id plain stops, Option.bind_some]
    simp only [opened, find_closing closing_, Option.map_some, List.take_left' rfl]

/-- EXECUTE binds the values its text spells if and only if no number has a sign, and no
string has white space at an end or reads NULL. -/
theorem execute_binds_iff {Value Cell : Type} {links : Links Value Cell} (tables : WordTables t)
    (plain : id.Plain) (w : Stored Value Cell) {d : Registry Value Cell}
    {prepared : Prepared Value Cell} (held : d.get? (identifier t id.spelling) = some prepared)
    {args : List Argument} (listed : ArgumentList args arguments)
    (tokenized : links.tokenize arguments = some (listTokens args))
    (spelled : ExecuteListSpelling id arguments sql) :
    executeText t links w d sql = some (.ok (.execution prepared (args.map Argument.value))) ↔
      ∀ a ∈ args, a.Exact t := by
  rw [← splitArguments_iff listed tokenized, executeText, readExecute_list tables plain spelled]
  change some (executeStatement t links (w.withState { w.state with statements := d }) id.spelling
    arguments) = _ ↔ _
  rw [executeStatement, World.state_withState]
  simp only [held]
  cases splitArguments t links.tokenize arguments with
  | error failure => simp [Except.map]
  | ok values => simp [Except.map]

end Statement

/-! ## Two lists -/

/-- A tokenizer that has been given one list. -/
def tokenizing (args : List Argument) : Links String Unit :=
  { noLinks with tokenize := fun _ => some (listTokens args) }

def shortName : Identifier Endpoint.asciiTables :=
  .unquoted ['p'] (by decide) (by simp [Endpoint.asciiTables])

def registered : Registry String Unit := (∅ : Registry String Unit).set "p" (.callback [] [])

theorem executeListSpelling (arguments : Text) : ExecuteListSpelling shortName arguments
    ("EXECUTE ".toList ++ (shortName.spelling ++ ([' '] ++ '(' :: (arguments ++ ')' :: [])))) := by
  have execute : Keyword "EXECUTE" "EXECUTE ".toList :=
    ⟨"EXECUTE".toList, [' '], rfl, ⟨by simp, by simp [isSpace]⟩, rfl⟩
  exact .intro execute (by simp [isSpace]) .nothing

/-- Two arguments, a comma and a space between them. -/
theorem argumentPair (a b : Argument) :
    ArgumentList [a, b] ([] ++ (a.spelling ++ ([] ++ ',' :: ([' '] ++ (b.spelling ++ []))))) :=
  .cons a (by simp) (by simp) (.one b (by simp [isSpace]) (by simp))

def minusFive : Argument := .number true ['5'] none (by decide) (by simp)

/-- `'null'` is bound as NULL, and `-5` as `- 5`. -/
theorem sign_and_null_unequal :
    ArgumentList [.string "null".toList, minusFive] "'null', -5".toList ∧
    ExecuteListSpelling shortName "'null', -5".toList "EXECUTE p ('null', -5)".toList ∧
    executeText Endpoint.asciiTables (tokenizing [.string "null".toList, minusFive]) connected
        registered "EXECUTE p ('null', -5)".toList =
      some (.ok (.execution (.callback [] []) [none, some "- 5".toList])) ∧
    [none, some "- 5".toList] ≠ [.string "null".toList, minusFive].map Argument.value :=
  ⟨argumentPair _ _, executeListSpelling "'null', -5".toList, rfl, by decide⟩

theorem apostrophe_and_null_bound :
    executeText Endpoint.asciiTables
        (tokenizing [.string "it's".toList, .null "null".toList rfl]) connected registered
        "EXECUTE p ('it''s', null)".toList =
      some (.ok (.execution (.callback [] []) [some "it's".toList, none])) := by
  have solid : Trim.Solid isSpace "it's".toList := Trim.trim_eq_self_iff.mp (by decide)
  have other : Endpoint.asciiTables.upper "it's".toList ≠ "NULL".toList := by decide
  have plain : shortName.Plain := by
    change '$' ∉ ['p']
    decide
  have listed : ArgumentList [.string "it's".toList, .null "null".toList rfl]
      "'it''s', null".toList := argumentPair _ _
  refine (execute_binds_iff wordTables_ascii plain connected rfl listed rfl
    (executeListSpelling "'it''s', null".toList)).mpr ?_
  intro a member
  rcases List.mem_cons.mp member with rfl | member
  · exact ⟨solid, other⟩
  · rw [List.mem_singleton.mp member]
    trivial

end PgMimic.Protocols

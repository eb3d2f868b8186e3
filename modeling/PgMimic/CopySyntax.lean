import PgMimic.CopyResolution
import PgMimic.CopySpelling

/-!
# The two syntaxes of the option list

A client writes the options as a parenthesised list or one after another, in any order and
with or without the noise words. `_option_items` reads the same items off either, and what
the items ask for does not depend on where they stand.
-/

namespace PgMimic.Endpoint

open Outcomes (bind_ok foldlM_total)
open Overlay (latest mem_of_latest unwritten_of_latest)
open PgMimic.Copy (Text CopyOptions Format)

/-- Tables that also lower ASCII as Python does. -/
structure CaseTables extends TextTables where
  lower_ascii : ∀ word, (∀ c ∈ word, c.toNat < 128) → lower word = word.map Char.toLower

/-! ## What a client writes -/

/-- The word in letters of either case. -/
def Keyword (name : String) (word : Text) : Prop :=
  (∀ c ∈ word, c.toNat < 128) ∧ word.map Char.toUpper = name.toList

/-- The word, or nothing. -/
def Noise (name : String) (tokens : List Token) : Prop :=
  tokens = [] ∨ ∃ word, Keyword name word ∧ tokens = [.word word]

/-- One option as it is written: the item, and its tokens. -/
inductive Clause : Item → List Token → Prop where
  | text {name : String} {keyword value : Text} {noise : List Token} (named : name ∈ asNoiseOptions)
      (key : Keyword name keyword) (as : Noise "AS" noise) :
      Clause (name, .text value) (.word keyword :: (noise ++ [⟨.string, value⟩]))
  | format {keyword : Text} {value : Token} (key : Keyword "FORMAT" keyword)
      (named : value.kind ≠ .punct) : Clause ("FORMAT", .text value.value) [.word keyword, value]
  | csv {keyword : Text} (key : Keyword "CSV" keyword) : Clause ("CSV", .flag true) [.word keyword]
  | header {keyword : Text} (key : Keyword "HEADER" keyword) :
      Clause ("HEADER", .flag true) [.word keyword]
  | headerValue {keyword word : Text} {name : String} {value : Bool}
      (key : Keyword "HEADER" keyword) (named : (name, value) ∈ booleanWords)
      (key' : Keyword name word) : Clause ("HEADER", .flag value) [.word keyword, .word word]

/-- What stands behind the opening parenthesis. -/
def listed : List (List Token) → List Token
  | [] => [.punct ')']
  | [piece] => piece ++ [.punct ')']
  | piece :: next :: more => piece ++ .punct ',' :: listed (next :: more)

/-- The options in either syntax. -/
inductive OptionList : List Item → List Token → Prop where
  | parenthesised {items : List Item} {pieces : List (List Token)} {noise : List Token}
      (maybe : Noise "WITH" noise) (each : List.Forall₂ Clause items pieces) :
      OptionList items (noise ++ .punct '(' :: listed pieces)
  | legacy {items : List Item} {pieces : List (List Token)} {noise : List Token}
      (maybe : Noise "WITH" noise) (each : List.Forall₂ Clause items pieces) :
      OptionList items (noise ++ pieces.flatten)

/-- The item asks for what the options have. -/
inductive Fits (o : CopyOptions) : Item → Prop where
  | format {value : Text} (ascii : ∀ c ∈ value, c.toNat < 128)
      (named : value.map Char.toLower = formatName (o.format = .csv)) : Fits o ("FORMAT", .text value)
  | csv (is : o.format = .csv) : Fits o ("CSV", .flag true)
  | delimiter : Fits o ("DELIMITER", .text [o.delimiter])
  | null : Fits o ("NULL", .text o.nullString)
  | header : Fits o ("HEADER", .flag o.header)
  | quote (is : o.format = .csv) : Fits o ("QUOTE", .text [o.quote])
  | escape (is : o.format = .csv) : Fits o ("ESCAPE", .text [o.escape])

/-- The items ask for the options: each for what they have, and what none names is the
default of the format. -/
structure Asks (o : CopyOptions) (items : List Item) : Prop where
  fits : ∀ item ∈ items, Fits o item
  format : "FORMAT" ∉ items.map Prod.fst → "CSV" ∉ items.map Prod.fst → o.format = .text
  delimiter : "DELIMITER" ∉ items.map Prod.fst →
    o.delimiter = if o.format = .csv then ',' else '\t'
  nullString : "NULL" ∉ items.map Prod.fst →
    o.nullString = if o.format = .csv then [] else ['\\', 'N']
  header : "HEADER" ∉ items.map Prod.fst → o.header = false
  quote : "QUOTE" ∉ items.map Prod.fst → o.quote = '"'
  escape : "ESCAPE" ∉ items.map Prod.fst → o.escape = o.quote

/-- What is asked for does not depend on the order. -/
theorem Asks.perm {o : CopyOptions} {items items' : List Item} (asks : Asks o items)
    (perm : items.Perm items') : Asks o items' := by
  have names : ∀ {name : String}, name ∉ items'.map Prod.fst → name ∉ items.map Prod.fst :=
    fun absent inside => absent ((perm.map Prod.fst).mem_iff.mp inside)
  exact ⟨fun item inside => asks.fits item (perm.mem_iff.mpr inside),
    fun format csv => asks.format (names format) (names csv),
    fun absent => asks.delimiter (names absent), fun absent => asks.nullString (names absent),
    fun absent => asks.header (names absent), fun absent => asks.quote (names absent),
    fun absent => asks.escape (names absent)⟩

theorem formatName_lower (csv : Bool) : (∀ c ∈ formatName csv, c.toNat < 128) ∧
    (formatName csv).map Char.toLower = formatName csv := by
  cases csv with
  | false => exact ⟨by simp [formatName], by decide⟩
  | true => exact ⟨by simp [formatName], by decide⟩

/-- Every option by its name. -/
def allOptions (o : CopyOptions) : List Item :=
  [("FORMAT", .text (formatName (o.format = .csv))), ("DELIMITER", .text [o.delimiter]),
    ("NULL", .text o.nullString), ("HEADER", .flag o.header)] ++
    if o.format = .csv then [("QUOTE", .text [o.quote]), ("ESCAPE", .text [o.escape])] else []

/-- All options can be asked for, as long as quote and escape are those of CSV alone. -/
theorem asks_allOptions {o : CopyOptions}
    (text : o.format = .text → o.quote = '"' ∧ o.escape = '"') :
    Asks o (allOptions o) := by
  obtain ⟨format, delimiter, nullString, header, quote, escape⟩ := o
  cases format with
  | text =>
    obtain ⟨rfl, rfl⟩ : quote = '"' ∧ escape = '"' := text rfl
    constructor
    · intro item inside
      simp only [allOptions, reduceCtorEq, if_false, List.append_nil, List.mem_cons,
        List.not_mem_nil, or_false] at inside
      rcases inside with rfl | rfl | rfl | rfl
      · exact .format (formatName_lower _).1 (formatName_lower _).2
      · exact .delimiter
      · exact .null
      · exact .header
    all_goals simp [allOptions]
  | csv =>
    constructor
    · intro item inside
      simp only [allOptions, if_true, List.cons_append, List.nil_append, List.mem_cons,
        List.not_mem_nil, or_false] at inside
      rcases inside with rfl | rfl | rfl | rfl | rfl | rfl
      · exact .format (formatName_lower _).1 (formatName_lower _).2
      · exact .delimiter
      · exact .null
      · exact .header
      · exact .quote rfl
      · exact .escape rfl
    all_goals simp [allOptions]

/-! ## Reading the items -/

section Reading

variable {t : TextTables} {item : Item} {piece later : List Token}

theorem Keyword.upperName {name : String} {word : Text} (key : Keyword name word) :
    upperName t word = name := by
  rw [Endpoint.upperName, t.upper_ascii word key.1, key.2, String.ofList_toList]

/-- The names a clause can begin with. -/
def clauseNames : List String := ["FORMAT", "CSV", "HEADER", "DELIMITER", "NULL", "QUOTE", "ESCAPE"]

/-- What can stand behind a clause: punctuation, the next clause or nothing. -/
def Follows (t : TextTables) (later : List Token) : Prop :=
  ∀ token ∈ later.head?, token.kind = .word → upperName t token.value ∈ clauseNames

theorem clauseNames_of_asNoise : ∀ name ∈ asNoiseOptions, name ∈ clauseNames := by decide

theorem Clause.keyword (clause : Clause item piece) :
    ∃ keyword rest, piece = .word keyword :: rest ∧ Keyword item.1 keyword ∧
      item.1 ∈ clauseNames := by
  cases clause with
  | text named key => exact ⟨_, _, rfl, key, clauseNames_of_asNoise _ named⟩
  | format key => exact ⟨_, _, rfl, key, by simp [clauseNames]⟩
  | csv key => exact ⟨_, _, rfl, key, by simp [clauseNames]⟩
  | header key => exact ⟨_, _, rfl, key, by simp [clauseNames]⟩
  | headerValue key => exact ⟨_, _, rfl, key, by simp [clauseNames]⟩

theorem Clause.follows (clause : Clause item piece) (later : List Token) :
    Follows t (piece ++ later) := by
  obtain ⟨keyword, rest, rfl, key, named⟩ := clause.keyword
  intro token head _
  obtain rfl := Option.some.inj head
  rw [Token.word, key.upperName]
  exact named

theorem follows_punct (c : Char) (later : List Token) : Follows t (.punct c :: later) := by
  intro token head word
  obtain rfl := Option.some.inj head
  cases word

theorem follows_nil : Follows t [] := by
  intro token head
  cases head

/-- No name of a clause is taken for the value of a flag. -/
theorem readFlagValue_bare (follows : Follows t later) :
    readFlagValue t later = (.flag true, later) := by
  cases later with
  | nil => rfl
  | cons token later =>
    rw [readFlagValue]
    by_cases word : token.kind = .word
    · have named := follows token rfl word
      have other : booleanWords.lookup (upperName t token.value) = none ∧
          upperName t token.value ≠ "MATCH" := by
        revert named
        generalize upperName t token.value = name
        simp only [clauseNames, List.mem_cons, List.not_mem_nil, or_false]
        rintro (rfl | rfl | rfl | rfl | rfl | rfl | rfl)
        all_goals decide
      simp only [other.1, if_neg other.2, word, ne_eq, not_true_eq_false, if_false]
    · rw [if_pos word]

theorem readFlagValue_word {name : String} {word : Text} {value : Bool}
    (named : (name, value) ∈ booleanWords) (key : Keyword name word) :
    readFlagValue t (.word word :: later) = (.flag value, later) := by
  have looked : booleanWords.lookup name = some value := by
    simp only [booleanWords, List.mem_cons, Prod.mk.injEq, List.not_mem_nil, or_false] at named
    rcases named with ⟨rfl, rfl⟩ | ⟨rfl, rfl⟩ | ⟨rfl, rfl⟩ | ⟨rfl, rfl⟩ | ⟨rfl, rfl⟩ | ⟨rfl, rfl⟩
    all_goals rfl
  rw [readFlagValue]
  simp only [Token.word, key.upperName, looked, ne_eq, not_true_eq_false, if_false]

theorem readOptionValue_text {name : String} {value : Text} {noise : List Token}
    (named : name ∈ asNoiseOptions) (as : Noise "AS" noise) :
    readOptionValue t name (noise ++ ⟨.string, value⟩ :: later) = .ok (.text value, later) := by
  rcases as with rfl | ⟨word, key, rfl⟩
  · simp [readOptionValue, valueAt]
  · simp [readOptionValue, valueAt, Token.word, key.upperName, named]

theorem readOptionName_keyword {name : String} {keyword : Text} (named : name ∈ clauseNames)
    (key : Keyword name keyword) :
    readOptionName t (.word keyword) later = .ok (name, later) := by
  have other : name ≠ "FORCE" := by
    rintro rfl
    revert named
    decide
  rw [readOptionName]
  simp only [Token.word, key.upperName, if_neg other, ne_eq, not_true_eq_false, if_false]

/-- A clause is read as its item, and what stands behind it is left. -/
theorem Clause.reads (clause : Clause item piece) (follows : Follows t later) :
    ∃ keyword rest, piece ++ later = .word keyword :: (rest ++ later) ∧
      readOptionName t (.word keyword) (rest ++ later) = .ok (item.1, rest ++ later) ∧
      readOption t item.1 (rest ++ later) = .ok (item.2, later) := by
  have flag : ∀ {name : String}, name ∉ valueOptions → name ∈ flagOptions → ∀ later,
      readOption t name later = .ok (readFlagValue t later) := by
    intro name unvalued flagged later
    rw [readOption, if_neg unvalued, if_pos flagged]
  cases clause with
  | @text name keyword value noise named key as =>
    have valued : ∀ name ∈ asNoiseOptions, name ∈ valueOptions := by decide
    refine ⟨keyword, noise ++ [⟨.string, value⟩], by simp,
      readOptionName_keyword (clauseNames_of_asNoise name named) key, ?_⟩
    rw [readOption, if_pos (valued name named), List.append_assoc]
    exact readOptionValue_text named as
  | @format keyword value key plain =>
    have names : "FORMAT" ∈ clauseNames ∧ "FORMAT" ∈ valueOptions := by decide
    refine ⟨keyword, [value], rfl, readOptionName_keyword names.1 key, ?_⟩
    have unnoised : ¬ (value.kind = .word ∧ upperName t value.value = "AS" ∧
        "FORMAT" ∈ asNoiseOptions) := fun h => absurd h.2.2 (by decide)
    rw [readOption, if_pos names.2, List.singleton_append, readOptionValue.eq_def]
    simp only [if_neg unnoised, valueAt, plain, ne_eq, not_false_eq_true, true_or, if_true]
  | @csv keyword key =>
    refine ⟨keyword, [], rfl, readOptionName_keyword (by decide) key, ?_⟩
    rw [flag (by decide) (by decide), List.nil_append, readFlagValue_bare follows]
  | @header keyword key =>
    refine ⟨keyword, [], rfl, readOptionName_keyword (by decide) key, ?_⟩
    rw [flag (by decide) (by decide), List.nil_append, readFlagValue_bare follows]
  | @headerValue keyword word name value key named key' =>
    have names : "HEADER" ∈ clauseNames ∧ "HEADER" ∉ valueOptions ∧ "HEADER" ∈ flagOptions := by
      decide
    refine ⟨keyword, [.word word], rfl, readOptionName_keyword names.1 key, ?_⟩
    rw [flag names.2.1 names.2.2, List.singleton_append, readFlagValue_word named key']

/-- One turn of the loop takes one clause. -/
theorem optionLoop_clause {parenthesised : Bool} {fuel : Nat} {items : List Item}
    (clause : Clause item piece) (follows : Follows t later)
    (rest : optionLoop t parenthesised fuel later = .ok items) :
    optionLoop t parenthesised (fuel + 1) (piece ++ later) = .ok (item :: items) := by
  obtain ⟨keyword, more, split, name, value⟩ := clause.reads follows
  have word : ¬ (Token.word keyword).kind = .punct := fun h => by cases h
  rw [split, optionLoop, if_neg word]
  exact bind_ok.mpr ⟨_, name, bind_ok.mpr ⟨_, value, bind_ok.mpr ⟨_, rest, rfl⟩⟩⟩

theorem Clause.length_pos (clause : Clause item piece) : 0 < piece.length := by
  obtain ⟨keyword, rest, rfl, -, -⟩ := clause.keyword
  exact Nat.succ_pos _

theorem follows_flatten {items : List Item} {pieces : List (List Token)}
    (each : List.Forall₂ Clause items pieces) : Follows t pieces.flatten := by
  cases each with
  | nil => exact follows_nil
  | cons next others =>
    rw [List.flatten_cons]
    exact next.follows _

/-- The options one after another, up to the end. -/
theorem optionLoop_legacy {items : List Item} {pieces : List (List Token)}
    (each : List.Forall₂ Clause items pieces) {fuel : Nat} (enough : pieces.flatten.length ≤ fuel) :
    optionLoop t false fuel pieces.flatten = .ok items := by
  induction each generalizing fuel with
  | nil =>
    cases fuel with
    | zero => rfl
    | succ fuel => rfl
  | @cons item piece items pieces clause others ih =>
    have longer := clause.length_pos
    rw [List.flatten_cons, List.length_append] at enough
    obtain ⟨fuel, rfl⟩ : ∃ n, fuel = n + 1 := ⟨fuel - 1, by omega⟩
    rw [List.flatten_cons]
    exact optionLoop_clause clause (follows_flatten others) (ih (by omega))

/-- The options between commas, up to the closing parenthesis. -/
theorem optionLoop_listed {items : List Item} {pieces : List (List Token)}
    (each : List.Forall₂ Clause items pieces) {fuel : Nat}
    (enough : (listed pieces).length ≤ fuel) :
    optionLoop t true fuel (listed pieces) = .ok items := by
  have closing : ∀ fuel, optionLoop t true (fuel + 1) [.punct ')'] = .ok [] := by
    intro fuel
    simp [optionLoop, Token.punct, afterList]
  induction each generalizing fuel with
  | nil =>
    obtain ⟨fuel, rfl⟩ : ∃ n, fuel = n + 1 := ⟨fuel - 1, by simp [listed] at enough; omega⟩
    exact closing fuel
  | @cons item piece items pieces clause others ih =>
    have longer := clause.length_pos
    cases others with
    | nil =>
      rw [listed, List.length_append, List.length_singleton] at enough
      obtain ⟨fuel, rfl⟩ : ∃ n, fuel = n + 2 := ⟨fuel - 2, by omega⟩
      exact optionLoop_clause clause (follows_punct ')' []) (closing fuel)
    | @cons next nextPiece items pieces following others =>
      rw [listed, List.length_append, List.length_cons] at enough
      obtain ⟨fuel, rfl⟩ : ∃ n, fuel = n + 2 := ⟨fuel - 2, by omega⟩
      have later := @ih fuel (by omega)
      have comma : optionLoop t true (fuel + 1) (.punct ',' :: listed (nextPiece :: pieces)) =
          optionLoop t true fuel (listed (nextPiece :: pieces)) := by
        simp [optionLoop, Token.punct]
      rw [listed]
      exact optionLoop_clause clause (follows_punct ',' _) (comma.trans later)

theorem optionItems_of_tokenize {found : List Token} {text : Text}
    (tokenized : tokenize t text = .ok found) :
    optionItems t text = match dropWith t found with
      | [] => .ok []
      | token :: later =>
        if token = .punct '(' then optionLoop t true (later.length + 1) later
        else optionLoop t false (later.length + 2) (token :: later) := by
  rw [optionItems, tokenized]
  rfl

/-- Both syntaxes are read as the items they were written for. -/
theorem optionItems_written {items : List Item} {found : List Token} {text : Text}
    (tokenized : tokenize t text = .ok found) (written : OptionList items found) :
    optionItems t text = .ok items := by
  have without : ∀ {noise later : List Token}, Noise "WITH" noise →
      (∀ token ∈ later.head?, token.kind = .word → upperName t token.value ≠ "WITH") →
      dropWith t (noise ++ later) = later := by
    intro noise later maybe other
    rcases maybe with rfl | ⟨word, key, rfl⟩
    · cases later with
      | nil => rfl
      | cons token later =>
        have kept : ¬ (token.kind = .word ∧ upperName t token.value = "WITH") :=
          fun h => other token rfl h.1 h.2
        rw [List.nil_append, dropWith, if_neg kept]
    · rw [List.singleton_append, dropWith, if_pos ⟨rfl, key.upperName⟩]
  rw [optionItems_of_tokenize tokenized]
  cases written with
  | @parenthesised pieces noise maybe each =>
    rw [without maybe]
    · simp only [if_true]
      exact optionLoop_listed each (Nat.le_succ _)
    · intro token head word
      obtain rfl := Option.some.inj head
      cases word
  | @legacy pieces noise maybe each =>
    have follows : Follows t pieces.flatten := follows_flatten each
    have named : ∀ token ∈ pieces.flatten.head?, token.kind = .word →
        upperName t token.value ≠ "WITH" := by
      intro token head word same
      have clause := follows token head word
      rw [same] at clause
      revert clause
      decide
    rw [without maybe named]
    have loop := fun fuel => @optionLoop_legacy t items pieces each fuel
    cases each with
    | nil => rfl
    | cons clause others =>
      obtain ⟨keyword, rest, rfl, -, -⟩ := clause.keyword
      have word : Token.word keyword ≠ .punct '(' := fun same => by cases same
      simp only [List.flatten_cons, List.cons_append, if_neg word] at loop ⊢
      exact loop _ (by simp only [List.length_cons]; omega)

end Reading

/-! ## What the items come to -/

section Asking

variable {t : CaseTables} {o : CopyOptions} {items : List Item}

theorem applyOption_fits {item : Item} (fits : Fits o item) (r : Resolved) :
    ∃ r', applyOption t.toTextTables r item = .ok r' := by
  cases fits with
  | format => exact ⟨r, rfl⟩
  | csv => exact ⟨r, rfl⟩
  | delimiter => exact ⟨_, rfl⟩
  | null => exact ⟨_, rfl⟩
  | header => exact ⟨_, rfl⟩
  | quote => exact ⟨_, rfl⟩
  | escape => exact ⟨_, rfl⟩

/-- The value under each name. -/
structure Values (o : CopyOptions) (item : Item) : Prop where
  delimiter : item.1 = "DELIMITER" → item.2 = .text [o.delimiter]
  nullString : item.1 = "NULL" → item.2 = .text o.nullString
  header : item.1 = "HEADER" → item.2 = .flag o.header
  quote : item.1 = "QUOTE" → item.2 = .text [o.quote] ∧ o.format = .csv
  escape : item.1 = "ESCAPE" → item.2 = .text [o.escape] ∧ o.format = .csv

theorem Fits.values {item : Item} (fits : Fits o item) : Values o item := by
  cases fits with
  | quote is => constructor <;> simp [is]
  | escape is => constructor <;> simp [is]
  | _ => constructor <;> simp

/-- The format is the one every item that names one names. -/
theorem formatOf_asks (asks : Asks o items) :
    formatOf t.toTextTables items = formatName (o.format = .csv) := by
  have ascii : ∀ c ∈ "CSV".toList, c.toNat < 128 := by simp
  have fold : ∀ {items : List Item} {fmt : Text}, (∀ item ∈ items, Fits o item) →
      ("FORMAT" ∉ items.map Prod.fst → "CSV" ∉ items.map Prod.fst →
        fmt = formatName (o.format = .csv)) →
      items.foldl (fun fmt item =>
        if item.1 = "FORMAT" then t.lower (str t.toTextTables item.2)
        else if item.1 ∈ ["CSV", "BINARY"] ∧ item.2 ≠ .flag false then t.lower item.1.toList
        else fmt) fmt = formatName (o.format = .csv) := by
    intro items
    induction items with
    | nil =>
      intro fmt _ given
      exact given (by simp) (by simp)
    | cons item items ih =>
      intro fmt fits given
      rw [List.foldl_cons]
      refine ih (fun later inside => fits later (List.mem_cons_of_mem item inside)) ?_
      intro unformatted plain
      cases fits item List.mem_cons_self with
      | format ascii named => exact (t.lower_ascii _ ascii).trans named
      | csv is =>
        have lowered : t.lower "CSV".toList = "csv".toList :=
          (t.lower_ascii _ ascii).trans (by decide)
        have name : formatName (o.format = .csv) = "csv".toList := by
          rw [is]
          rfl
        rw [name]
        exact lowered
      | delimiter => exact given (by simpa using unformatted) (by simpa using plain)
      | null => exact given (by simpa using unformatted) (by simpa using plain)
      | header => exact given (by simpa using unformatted) (by simpa using plain)
      | quote => exact given (by simpa using unformatted) (by simpa using plain)
      | escape => exact given (by simpa using unformatted) (by simpa using plain)
  refine fold asks.fits fun unformatted plain => ?_
  rw [asks.format unformatted plain]
  rfl

/-- What is asked for under a name is what every item of the name has, or the default. -/
theorem asked_eq {name : String} {default value : Text}
    (named : ∀ v, (name, v) ∈ items → str t.toTextTables v = value)
    (unnamed : name ∉ items.map Prod.fst → default = value) :
    asked t.toTextTables items name default = value := by
  rw [asked]
  cases last : latest items name with
  | none => exact unnamed (unwritten_of_latest last)
  | some v => exact named v (mem_of_latest last)

/-- The options come out as they were asked for, whatever the order. -/
theorem parseOptions_asks {text : Text} (asks : Asks o items)
    (read : optionItems t.toTextTables text = .ok items) :
    parseOptions t.toTextTables text = .ok o := by
  have total : ∀ item ∈ items, ∀ r, ∃ r', applyOption t.toTextTables r item = .ok r' :=
    fun item inside => applyOption_fits (asks.fits item inside)
  obtain ⟨r, run⟩ := foldlM_total total (defaults (o.format = .csv))
  have resolves := foldlM_resolves run
  have delimiter : r.delimiter = o.delimiter := by
    refine List.singleton_inj.mp (resolves.delimiter.trans (asked_eq ?_ ?_))
    · intro v inside
      have value : v = _ := (asks.fits _ inside).values.delimiter rfl
      rw [value]
      rfl
    · intro unnamed
      simp [defaults, asks.delimiter unnamed]
  have nullString : r.nullString = o.nullString := by
    refine resolves.nullString.trans (asked_eq ?_ ?_)
    · intro v inside
      have value : v = _ := (asks.fits _ inside).values.nullString rfl
      rw [value]
      rfl
    · intro unnamed
      simp [defaults, asks.nullString unnamed]
  have header : r.header = o.header := by
    rw [resolves.header]
    cases last : latest items "HEADER" with
    | none => exact (asks.header (unwritten_of_latest last)).symm
    | some v =>
      have value : v = _ := (asks.fits _ (mem_of_latest last)).values.header rfl
      rw [value]
      cases o.header <;> rfl
  have quote : r.quote = o.quote := by
    refine List.singleton_inj.mp (resolves.quote.trans (asked_eq ?_ ?_))
    · intro v inside
      have value : v = _ := ((asks.fits _ inside).values.quote rfl).1
      rw [value]
      rfl
    · intro unnamed
      rw [asks.quote unnamed]
      rfl
  have escape : r.escape.getD r.quote = o.escape := by
    have given := resolves.escape
    cases last : latest items "ESCAPE" with
    | none =>
      have unset : r.escape = none := by simpa [last, defaults] using given
      rw [unset, Option.getD_none, quote, asks.escape (unwritten_of_latest last)]
    | some v =>
      have value : v = _ := ((asks.fits _ (mem_of_latest last)).values.escape rfl).1
      have set : r.escape = some o.escape := by
        cases chosen : r.escape with
        | none => simp [last, chosen] at given
        | some c => simpa [last, chosen, value, str] using given
      rw [set, Option.getD_some]
  refine (parseOptions_ok_iff read).mpr ⟨_, r, formatOf_asks asks, run, ?_, ?_⟩
  · intro text item inside named
    have format : o.format ≠ .csv := by simpa using text
    have values := (asks.fits item inside).values
    simp only [List.mem_cons, List.not_mem_nil, or_false] at named
    rcases named with quoted | escaped
    · exact format (values.quote quoted).2
    · exact format (values.escape escaped).2
  · rw [resolved, delimiter, nullString, header, escape, quote]
    obtain ⟨format, d, n, h, q, e⟩ := o
    cases format with
    | text => rfl
    | csv => rfl

end Asking

/-! ## Statements -/

/-- A COPY up to its endpoint: whatever is written behind it is the option list. -/
def Heads (t : TextTables) (front : Text) (direction : Direction) (target : Text) : Prop :=
  ∀ tail : Text, (∀ c ∈ tail.head?, isBare c = false) →
    findEndpoint t (front ++ tail) = some (direction, target, stripTerminator tail)

/-- The options as a client writes them behind the endpoint. -/
inductive WrittenOptions (o : CopyOptions) (tail : Text) : Prop where
  | intro {items : List Item} {found : List Token} {text : Text} (asks : Asks o items)
      (list : OptionList items found) (spelled : SpelledAs found text)
      (ends : Terminated text tail) (apart : ∀ c ∈ tail.head?, isBare c = false)

section Statements

theorem Noise.kind {name : String} {noise : List Token} (maybe : Noise name noise) :
    ∀ token ∈ noise, token.kind = .word := by
  intro token inside
  rcases maybe with rfl | ⟨word, -, rfl⟩
  · exact absurd inside List.not_mem_nil
  · obtain rfl := List.mem_singleton.mp inside
    rfl

theorem Clause.plain {item : Item} {piece : List Token} (clause : Clause item piece) :
    ∀ token ∈ piece, token.kind ≠ .punct := by
  cases clause with
  | text named key as =>
    intro token inside
    rcases List.mem_cons.mp inside with rfl | inside
    · exact fun h => by cases h
    · rcases List.mem_append.mp inside with inside | inside
      · exact fun punct => by cases (as.kind token inside).symm.trans punct
      · obtain rfl := List.mem_singleton.mp inside
        exact fun h => by cases h
  | format key named => simpa [Token.word] using named
  | csv => simp [Token.word]
  | header => simp [Token.word]
  | headerValue => simp [Token.word]

/-- No option list has a semicolon among its tokens. -/
theorem OptionList.plain {items : List Item} {found : List Token} (list : OptionList items found) :
    ∀ token ∈ found, token ≠ .punct ';' := by
  have other : ∀ {token : Token}, token.kind ≠ .punct → token ≠ .punct ';' := by
    rintro token plain rfl
    exact plain rfl
  have noiseless : ∀ {name : String} {noise : List Token}, Noise name noise →
      ∀ token ∈ noise, token ≠ .punct ';' := by
    intro name noise maybe token inside
    exact other fun punct => by cases (maybe.kind token inside).symm.trans punct
  have within : ∀ {items : List Item} {pieces : List (List Token)},
      List.Forall₂ Clause items pieces → (∀ token ∈ listed pieces, token ≠ .punct ';') ∧
        ∀ token ∈ pieces.flatten, token ≠ .punct ';' := by
    intro items pieces each
    induction each with
    | nil => exact ⟨by simp [listed, Token.punct], by simp⟩
    | @cons item piece items pieces clause others ih =>
      have first : ∀ token ∈ piece, token ≠ .punct ';' :=
        fun token inside => other (clause.plain token inside)
      constructor
      · cases pieces with
        | nil =>
          intro token inside
          rcases List.mem_append.mp inside with inside | inside
          · exact first token inside
          · obtain rfl := List.mem_singleton.mp inside
            decide
        | cons next pieces =>
          intro token inside
          rcases List.mem_append.mp inside with inside | inside
          · exact first token inside
          · rcases List.mem_cons.mp inside with rfl | inside
            · decide
            · exact ih.1 token inside
      · intro token inside
        rcases List.mem_append.mp (List.flatten_cons ▸ inside) with inside | inside
        · exact first token inside
        · exact ih.2 token inside
  cases list with
  | parenthesised maybe each =>
    intro token inside
    rcases List.mem_append.mp inside with inside | inside
    · exact noiseless maybe token inside
    · rcases List.mem_cons.mp inside with rfl | inside
      · decide
      · exact (within each).1 token inside
  | legacy maybe each =>
    intro token inside
    rcases List.mem_append.mp inside with inside | inside
    · exact noiseless maybe token inside
    · exact (within each).2 token inside

/-! ### A COPY of one word -/

def endpointWords : Direction → Text × Text
  | .copyIn => ("FROM".toList, "STDIN".toList)
  | .copyOut => ("TO".toList, "STDOUT".toList)

/-- `COPY table FROM STDIN`, or `TO STDOUT`. -/
def copyTable (table : Text) (direction : Direction) : Text :=
  ['C', 'O', 'P', 'Y', ' '] ++ (table ++ (' ' :: (endpointWords direction).1 ++
    ' ' :: (endpointWords direction).2))

/-- The two words of an endpoint, whatever word stands in front of them. -/
theorem search_endpoint {t : TextTables} {direction : Direction} {first second : Text}
    {two three : Nat} (capitals : t.upper first = (endpointWords direction).1)
    (capitals' : t.upper second = (endpointWords direction).2) (previous : Previous)
    (later : List Placed) :
    search t 0 previous (⟨.word first, two⟩ :: ⟨.word second, three⟩ :: later) =
      some ⟨direction, two - first.length, three⟩ := by
  have unmatched : ∀ word : Text, endpointOf word (endpointWords direction).1 = none := by
    intro word
    cases direction with
    | copyIn => simp [endpointOf, endpointWords]
    | copyOut => simp [endpointOf, endpointWords]
  have matched : endpointOf (endpointWords direction).1 (endpointWords direction).2 =
      some direction := by
    cases direction with
    | copyIn => rfl
    | copyOut => rfl
  cases previous <;> simp [search, Token.word, capitals, capitals', unmatched, matched]

theorem upper_endpointWords (t : TextTables) (direction : Direction) :
    t.upper (endpointWords direction).1 = (endpointWords direction).1 ∧
      t.upper (endpointWords direction).2 = (endpointWords direction).2 := by
  cases direction with
  | copyIn =>
    exact ⟨t.upper_ascii _ (by simp [endpointWords]), t.upper_ascii _ (by simp [endpointWords])⟩
  | copyOut =>
    exact ⟨t.upper_ascii _ (by simp [endpointWords]), t.upper_ascii _ (by simp [endpointWords])⟩

/-- A word that is written as it is. -/
structure PlainWord (word : Text) : Prop where
  filled : word ≠ []
  bare : ∀ c ∈ word, isBare c = true
  dollar : word.head? ≠ some '$'

theorem PlainWord.of_all {word : Text} (filled : word ≠ []) (bare : word.all isBare = true)
    (dollar : word.head? ≠ some '$') : PlainWord word :=
  ⟨filled, List.all_eq_true.mp bare, dollar⟩

theorem PlainWord.written {word rest : Text} (plain : PlainWord word)
    (stops : ∀ c ∈ rest.head?, isBare c = false) : Written (.word word) word rest :=
  .word plain.filled plain.bare plain.dollar stops

theorem stops_cons {c : Char} (stops : isBare c = false) (rest : Text) :
    ∀ d ∈ (c :: rest).head?, isBare d = false := by
  intro d head
  obtain rfl := Option.some.inj head
  exact stops

theorem plain_endpointWords (direction : Direction) :
    PlainWord (endpointWords direction).1 ∧ PlainWord (endpointWords direction).2 := by
  cases direction with
  | copyIn =>
    exact ⟨.of_all (by decide) (by decide) (by decide), .of_all (by decide) (by decide) (by decide)⟩
  | copyOut =>
    exact ⟨.of_all (by decide) (by decide) (by decide), .of_all (by decide) (by decide) (by decide)⟩

theorem PlainWord.not_space {word : Text} (plain : PlainWord word) {c : Char} (inside : c ∈ word) :
    isSpace c = false :=
  not_space_of_isBare (plain.bare c inside)

/-- The tokens from here on, each with where it ends in a text of this length. -/
def placed (t : TextTables) (length : Nat) (text : Text) : List Placed :=
  ((scanner t).scan text).1.map (place length)

theorem placed_next {t : TextTables} {text rest : Text} {token : Token}
    (next : nextToken t text = some (token, rest)) (length : Nat) :
    placed t length text = ⟨token, length - rest.length⟩ :: placed t length rest := by
  rw [placed, Scanner.scan_of_next_some (s := scanner t) next]
  rfl

/-- What stands in front of the endpoint that is found, and behind it. -/
theorem findEndpoint_of_search {t : TextTables} {direction : Direction}
    {lead body words tail : Text}
    (head : copyHead (lead ++ (body ++ (words ++ tail))) = some lead.length)
    (found : search t 0 none
        (placed t (lead ++ (body ++ (words ++ tail))).length (body ++ (words ++ tail))) =
      some ⟨direction, (lead ++ (body ++ (words ++ tail))).length - (words ++ tail).length,
        (lead ++ (body ++ (words ++ tail))).length - tail.length⟩)
    (filled : strip body ≠ []) :
    findEndpoint t (lead ++ (body ++ (words ++ tail))) =
      some (direction, strip body, stripTerminator tail) := by
  have read : (tokens t (lead ++ (body ++ (words ++ tail))) lead.length).1 =
      placed t (lead ++ (body ++ (words ++ tail))).length (body ++ (words ++ tail)) := by
    simp only [tokens, List.drop_left, placed]
  have target : ((lead ++ (body ++ (words ++ tail))).take
      ((lead ++ (body ++ (words ++ tail))).length - (words ++ tail).length)).drop lead.length =
        body := by
    rw [← List.append_assoc, List.length_append, Nat.add_sub_cancel, List.take_left, List.drop_left]
  have options : (lead ++ (body ++ (words ++ tail))).drop
      ((lead ++ (body ++ (words ++ tail))).length - tail.length) = tail := by
    rw [← List.append_assoc, ← List.append_assoc, List.length_append, Nat.add_sub_cancel,
      List.drop_left]
  simp only [findEndpoint, head, read, found, target, options, if_neg filled]

/-- A statement that names its table in one word is read up to its endpoint. -/
theorem heads_table {t : TextTables} {table : Text} (plain : PlainWord table)
    (direction : Direction) : Heads t (copyTable table direction) direction table := by
  intro tail apart
  obtain ⟨plainFirst, plainSecond⟩ := plain_endpointWords direction
  obtain ⟨capitals, capitals'⟩ := upper_endpointWords t direction
  have nothing : Trim.Blank isSpace ([] : Text) := fun c inside => absurd inside List.not_mem_nil
  have space : Trim.Blank isSpace [' '] := by simp [Trim.Blank, isSpace]
  have search_words := fun previous later two three => @search_endpoint t direction
    (endpointWords direction).1 (endpointWords direction).2 two three capitals capitals' previous
    later
  rw [copyTable]
  generalize (endpointWords direction).1 = first at plainFirst search_words
  generalize (endpointWords direction).2 = second at plainSecond search_words
  have sql : ['C', 'O', 'P', 'Y', ' '] ++ (table ++ (' ' :: first ++ ' ' :: second)) ++ tail =
      ['C', 'O', 'P', 'Y', ' '] ++ (table ++ [' '] ++ (first ++ ' ' :: second ++ tail)) := by
    simp
  have solid : ∀ c ∈ (table ++ [' '] ++ (first ++ ' ' :: second ++ tail)).head?,
      isSpace c = false := by
    intro c head
    rw [List.append_assoc, List.head?_append_of_ne_nil table plain.filled] at head
    exact plain.not_space (List.mem_of_mem_head? head)
  have stripped : strip (table ++ [' ']) = table :=
    Trim.trim_of_solid nothing ⟨fun c head => plain.not_space (List.mem_of_mem_head? head),
      fun c last => plain.not_space (List.mem_of_getLast? last)⟩ space
  -- The three words are read one after the other, each over the space in front of it.
  have one := nextToken_written (t := t) nothing
    (plain.written (stops_cons rfl (first ++ ' ' :: (second ++ tail))) : Written _ _ (' ' :: _))
  have two := nextToken_written (t := t) space
    (plainFirst.written (stops_cons rfl (second ++ tail)) : Written _ _ (' ' :: _))
  have three := nextToken_written (t := t) space (plainSecond.written apart)
  have found : ∀ length, search t 0 none
      (placed t length (table ++ [' '] ++ (first ++ ' ' :: second ++ tail))) =
        some ⟨direction, length - (first ++ ' ' :: second ++ tail).length,
          length - tail.length⟩ := by
    intro length
    have parts : table ++ [' '] ++ (first ++ ' ' :: second ++ tail) =
        [] ++ (table ++ ' ' :: (first ++ ' ' :: (second ++ tail))) := by simp
    rw [parts, placed_next one, search, if_pos ⟨rfl, rfl⟩]
    have second_word := placed_next two length
    have third_word := placed_next three length
    rw [List.singleton_append] at second_word third_word
    rw [second_word, third_word]
    refine (search_words _ _ _ _).trans ?_
    rw [Option.some.injEq, Found.mk.injEq]
    refine ⟨rfl, ?_, rfl⟩
    simp only [List.length_append, List.length_cons]
    omega
  have filled : strip (table ++ [' ']) ≠ [] := by
    rw [stripped]
    exact plain.filled
  have read := @findEndpoint_of_search t direction ['C', 'O', 'P', 'Y', ' '] (table ++ [' '])
    (first ++ ' ' :: second) tail (copyHead_keyword solid) (found _) filled
  rw [sql, read, stripped]

/-- Behind any COPY the options written in either syntax are returned as they were meant. -/
theorem parseCopy_written {t : CaseTables} {o : CopyOptions} {front tail target : Text}
    {direction : Direction} (heads : Heads t.toTextTables front direction target)
    (written : WrittenOptions o tail) : parseCopy t.toTextTables (front ++ tail) =
      .ok (some ⟨direction, (parseTarget t.toTextTables target).1,
        (parseTarget t.toTextTables target).2, o⟩) := by
  obtain ⟨asks, list, spelled, ends, apart⟩ := written
  have stripped := stripTerminator_spelled spelled list.plain ends
  have read := optionItems_written (tokenize_spelled (t := t.toTextTables) stripped) list
  have options := parseOptions_asks asks read
  simp only [parseCopy, heads tail apart, options]
  rfl

end Statements

/-- `(NULL 'it''s', FORMAT csv);`. -/
def apostropheNull : Text :=
  [' '] ++ (['('] ++ ([] ++ (['N', 'U', 'L', 'L'] ++ ([' '] ++ (literal ['i', 't', '\'', 's'] ++
    ([] ++ ([','] ++ ([' '] ++ (['F', 'O', 'R', 'M', 'A', 'T'] ++ ([' '] ++ (['c', 's', 'v'] ++
      ([] ++ ([')'] ++ [])))))))))))))

theorem lower_asciiTables (word : Text) (_ : ∀ c ∈ word, c.toNat < 128) :
    asciiTables.lower word = word.map Char.toLower := rfl

def asciiCases : CaseTables := { asciiTables with lower_ascii := lower_asciiTables }

theorem apostropheNull_written :
    parseCopy asciiCases.toTextTables (copyTable ['t'] .copyIn ++ (apostropheNull ++ [';'])) =
      .ok (some ⟨.copyIn, some ['t'], none,
        { format := .csv, delimiter := ',', nullString := ['i', 't', '\'', 's'] }⟩) := by
  have table : PlainWord ['t'] := .of_all (by decide) (by decide) (by decide)
  have nothing : Trim.Blank isSpace ([] : Text) := fun c inside => absurd inside List.not_mem_nil
  have space : Trim.Blank isSpace [' '] := by simp [Trim.Blank, isSpace]
  have spelled :
      SpelledAs [.punct '(', .word ['N', 'U', 'L', 'L'], ⟨.string, ['i', 't', '\'', 's']⟩,
      .punct ',', .word ['F', 'O', 'R', 'M', 'A', 'T'], .word ['c', 's', 'v'], .punct ')']
      apostropheNull := by
    refine .cons space (.punct rfl) (.cons nothing ?_ (.cons space (.string (by decide))
      (.cons nothing (.punct rfl) (.cons space ?_ (.cons space ?_ (.cons nothing (.punct rfl)
        (.nil nothing)))))))
    · exact (PlainWord.of_all (by decide) (by decide) (by decide)).written (stops_cons rfl _)
    · exact (PlainWord.of_all (by decide) (by decide) (by decide)).written (stops_cons rfl _)
    · exact (PlainWord.of_all (by decide) (by decide) (by decide)).written (stops_cons rfl _)
  have key : Clause ("FORMAT", .text ['c', 's', 'v'])
      [.word ['F', 'O', 'R', 'M', 'A', 'T'], .word ['c', 's', 'v']] :=
    @Clause.format ['F', 'O', 'R', 'M', 'A', 'T'] (.word ['c', 's', 'v']) ⟨by simp, by decide⟩
      (by decide)
  have list : OptionList [("NULL", .text ['i', 't', '\'', 's']), ("FORMAT", .text ['c', 's', 'v'])]
      [.punct '(', .word ['N', 'U', 'L', 'L'], ⟨.string, ['i', 't', '\'', 's']⟩,
      .punct ',', .word ['F', 'O', 'R', 'M', 'A', 'T'], .word ['c', 's', 'v'], .punct ')'] :=
    @OptionList.parenthesised _ [[.word ['N', 'U', 'L', 'L'], ⟨.string, ['i', 't', '\'', 's']⟩],
        [.word ['F', 'O', 'R', 'M', 'A', 'T'], .word ['c', 's', 'v']]] [] (Or.inl rfl)
      (.cons (.text (by decide) ⟨by simp, by decide⟩ (Or.inl rfl)) (.cons key .nil))
  have asks : Asks { format := .csv, delimiter := ',', nullString := ['i', 't', '\'', 's'] }
      [("NULL", .text ['i', 't', '\'', 's']), ("FORMAT", .text ['c', 's', 'v'])] := by
    constructor
    · intro item inside
      simp only [List.mem_cons, List.not_mem_nil, or_false] at inside
      rcases inside with rfl | rfl
      · exact .null
      · exact .format (by simp) (by decide)
    all_goals simp
  have target : parseTarget asciiCases.toTextTables ['t'] = (some ['t'], none) := by decide
  have ends : Terminated apostropheNull (apostropheNull ++ [';']) := Or.inr ⟨[], rfl, nothing⟩
  have apart : ∀ c ∈ (apostropheNull ++ [';']).head?, isBare c = false := stops_cons rfl _
  have read := parseCopy_written (t := asciiCases) (heads_table table .copyIn)
    (.intro asks list spelled ends apart)
  rwa [target] at read

end PgMimic.Endpoint

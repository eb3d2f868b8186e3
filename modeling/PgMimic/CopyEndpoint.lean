import PgMimic.CopyTokens

/-!
# The endpoint of a COPY

`parse_copy` recognises a COPY by its endpoint: FROM STDIN or TO STDOUT, outside every
literal and every parenthesis, as `_tokens` reads the text. What stands in front of the
endpoint is the target, and what follows it the option list.
-/

namespace PgMimic.Endpoint

open PgMimic.Copy (Text CopyOptions Format)

inductive Direction where
  | copyIn
  | copyOut
deriving DecidableEq, Repr

/-! ## The target -/

/-- The loop of `_split_outside_quotes`, the part being read in `current`. -/
def splitOutsideQuotes (separator : Char) (current : Text) (quoted : Bool) : Text → List Text
  | [] => [current]
  | c :: rest =>
    let quoted := if c = '"' then !quoted else quoted
    if c = separator ∧ quoted = false then
      current :: splitOutsideQuotes separator [] quoted rest
    else splitOutsideQuotes separator (current ++ [c]) quoted rest

/-- The offset of the first parenthesis outside quotes, or whether a quote is left open. -/
def openingParen (position : Nat) (quoted : Bool) : Text → Nat ⊕ Bool
  | [] => .inr quoted
  | c :: rest =>
    if c = '"' then openingParen (position + 1) (!quoted) rest
    else if c = '(' ∧ quoted = false then .inl position
    else openingParen (position + 1) quoted rest

def splitTarget (target : Text) : Option Text × Option Text :=
  match openingParen 0 false target with
  | .inl position =>
    if target.getLast? ≠ some ')' then (none, none)
    else (some (strip (target.take position)), some (target.dropLast.drop (position + 1)))
  | .inr true => (none, none)
  | .inr false => (some target, none)

def unquoteIdentifier (t : TextTables) (name : Text) : Text :=
  let name := strip name
  if 2 ≤ name.length ∧ name.head? = some '"' ∧ name.getLast? = some '"' then
    undouble '"' name.tail.dropLast
  else t.lower name

/-- `_parse_target`: the table, and the columns where there is an explicit list. -/
def parseTarget (t : TextTables) (target : Text) : Option Text × Option (List Text) :=
  let target := strip target
  if target.head? = some '(' then (none, none)
  else match splitTarget target with
    | (none, _) => (none, none)
    | (some name, rawColumns) =>
      let columns := match rawColumns with
        | none | some [] => none
        | some raw => some ((splitOutsideQuotes ',' [] false raw).map (unquoteIdentifier t))
      (some (unquoteIdentifier t ((splitOutsideQuotes '.' [] false name).getLastD [])), columns)

/-! ## The option list -/

def valueOptions : List String :=
  ["FORMAT", "DELIMITER", "NULL", "QUOTE", "ESCAPE", "ENCODING", "FORCE_QUOTE", "FORCE_NOT_NULL",
    "FORCE_NULL", "DEFAULT", "ON_ERROR", "LOG_VERBOSITY", "REJECT_LIMIT"]

def flagOptions : List String := ["CSV", "BINARY", "HEADER", "FREEZE", "OIDS"]

/-- `_AS_NOISE_OPTIONS`. -/
def asNoiseOptions : List String := ["DELIMITER", "NULL", "QUOTE", "ESCAPE"]

/-- `_BOOLEAN_WORDS`. -/
def booleanWords : List (String × Bool) :=
  [("TRUE", true), ("FALSE", false), ("ON", true), ("OFF", false), ("1", true), ("0", false)]

inductive OptionValue where
  | text (text : Text)
  | flag (value : Bool)
  | names (names : List Text)
deriving DecidableEq

section Options

variable (t : TextTables)

def syntaxError (message : String) : PgError := ⟨"42601", message, []⟩

def unsupported (message : String) : PgError := ⟨"0A000", message, []⟩

def upperName (text : Text) : String := String.ofList (t.upper text)

/-- `name.lower()`. -/
def lowerName (name : String) : String := String.ofList (t.lower name.toList)

def quoted (text : Text) : String := String.ofList (t.repr text)

/-- `_read_option_name`, the first token in hand. -/
def readOptionName (token : Token) (later : List Token) :
    Except PgError (String × List Token) :=
  if token.kind ≠ .word then
    .error (syntaxError ("expected a COPY option name, got " ++ quoted t token.value))
  else
    let name := upperName t token.value
    if name = "FORCE" then
      let joins := fun (next : Token) =>
        decide (next.kind = .word ∧ upperName t next.value ∈ ["QUOTE", "NOT", "NULL"])
      .ok ((later.takeWhile joins).foldl (fun name next => name ++ "_" ++ upperName t next.value) name,
        later.dropWhile joins)
    else .ok (name, later)

def requiresValue (name : String) : PgError :=
  syntaxError ("COPY option " ++ lowerName t name ++ " requires a value")

def closes (token : Token) : Bool := token = .punct ')'

/-- The value that begins with this token. -/
def valueAt (token : Token) (later : List Token) : Except PgError (OptionValue × List Token) :=
  if token.kind ≠ .punct ∨ token.value = ['*'] then .ok (.text token.value, later)
  else if token.value = ['('] then
    let inside := later.takeWhile fun next => !closes next
    .ok (.names ((inside.filter fun next => next.kind ≠ .punct).map Token.value),
      (later.dropWhile fun next => !closes next).drop 1)
  else .error (syntaxError ("unexpected " ++ quoted t token.value ++ " in COPY options"))

/-- `_read_option_value`. -/
def readOptionValue (name : String) : List Token → Except PgError (OptionValue × List Token)
  | [] => .error (requiresValue t name)
  | token :: later =>
    if token.kind = .word ∧ upperName t token.value = "AS" ∧ name ∈ asNoiseOptions then
      match later with
      | [] => .error (requiresValue t name)
      | token :: later => valueAt t token later
    else valueAt t token later

/-- `_read_flag_value`. -/
def readFlagValue : List Token → OptionValue × List Token
  | [] => (.flag true, [])
  | token :: later =>
    if token.kind ≠ .word then (.flag true, token :: later)
    else match booleanWords.lookup (upperName t token.value) with
      | some value => (.flag value, later)
      | none =>
        if upperName t token.value = "MATCH" then (.text "match".toList, later)
        else (.flag true, token :: later)

/-- What an option's name is followed by. -/
def readOption (name : String) (later : List Token) :
    Except PgError (OptionValue × List Token) :=
  if name ∈ valueOptions then readOptionValue t name later
  else if name ∈ flagOptions then .ok (readFlagValue t later)
  else .error (syntaxError ("unrecognized COPY option \"" ++ lowerName t name ++ "\""))

/-- What stands past the closing parenthesis of the list. -/
def afterList : List Token → Except PgError (List (String × OptionValue))
  | [] => .ok []
  | next :: _ =>
    .error (syntaxError ("unexpected " ++ quoted t next.value ++ " after the COPY option list"))

/-- The loop of `_option_items`. Every turn takes at least one token. -/
def optionLoop (parenthesised : Bool) :
    Nat → List Token → Except PgError (List (String × OptionValue))
  | 0, _ | _, [] => .ok []
  | fuel + 1, token :: later =>
    if token.kind = .punct then
      if token.value = [','] then optionLoop parenthesised fuel later
      else if token.value = [')'] ∧ parenthesised = true then afterList t later
      else .error (syntaxError ("unexpected " ++ quoted t token.value ++ " in COPY options"))
    else do
      let (name, later) ← readOptionName t token later
      let (value, later) ← readOption t name later
      let items ← optionLoop parenthesised fuel later
      .ok ((name, value) :: items)

/-- `_tokenize`. -/
def tokenize (text : Text) : Except PgError (List Token) :=
  match tokens t text 0 with
  | (_, some e) => .error e
  | (found, none) => .ok (found.map Placed.token)

/-- WITH is optional. -/
def dropWith : List Token → List Token
  | [] => []
  | token :: later =>
    if token.kind = .word ∧ upperName t token.value = "WITH" then later else token :: later

/-- `_option_items`. -/
def optionItems (text : Text) : Except PgError (List (String × OptionValue)) := do
  let found ← tokenize t text
  match dropWith t found with
  | [] => .ok []
  | token :: later =>
    if token = .punct '(' then optionLoop t true (later.length + 1) later
    else optionLoop t false (later.length + 2) (token :: later)

/-- `str(value)`. -/
def str : OptionValue → Text
  | .text text => text
  | .flag value => if value then "True".toList else "False".toList
  | .names names => '[' :: [',', ' '].intercalate (names.map t.repr) ++ [']']

def singleCharacter (name : String) (value : OptionValue) : Except PgError Char :=
  match str t value with
  | [c] => .ok c
  | _ => .error ⟨"22023", "COPY " ++ lowerName t name ++ " must be a single one-byte character", []⟩

/-- The format every other option is read for: the last one that is named. -/
def formatOf (items : List (String × OptionValue)) : Text :=
  items.foldl (fun fmt item =>
    if item.1 = "FORMAT" then t.lower (str t item.2)
    else if item.1 ∈ ["CSV", "BINARY"] ∧ item.2 ≠ .flag false then t.lower item.1.toList
    else fmt) "text".toList

/-- What the options other than the format are resolved to. -/
structure Resolved where
  delimiter : Char
  nullString : Text
  header : Bool := false
  quote : Char := '"'
  escape : Option Char := none

def binaryCopy : PgError :=
  unsupported ("binary COPY is not supported: pg_mimic has no table definition to encode a tuple " ++
    "against, and guessing one would produce plausible-looking wrong rows rather than a failure. " ++
    "Use FORMAT text or FORMAT csv.")

def headerMatch : PgError :=
  unsupported ("COPY HEADER MATCH is not supported: pg_mimic has no authoritative column list to " ++
    "check the header line against")

/-- One item of the second loop of `_parse_options`. -/
def applyOption (o : Resolved) (item : String × OptionValue) : Except PgError Resolved :=
  let (name, value) := item
  if name ∈ ["FORMAT", "CSV", "BINARY"] then .ok o
  else if name = "DELIMITER" then do .ok { o with delimiter := ← singleCharacter t name value }
  else if name = "NULL" then .ok { o with nullString := str t value }
  else if name = "HEADER" then
    if value = .text "match".toList then .error headerMatch
    else .ok { o with header := value ≠ .flag false }
  else if name = "QUOTE" then do .ok { o with quote := ← singleCharacter t name value }
  else if name = "ESCAPE" then do .ok { o with escape := some (← singleCharacter t name value) }
  else if name = "ENCODING" then
    if (t.upper (str t value)).filter (fun c => c ≠ '-' ∧ c ≠ '_') ∈
        ["UTF8".toList, "UNICODE".toList] then .ok o
    else .error (unsupported ("COPY ENCODING \"" ++ String.ofList (str t value) ++
      "\" is not supported: pg_mimic speaks UTF-8 only"))
  else .error (unsupported ("COPY option \"" ++ lowerName t name ++ "\" is not supported by pg_mimic"))

/-- `_parse_options`. -/
def parseOptions (text : Text) : Except PgError CopyOptions := do
  let items ← optionItems t text
  let fmt := formatOf t items
  if fmt = "binary".toList then .error binaryCopy
  else if fmt ≠ "text".toList ∧ fmt ≠ "csv".toList then
    .error (syntaxError ("COPY format \"" ++ String.ofList fmt ++ "\" does not exist"))
  else
    let isCsv := decide (fmt = "csv".toList)
    let start : Resolved :=
      { delimiter := if isCsv then ',' else '\t', nullString := if isCsv then [] else ['\\', 'N'] }
    let o ← items.foldlM (applyOption t) start
    if isCsv = false ∧ (∃ item ∈ items, item.1 ∈ ["QUOTE", "ESCAPE"]) then
      .error (unsupported "COPY quote/escape available only in CSV mode")
    else
      .ok { format := if isCsv then .csv else .text, delimiter := o.delimiter,
            nullString := o.nullString, header := o.header, quote := o.quote,
            escape := o.escape.getD o.quote }

end Options

/-! ## The statement -/

/-- `_ENDPOINTS`. -/
def endpointOf (first second : Text) : Option Direction :=
  if first = "FROM".toList ∧ second = "STDIN".toList then some .copyIn
  else if first = "TO".toList ∧ second = "STDOUT".toList then some .copyOut
  else none

/-- An endpoint in a text: where its keyword starts, and where it ends. -/
structure Found where
  direction : Direction
  start : Nat
  stop : Nat
deriving DecidableEq

def depthAfter (depth : Int) (token : Token) : Int :=
  if token = .punct '(' then depth + 1 else if token = .punct ')' then depth - 1 else depth

/-- The last word outside all parentheses, in capitals, and where it starts. -/
abbrev Previous := Option (Text × Nat)

/-- The loop of `_find_endpoint`. -/
def search (t : TextTables) (depth : Int) (previous : Previous) : List Placed → Option Found
  | [] => none
  | ⟨token, stop⟩ :: later =>
    if token.kind = .word ∧ depth = 0 then
      match previous.bind fun word =>
          (endpointOf word.1 (t.upper token.value)).map fun direction =>
            (⟨direction, word.2, stop⟩ : Found) with
      | some found => some found
      | none => search t depth (some (t.upper token.value, stop - token.value.length)) later
    else search t (depthAfter depth token) none later

/-- `_COPY_RE.match(sql).end()`. -/
def copyHead (sql : Text) : Option Nat :=
  let start := sql.dropWhile isSpace
  let target := (start.drop 4).dropWhile isSpace
  if (start.take 4).map Char.toUpper = "COPY".toList ∧ target.length < (start.drop 4).length then
    some (sql.length - target.length)
  else none

theorem copyHead_keyword {rest : Text} (solid : ∀ c ∈ rest.head?, isSpace c = false) :
    copyHead (['C', 'O', 'P', 'Y', ' '] ++ rest) = some 5 := by
  have start : (['C', 'O', 'P', 'Y', ' '] ++ rest).dropWhile isSpace =
      ['C', 'O', 'P', 'Y', ' '] ++ rest := rfl
  have target : ((['C', 'O', 'P', 'Y', ' '] ++ rest).drop 4).dropWhile isSpace = rest := by
    change rest.dropWhile isSpace = rest
    cases rest with
    | nil => rfl
    | cons c rest => exact List.dropWhile_cons_of_neg (by simp [solid c rfl])
  have keyword : ((['C', 'O', 'P', 'Y', ' '] ++ rest).take 4).map Char.toUpper = "COPY".toList := by
    change [Char.toUpper 'C', Char.toUpper 'O', Char.toUpper 'P', Char.toUpper 'Y'] = "COPY".toList
    decide
  have long : (['C', 'O', 'P', 'Y', ' '] ++ rest).length = 5 + rest.length := List.length_append
  simp only [copyHead, start, target, keyword, true_and, List.length_drop]
  rw [if_pos (by omega)]
  exact congrArg some (by omega)

/-- `_strip_terminator`. -/
def stripTerminator (options : Text) : Text :=
  let options := strip options
  if options.getLast? = some ';' then strip options.dropLast else options

/-- `_find_endpoint`: the direction, the text of the target and that of the options. A text
the tokenizer breaks off in has the tokens it found before that. -/
def findEndpoint (t : TextTables) (sql : Text) : Option (Direction × Text × Text) :=
  match copyHead sql with
  | none => none
  | some head =>
    match search t 0 none (tokens t sql head).1 with
    | none => none
    | some found =>
      let target := strip ((sql.take found.start).drop head)
      if target = [] then none
      else some (found.direction, target, stripTerminator (sql.drop found.stop))

structure ParsedCopy where
  direction : Direction
  table : Option Text
  columns : Option (List Text)
  options : CopyOptions
deriving DecidableEq

/-- `parse_copy`. -/
def parseCopy (t : TextTables) (sql : Text) : Except PgError (Option ParsedCopy) :=
  match findEndpoint t sql with
  | none => .ok none
  | some (direction, target, options) => do
    let (table, columns) := parseTarget t target
    .ok (some ⟨direction, table, columns, ← parseOptions t options⟩)

end PgMimic.Endpoint

import PgMimic.CopyTokens

/-!
# What is read off a statement's text

Two predicates look at the bare text: `allowed_in_failed_transaction`, which decides what a
failed transaction refuses, and `command_tag`, which names what has been done. Which text
they are shown is up to the caller.
-/

namespace PgMimic.StatementText

open PgMimic.Copy (Text)
open PgMimic.Endpoint (TextTables)

/-- The capital letter of a pattern that a character matches where the case is ignored. -/
def foldCase (c : Char) : Char :=
  if c = 'İ' ∨ c = 'ı' then 'I' else if c = 'ſ' then 'S' else if c = '\u212a' then 'K' else c.toUpper

section Patterns

/-- What follows a keyword, the case ignored. -/
def keyword (word text : Text) : Option Text :=
  if (text.take word.length).map foldCase = word then some (text.drop word.length) else none

/-- `\s+`. -/
def spaces (text : Text) : Option Text :=
  match text with
  | [] => none
  | c :: rest => if isSpace c then some (rest.dropWhile isSpace) else none

/-- What follows `WORD\s+`. -/
def spaced (word text : Text) : Option Text := (keyword word text).bind spaces

/-- `\s*;?\s*$`. -/
def ends (text : Text) : Bool :=
  match text.dropWhile isSpace with
  | ';' :: rest => rest.all isSpace
  | rest => rest.isEmpty

variable (t : TextTables)

/-- `\b` behind a word. -/
def bounded (text : Text) : Bool :=
  match text with
  | [] => true
  | c :: _ => !t.isWord c

/-- `"[^"]+"`. -/
def quotedIdent : Text → Option (Text × Text)
  | '"' :: rest =>
    let name := rest.takeWhile (· ≠ '"')
    match rest.dropWhile (· ≠ '"') with
    | _ :: after => if name = [] then none else some ('"' :: name ++ ['"'], after)
    | [] => none
  | _ => none

/-- `_IDENT`, and what follows it. -/
def ident (text : Text) : Option (Text × Text) :=
  (quotedIdent text).orElse fun _ =>
    let name := text.takeWhile t.isWord
    if name = [] then none else some (name, text.dropWhile t.isWord)

/-- One of the words stands at the start of the text. -/
def leads (words : List Text) (text : Text) : Bool :=
  words.any fun word => match keyword word (text.dropWhile isSpace) with
    | some rest => bounded t rest
    | none => false

/-- The name a statement ends with. -/
def lastIdent (text : Text) : Option Text :=
  match ident t text with
  | some (name, rest) => if ends rest then some name else none
  | none => none

/-- The first group of `_ROLLBACK_TO_RE`. An optional word is tried before it is left out. -/
def rollbackTo (text : Text) : Option Text :=
  ((spaced "ROLLBACK".toList (text.dropWhile isSpace)).bind fun rest =>
    [spaced "TRANSACTION".toList rest, spaced "WORK".toList rest, some rest].findSome? fun rest =>
      (rest.bind (spaced "TO".toList)).bind fun rest =>
        [spaced "SAVEPOINT".toList rest, some rest].findSome? fun rest => rest.bind (lastIdent t))

/-- `is_transaction_end`. -/
def isTransactionEnd (sql : Text) : Bool :=
  let stripped := Endpoint.strip sql
  if (rollbackTo t stripped).isSome then false
  else leads t ["COMMIT".toList, "END".toList] stripped || leads t ["ROLLBACK".toList] stripped

/-- `allowed_in_failed_transaction`. -/
def allowedInFailedTransaction (sql : Text) : Bool :=
  isTransactionEnd t sql || (rollbackTo t (Endpoint.strip sql)).isSome

end Patterns

/-! ## Command tags -/

section Tags

variable (t : TextTables)

/-- The words of `_TWO_WORD_TAG_RE`'s group. -/
def tagWords : List (List Text) :=
  (["ALL", "PLANS", "SEQUENCES", "TEMP", "TEMPORARY"].map fun kind =>
    ["DISCARD".toList, kind.toList]) ++
  [["DEALLOCATE".toList, "PREPARE".toList, "ALL".toList], ["DEALLOCATE".toList, "ALL".toList]]

/-- What follows the words, with spaces between them. -/
def afterWords : List Text → Text → Option Text
  | [], text => some text
  | [word], text => keyword word text
  | word :: words, text => (spaced word text).bind (afterWords words)

/-- `str.split`. -/
def splitWords (text : Text) : List Text := (text.splitOnP isSpace).filter fun word => !word.isEmpty

/-- The two replacements in a tag of two or three words. -/
def shortenTag : List Text → List Text
  | [discard, kind] =>
    if kind = "TEMPORARY".toList then [discard, "TEMP".toList] else [discard, kind]
  | [deallocate, _, all] => [deallocate, all]
  | words => words

/-- The text of the group, where the pattern matches the whole statement. -/
def twoWordTag (text : Text) : Option Text :=
  tagWords.findSome? fun words =>
    match afterWords words text with
    | some rest => if ends rest then some (text.take (text.length - rest.length)) else none
    | none => none

def rowCountCommands : List Text :=
  ["SELECT", "DELETE", "UPDATE", "MOVE", "FETCH", "COPY"].map String.toList

/-- `command_tag`. -/
def commandTag (sql : Text) (rowCount : Nat) : Text :=
  match twoWordTag (Endpoint.strip sql) with
  | some group => [' '].intercalate (shortenTag (splitWords (t.upper group)))
  | none =>
    let word := t.upper ((Endpoint.strip sql).takeWhile Char.isAlpha)
    if word = "INSERT".toList then "INSERT 0 ".toList ++ (toString rowCount).toList
    else if word ∈ rowCountCommands then word ++ ' ' :: (toString rowCount).toList
    else if word = [] then "SELECT".toList
    else word

end Tags

end PgMimic.StatementText

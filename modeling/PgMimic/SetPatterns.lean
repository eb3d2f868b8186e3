import PgMimic.Patterns
import PgMimic.SetText

/-!
# From the text of a SET or RESET

The patterns of `_set_variants` in the order they are tried, matched with the raw text.
-/

namespace PgMimic.SetPatterns

open Backtracking (Pattern)
open Backtracking.Pattern
open PgMimic.Copy (Text)
open PgMimic.Endpoint (TextTables)
open PgMimic.StatementText (splitWords)
open PgMimic.Patterns

/-- `.`, a line feed excepted. -/
def anyChar (c : Char) : Bool := c ≠ '\n'

section Patterns

variable (t : TextTables)

/-- `SESSION\s+|LOCAL\s+`. -/
def scope : Pattern Char SetScope :=
  either (do word "SESSION"; gap; pure .session) (do word "LOCAL"; gap; pure .localScope)

/-- `TO\b|=`. -/
def assigned : Pattern Char Unit := either (do word "TO"; boundary t) (sign '=')

/-- `_SET_TIME_ZONE_RE`. -/
def setTimeZone : Pattern Char Text := do
  spaces
  word "SET"; gap
  let _ ← optional scope
  word "TIME"; gap; word "ZONE"; gap
  notAhead (assigned t)
  reluctant anyChar

/-- `_SET_SCHEMA_RE`. -/
def setSchema : Pattern Char Text := do
  spaces
  word "SET"; gap
  let _ ← optional scope
  word "SCHEMA"; gap
  notAhead (assigned t)
  reluctant anyChar

/-- `_SET_CHARACTERISTICS_RE`. -/
def setCharacteristics : Pattern Char Text := do
  spaces
  word "SET"; gap; word "SESSION"; gap; word "CHARACTERISTICS"; gap
  word "AS"; gap; word "TRANSACTION"; gap
  reluctant anyChar

/-- `_SET_RE`: the scope, the name and the value. -/
def setRe : Pattern Char (Option SetScope × Text × Text) := do
  spaces
  word "SET"; gap
  let found ← optional scope
  let name ← settingWord t
  spaces
  either (word "TO") (sign '=')
  spaces
  let value ← reluctant anyChar
  pure (found, name, value)

/-- `_RESET_RE`. -/
def resetRe : Pattern Char Text := do
  spaces
  word "RESET"; gap
  let name ← either (taken (word "ALL")) (settingWord t)
  ending
  pure name

end Patterns

/-! ## SET SESSION CHARACTERISTICS -/

section Characteristics

variable (u : UnicodeTables) (t : TextTables)

def isolationLevel : Pattern Char Text := do
  word "ISOLATION"; gap; word "LEVEL"; gap
  taken (either (do word "READ"; gap; word "UNCOMMITTED")
    (either (do word "READ"; gap; word "COMMITTED")
      (either (do word "REPEATABLE"; gap; word "READ") (word "SERIALIZABLE"))))

/-- Whether two words stand one behind the other somewhere. -/
def twoWords (first second : String) (clause : Text) : Bool :=
  ((do word first; gap; word second : Pattern Char Unit).search clause).isSome

/-- `\bDEFERRABLE\b`: at the start of the clause, or behind what is not of a word. -/
def saysDeferrable (clause : Text) : Bool :=
  let whole : Pattern Char Unit := do word "DEFERRABLE"; boundary t
  let behind : Pattern Char Unit := do let _ ← one fun c => !t.isWord c; whole
  (whole.capture clause).isSome || (behind.search clause).isSome

/-- `_transaction_characteristics`. -/
def transactionCharacteristics (clause : Text) : List (String × Option String) :=
  (match isolationLevel.search clause with
    | some level => [("default_transaction_isolation",
        some (u.lower (String.ofList ([' '].intercalate (splitWords level)))))]
    | none => []) ++
  (if twoWords "READ" "ONLY" clause then [("default_transaction_read_only", some "on")]
    else if twoWords "READ" "WRITE" clause then [("default_transaction_read_only", some "off")]
    else []) ++
  (if twoWords "NOT" "DEFERRABLE" clause then [("default_transaction_deferrable", some "off")]
    else if saysDeferrable t clause then [("default_transaction_deferrable", some "on")]
    else [])

end Characteristics

/-! ## The whole of it -/

section Resolution

variable (u : UnicodeTables) (t : TextTables)

/-- What `_SET_RE` has matched: neither spelling of a name has a full stop. -/
def setVariant (found : Option SetScope) (name value : Text) : Option (Except PgError Statement) :=
  if plain : '.' ∉ (String.ofList name).toList then
    PgMimic.setVariants u (.setting found ⟨String.ofList name, plain⟩ (String.ofList value))
  else none

/-- What `_RESET_RE` has matched. -/
def resetVariant (name : Text) : Option (Except PgError Statement) :=
  let name := PgMimic.settingName u (String.ofList name)
  if name = "all" then some (.ok .resetAll)
  else if name ∈ passedThroughSettings then none
  else some (.ok (.assignment [(name, none)] false))

/-- `_set_variants`. -/
def setVariants (sql : Text) : Option (Except PgError Statement) :=
  match (setTimeZone t).capture sql with
  | some value => PgMimic.setVariants u (.timeZone none (String.ofList value))
  | none => match (setSchema t).capture sql with
    | some value => PgMimic.setVariants u (.schema none (String.ofList value))
    | none => match setCharacteristics.capture sql with
      | some clause => some (.ok (.assignment (transactionCharacteristics u t clause) false))
      | none => match (setRe t).capture sql with
        | some (found, name, value) => setVariant u found name value
        | none => ((resetRe t).capture sql).bind (resetVariant u)

end Resolution

end PgMimic.SetPatterns

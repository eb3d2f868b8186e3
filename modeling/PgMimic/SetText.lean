import PgMimic.Statements

/-!
# From the text of a setting write to its statement

The patterns of `_set_variants` and the function calls a table-less SELECT may
carry. A text is given as what its pattern can tell apart: the words in front of
the keywords, the name and the value as they are written. What Python takes
from the Unicode tables is a parameter.
-/

namespace PgMimic

/-- `str.lower`, `str.upper` and `\d`. Lower-casing never makes a full stop, and
leaves text in small ASCII letters as it is. -/
structure UnicodeTables where
  lower : String → String
  upper : String → String
  isDecimal : Char → Bool
  lower_dot : ∀ s, '.' ∈ (lower s).toList → '.' ∈ s.toList
  lower_small : ∀ s, (∀ c ∈ s.toList, c.toNat < 128 ∧ ¬c.isUpper) → lower s = s

/-- `str.strip` of the characters `p` selects. -/
def strip (p : Char → Bool) (s : String) : String :=
  String.ofList ((s.toList.dropWhile p).reverse.dropWhile p).reverse

theorem mem_of_mem_strip {p : Char → Bool} {s : String} {c : Char}
    (h : c ∈ (strip p s).toList) : c ∈ s.toList := by
  rw [strip, String.toList_ofList, List.mem_reverse] at h
  have inner := (List.dropWhile_suffix p).subset h
  exact (List.dropWhile_suffix p).subset (List.mem_reverse.mp inner)

/-- The word between SET and the rest. -/
inductive SetScope where
  | session
  | localScope
  deriving DecidableEq

/-- `_SETTING_NAME`: quoted or not, a name without a full stop. -/
abbrev SettingName := { raw : String // '.' ∉ raw.toList }

/-- `SET [scope] TIME ZONE value`, `SET [scope] SCHEMA value` and
`SET [scope] name TO value`. -/
inductive SetText where
  | timeZone (scope : Option SetScope) (value : String)
  | schema (scope : Option SetScope) (value : String)
  | setting (scope : Option SetScope) (name : SettingName) (value : String)

/-- An argument of a function call, as far as it can be read without running it. -/
inductive Argument where
  | literal (text : String)
  | null
  | boolean (value : Bool)
  | other

structure FunctionCall where
  name : String
  arguments : List Argument

section Resolution

variable (u : UnicodeTables)

/-- `_setting_name`: folded whether quoted or not. -/
def settingName (raw : String) : String := u.lower (strip (· = '"') (strip isSpace raw))

/-- `_set_value`: none for the spellings of the built-in default. -/
def setValue (raw : String) : Option String :=
  if u.upper (strip isSpace raw) ∈ ["DEFAULT", "LOCAL"] then none
  else some (strip (fun c => c = '\'' ∨ c = '"') (strip isSpace raw))

def isPlaceholder (raw : String) : Bool :=
  match (strip isSpace raw).toList with
  | '$' :: digits => !digits.isEmpty && digits.all u.isDecimal
  | _ => false

def passedThroughSettings : List String := ["role", "session_authorization"]

/-- `_set_variants`. The first two patterns skip the scope; only the third captures it. -/
def setVariants : SetText → Option (Except PgError Statement)
  | .timeZone _ value => some (.ok (.assignment [("timezone", setValue u value)] false))
  | .schema _ value => some (.ok (.assignment [("search_path", setValue u value)] false))
  | .setting scope name value =>
    if settingName u name.1 ∈ passedThroughSettings then none
    else if isPlaceholder u value then
      some (.error ⟨"42601", "syntax error at or near \"" ++ strip isSpace value ++ "\"", []⟩)
    else some (.ok (.assignment [(settingName u name.1, setValue u value)]
      (scope = some .localScope)))

/-- `_literal_text`. -/
def literalText : Argument → Option String
  | .literal text => some text
  | .boolean value => some (if value then "on" else "off")
  | .null => none
  | .other => none

/-- The effect of one call, of the two functions that have one. A `set_config` whose
value cannot be read is left to the session; its third argument is not looked at. -/
def callEffect (call : FunctionCall) : Option Effect :=
  if u.lower call.name = "set_config" then
    match call.arguments with
    | .literal name :: value :: _ => match value with
      | .other => none
      | value => some (.setConfig (u.lower name) (literalText value))
    | _ => none
  else if u.lower call.name = "pg_notify" then
    match call.arguments with
    | [channel, message] =>
      (literalText channel).map fun c => .notify c ((literalText message).getD "")
    | _ => none
  else none

/-- `session_functions`, of a SELECT that makes these calls. -/
def sessionFunctions (calls : List FunctionCall) : Option Statement :=
  match calls.filterMap (callEffect u) with
  | [] => none
  | effects => some (.select effects)

end Resolution

/-- The four spellings of a write that asks to be local. -/
inductive LocalWrite where
  | setTo (name : SettingName) (value : String)
  | timeZone (value : String)
  | schema (value : String)
  | setConfig (name : String) (value : Argument)

namespace LocalWrite

variable (u : UnicodeTables)

/-- The statement the middleware answers it with, if it is not left to the session. -/
def statement : LocalWrite → Option (Except PgError Statement)
  | .setTo name value => setVariants u (.setting (some .localScope) name value)
  | .timeZone value => setVariants u (.timeZone (some .localScope) value)
  | .schema value => setVariants u (.schema (some .localScope) value)
  | .setConfig name value =>
    (sessionFunctions u [⟨"set_config", [.literal name, value, .boolean true]⟩]).map .ok

def key : LocalWrite → String
  | .setTo name _ => settingName u name.1
  | .timeZone _ => "timezone"
  | .schema _ => "search_path"
  | .setConfig name _ => u.lower name

def value : LocalWrite → Option String
  | .setTo _ value => setValue u value
  | .timeZone value => setValue u value
  | .schema value => setValue u value
  | .setConfig _ value => literalText value

/-- Only the generic spelling reaches the assignment with its locality. -/
theorem statement_eq {write : LocalWrite} {s : Statement} (h : write.statement u = some (.ok s)) :
    ((∃ name value, write = .setTo name value) ∧ '.' ∉ (write.key u).toList ∧
        s = .assignment [(write.key u, write.value u)] true) ∨
      ((¬∃ name value, write = .setTo name value) ∧
        (s = .assignment [(write.key u, write.value u)] false ∨
          s = .select [.setConfig (write.key u) (write.value u)])) := by
  cases write with
  | setTo name value =>
    left
    refine ⟨⟨name, value, rfl⟩, ?_, ?_⟩
    · intro dotted
      exact name.2 (mem_of_mem_strip (mem_of_mem_strip (u.lower_dot _ dotted)))
    · simp only [statement, setVariants] at h
      split at h
      · cases h
      · split at h
        · cases h
        · exact (Except.ok.inj (Option.some.inj h)).symm
  | timeZone value =>
    right
    exact ⟨by simp, Or.inl (Except.ok.inj (Option.some.inj h)).symm⟩
  | schema value =>
    right
    exact ⟨by simp, Or.inl (Except.ok.inj (Option.some.inj h)).symm⟩
  | setConfig name value =>
    right
    refine ⟨by simp, Or.inr ?_⟩
    have folded : u.lower "set_config" = "set_config" := u.lower_small _ (by simp)
    cases value with
    | other =>
      simp only [statement, sessionFunctions, List.filterMap_cons, callEffect, folded, if_true,
        List.filterMap_nil, Option.map_none, reduceCtorEq] at h
    | _ =>
      simp only [statement, sessionFunctions, List.filterMap_cons, callEffect, folded, if_true,
        List.filterMap_nil, Option.map_some, Option.some.injEq, Except.ok.injEq] at h
      exact h.symm

end LocalWrite

end PgMimic

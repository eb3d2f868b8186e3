import Mathlib.Data.List.Sort
import Mathlib.Data.Rat.Floor
import PgMimic.CopyTokens
import PgMimic.Connection
import PgMimic.Patterns
import PgMimic.Lib.Positional

/-!
# What the values of a setting are

The catalogue says for a parameter which values it takes, and `parse` reads a text as one
of them, in the unit of the parameter. `render` is the text that is shown for a value. The
floating point numbers are a parameter: which texts `float` reads, and what a result is
rounded to.
-/

namespace PgMimic.SettingsValues

open PgMimic.Copy (Text)
open PgMimic.Endpoint (TextTables)
open Positional (digits digitText)

/-! ## Numbers -/

/-- A Python `float`. -/
inductive Double where
  | finite (q : ℚ)
  | infinity (negative : Bool)
  | nan
deriving DecidableEq

/-- `float(text)`, which is none for a ValueError, what the result of an operation is rounded
to, and the format `g`. -/
structure Arithmetic where
  ofText : Text → Option Double
  round : ℚ → Double
  general : Double → Text

/-- An `int` or a `float`. -/
inductive Number where
  | int (n : Int)
  | float (x : Double)
deriving DecidableEq

/-- Tables that lower ASCII as Python does, and know its digits. -/
structure ValueTables extends TextTables where
  lower_ascii : ∀ word, (∀ c ∈ word, c.toNat < 128) → lower word = word.map Char.toLower
  isDigit : Char → Bool
  isDigit_ascii : ∀ c, c.toNat < 128 → isDigit c = c.isDigit

/-- `str` of an `int`. -/
def intText (n : Int) : Text :=
  if n < 0 then '-' :: digitText (digits 10 n.natAbs) else digitText (digits 10 n.natAbs)

section Numbers

variable (f : Arithmetic)

/-- `x * k`. -/
def mul : Double → Nat → Double
  | .finite q, k => f.round (q * k)
  | .infinity negative, k => if k = 0 then .nan else .infinity negative
  | .nan, _ => .nan

/-- `x / k`, of a `k` that is not zero. -/
def div : Double → Nat → Double
  | .finite q, k => f.round (q / k)
  | .infinity negative, _ => .infinity negative
  | .nan, _ => .nan

/-- `int(x)`. -/
def toInt : Double → Except Failure Int
  | .finite q => .ok (q.num.tdiv q.den)
  | .infinity _ => .error (.exception "cannot convert float infinity to integer")
  | .nan => .error (.exception "cannot convert float NaN to integer")

namespace Number

def isZero : Number → Bool
  | .int n => decide (n = 0)
  | .float x => decide (x = .finite 0)

def scale (k : Nat) : Number → Number
  | .int n => .int (n * k)
  | .float x => .float (mul f x k)

/-- `x % size == 0`. -/
def divides (size : Nat) : Number → Bool
  | .int n => decide (n % size = 0)
  | .float (.finite q) => decide ((q / size).den = 1)
  | .float _ => false

/-- `int(x // size)`. -/
def quotient (size : Nat) : Number → Int
  | .int n => n / size
  | .float (.finite q) => ⌊q / size⌋
  | .float _ => 0

/-- `low <= x <= high`. -/
def between (low high : ℚ) : Number → Bool
  | .int n => decide (low ≤ n ∧ (n : ℚ) ≤ high)
  | .float (.finite q) => decide (low ≤ q ∧ q ≤ high)
  | .float _ => false

/-- In the format `g`. -/
def general : Number → Text
  | .int n => f.general (.finite n)
  | .float x => f.general x

/-- `_shown`. -/
def shown : Number → Text
  | .int n => intText n
  | .float x => f.general x

end Number

end Numbers

/-! ## Units -/

abbrev Family := List (Text × Nat)

/-- `_MEMORY_UNITS`. -/
def memoryUnits : Family :=
  [("B".toList, 1), ("kB".toList, 1024), ("MB".toList, 1024 ^ 2), ("GB".toList, 1024 ^ 3),
    ("TB".toList, 1024 ^ 4)]

/-- `_TIME_UNITS`. -/
def timeUnits : Family :=
  [("us".toList, 1), ("ms".toList, 1000), ("s".toList, 1000 ^ 2), ("min".toList, 60 * 1000 ^ 2),
    ("h".toList, 3600 * 1000 ^ 2), ("d".toList, 86400 * 1000 ^ 2)]

/-- `_split_multiple`, of a unit in ASCII. -/
def splitMultiple (unit : Text) : Nat × Text :=
  let multiple := unit.takeWhile Char.isDigit
  (if multiple = [] then 1 else Positional.numeral 10 (Positional.readDigits multiple),
    unit.drop multiple.length)

/-- `_family`, of a unit. -/
def familyOf (unit : Text) : Option Family :=
  let base := (splitMultiple unit).2
  if base ∈ memoryUnits.map Prod.fst then some memoryUnits
  else if base ∈ timeUnits.map Prod.fst then some timeUnits
  else none

/-- A unit of the family, in the smallest of it. -/
def sizeIn (family : Family) (unit : Text) : Nat := (family.lookup unit).getD 0

/-- How much of the smallest unit of its family a unit is. -/
def sizeOf (family : Family) (unit : Text) : Nat :=
  sizeIn family (splitMultiple unit).2 * (splitMultiple unit).1

/-- `sorted(family.items(), key=lambda item: -item[1])`. -/
def largestFirst (family : Family) : Family :=
  family.insertionSort fun unit unit' => unit'.2 ≤ unit.2

/-! ## The catalogue -/

inductive VarType where
  | bool
  | enum
  | integer
  | real
  | string
deriving DecidableEq

/-- A bound as it is written, and the number that `float` makes of it. -/
structure Bound where
  text : Text
  number : ℚ

/-- What the shipped catalogue says of the values of a parameter. Each of its numbers has both
bounds, no unit is nothing, and no two values of an enumeration differ only in case. -/
structure Entry where
  vartype : VarType
  unit : Option Text
  minVal : Option Bound
  maxVal : Option Bound
  enumvals : List Text
  bounded : vartype = .integer ∨ vartype = .real → minVal.isSome = true ∧ maxVal.isSome = true
  positive : ∀ unit', unit = some unit' → 0 < (splitMultiple unit').1
  trimmed : ∀ value ∈ enumvals, (∀ c ∈ value, c.toNat < 128) ∧ Endpoint.strip value = value
  apart : (enumvals.map (List.map Char.toLower)).Nodup

/-- The unit of the parameter and its family, if it has one. -/
def Entry.units (entry : Entry) : Option (Text × Family) :=
  entry.unit.bind fun own => (familyOf own).map fun family => (own, family)

/-- `SETTINGS`, by names in lower case. -/
structure SettingsCatalogue where
  settings : Text → Option Entry
  encoding : ∀ entry, settings "client_encoding".toList = some entry → entry.vartype = .string

/-- `_NARROWER_THAN_POSTGRES`. -/
def narrowed (name : Text) (entry : Entry) : Entry :=
  if name = "client_encoding".toList then
    { entry with
      vartype := .enum
      enumvals := ["UTF8".toList]
      bounded := nofun
      trimmed := fun value member => by
        rw [List.mem_singleton.mp member]
        exact ⟨by simp, by decide⟩
      apart := List.nodup_singleton _ }
  else entry

inductive Value where
  | bool (b : Bool)
  | number (n : Number)
  | text (t : Text)
deriving DecidableEq

/-! ## Parsing -/

/-- `INVALID_PARAMETER_VALUE`. -/
def refusal (message : Text) (hint : Option Text) : Failure :=
  .error ⟨"22023", String.ofList message,
    match hint with
    | none => []
    | some hint => [("H", String.ofList hint)]⟩

def quoted (text : Text) : Text := '"' :: text ++ ['"']

/-- `_invalid`. -/
def invalid (name value : Text) (hint : Option Text) : Failure :=
  refusal ("invalid value for parameter ".toList ++ quoted name ++ ": ".toList ++ quoted value) hint

/-- `_units_hint`. -/
def unitsHint (family : Family) : Text :=
  let quotes := family.map fun unit => quoted unit.1
  "Valid units for this parameter are ".toList ++ ", ".toList.intercalate quotes.dropLast ++
    ", and ".toList ++ quotes.getLastD [] ++ ['.']

/-- `_BOOLS`. -/
def boolSpellings : List (List Text × Nat × Bool) :=
  [(["true".toList, "yes".toList], 1, true), (["false".toList, "no".toList], 1, false),
    (["on".toList], 2, true), (["off".toList], 2, false)]

/-- `_BOOL_WORDS`. -/
def boolWords : List (Text × Bool) :=
  [("1".toList, true), ("0".toList, false), ("true".toList, true), ("false".toList, false),
    ("yes".toList, true), ("no".toList, false), ("on".toList, true), ("off".toList, false)]

def onOff (b : Bool) : Text := if b then "on".toList else "off".toList

section Parsing

variable (t : ValueTables) (f : Arithmetic) (name : Text)

/-- `_parse_bool`. -/
def parseBool (value : Text) : Except Failure Value :=
  let text := t.lower (Endpoint.strip value)
  if text = "1".toList ∨ text = "0".toList then .ok (.bool (text = "1".toList))
  else
    match boolSpellings.find? fun (words, shortest, _) =>
        decide (shortest ≤ text.length) && words.any text.isPrefixOf with
    | some (_, _, result) => .ok (.bool result)
    | none =>
      .error (refusal
        ("parameter ".toList ++ quoted name ++ " requires a Boolean value".toList) none)

/-- `_parse_enum`. -/
def parseEnum (value : Text) (entry : Entry) : Except Failure Value :=
  let text := t.lower (Endpoint.strip value)
  let allowed := entry.enumvals
  let refused := Except.error (invalid name value
    (some ("Available values: ".toList ++ ", ".toList.intercalate allowed ++ ['.'])))
  match allowed.find? fun candidate => text = t.lower candidate with
  | some candidate => .ok (.text candidate)
  | none =>
    if onOff true ∈ allowed ∧ onOff false ∈ allowed then
      match boolWords.lookup text with
      | some b => .ok (.text (onOff b))
      | none => refused
    else refused

/-- A character of a suffix. -/
def isSuffix (c : Char) : Bool := !(t.isDigit c || c = '.')

/-- `_split_suffix`. -/
def splitSuffix (text : Text) : Text × Text :=
  (Endpoint.strip (text.rdropWhile (isSuffix t)), Endpoint.strip (text.rtakeWhile (isSuffix t)))

/-- `_in_own_units`. -/
def inOwnUnits (text : Text) (entry : Entry) : Except Failure Double :=
  let (digits, suffix) := splitSuffix t text
  match f.ofText digits with
  | none => .error (invalid name text none)
  | some number =>
    if suffix = [] then .ok number
    else
      match entry.units with
      | none => .error (invalid name text none)
      | some (own, family) =>
        match family.lookup suffix with
        | none => .error (invalid name text (some (unitsHint family)))
        | some size => .ok (div f (mul f number size) (sizeOf family own))

/-- `_check_range`. -/
def checkRange (result : Number) (entry : Entry) : Except Failure Unit :=
  match entry.minVal, entry.maxVal with
  | some low, some high =>
    if result.between low.number high.number then .ok ()
    else
      let unit := match entry.unit with
        | none => []
        | some unit => ' ' :: unit
      .error (refusal (result.shown f ++ unit ++
        " is outside the valid range for parameter ".toList ++ quoted name ++ " (".toList ++
        low.text ++ unit ++ " .. ".toList ++ high.text ++ unit ++ [')']) none)
  | _, _ => .ok ()

/-- `_parse_number`, of an `integer`. -/
def parseInteger (value : Text) (entry : Entry) : Except Failure Value := do
  let text := Endpoint.strip value
  let number ← inOwnUnits t f name text entry
  let result ← toInt number
  if -2 ^ 31 ≤ result ∧ result ≤ 2 ^ 31 - 1 then
    checkRange f name (.int result) entry
    .ok (.number (.int result))
  else .error (invalid name text (some "Value exceeds integer range.".toList))

/-- `_parse_number`, of a `real`. -/
def parseReal (value : Text) (entry : Entry) : Except Failure Value := do
  let number ← inOwnUnits t f name (Endpoint.strip value) entry
  checkRange f name (.float number) entry
  .ok (.number (.float number))

/-- `parse`, of a parameter with this entry. -/
def parseAs (value : Text) (entry : Entry) : Except Failure Value :=
  match entry.vartype with
  | .bool => parseBool t name value
  | .enum => parseEnum t name value entry
  | .integer => parseInteger t f name value entry
  | .real => parseReal t f name value entry
  | .string => .ok (.text value)

/-- `parse`. -/
def parse (catalogue : SettingsCatalogue) (value : Text) : Except Failure Value :=
  match catalogue.settings (t.lower name) with
  | none => .ok (.text value)
  | some entry => parseAs t f name value (narrowed (t.lower name) entry)

end Parsing

/-! ## Rendering -/

/-- `_render_number`. -/
def renderNumber (f : Arithmetic) (value : Number) (entry : Entry) : Text :=
  let plain := match value with
    | .int n => intText n
    | .float x => f.general x
  match entry.units with
  | none => plain
  | some (own, family) =>
    if value.isZero then plain
    else
      let (multiple, base) := splitMultiple own
      let absolute := (value.scale f multiple).scale f (sizeIn family base)
      match (largestFirst family).find? fun unit => absolute.divides unit.2 with
      | some (unit, size) => intText (absolute.quotient size) ++ unit
      | none => value.general f ++ own

/-- `str`. -/
def str (f : Arithmetic) : Value → Text
  | .bool b => if b then "True".toList else "False".toList
  | .number n => n.shown f
  | .text text => text

/-- `bool`. -/
def truth : Value → Bool
  | .bool b => b
  | .number n => !n.isZero
  | .text text => decide (text ≠ [])

/-- `render`. Of an `integer` and a `real` `parse` returns numbers only, which `int` and `float`
leave as they are. -/
def render (t : ValueTables) (f : Arithmetic) (name : Text) (catalogue : SettingsCatalogue)
    (value : Value) : Text :=
  match catalogue.settings (t.lower name) with
  | none => str f value
  | some entry =>
    match entry.vartype, value with
    | .bool, value => onOff (truth value)
    | .integer, .number n => renderNumber f n entry
    | .real, .number n => renderNumber f n entry
    | _, value => str f value

/-! ## What a parameter takes -/

/-- A number within the bounds. -/
def Entry.InRange (entry : Entry) (n : Number) : Prop :=
  ∃ low high, entry.minVal = some low ∧ entry.maxVal = some high ∧
    n.between low.number high.number = true

/-- The values of a parameter's type. -/
def Entry.Allows (entry : Entry) : Value → Prop
  | .bool _ => entry.vartype = .bool
  | .text text => entry.vartype = .enum ∧ text ∈ entry.enumvals
  | .number (.int n) =>
    entry.vartype = .integer ∧ entry.InRange (.int n) ∧ -2 ^ 31 ≤ n ∧ n ≤ 2 ^ 31 - 1
  | .number (.float x) => entry.vartype = .real ∧ entry.InRange (.float x)

/-! ## Units and their sizes -/

theorem familyOf_cases {unit : Text} {family : Family} (found : familyOf unit = some family) :
    (family = memoryUnits ∨ family = timeUnits) ∧
    (splitMultiple unit).2 ∈ family.map Prod.fst := by
  unfold familyOf at found
  dsimp only at found
  split at found
  · rename_i member
    obtain rfl := Option.some.inj found
    exact ⟨Or.inl rfl, member⟩
  · split at found
    · rename_i member
      obtain rfl := Option.some.inj found
      exact ⟨Or.inr rfl, member⟩
    · cases found

theorem sizeIn_pos {family : Family} (known : family = memoryUnits ∨ family = timeUnits) :
    ∀ unit ∈ family.map Prod.fst, 0 < sizeIn family unit := by
  rcases known with rfl | rfl
  · decide
  · decide

theorem units_eq_some {entry : Entry} {own : Text} {family : Family}
    (units : entry.units = some (own, family)) :
    entry.unit = some own ∧ familyOf own = some family := by
  obtain ⟨unit, has, found⟩ := Option.bind_eq_some_iff.mp units
  obtain ⟨_, known, same⟩ := Option.map_eq_some_iff.mp found
  obtain ⟨rfl, rfl⟩ := Prod.mk.inj same
  exact ⟨has, known⟩

theorem sizeOf_pos {entry : Entry} {own : Text} {family : Family}
    (units : entry.units = some (own, family)) : 0 < sizeOf family own := by
  obtain ⟨unit, found⟩ := units_eq_some units
  obtain ⟨known, member⟩ := familyOf_cases found
  exact Nat.mul_pos (sizeIn_pos known _ member) (entry.positive own unit)

theorem narrowed_of_checked {catalogue : SettingsCatalogue} {name : Text} {entry : Entry}
    (found : catalogue.settings name = some entry) (checked : entry.vartype ≠ .string) :
    narrowed name entry = entry := by
  refine if_neg fun client => checked ?_
  rw [client] at found
  exact catalogue.encoding entry found

end PgMimic.SettingsValues

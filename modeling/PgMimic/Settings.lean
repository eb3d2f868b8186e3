import PgMimic.Connection

/-!
# Configuration parameters

`Catalogue` is what the middleware asks of `settings_catalog` and
`settings_values`: who may set a name, its boot default, what a text means and
how a value reads back. Every setting write, whichever statement spelled it,
goes through `applySetConfig`.
-/

namespace PgMimic

/-- The catalogue and its value parser. An entry carries its context and its
default together, so a name has both or neither. -/
structure Catalogue (Value : Type) where
  context : String → Option String
  default : String → Option String
  parse : String → String → Except PgError Value
  render : String → Value → String
  entry : ∀ name, (context name).isSome = (default name).isSome

/-- A catalogue of one name, a text any client may set. -/
def plainCatalogue : Catalogue String where
  context name := if name = "search_path" then some "user" else none
  default name := if name = "search_path" then some "\"$user\", public" else none
  parse _ text := .ok text
  render _ value := value
  entry name := by by_cases h : name = "search_path" <;> simp [h]

variable {Value Stmt Port : Type}

/-- The names reported by ParameterStatus, under the spelling clients index by. -/
def reportedSettings : List (String × String) :=
  [("application_name", "application_name"),
    ("client_encoding", "client_encoding"),
    ("datestyle", "DateStyle"),
    ("intervalstyle", "IntervalStyle"),
    ("is_superuser", "is_superuser"),
    ("search_path", "search_path"),
    ("session_authorization", "session_authorization"),
    ("standard_conforming_strings", "standard_conforming_strings"),
    ("timezone", "TimeZone")]

/-- `str.isspace` of one character. -/
def isSpace (c : Char) : Bool :=
  c.toNat ∈ [9, 10, 11, 12, 13, 28, 29, 30, 31, 32, 133, 160, 5760, 8192, 8193, 8194, 8195, 8196,
    8197, 8198, 8199, 8200, 8201, 8202, 8232, 8233, 8239, 8287, 12288]

/-- The decimal zeros of Unicode 14. The other nine digits of a script follow its zero. -/
def zeroDigits : List Nat :=
  [0x30, 0x660, 0x6F0, 0x7C0, 0x966, 0x9E6, 0xA66, 0xAE6, 0xB66, 0xBE6, 0xC66, 0xCE6, 0xD66,
    0xDE6, 0xE50, 0xED0, 0xF20, 0x1040, 0x1090, 0x17E0, 0x1810, 0x1946, 0x19D0, 0x1A80, 0x1A90,
    0x1B50, 0x1BB0, 0x1C40, 0x1C50, 0xA620, 0xA8D0, 0xA900, 0xA9D0, 0xA9F0, 0xAA50, 0xABF0,
    0xFF10, 0x104A0, 0x10D30, 0x11066, 0x110F0, 0x11136, 0x111D0, 0x112F0, 0x11450, 0x114D0,
    0x11650, 0x116C0, 0x11730, 0x118E0, 0x11950, 0x11C50, 0x11D50, 0x11DA0, 0x16A60, 0x16AC0,
    0x16B50, 0x1D7CE, 0x1D7D8, 0x1D7E2, 0x1D7EC, 0x1D7F6, 0x1E140, 0x1E2F0, 0x1E950, 0x1FBF0]

def digitOf (c : Char) : Option Nat :=
  (zeroDigits.find? fun first => first ≤ c.toNat && c.toNat < first + 10).map (c.toNat - ·)

/-- Digits behind a number that has been read, an underscore between two of them at most. -/
def digitsFrom (n : Nat) : List Char → Option Nat
  | [] => some n
  | '_' :: c :: rest => (digitOf c).bind fun digit => digitsFrom (10 * n + digit) rest
  | c :: rest => (digitOf c).bind fun digit => digitsFrom (10 * n + digit) rest

def unsigned : List Char → Option Nat
  | [] => none
  | c :: rest => (digitOf c).bind fun digit => digitsFrom digit rest

/-- `int()` of a text without white space; none is a ValueError. -/
def decimal : List Char → Option Int
  | '-' :: rest => (unsigned rest).map fun n => -(n : Int)
  | '+' :: rest => (unsigned rest).map Int.ofNat
  | digits => (unsigned digits).map Int.ofNat

/-- `16.0` is 160000, `18.4` is 180004, and text without a number is blank. -/
def versionNum (version : String) : String :=
  let head := (version.toList.dropWhile isSpace).takeWhile (!isSpace ·)
  match head.splitOn '.' with
  | [] => ""
  | [major] => match decimal major with
    | some a => toString (a * 10000)
    | none => ""
  | major :: minor :: _ => match decimal major, decimal minor with
    | some a, some b => toString (a * 10000 + b)
    | _, _ => ""

/-- `_DEFAULT_SETTINGS`: what pg_mimic answers for itself. -/
def defaultSetting (c : Connection Value Stmt Port) (server : PgServer) : String → Option String
  | "application_name" => some ((c.startupParams.get? "application_name").getD "")
  | "client_encoding" => some ((server.parameterStatus.get? "client_encoding").getD "UTF8")
  | "datestyle" => some ((server.parameterStatus.get? "DateStyle").getD "ISO, MDY")
  | "default_transaction_deferrable" => some "off"
  | "default_transaction_isolation" => some "read committed"
  | "default_transaction_read_only" => some "off"
  | "intervalstyle" => some ((server.parameterStatus.get? "IntervalStyle").getD "postgres")
  | "is_superuser" => some "off"
  | "jit" => some "off"
  | "search_path" => some "\"$user\", public"
  | "server_encoding" => some ((server.parameterStatus.get? "server_encoding").getD "UTF8")
  | "port" => some (toString server.port)
  | "server_version" => some ((server.parameterStatus.get? "server_version").getD "")
  | "server_version_num" =>
    some (versionNum ((server.parameterStatus.get? "server_version").getD ""))
  | "session_authorization" => some c.username
  | "standard_conforming_strings" => some "on"
  | "timezone" => some ((server.parameterStatus.get? "TimeZone").getD "UTC")
  | _ => none

/-- `_setting_value`: the override, else the built-in answer, else the catalogue
default, else a blank for a name written once, else nothing. -/
def settingValue (cat : Catalogue Value) (w : World Value Stmt Port) (key : String) :
    Option String :=
  match w.state.sessionVars.get? key with
  | some value => some (cat.render key value)
  | none => match defaultSetting w.connection w.server key with
    | some text => some text
    | none => match cat.default key with
      | some text => some text
      | none => if key ∈ w.state.knownSettings then some "" else none

def reportSetting (cat : Catalogue Value) (w : World Value Stmt Port) (key : String) :
    World Value Stmt Port :=
  match reportedSettings.lookup key with
  | none => w
  | some reported => w.reportParameter reported ((settingValue cat w key).getD "")

def unrecognizedSetting (name : String) : PgError :=
  ⟨"42704", "unrecognized configuration parameter \"" ++ name ++ "\"", []⟩

/-- `_UNSETTABLE_CONTEXTS`, with the wording for a context it does not know. -/
def unsettableReason : String → String
  | "postmaster" => "cannot be changed without restarting the server"
  | "sighup" => "cannot be changed now"
  | "internal" => "cannot be changed"
  | "backend" => "cannot be set after connection start"
  | "superuser-backend" => "cannot be set after connection start"
  | _ => "cannot be changed"

/-- `_check_settable`: the error it raises, if it raises one. A dotted name is a
custom parameter and always settable. -/
def checkSettable (cat : Catalogue Value) (name : String) : Option PgError :=
  if '.' ∈ name.toList then none
  else match cat.context name with
    | none => some (unrecognizedSetting name)
    | some context =>
      if context = "user" ∨ context = "superuser" then none
      else some ⟨"55P02", "parameter \"" ++ name ++ "\" " ++ unsettableReason context, []⟩

/-- Write a value under `key`, or drop what is there. -/
def assign (d : Dict String Value) (key : String) : Option Value → Dict String Value
  | none => d.erase key
  | some value => d.set key value

theorem get?_assign (d : Dict String Value) (key a : String) (stored : Option Value) :
    (assign d key stored).get? a = if a = key then stored else d.get? a := by
  cases stored with
  | none => exact Dict.get?_erase d key a
  | some value => exact Dict.get?_set d key a value

/-- Writing what is there already changes nothing. -/
theorem assign_eq_self {d : Dict String Value} {key : String} {stored : Option Value}
    (h : d.get? key = stored) : assign d key stored = d := by
  cases stored with
  | none => exact Dict.erase_eq_self h
  | some value => exact Dict.set_eq_self h

/-- `_record_setting`: the state with the write made, and what would put it back. -/
def recordSetting (s : SessionState Value Stmt Port) (key : String) (stored : Option Value)
    (isLocal : Bool) :
    SessionState Value Stmt Port × (SessionState Value Stmt Port → SessionState Value Stmt Port) :=
  ({ s with
      knownSettings := insert key s.knownSettings
      sessionVars := assign s.sessionVars key stored
      committedVars := if isLocal then s.committedVars else assign s.committedVars key stored },
    fun t =>
      { t with
        sessionVars := assign t.sessionVars key (s.sessionVars.get? key)
        committedVars := if isLocal then t.committedVars
          else assign t.committedVars key (s.committedVars.get? key)
        knownSettings := if key ∈ s.knownSettings then t.knownSettings
          else t.knownSettings.erase key })

/-- What `session.set_parameter` or `session.discard` did: returned, or raised. -/
abbrev Answer := Option Failure

/-- The value a write stores, RESET having none to parse. -/
def parseValue (cat : Catalogue Value) (key : String) :
    Option String → Except PgError (Option Value)
  | none => .ok none
  | some text => (cat.parse key text).map some

/-- `_apply_set_config`. A refusal by the session is undone and reported again; a
cancellation is no `Exception`, so it passes the handler by and undoes nothing. -/
def applySetConfig (cat : Catalogue Value) (w : World Value Stmt Port) (key : String)
    (value : Option String) (isLocal : Bool) (answer : Answer) :
    World Value Stmt Port × Option Failure :=
  match checkSettable cat key with
  | some e => (w, some (.error e))
  | none => match parseValue cat key value with
    | .error e => (w, some (.error e))
    | .ok stored =>
      let recorded := recordSetting w.state key stored isLocal
      let written := reportSetting cat (w.withState recorded.1) key
      match answer with
      | none => (written, none)
      | some .cancelled => (written, some .cancelled)
      | some failure =>
        (reportSetting cat (written.withState (recorded.2 written.state)) key, some failure)

/-- One write after another, each hearing the session's next answer. -/
def applyAll (cat : Catalogue Value) (isLocal : Bool) :
    List (String × Option String) → List Answer → World Value Stmt Port →
      World Value Stmt Port × Option Failure
  | [], _, w => (w, none)
  | (key, value) :: rest, answers, w =>
    match applySetConfig cat w key value isLocal (answers.headD none) with
    | (w', none) => applyAll cat isLocal rest answers.tail w'
    | (w', some failure) => (w', some failure)

/-- `_reset_all`: one write per name held when it starts. -/
def resetAll (cat : Catalogue Value) (answers : List Answer) (w : World Value Stmt Port) :
    World Value Stmt Port × Option Failure :=
  applyAll cat false (w.state.sessionVars.keys.map fun name => (name, none)) answers w

/-- Report every name whose value differs from what it was before. -/
def reportChanged [DecidableEq Value] (cat : Catalogue Value) (before : Dict String Value)
    (w : World Value Stmt Port) : World Value Stmt Port :=
  ((before.keys ++ w.state.sessionVars.keys).filter fun name =>
    before.get? name ≠ w.state.sessionVars.get? name).foldl (reportSetting cat) w

end PgMimic

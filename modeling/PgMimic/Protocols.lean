import PgMimic.Connection
import PgMimic.StatementText

/-!
# A statement over both protocols

The simple protocol prepares, describes, binds and executes a statement in one go, and
looks at the raw text before it does. The extended protocol takes three messages for it,
and looks at the text of the prepared statement at the last one. The session is a
parameter: what it prepares, and what that does when it is executed.
-/

namespace PgMimic.Protocols

open PgMimic.Copy (Text)
open PgMimic.Endpoint (TextTables)
open PgMimic.StatementText

/-! ## What the connection calls -/

structure ResultColumn where
  name : Text
  oid : Nat
deriving DecidableEq

/-- Without columns a statement produces no rows. -/
abbrev Columns := Option (List ResultColumn)

structure PortalEntry (Portal : Type) where
  portal : Portal
  columns : Columns
  sql : Text
  rowsReturned : Nat
deriving DecidableEq

/-- What `encode_row` raises. -/
inductive Raised where
  | valueError (text : String)
  | other (failure : Failure)
deriving DecidableEq

/-- A `BaseSession` with its statements and portals, of which the connection tells those of
a COPY apart. None of `prepare`, `describe` and `bind` has an effect. -/
structure Session (Value Stmt Portal Cell : Type) where
  prepare : World Value Stmt (PortalEntry Portal) → Text → Except Failure Stmt
  sql : Stmt → Text
  isCopy : Stmt → Bool
  describe : World Value Stmt (PortalEntry Portal) → Stmt → Except Failure Columns
  bind : World Value Stmt (PortalEntry Portal) → Stmt → Except Failure Portal
  /-- The statement of a `CopyPortal`. -/
  copyOf : Portal → Option Stmt
  /-- The rows, and whether more are held back. -/
  execute : World Value Stmt (PortalEntry Portal) → Portal → Nat →
    World Value Stmt (PortalEntry Portal) × Except Failure (List (List (Option Cell)) × Bool)
  /-- The exchange that a COPY is, and how many rows it moved. -/
  copy : World Value Stmt (PortalEntry Portal) → Stmt →
    World Value Stmt (PortalEntry Portal) × Except Failure Nat
  encodeValue : Nat → Cell → Except Raised Text

/-- What a client is sent, as far as two protocols can agree on it. -/
inductive Reply where
  | parseComplete
  | bindComplete
  | rowDescription (columns : List ResultColumn)
  | dataRow (values : List (Option Text))
  | commandComplete (tag : Text)
  | portalSuspended
  | emptyQueryResponse
  | errorResponse (sqlstate : String)
  | readyForQuery (status : TxStatus)
deriving DecidableEq

variable {Value Stmt Portal Cell : Type}

abbrev W (Value Stmt Portal : Type) := World Value Stmt (PortalEntry Portal)

/-- What a handler did: the world after it, what it wrote, and what it raised. -/
abbrev Handled (Value Stmt Portal : Type) := W Value Stmt Portal × List Reply × Option Failure

def sqlstate : Failure → String
  | .error e => e.sqlstate
  | .exception _ => "XX000"
  | .cancelled => "57014"

section Encoding

variable (s : Session Value Stmt Portal Cell)

/-- `encode_row`, in text format. -/
def encodeRow : List (Option Cell) → List ResultColumn → Except Raised (List (Option Text))
  | [], _ => .ok []
  | none :: row, columns => do .ok (none :: (← encodeRow row columns.tail))
  | some _ :: _, [] => .error (.other (.exception "list index out of range"))
  | some value :: row, column :: columns => do
    let text ← s.encodeValue column.oid value
    .ok (some text :: (← encodeRow row columns))

/-- The DataRows up to the first row that cannot be encoded, and what it raises. -/
def encodeRows (columns : List ResultColumn) :
    List (List (Option Cell)) → List Reply × Option Raised
  | [] => ([], none)
  | row :: rows =>
    match encodeRow s row columns with
    | .error raised => ([], some raised)
    | .ok values =>
      let (written, raised) := encodeRows columns rows
      (.dataRow values :: written, raised)

/-- A statement without columns sends none of its rows. -/
def sendRows (columns : Columns) (rows : List (List (Option Cell))) : List Reply × Option Raised :=
  match columns with
  | none => ([], none)
  | some columns => encodeRows s columns rows

end Encoding

def copyPortalExecuted : PgError :=
  ⟨"XX000", "a COPY portal is driven by the copy sub-protocol, not Portal.execute()", []⟩

def noStatement (name : String) : PgError :=
  ⟨"26000", "prepared statement \"" ++ name ++ "\" does not exist", []⟩

def noPortal (name : String) : PgError := ⟨"26000", "portal \"" ++ name ++ "\" does not exist", []⟩

def abortedTransaction : PgError :=
  ⟨"25P02", "current transaction is aborted, commands ignored", []⟩

/-- A token of the text that `split_statements` has been given: where a `;` stands. -/
structure Semicolon where
  start : Nat
  stop : Nat

/-- The loop of `split_statements`. -/
def pieces (sql : Text) (start : Nat) : List Semicolon → List Text
  | [] => [sql.drop start]
  | token :: later => (sql.take token.start).drop start :: pieces sql (token.stop + 1) later

/-- `split_statements`: the semicolons are the tokenizer's, none where it raises. -/
def splitStatements (tokenize : Text → Option (List Semicolon)) (sql : Text) : List Text :=
  match tokenize sql with
  | none => [sql]
  | some tokens =>
    let statements := (pieces sql 0 tokens).filter fun piece => Endpoint.strip piece ≠ []
    if 1 < statements.length then statements else [sql]

section Handlers

variable (t : TextTables) (s : Session Value Stmt Portal Cell)

/-- `Portal.execute`: that of a `CopyPortal` only raises. -/
def executePortal (w : W Value Stmt Portal) (portal : Portal) (maxRows : Nat) :
    W Value Stmt Portal × Except Failure (List (List (Option Cell)) × Bool) :=
  match s.copyOf portal with
  | some _ => (w, .error (.error copyPortalExecuted))
  | none => s.execute w portal maxRows

/-- `_run_copy`. -/
def runCopy (w : W Value Stmt Portal) (statement : Stmt) : Handled Value Stmt Portal :=
  match s.copy w statement with
  | (w', .error failure) => (w', [], some failure)
  | (w', .ok rowCount) => (w', [.commandComplete (commandTag t (s.sql statement) rowCount)], none)

/-- What a failed transaction refuses. -/
def refused (w : W Value Stmt Portal) (sql : Text) : Bool :=
  decide (w.txStatus = .E) && !allowedInFailedTransaction t sql

/-- An exception of the encoder's is not caught. -/
def Raised.uncaught : Raised → Failure
  | .valueError text => .exception text
  | .other failure => failure

/-- `except ValueError`. -/
def Raised.caught : Raised → Failure
  | .valueError text => .error ⟨"0A000", text, []⟩
  | .other failure => failure

def describeRows : Columns → List Reply
  | none => []
  | some columns => [.rowDescription columns]

/-- What `_execute_one_simple_statement` does with a statement that is no COPY. -/
def runStatement (w : W Value Stmt Portal) (sql : Text) (statement : Stmt) :
    Handled Value Stmt Portal :=
  match s.describe w statement with
  | .error failure => (w, [], some failure)
  | .ok columns =>
    match s.bind w statement with
    | .error failure => (w, [], some failure)
    | .ok portal =>
      match executePortal s w portal 0 with
      | (w', .error failure) => (w', [], some failure)
      | (w', .ok (rows, _)) =>
        let (written, raised) := sendRows s columns rows
        match raised with
        | some raised => (w', describeRows columns ++ written, some raised.uncaught)
        | none =>
          let tagged := if s.sql statement = [] then sql else s.sql statement
          (w', describeRows columns ++ written ++ [.commandComplete (commandTag t tagged rows.length)],
            none)

/-- `_execute_one_simple_statement`. -/
def executeOneSimpleStatement (w : W Value Stmt Portal) (sql : Text) : Handled Value Stmt Portal :=
  if refused t w sql then (w, [], some (.error abortedTransaction))
  else if Endpoint.strip sql = [] then (w, [.emptyQueryResponse], none)
  else
    match s.prepare w sql with
    | .error failure => (w, [], some failure)
    | .ok statement =>
      if s.isCopy statement then runCopy t s w statement else runStatement t s w sql statement

/-- One statement after another, up to the first that raises. -/
def executeAll (w : W Value Stmt Portal) : List Text → Handled Value Stmt Portal
  | [] => (w, [], none)
  | sql :: later =>
    match executeOneSimpleStatement t s w sql with
    | (w', written, some failure) => (w', written, some failure)
    | (w', written, none) =>
      let (w'', more, failure) := executeAll w' later
      (w'', written ++ more, failure)

/-- `_handle_simple_query`. -/
def handleSimpleQuery (tokenize : Text → Option (List Semicolon)) (w : W Value Stmt Portal)
    (sql : Text) : Handled Value Stmt Portal :=
  if Endpoint.strip sql = [] then (w, [.emptyQueryResponse], none)
  else executeAll t s w (splitStatements tokenize sql)

/-- `_handle_parse`, without parameter types. -/
def handleParse (w : W Value Stmt Portal) (name : String) (sql : Text) :
    Handled Value Stmt Portal :=
  match s.prepare w sql with
  | .error failure => (w, [], some failure)
  | .ok statement =>
    (w.withState { w.state with statements := w.state.statements.set name statement },
      [.parseComplete], none)

/-- `_handle_bind`, without parameters and result formats. -/
def handleBind (w : W Value Stmt Portal) (portalName statementName : String) :
    Handled Value Stmt Portal :=
  match w.state.statements.get? statementName with
  | none => (w, [], some (.error (noStatement statementName)))
  | some statement =>
    match s.bind w statement with
    | .error failure => (w, [], some failure)
    | .ok portal =>
      match s.describe w statement with
      | .error failure => (w, [], some failure)
      | .ok columns =>
        (w.withState { w.state with
          portals := w.state.portals.set portalName ⟨portal, columns, s.sql statement, 0⟩ },
          [.bindComplete], none)

/-- `entry.rows_returned += n`, which shows while the portal is still there. -/
def countRows (w : W Value Stmt Portal) (name : String) (n : Nat) : W Value Stmt Portal :=
  match w.state.portals.get? name with
  | none => w
  | some entry => w.withState { w.state with
      portals := w.state.portals.set name { entry with rowsReturned := entry.rowsReturned + n } }

/-- `_handle_execute`. -/
def handleExecute (w : W Value Stmt Portal) (portalName : String) (maxRows : Nat) :
    Handled Value Stmt Portal :=
  match w.state.portals.get? portalName with
  | none => (w, [], some (.error (noPortal portalName)))
  | some entry =>
    if refused t w entry.sql then (w, [], some (.error abortedTransaction))
    else
      match s.copyOf entry.portal with
      | some statement => runCopy t s w statement
      | none =>
        match executePortal s w entry.portal maxRows with
        | (w', .error failure) => (w', [], some failure)
        | (w', .ok (rows, suspended)) =>
          let counted := countRows w' portalName rows.length
          let (written, raised) := sendRows s entry.columns rows
          match raised with
          | some raised => (counted, written, some raised.caught)
          | none =>
            (counted, written ++ [if suspended then .portalSuspended
              else .commandComplete (commandTag t entry.sql (entry.rowsReturned + rows.length))],
              none)

end Handlers

/-! ## The command loop -/

inductive ClientMessage where
  | query (sql : Text)
  | parse (name : String) (sql : Text)
  | bind (portal statement : String)
  | execute (portal : String) (maxRows : Nat)
  | sync

/-- The connection between two messages. -/
structure Loop (Value Stmt Portal : Type) where
  world : W Value Stmt Portal
  ignoreUntilSync : Bool
  replies : List Reply

section Loop

variable (t : TextTables) (s : Session Value Stmt Portal Cell)
  (tokenize : Text → Option (List Semicolon))

def handle (w : W Value Stmt Portal) : ClientMessage → Handled Value Stmt Portal
  | .query sql => handleSimpleQuery t s tokenize w sql
  | .parse name sql => handleParse s w name sql
  | .bind portal statement => handleBind s w portal statement
  | .execute portal maxRows => handleExecute t s w portal maxRows
  | .sync => (w, [], none)

/-- What has been raised is answered with an error, and fails the transaction. -/
def report (c : Loop Value Stmt Portal) : Handled Value Stmt Portal → Loop Value Stmt Portal
  | (w, written, none) => { c with world := w, replies := c.replies ++ written }
  | (w, written, some failure) =>
    ⟨w.fail, true, c.replies ++ written ++ [.errorResponse (sqlstate failure)]⟩

/-- A message is dispatched unless it is skipped, and a Query or a Sync ends in ReadyForQuery. -/
def dispatch (c : Loop Value Stmt Portal) (m : ClientMessage) : Loop Value Stmt Portal :=
  match m with
  | .sync => ⟨c.world, false, c.replies ++ [.readyForQuery c.world.txStatus]⟩
  | .query _ =>
    let after := if c.ignoreUntilSync then c else report c (handle t s tokenize c.world m)
    ⟨after.world, false, after.replies ++ [.readyForQuery after.world.txStatus]⟩
  | _ => if c.ignoreUntilSync then c else report c (handle t s tokenize c.world m)

def ready (w : W Value Stmt Portal) : Loop Value Stmt Portal := ⟨w, false, []⟩

/-- The text sent as a Query. -/
def viaQuery (w : W Value Stmt Portal) (sql : Text) : Loop Value Stmt Portal :=
  dispatch t s tokenize (ready w) (.query sql)

/-- The text sent as an unnamed Parse, a Bind, an Execute without a limit, and a Sync. -/
def viaExtended (w : W Value Stmt Portal) (sql : Text) : Loop Value Stmt Portal :=
  [.parse "" sql, .bind "" "", .execute "" 0, .sync].foldl (dispatch t s tokenize) (ready w)

end Loop

/-! ## What the two are compared by -/

/-- The rows, the command tags and the SQLSTATEs of the errors a client has been sent. -/
structure Observed where
  rows : List (List (Option Text))
  tags : List Text
  errors : List String
deriving DecidableEq

def rowOf : Reply → Option (List (Option Text))
  | .dataRow values => some values
  | _ => none

def tagOf : Reply → Option Text
  | .commandComplete tag => some tag
  | _ => none

def errorOf : Reply → Option String
  | .errorResponse sqlstate => some sqlstate
  | _ => none

def observed (replies : List Reply) : Observed :=
  ⟨replies.filterMap rowOf, replies.filterMap tagOf, replies.filterMap errorOf⟩

/-- Equal but for what is kept under the empty name. -/
def SameNamed {ν : Type} (d e : Dict String ν) : Prop := ∀ name, name ≠ "" → d.get? name = e.get? name

/-- Equal but for the unnamed statement and the unnamed portal. -/
structure ApartState (a b : SessionState Value Stmt (PortalEntry Portal)) : Prop where
  sessionVars : b.sessionVars = a.sessionVars
  committedVars : b.committedVars = a.committedVars
  knownSettings : b.knownSettings = a.knownSettings
  listening : b.listening = a.listening
  pendingNotifies : b.pendingNotifies = a.pendingNotifies
  scopes : b.scopes = a.scopes
  savepoints : b.savepoints = a.savepoints
  statements : SameNamed a.statements b.statements
  portals : SameNamed a.portals b.portals

/-- Worlds whose session states are so, and that differ in nothing else. -/
structure Apart (w v : W Value Stmt Portal) : Prop where
  state : ApartState w.state v.state
  others : v = w.withState v.state

/-- The two runs end in the same session state and status, and have sent the same. -/
structure Alike (a b : Loop Value Stmt Portal) : Prop where
  state : ApartState a.world.state b.world.state
  txStatus : a.world.txStatus = b.world.txStatus
  observed : observed a.replies = observed b.replies

/-- A session that does not look at the unnamed entries, and holds no rows back where there
is no limit. -/
structure Session.Contract (s : Session Value Stmt Portal Cell) : Prop where
  describe : ∀ {w v} statement, Apart w v → s.describe v statement = s.describe w statement
  bind : ∀ {w v} statement, Apart w v → s.bind v statement = s.bind w statement
  execute : ∀ {w v} portal maxRows, Apart w v →
    (s.execute v portal maxRows).2 = (s.execute w portal maxRows).2 ∧
      Apart (s.execute w portal maxRows).1 (s.execute v portal maxRows).1
  copy : ∀ {w v} statement, Apart w v → (s.copy v statement).2 = (s.copy w statement).2 ∧
    Apart (s.copy w statement).1 (s.copy v statement).1
  unlimited : ∀ {w portal rows suspended}, (s.execute w portal 0).2 = .ok (rows, suspended) →
    suspended = false

/-- Exactly one statement, which is not blank. -/
structure OneStatement (tokenize : Text → Option (List Semicolon)) (sql : Text) : Prop where
  single : (splitStatements tokenize sql).length = 1
  nonempty : Endpoint.strip sql ≠ []

/-! ## Apart from the unnamed entries -/

section Relations

theorem SameNamed.refl {ν : Type} (d : Dict String ν) : SameNamed d d := fun _ _ => rfl

theorem SameNamed.set {ν : Type} (d : Dict String ν) (value : ν) :
    SameNamed d (d.set "" value) := by
  intro name named
  rw [Dict.get?_set, if_neg named]

variable {a b c : SessionState Value Stmt (PortalEntry Portal)} {u v w : W Value Stmt Portal}

theorem ApartState.refl (a : SessionState Value Stmt (PortalEntry Portal)) : ApartState a a :=
  ⟨rfl, rfl, rfl, rfl, rfl, rfl, rfl, SameNamed.refl _, SameNamed.refl _⟩

theorem ApartState.symm (h : ApartState a b) : ApartState b a where
  sessionVars := h.sessionVars.symm
  committedVars := h.committedVars.symm
  knownSettings := h.knownSettings.symm
  listening := h.listening.symm
  pendingNotifies := h.pendingNotifies.symm
  scopes := h.scopes.symm
  savepoints := h.savepoints.symm
  statements := fun name named => (h.statements name named).symm
  portals := fun name named => (h.portals name named).symm

theorem ApartState.trans (h : ApartState a b) (h' : ApartState b c) : ApartState a c where
  sessionVars := h'.sessionVars.trans h.sessionVars
  committedVars := h'.committedVars.trans h.committedVars
  knownSettings := h'.knownSettings.trans h.knownSettings
  listening := h'.listening.trans h.listening
  pendingNotifies := h'.pendingNotifies.trans h.pendingNotifies
  scopes := h'.scopes.trans h.scopes
  savepoints := h'.savepoints.trans h.savepoints
  statements := fun name named => (h.statements name named).trans (h'.statements name named)
  portals := fun name named => (h.portals name named).trans (h'.portals name named)

theorem Apart.refl (w : W Value Stmt Portal) : Apart w w := ⟨ApartState.refl _, rfl⟩

theorem Apart.trans (h : Apart u v) (h' : Apart v w) : Apart u w where
  state := h.state.trans h'.state
  others := by rw [h'.others, h.others]; rfl

theorem Apart.txStatus (h : Apart w v) : v.txStatus = w.txStatus := by rw [h.others]; rfl

theorem fail_txStatus (w : W Value Stmt Portal) :
    w.fail.txStatus = if w.txStatus = .I then .I else .E := by
  by_cases idle : w.txStatus = .I
  · rw [World.fail, if_pos idle, if_pos idle, idle]
  · rw [World.fail, if_neg idle, if_neg idle]
    rfl

theorem Apart.fail_txStatus (h : Apart w v) : v.fail.txStatus = w.fail.txStatus := by
  rw [Protocols.fail_txStatus, Protocols.fail_txStatus, h.txStatus]

/-- Storing the unnamed statement. -/
theorem apart_statement (w : W Value Stmt Portal) (statement : Stmt) :
    Apart w (w.withState { w.state with statements := w.state.statements.set "" statement }) where
  state := { ApartState.refl w.state with statements := SameNamed.set _ _ }
  others := rfl

/-- Storing the unnamed portal. -/
theorem apart_portal (w : W Value Stmt Portal) (entry : PortalEntry Portal) :
    Apart w (w.withState { w.state with portals := w.state.portals.set "" entry }) where
  state := { ApartState.refl w.state with portals := SameNamed.set _ _ }
  others := rfl

theorem apart_countRows (w : W Value Stmt Portal) (n : Nat) : Apart w (countRows w "" n) := by
  cases held : w.state.portals.get? "" with
  | none => simpa only [countRows, held] using Apart.refl w
  | some entry =>
    simpa only [countRows, held] using
      apart_portal w { entry with rowsReturned := entry.rowsReturned + n }

end Relations

end PgMimic.Protocols

import PgMimic.CopyIn
import PgMimic.IncrementalFetch
import PgMimic.Lib.Commands
import PgMimic.Messages

/-!
# Dispatching the commands of a client

The handlers of both protocols as commands: they change the connection, write messages as they
go, and raise. What is behind the session is left open, and so is when it pushes a notice at
the client. A message that cannot be built is not written, and raises where it would have
been.
-/

namespace PgMimic.Dispatch

open PgMimic.Copy (Text Format CopyOptions)
open PgMimic.Endpoint (TextTables)
open PgMimic.IncrementalFetch (Encoders formatCodeFor encodeRow)
open PgMimic.Messages (Backend FieldSpec Bytes)
open PgMimic.Protocols (Columns ResultColumn Raised Semicolon splitStatements noStatement noPortal
  abortedTransaction)
open PgMimic.StatementText (commandTag allowedInFailedTransaction)
open PgMimic.Stream (Tag Message)

/-! ## What is written -/

/-- A message that has been built. -/
abbrev Written := { b : Backend // b.make.isSome = true }

/-- A notice, or a notification. -/
abbrev Pushed := { w : Written // w.1.isAsync = true }

/-- What leaves a handler. -/
inductive Thrown where
  | failure (f : Failure)
  /-- A bad frame in the middle of a copy. -/
  | protocolViolation (e : PgError)
  | connectionClosed
deriving DecidableEq

/-! ## The connection -/

structure PortalEntry (Portal : Type) where
  portal : Portal
  columns : Columns
  sql : Text
  resultFormatCodes : List Int
  rowsReturned : Nat
deriving DecidableEq

abbrev W (Value Stmt Portal : Type) := World Value Stmt (PortalEntry Portal)

/-- The connection between two awaits. `own` is what the session keeps for itself. -/
structure Conn (σ Value Stmt Portal : Type) where
  own : σ
  world : W Value Stmt Portal
  pendingAsync : List Pushed
  ignoreUntilSync : Bool
  atReadyForQuery : Bool

/-- What a session does when it is called: it may change what it can reach, push notices, and
raise. -/
abbrev Hook (σ Value Stmt Portal α : Type) :=
  σ × W Value Stmt Portal → (σ × W Value Stmt Portal) × List Pushed × Except Thrown α

/-- What tells a `CopyStatement` from others. -/
structure CopyStatement where
  inbound : Bool
  options : CopyOptions
  columnCount : Nat

/-- What `copy_out` iterates: each row is only there once it is pulled, and so is the end. -/
structure RowSource (σ Value Stmt Portal Cell : Type) where
  rows : List (Hook σ Value Stmt Portal (List (Option Cell)))
  atEnd : Hook σ Value Stmt Portal Unit

/-- The session, and the stream where it may suspend the connection. -/
structure Session (σ Value Stmt Portal Cell Param : Type) where
  prepare : Text → List (Option Int) → Hook σ Value Stmt Portal Stmt
  sql : Stmt → Text
  paramOids : Stmt → List (Option Int)
  copyStatement : Stmt → Option CopyStatement
  describe : Stmt → Hook σ Value Stmt Portal Columns
  bind : Stmt → List (Option Param) → Hook σ Value Stmt Portal Portal
  /-- The statement of a `CopyPortal`. -/
  copyOf : Portal → Option (Stmt × CopyStatement)
  /-- The rows, and whether more are held back. -/
  execute : Portal → Int → Hook σ Value Stmt Portal (List (List (Option Cell)) × Bool)
  /-- What follows the CopyInResponse, up to the end of the client's data: the rows stored. It
  reads the stream itself, and a Sync or a Query it takes off there is never dispatched. -/
  copyIn : Stmt → Hook σ Value Stmt Portal Nat
  headerNames : Stmt → Hook σ Value Stmt Portal (List Text)
  copyOut : Stmt → Hook σ Value Stmt Portal (RowSource σ Value Stmt Portal Cell)
  /-- While the stream drains other tasks run, the command may be cancelled, and the connection
  may turn out to be lost. -/
  drain : σ × W Value Stmt Portal → (σ × W Value Stmt Portal) × List Pushed × Except Failure Unit

/-- What `types` makes of values and parameters. -/
structure Types (Cell Param : Type) where
  encoders : Encoders Cell Bytes
  copyText : Cell → Except Failure Text
  str : Text → Param
  decodeTextParam : Int → Text → Except Raised Param
  decodeBinaryParam : Int → Bytes → Except Raised Param

/-- What is Python's own, or the tokenizer's. -/
structure Runtime where
  tables : TextTables
  tokenize : Text → Option (List Semicolon)
  /-- The text of the exception of a payload that does not parse, and of bytes that are no
  UTF-8. -/
  malformed : Message → String
  notUtf8 : Bytes → String
  /-- The text of the `struct.error` of a message that cannot be built. -/
  structError : Backend → String

variable {σ Value Stmt Portal Cell Param α : Type}

abbrev Cmd (σ Value Stmt Portal α : Type) := Command (Conn σ Value Stmt Portal) Written Thrown α

/-- The session is called, and what it pushes is written at once. -/
def call (hook : Hook σ Value Stmt Portal α) : Cmd σ Value Stmt Portal α := fun c =>
  let ((own, world), pushed, result) := hook (c.own, c.world)
  ({ c with own := own, world := world }, pushed.map Subtype.val, result)

def fail (e : PgError) : Cmd σ Value Stmt Portal α := Command.raise (.failure (.error e))

def getWorld : Cmd σ Value Stmt Portal (W Value Stmt Portal) := do
  let c ← Command.read
  pure c.world

def setState (f : SessionState Value Stmt (PortalEntry Portal) →
    SessionState Value Stmt (PortalEntry Portal)) : Cmd σ Value Stmt Portal Unit :=
  Command.change fun c => { c with world := c.world.withState (f c.world.state) }

section Handlers

variable (rt : Runtime) (ty : Types Cell Param) (s : Session σ Value Stmt Portal Cell Param)

/-- `self.stream.write` of a message just built. -/
def send (b : Backend) : Cmd σ Value Stmt Portal Unit :=
  if made : b.make.isSome = true then Command.write ⟨b, made⟩
  else Command.raise (.failure (.exception (rt.structError b)))

/-- What a failed transaction refuses. -/
def refused (w : W Value Stmt Portal) (sql : Text) : Bool :=
  decide (w.txStatus = .E) && !allowedInFailedTransaction rt.tables sql

/-! ## COPY -/

/-- `CopyEncoder.row`. -/
def copyRow (o : CopyOptions) (row : List (Option Cell)) : Except Thrown Bytes :=
  match row.mapM fun cell => cell.mapM ty.copyText with
  | .ok fields => .ok (Copy.encodeRow o fields)
  | .error failure => .error (.failure failure)

/-- `CopyEncoder.header`. -/
def copyHeader (o : CopyOptions) (names : List Text) : Bytes := Copy.encodeRow o (names.map some)

/-- `await self.stream.drain()`. -/
def drain : Cmd σ Value Stmt Portal Unit :=
  call fun reached =>
    let (left, pushed, result) := s.drain reached
    (left, pushed, result.mapError Thrown.failure)

/-- `_copy_in`. -/
def copyIn (statement : Stmt) (copy : CopyStatement) : Cmd σ Value Stmt Portal Nat := do
  send rt (.copyInResponse copy.columnCount)
  drain s
  call (s.copyIn statement)

def COPY_OUT_DRAIN_INTERVAL : Nat := 100

def drainAt (rowCount : Nat) : Cmd σ Value Stmt Portal Unit :=
  if rowCount % COPY_OUT_DRAIN_INTERVAL = 0 then drain s else pure ()

/-- `async for row in rows`, with `rowCount` rows behind it. -/
def copyRows (o : CopyOptions) (atEnd : Hook σ Value Stmt Portal Unit) (rowCount : Nat) :
    List (Hook σ Value Stmt Portal (List (Option Cell))) → Cmd σ Value Stmt Portal Nat
  | [] => do
    call atEnd
    pure rowCount
  | pull :: rows => do
    let row ← call pull
    let data ← Command.settle (copyRow ty o row)
    send rt (.copyData data)
    drainAt s (rowCount + 1)
    copyRows o atEnd (rowCount + 1) rows

/-- The first row is pulled before anything is written. -/
def firstRow (source : RowSource σ Value Stmt Portal Cell) :
    Cmd σ Value Stmt Portal (Option (List (Option Cell))) :=
  match source.rows with
  | [] => do
    call source.atEnd
    pure none
  | pull :: _ => do
    let row ← call pull
    pure (some row)

/-- `len(first_row) if first_row is not None else len(header or ()) or column_count`. -/
def columnCountOf (first : Option (List (Option Cell))) (header : Option (List Text))
    (columnCount : Nat) : Nat :=
  match first with
  | some row => row.length
  | none => if (header.getD []).length = 0 then columnCount else (header.getD []).length

def sendHeader (o : CopyOptions) : Option (List Text) → Cmd σ Value Stmt Portal Unit
  | none => pure ()
  | some names => send rt (.copyData (copyHeader o names))

def sendFirst (o : CopyOptions) : Option (List (Option Cell)) → Cmd σ Value Stmt Portal Nat
  | none => pure 0
  | some row => do
    let data ← Command.settle (copyRow ty o row)
    send rt (.copyData data)
    pure 1

def headerOf (statement : Stmt) (o : CopyOptions) : Cmd σ Value Stmt Portal (Option (List Text)) :=
  if o.header then do
    let names ← call (s.headerNames statement)
    pure (some names)
  else pure none

/-- `_copy_out`. Behind an exhausted source the end is asked for once more. -/
def copyOut (statement : Stmt) (copy : CopyStatement) : Cmd σ Value Stmt Portal Nat := do
  let header ← headerOf s statement copy.options
  let source ← call (s.copyOut statement)
  let first ← firstRow source
  send rt (.copyOutResponse (columnCountOf first header copy.columnCount))
  sendHeader rt copy.options header
  let sent ← sendFirst rt ty copy.options first
  let rowCount ← copyRows rt ty s copy.options source.atEnd sent source.rows.tail
  send rt .copyDone
  pure rowCount

/-- `_run_copy`. -/
def runCopy (statement : Stmt) (copy : CopyStatement) : Cmd σ Value Stmt Portal Unit := do
  let rowCount ← if copy.inbound then copyIn rt s statement copy
    else copyOut rt ty s statement copy
  send rt (.commandComplete (commandTag rt.tables (s.sql statement) rowCount))

/-! ## Descriptions and rows -/

/-- `_field_specs`, from an index on. -/
def fieldSpecs (codes : List Int) (index : Nat) : List ResultColumn → Except Raised (List FieldSpec)
  | [] => .ok []
  | column :: columns => do
    let code ← formatCodeFor codes index
    let specs ← fieldSpecs codes (index + 1) columns
    .ok ({ name := column.name, oid := column.oid, formatCode := code } :: specs)

def uncaught {β : Type} (r : Except Raised β) : Except Thrown β :=
  r.mapError fun raised => .failure raised.uncaught

def caught {β : Type} (r : Except Raised β) : Except Thrown β :=
  r.mapError fun raised => .failure raised.caught

def sendDescription (codes : List Int) (columns : List ResultColumn) :
    Cmd σ Value Stmt Portal Unit := do
  let specs ← Command.settle (uncaught (fieldSpecs codes 0 columns))
  send rt (.rowDescription specs)

/-- One row after another; `encode` says what a row that does not encode raises. -/
def sendRows (encode : List (Option Cell) → Except Thrown (List (Option Bytes))) :
    List (List (Option Cell)) → Cmd σ Value Stmt Portal Unit
  | [] => pure ()
  | row :: rows => do
    let values ← Command.settle (encode row)
    send rt (.dataRow values)
    sendRows encode rows

/-! ## The simple protocol -/

/-- Without columns a statement sends none of its rows. -/
def sendResult (columns : Columns) (rows : List (List (Option Cell))) :
    Cmd σ Value Stmt Portal Unit :=
  match columns with
  | none => pure ()
  | some columns => do
    sendDescription rt [] columns
    sendRows rt (fun row => uncaught (encodeRow ty.encoders columns [] row)) rows

/-- What `_execute_one_simple_statement` does with a statement that is no COPY. -/
def runStatement (sql : Text) (statement : Stmt) : Cmd σ Value Stmt Portal Unit := do
  let columns ← call (s.describe statement)
  let portal ← call (s.bind statement [])
  let (rows, _) ← call (s.execute portal 0)
  sendResult rt ty columns rows
  let tagged := if s.sql statement = [] then sql else s.sql statement
  send rt (.commandComplete (commandTag rt.tables tagged rows.length))

/-- `_execute_one_simple_statement`. -/
def executeOneSimpleStatement (sql : Text) : Cmd σ Value Stmt Portal Unit := do
  let w ← getWorld
  if refused rt w sql then fail abortedTransaction
  else if Endpoint.strip sql = [] then send rt .emptyQueryResponse
  else do
    let statement ← call (s.prepare sql [])
    match s.copyStatement statement with
    | some copy => runCopy rt ty s statement copy
    | none => runStatement rt ty s sql statement

def executeAll : List Text → Cmd σ Value Stmt Portal Unit
  | [] => pure ()
  | sql :: later => do
    executeOneSimpleStatement rt ty s sql
    executeAll later

/-- `_handle_simple_query`. -/
def handleSimpleQuery (sql : Text) : Cmd σ Value Stmt Portal Unit :=
  if Endpoint.strip sql = [] then send rt .emptyQueryResponse
  else executeAll rt ty s (splitStatements rt.tokenize sql)

/-! ## The extended protocol -/

/-- `_get_statement`. -/
def getStatement (name : String) : Cmd σ Value Stmt Portal Stmt := do
  let w ← getWorld
  match w.state.statements.get? name with
  | none => fail (noStatement name)
  | some statement => pure statement

/-- `_get_portal`. -/
def getPortal (name : String) : Cmd σ Value Stmt Portal (PortalEntry Portal) := do
  let w ← getWorld
  match w.state.portals.get? name with
  | none => fail (noPortal name)
  | some entry => pure entry

/-- `_handle_parse`. -/
def handleParse (m : Wire.ParsedParse) : Cmd σ Value Stmt Portal Unit := do
  let paramOids := m.paramOids.map fun oid => if oid ≠ 0 then some oid else none
  let statement ← call (s.prepare m.sql paramOids)
  setState fun st =>
    { st with statements := st.statements.set (String.ofList m.statementName) statement }
  send rt .parseComplete

def needsOid (index : Nat) : PgError :=
  ⟨"0A000", "binary parameter format requires a known type OID (param $" ++ toString (index + 1) ++
    " has none)", []⟩

/-- `_decode_param`. -/
def decodeParam (value : Option Bytes) (formatCode : Int) (paramOids : List (Option Int))
    (index : Nat) : Except Thrown (Option Param) :=
  match value with
  | none => .ok none
  | some value =>
    let oid := paramOids[index]?.join
    if formatCode = 0 then
      match Utf8.whole value with
      | none => .error (.failure (.exception (rt.notUtf8 value)))
      | some text =>
        match oid with
        | some oid => (uncaught (ty.decodeTextParam oid text)).map some
        | none => .ok (some (ty.str text))
    else
      match oid with
      | none => .error (.failure (.error (needsOid index)))
      | some oid => (caught (ty.decodeBinaryParam oid value)).map some

def decodeParams (codes : List Int) (paramOids : List (Option Int)) (index : Nat) :
    List (Option Bytes) → Except Thrown (List (Option Param))
  | [] => .ok []
  | value :: values => do
    let code ← uncaught (formatCodeFor codes index)
    let param ← decodeParam rt ty value code paramOids index
    let params ← decodeParams codes paramOids (index + 1) values
    .ok (param :: params)

/-- `_handle_bind`. -/
def handleBind (m : Wire.ParsedBind) : Cmd σ Value Stmt Portal Unit := do
  let statement ← getStatement (String.ofList m.statementName)
  let params ← Command.settle
    (decodeParams rt ty m.paramFormatCodes (s.paramOids statement) 0 m.params)
  let portal ← call (s.bind statement params)
  let columns ← call (s.describe statement)
  setState fun st => { st with
    portals := st.portals.set (String.ofList m.portalName)
      ⟨portal, columns, s.sql statement, m.resultFormatCodes, 0⟩ }
  send rt .bindComplete

def TARGET_STATEMENT : UInt8 := 0x53

/-- The end of `_handle_describe`. -/
def describeColumns (codes : List Int) : Columns → Cmd σ Value Stmt Portal Unit
  | none => send rt .noData
  | some columns => sendDescription rt codes columns

/-- `_handle_describe`. -/
def handleDescribe (kind : UInt8) (name : Text) : Cmd σ Value Stmt Portal Unit :=
  if kind = TARGET_STATEMENT then do
    let statement ← getStatement (String.ofList name)
    send rt (.parameterDescription ((s.paramOids statement).map fun oid => oid.getD 0))
    let columns ← call (s.describe statement)
    describeColumns rt [] columns
  else do
    let entry ← getPortal (String.ofList name)
    describeColumns rt entry.resultFormatCodes entry.columns

/-- `entry.rows_returned += n`, which shows while the portal is still there. -/
def countRows (name : String) (n : Nat) : Cmd σ Value Stmt Portal Unit :=
  setState fun st =>
    match st.portals.get? name with
    | none => st
    | some entry => { st with
        portals := st.portals.set name { entry with rowsReturned := entry.rowsReturned + n } }

def sendPortalRows (entry : PortalEntry Portal) (rows : List (List (Option Cell))) :
    Cmd σ Value Stmt Portal Unit :=
  match entry.columns with
  | none => pure ()
  | some columns =>
    sendRows rt (fun row => caught (encodeRow ty.encoders columns entry.resultFormatCodes row)) rows

/-- `_handle_execute`. -/
def handleExecute (name : Text) (maxRows : Int) : Cmd σ Value Stmt Portal Unit := do
  let entry ← getPortal (String.ofList name)
  let w ← getWorld
  if refused rt w entry.sql then fail abortedTransaction
  else
    match s.copyOf entry.portal with
    | some (statement, copy) => runCopy rt ty s statement copy
    | none => do
      let (rows, suspended) ← call (s.execute entry.portal maxRows)
      countRows (String.ofList name) rows.length
      sendPortalRows rt ty entry rows
      if suspended then send rt .portalSuspended
      else send rt (.commandComplete
        (commandTag rt.tables entry.sql (entry.rowsReturned + rows.length)))

/-- `_handle_close`. -/
def handleClose (kind : UInt8) (name : Text) : Cmd σ Value Stmt Portal Unit := do
  setState fun st =>
    if kind = TARGET_STATEMENT then
      { st with statements := st.statements.erase (String.ofList name) }
    else { st with portals := st.portals.erase (String.ofList name) }
  send rt .closeComplete

/-! ## Parsing the payloads -/

def parseQuery (payload : Bytes) : Option Text := (Wire.readCstring payload 0).map Prod.fst

def parseExecute (payload : Bytes) : Option (Text × Int) := do
  let (portalName, offset) ← Wire.readCstring payload 0
  let maxRows ← Wire.unpackInt32 payload offset
  some (portalName, maxRows)

/-- `parse_describe`, and `parse_close`. -/
def parseDescribe (payload : Bytes) : Option (UInt8 × Text) := do
  let kind ← payload.head?
  let (name, _) ← Wire.readCstring payload 1
  some (kind, name)

def parsed {β : Type} (m : Message) (result : Option β) : Cmd σ Value Stmt Portal β :=
  match result with
  | none => Command.raise (.failure (.exception (rt.malformed m)))
  | some value => pure value

/-! ## Dispatch -/

def unsupportedMessage (tag : Tag) : PgError :=
  ⟨"08P01", "unsupported message type " ++ String.ofList (CopyIn.byteRepr tag), []⟩

/-- The body of `_dispatch`. -/
def handle (m : Message) : Cmd σ Value Stmt Portal Unit :=
  if m.tag = Tag.QUERY then do
    let sql ← parsed rt m (parseQuery m.payload)
    handleSimpleQuery rt ty s sql
  else if m.tag = Tag.PARSE then do
    let parse ← parsed rt m (Wire.parseParse m.payload)
    handleParse rt s parse
  else if m.tag = Tag.BIND then do
    let bind ← parsed rt m (Wire.parseBind m.payload)
    handleBind rt ty s bind
  else if m.tag = Tag.DESCRIBE then do
    let (kind, name) ← parsed rt m (parseDescribe m.payload)
    handleDescribe rt s kind name
  else if m.tag = Tag.EXECUTE then do
    let (name, maxRows) ← parsed rt m (parseExecute m.payload)
    handleExecute rt ty s name maxRows
  else if m.tag = Tag.CLOSE then do
    let (kind, name) ← parsed rt m (parseDescribe m.payload)
    handleClose rt kind name
  else if m.tag = Tag.SYNC then pure ()
  else if m.tag = Tag.FLUSH then drain s
  else fail (unsupportedMessage m.tag)

/-- The fields that a `PgError` adds, keyed by their codes. -/
def givenFields (e : PgError) : List (FieldMessages.FieldCode × Text) :=
  e.fields.filterMap fun (code, text) =>
    match code.toList with
    | [c] =>
      if ascii : 0 < c.toNat.toUInt8 ∧ c.toNat.toUInt8 < 128 then
        some (⟨c.toNat.toUInt8, ascii⟩, text.toList)
      else none
    | _ => none

def errorResponse (e : PgError) : Backend :=
  .errorResponse (FieldMessages.errorFields e (givenFields e))

def fatalError (e : PgError) : Backend :=
  .errorResponse (FieldMessages.report "FATAL".toList e.sqlstate.toList e.message.toList [])

/-- The transaction fails, and the rest of the batch is skipped. -/
def failBatch : Cmd σ Value Stmt Portal Unit :=
  Command.change fun c => { c with world := c.world.fail, ignoreUntilSync := true }

/-- The `except` clauses of `_dispatch`; a cancellation is none of its business. -/
def report : Thrown → Cmd σ Value Stmt Portal Unit
  | .failure (.error e) => do
    send rt (errorResponse e)
    failBatch
  | .failure (.exception text) => do
    send rt (.errorResponse (FieldMessages.internalErrorFields text.toList))
    failBatch
  | thrown => Command.raise thrown

/-- `_dispatch`. -/
def dispatch (m : Message) : Cmd σ Value Stmt Portal Unit := do
  let c ← Command.read
  if CopyIn.skips c.ignoreUntilSync m.tag then pure ()
  else Command.handle (handle rt ty s m) (report rt)

/-! ## The command loop -/

/-- `except asyncio.CancelledError`. -/
def reportCancelled : Thrown → Cmd σ Value Stmt Portal Unit
  | .failure .cancelled => do
    send rt (errorResponse CommandLoop.queryCanceled)
    failBatch
  | thrown => Command.raise thrown

/-- `await self._current_task`, where a CancelRequest may come before the task has begun. -/
def command (m : Message) (cancelled : Bool) : Cmd σ Value Stmt Portal Unit :=
  Command.handle
    (if cancelled then Command.raise (.failure .cancelled) else dispatch rt ty s m)
    (reportCancelled rt)

def sendReports : List (String × String) → Cmd σ Value Stmt Portal Unit
  | [] => pure ()
  | (name, value) :: later => do
    send rt (.parameterStatus name.toList value.toList)
    sendReports later

/-- `_flush_parameter_status`. -/
def flushParameterStatus : Cmd σ Value Stmt Portal Unit := do
  let w ← getWorld
  sendReports rt w.connection.pendingParameterStatus.entries
  Command.change fun c => { c with world := c.world.withParameterStatus ∅ }

def writeAll : List Written → Cmd σ Value Stmt Portal Unit
  | [] => pure ()
  | w :: later => do
    Command.write w
    writeAll later

/-- `_flush_async`. -/
def flushAsync : Cmd σ Value Stmt Portal Unit := do
  let c ← Command.read
  writeAll (c.pendingAsync.map Subtype.val)
  Command.change fun c => { c with pendingAsync := [] }

def readyForQuery : Cmd σ Value Stmt Portal Unit := do
  flushParameterStatus rt
  flushAsync
  let w ← getWorld
  send rt (.readyForQuery w.txStatus)
  Command.change fun c => { c with ignoreUntilSync := false, atReadyForQuery := true }

/-- Only Query and Sync end in a ReadyForQuery. -/
def closing (m : Message) : Cmd σ Value Stmt Portal Unit :=
  if m.tag = Tag.QUERY ∨ m.tag = Tag.SYNC then readyForQuery rt else pure ()

/-- One round of `_command_loop`. Meanwhile other tasks have pushed what has `arrived`. -/
def round (m : Message) (cancelled : Bool) (arrived : List Pushed) :
    Cmd σ Value Stmt Portal Unit := do
  Command.change fun c => { c with
    atReadyForQuery := false, pendingAsync := c.pendingAsync ++ arrived }
  command rt ty s m cancelled
  closing rt m
  drain s

end Handlers

/-! ## Runs -/

/-- A connection on its way: what its command loop has read, and what has been written so far.
What a copy-in takes off the stream is not read here, and bytes that are no frame are read as
none. -/
structure Run (σ Value Stmt Portal : Type) where
  conn : Conn σ Value Stmt Portal
  read : List (Option Message)
  out : List Written
  ended : Bool

inductive Event where
  /-- A message is read and dispatched. -/
  | receive (m : Message) (cancelled : Bool) (arrived : List Pushed)
  /-- Another task pushes a message between two rounds. -/
  | push (p : Pushed)
  /-- What is read cannot be framed. -/
  | badFrame (e : PgError)
  /-- The client is gone. -/
  | lost

section Runs

variable (rt : Runtime) (ty : Types Cell Param) (s : Session σ Value Stmt Portal Cell Param)

/-- The startup burst has been written, and ended in a ReadyForQuery. -/
def Run.start (own : σ) (world : W Value Stmt Portal) : Run σ Value Stmt Portal :=
  ⟨⟨own, world, [], false, true⟩, [], [], false⟩

/-- The report of a framing error, if it can be built. -/
def lastWords : Thrown → List Written
  | .protocolViolation e =>
    if made : (fatalError e).make.isSome = true then [⟨fatalError e, made⟩] else []
  | _ => []

/-- `_deliver_async`. -/
def Run.deliver (r : Run σ Value Stmt Portal) (p : Pushed) : Run σ Value Stmt Portal :=
  if r.conn.atReadyForQuery then { r with out := r.out ++ [p.1] }
  else { r with conn := { r.conn with pendingAsync := r.conn.pendingAsync ++ [p] } }

def Run.receive (r : Run σ Value Stmt Portal) (m : Message) (cancelled : Bool)
    (arrived : List Pushed) : Run σ Value Stmt Portal :=
  match round rt ty s m cancelled arrived r.conn with
  | (conn, log, .ok ()) => ⟨conn, r.read ++ [some m], r.out ++ log, false⟩
  | (conn, log, .error thrown) => ⟨conn, r.read ++ [some m], r.out ++ log ++ lastWords thrown, true⟩

/-- `_command_loop`, an event at a time, and how `run` leaves it. Terminate ends it. -/
def step (r : Run σ Value Stmt Portal) : Event → Option (Run σ Value Stmt Portal)
  | .push p => if r.ended then none else some (r.deliver p)
  | .receive m cancelled arrived =>
    if r.ended then none
    else if m.tag = Tag.TERMINATE then
      some { r with conn := { r.conn with atReadyForQuery := false }, ended := true }
    else some (r.receive rt ty s m cancelled arrived)
  | .badFrame e =>
    if r.ended then none
    else some { r with
      read := r.read ++ [none], out := r.out ++ lastWords (.protocolViolation e), ended := true }
  | .lost => if r.ended then none else some { r with ended := true }

end Runs

end PgMimic.Dispatch

import PgMimic.Rounds
import PgMimic.Scram
import PgMimic.Teardown

/-!
# From the first message to the last

`Connection.run`: the session is claimed, the client proves who it is, the startup burst ends
in the first ReadyForQuery, the session is initialised, and commands are dispatched until the
connection ends one way or another. Its log has what is written and when the session's own
code is called. The SCRAM library and the hash functions are parameters.
-/

namespace PgMimic.Handshake

open PgMimic.Copy (Text)
open PgMimic.Dispatch (Written Pushed Thrown W Awaited Runtime Types Session Run
  fatalError lastWords)
open PgMimic.Messages (Backend Bytes)
open PgMimic.Scram (Scramp PASSWORD)
open PgMimic.Stream (Message)

/-! ## The connection and its surroundings -/

/-- What `read_message` comes to. -/
inductive Incoming where
  | message (m : Message)
  /-- A `ProtocolViolation`. -/
  | badFrame (text : String)
  | raised (f : Failure)

structure Hashes extends Scram.Hashes where
  /-- `hashlib.md5(data).hexdigest()`. -/
  md5 : Bytes → Text

/-- The built-in plugins, with the salt that `os.urandom` gives them. -/
inductive Plugin where
  | trust
  | clearText
  | md5 (salt : Bytes)
  | scram (salt : Bytes)

/-- What the server was built with, and what it gives a connection. -/
structure Setup where
  plugin : Plugin
  hashes : Hashes
  scramp : Scramp
  /-- `get_password`. -/
  identity : Text → Except Failure (Option Text)
  secret : Int
  /-- The session is a `Session`, and not only a `BaseSession`. -/
  isSession : Bool

/-- What of the session's own code runs at the ends. -/
structure Ends (σ Value Stmt Portal : Type) where
  init : σ × W Value Stmt Portal → (σ × W Value Stmt Portal) × List Pushed × Except Failure Unit
  close : σ × W Value Stmt Portal → (σ × W Value Stmt Portal) × List Pushed × Except Failure Unit

inductive Entry where
  | sent (w : Written)
  /-- `session.init` is called. -/
  | initialised
  /-- The connection is out of the registry, and its session free. -/
  | left
  /-- `session.close` has been called. -/
  | closed
  /-- The stream is closed. -/
  | gone

structure Visit (σ Value Stmt Portal : Type) where
  own : σ
  world : W Value Stmt Portal
  /-- `session._connection`. -/
  holder : Option Pid
  atReadyForQuery : Bool
  inbox : List Incoming
  /-- What is raised where the stream drains; once these are used up, nothing. -/
  drains : List (Option Failure)

variable {σ Value Stmt Portal Cell Param α : Type}

abbrev Cmd (σ Value Stmt Portal α : Type) := Command (Visit σ Value Stmt Portal) Entry Thrown α

section Commands

variable (rt : Runtime) (d : Setup)

def send (b : Backend) : Cmd σ Value Stmt Portal Unit :=
  if made : b.make.isSome = true then Command.write (.sent ⟨b, made⟩)
  else Command.raise (.failure (.exception (rt.structError b)))

/-- `await self.stream.drain()`. -/
def drain : Cmd σ Value Stmt Portal Unit := do
  let v ← Command.read
  Command.change fun v => { v with drains := v.drains.tail }
  match v.drains.head?.join with
  | none => pure ()
  | some f => Command.raise (.failure f)

/-- `await stream.read_message()`. -/
def readMessage : Cmd σ Value Stmt Portal Message := do
  let v ← Command.read
  match v.inbox with
  | [] => Command.raise .connectionClosed
  | .badFrame text :: _ => Command.raise (.protocolViolation ⟨"08P01", text, []⟩)
  | .raised f :: _ => Command.raise (.failure f)
  | .message m :: later => do
    Command.change fun v => { v with inbox := later }
    pure m

/-! ## Authentication -/

/-- A message of the client's, which must be a password message. -/
def readPassword (expected : String) : Cmd σ Value Stmt Portal Bytes := do
  let m ← readMessage
  if m.tag = PASSWORD then pure m.payload
  else Command.raise (.failure (.error ⟨"28P01", "expected a " ++ expected, []⟩))

/-- A text, unless its bytes are none. -/
def decoded (payload : Bytes) : Option Text → Cmd σ Value Stmt Portal Text
  | none => Command.raise (.failure (.exception (rt.notUtf8 payload)))
  | some text => pure text

/-- `payload.rstrip(b"\x00")`. -/
def stripNuls (payload : Bytes) : Bytes := payload.rdropWhile (· = 0)

def getPassword (username : Text) : Cmd σ Value Stmt Portal (Option Text) :=
  Command.settle ((d.identity username).mapError Thrown.failure)

/-- The client is asked, and its response compared with what is expected, if anything is. -/
def compared (ask : Backend) (accepts : Text → Text → Bool) (username : Text) :
    Cmd σ Value Stmt Portal Bool := do
  send rt ask
  drain
  let payload ← readPassword "password response"
  let response ← decoded rt payload (Utf8.whole (stripNuls payload))
  let expected ← getPassword d username
  pure (expected.all fun password => accepts password response)

/-- `ClearTextPasswordAuthPlugin`. -/
def clearText (username : Text) : Cmd σ Value Stmt Portal Bool :=
  compared rt d .authenticationCleartextPassword
    (fun password response => response = password) username

/-- The response of a client that has the password. -/
def md5Response (h : Hashes) (password username : Text) (salt : Bytes) : Text :=
  let inner := h.md5 (Utf8.encode (password ++ username))
  "md5".toList ++ h.md5 (Utf8.encode inner ++ salt)

/-- `Md5PasswordAuthPlugin`. -/
def md5 (salt : Bytes) (username : Text) : Cmd σ Value Stmt Portal Bool :=
  compared rt d (.authenticationMd5Password salt)
    (fun password response => response = md5Response d.hashes password username salt) username

/-- `ScramSha256AuthPlugin`, from server-first on. -/
def scramFinish (server : d.scramp.Server) (serverFirst : Text) : Cmd σ Value Stmt Portal Bool := do
  send rt (.authenticationSaslContinue (Utf8.encode serverFirst))
  drain
  let payload ← readPassword "SASLResponse"
  let clientFinal ← decoded rt payload (Utf8.whole payload)
  match (d.scramp.setClientFinal server clientFinal).bind d.scramp.getServerFinal with
  | none => pure false
  | some serverFinal => do
    send rt (.authenticationSaslFinal (Utf8.encode serverFinal))
    drain
    pure true

/-- The server of the exchange; an unknown user is asked for the empty password. -/
def scramServer (salt : Bytes) (expected : Option Text) : d.scramp.Server :=
  d.scramp.makeServer (Scram.authFn d.hashes.toHashes salt (expected.getD []))

/-- `ScramSha256AuthPlugin`. -/
def scram (salt : Bytes) (username : Text) : Cmd σ Value Stmt Portal Bool := do
  let expected ← getPassword d username
  send rt (.authenticationSasl [Scram.mechanism])
  drain
  let payload ← readPassword "SASLInitialResponse"
  let clientFirst ← decoded rt payload (Scram.decodeClientFirst payload)
  match (Scram.setClientFirst d.scramp (scramServer d salt expected) clientFirst).bind
      d.scramp.getServerFirst with
  | none => pure false
  | some (serverFirst, server) => scramFinish rt d server serverFirst

def plugin (username : Text) : Cmd σ Value Stmt Portal Bool :=
  match d.plugin with
  | .trust => pure true
  | .clearText => clearText rt d username
  | .md5 salt => md5 rt d salt username
  | .scram salt => scram rt d salt username

def denial (username : Text) : PgError :=
  ⟨"28P01", "password authentication failed for user \"" ++ String.ofList username ++ "\"", []⟩

/-- `_authenticate`. -/
def authenticate (username : Text) : Cmd σ Value Stmt Portal Bool := do
  let ok ← plugin rt d username
  if ok then do
    send rt .authenticationOk
    pure true
  else do
    send rt (fatalError (denial username))
    drain
    pure false

/-! ## The way in -/

def heldBy (pid : Pid) : PgError :=
  ⟨"XX000", "this Session is already answering for another connection (pid " ++ toString pid ++
    ") and cannot also answer for this one: a session holds per-connection state, so sharing one " ++
    "gives every connection the last one's identity and settings. Pass a factory that builds one " ++
    "session per connection -- session_factory=MySession rather than " ++
    "session_factory=lambda: shared.", []⟩

/-- `isinstance(self.session, Session)`, and `_claim_session`. -/
def claim : Cmd σ Value Stmt Portal Bool := do
  let v ← Command.read
  match v.holder with
  | none => pure true
  | some held =>
    if d.isSession = false ∨ held = v.world.connection.pid then pure true
    else do
      send rt (fatalError (heldBy held))
      pure false

def sendStatuses : List (String × String) → Cmd σ Value Stmt Portal Unit
  | [] => pure ()
  | (name, value) :: later => do
    send rt (.parameterStatus name.toList value.toList)
    sendStatuses later

/-- What the client called itself, unless the server has a name for all of them. -/
def applicationName (w : W Value Stmt Portal) : List (String × String) :=
  match w.server.parameterStatus.get? "application_name" with
  | some _ => []
  | none => [("application_name", (w.connection.startupParams.get? "application_name").getD "")]

/-- `_send_startup_completion`. -/
def sendStartupCompletion : Cmd σ Value Stmt Portal Unit := do
  let v ← Command.read
  sendStatuses rt v.world.server.parameterStatus.entries
  sendStatuses rt (applicationName v.world)
  send rt (.backendKeyData v.world.connection.pid d.secret)
  send rt (.readyForQuery v.world.txStatus)
  drain

/-- The session is told its connection, and its notices may go out. -/
def bindSession (v : Visit σ Value Stmt Portal) : Visit σ Value Stmt Portal :=
  { v with
    holder := if d.isSession then some v.world.connection.pid else v.holder
    atReadyForQuery := true }

/-- `await self.session.init(self)`. -/
def initialise (ends : Ends σ Value Stmt Portal) : Cmd σ Value Stmt Portal Unit := fun v =>
  let ((own, world), pushed, result) := ends.init (v.own, v.world)
  ({ v with own := own, world := world },
    .initialised :: pushed.map fun p => .sent p.1, result.mapError Thrown.failure)

/-- `run`, up to its command loop; whether it comes to that. -/
def greet (ends : Ends σ Value Stmt Portal) : Cmd σ Value Stmt Portal Bool := do
  let claimed ← claim rt d
  if claimed then do
    let v ← Command.read
    let ok ← authenticate rt d v.world.connection.username.toList
    if ok then do
      sendStartupCompletion rt d
      Command.change (bindSession d)
      initialise ends
      drain
      pure true
    else pure false
  else pure false

/-! ## The way out -/

/-- The session is free if it is this connection's. -/
def release (v : Visit σ Value Stmt Portal) : Visit σ Value Stmt Portal :=
  { v with
    world := v.world.dropListeners
    holder := if d.isSession = true ∧ v.holder = some v.world.connection.pid then none
      else v.holder }

/-- `await self.session.close()`. What it pushes is written only behind a ReadyForQuery; what it
raises is dropped, unless it is a cancellation. -/
def close (ends : Ends σ Value Stmt Portal) : Cmd σ Value Stmt Portal Unit := fun v =>
  let ((own, world), pushed, result) := ends.close (v.own, v.world)
  ({ v with own := own, world := world },
    (if v.atReadyForQuery then pushed.map fun p => Entry.sent p.1 else []) ++ [.closed],
    match result with
    | .error .cancelled => .error (.failure .cancelled)
    | _ => .ok ())

/-- The `finally` of `run`. -/
def leave (ends : Ends σ Value Stmt Portal) : Cmd σ Value Stmt Portal Unit := do
  Command.change (release d)
  Command.write .left
  close ends
  Command.write .gone

end Commands

/-! ## Who is let in -/

/-- The response is one that is accepted for the password of the identity, where there is one. -/
def Responds (d : Setup) (accepts : Text → Text → Bool) (username : Text)
    (inbox : List Incoming) : Prop :=
  ∃ payload later response expected, inbox = .message ⟨PASSWORD, payload⟩ :: later ∧
    Utf8.whole (stripNuls payload) = some response ∧ d.identity username = .ok expected ∧
      ∀ password ∈ expected, accepts password response = true

/-- The proof is one for the stored key of the password, or of the empty one. -/
def Proves (d : Setup) (provedKey : Text → Text → Text → Option Bytes) (salt : Bytes)
    (username : Text) (inbox : List Incoming) : Prop :=
  ∃ first second later clientFirst clientFinal expected serverFirst server,
    inbox = .message ⟨PASSWORD, first⟩ :: .message ⟨PASSWORD, second⟩ :: later ∧
    Scram.decodeClientFirst first = some clientFirst ∧ Utf8.whole second = some clientFinal ∧
    d.identity username = .ok expected ∧
    (Scram.setClientFirst d.scramp (scramServer d salt expected) clientFirst).bind
      d.scramp.getServerFirst = some (serverFirst, server) ∧
    provedKey (Scram.bareOf clientFirst) serverFirst clientFinal =
      some (Scram.deriveScramCredentials d.hashes.toHashes (expected.getD []) salt
        Scram.SCRAM_ITERATIONS).1

/-- The client knows what it is asked for. -/
def Presents (d : Setup) (provedKey : Text → Text → Text → Option Bytes) (username : Text)
    (inbox : List Incoming) : Prop :=
  match d.plugin with
  | .trust => True
  | .clearText => Responds d (fun password response => response = password) username inbox
  | .md5 salt =>
    Responds d (fun password response => response = md5Response d.hashes password username salt)
      username inbox
  | .scram salt => Proves d provedKey salt username inbox

/-! ## A whole life -/

/-- What was written and called, and what the command loop has read. -/
structure Life where
  log : List Entry
  read : List (Option Message)

section Life

variable (rt : Runtime) (ty : Types Cell Param) (s : Session σ Value Stmt Portal Cell Param)
  (d : Setup) (ends : Ends σ Value Stmt Portal)

/-- `_command_loop`. What happens after its end is no business of it. -/
def serve (r : Run σ Value Stmt Portal) (events : List Dispatch.Event) :
    Run σ Value Stmt Portal :=
  events.foldl (fun r e => (Dispatch.step rt ty s r e).getD r) r

/-- The visit when the command loop is over. -/
def Visit.after (v : Visit σ Value Stmt Portal) (r : Run σ Value Stmt Portal) :
    Visit σ Value Stmt Portal :=
  { v with
    own := r.conn.own
    world := r.conn.world
    atReadyForQuery := r.conn.atReadyForQuery }

/-- `run`. While the command loop goes on nothing has been taken down. -/
def run (v : Visit σ Value Stmt Portal) (events : List Dispatch.Event) : Life :=
  match greet rt d ends v with
  | (v, log, .ok true) =>
    let r := serve rt ty s (Run.start v.own v.world) events
    ⟨log ++ r.out.map Entry.sent ++ if r.ended then (leave d ends (v.after r)).2.1 else [], r.read⟩
  | (v, log, .ok false) => ⟨log ++ (leave d ends v).2.1, []⟩
  | (v, log, .error thrown) =>
    ⟨log ++ (lastWords thrown).map Entry.sent ++ (leave d ends v).2.1, []⟩

end Life

end PgMimic.Handshake

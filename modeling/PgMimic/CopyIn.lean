import PgMimic.CommandLoop
import PgMimic.Copy
import PgMimic.Protocols
import PgMimic.WireLayout

/-!
# A copy-in among the other messages

Three parties read one stream of messages: the command loop, the rows that a session's hook
pulls one at a time, and `finish`, which reads on where the hook has stopped. A copy-in is
to take the messages up to its CopyDone or CopyFail, and where it fails the loop drops the
rest of them. No command is cancelled here, and every message has arrived whole.
-/

namespace PgMimic.CopyIn

open PgMimic.Copy (Text Row CopyOptions CopyInDecoder)
open PgMimic.Endpoint (TextTables)
open PgMimic.Stream (Tag Message)
open PgMimic.Wire (readCstring)

/-- What a handler raises. -/
inductive Raised where
  | error (e : PgError)
  /-- A `UnicodeDecodeError`, or the `ValueError` of a string without its NUL. -/
  | undecodable
  | exception (text : String)
  | connectionClosed
  | protocolViolation (e : PgError)
  /-- What is no `Exception`. -/
  | baseException
deriving DecidableEq

/-- `_dispatch` lets it through, and the connection ends. -/
def Raised.ends : Raised → Bool
  | .connectionClosed | .protocolViolation _ | .baseException => true
  | .error _ | .undecodable | .exception _ => false

inductive Reply where
  | copyInResponse (columnCount : Nat)
  | commandComplete (tag : Text)
  | emptyQueryResponse
  | errorResponse (raised : Raised)
  | readyForQuery (status : TxStatus)
  | other (m : Message)
deriving DecidableEq

/-- The connection and its session, as far as a statement can change them. -/
structure Conn (σ : Type) where
  session : σ
  txStatus : TxStatus

/-! ## The reader -/

/-- How the iterator of the rows ends. From then on it only ever raises
`StopAsyncIteration`. -/
inductive End where
  | exhausted
  | raised (e : Raised)

/-- What `copy_in` returns, the number of rows if it counts them, or raises. -/
abbrev Outcome (σ : Type) := Conn σ × Except Raised (Option Nat)

/-- A session's `copy_in`, by the rows it has read: it asks for the next row, or is done
with them; and what it comes to where the iterator has ended instead. -/
structure Hook (σ : Type) where
  act : List Row → Option (Outcome σ)
  after : List Row → End → Outcome σ

/-- `_CopyInReader`. Its `row_count` is the number of the rows it has yielded. -/
structure CopyInReader where
  decoder : CopyInDecoder
  done : Bool

def CopyInReader.start (o : CopyOptions) : CopyInReader := ⟨CopyInDecoder.start o, false⟩

def copyFailed (payload : List UInt8) : Raised :=
  match readCstring payload 0 with
  | some (reason, _) => .error ⟨"57014", "COPY from stdin failed: " ++ String.ofList reason, []⟩
  | none => .undecodable

/-- `:02X`. -/
def hexByte (byte : UInt8) : Text :=
  [(Nat.digitChar (byte.toNat / 16)).toUpper, (Nat.digitChar (byte.toNat % 16)).toUpper]

def unexpectedMessage (tag : Tag) : Raised :=
  .error ⟨"08P01", "unexpected message type 0x" ++ String.ofList (hexByte tag) ++
    " during COPY from stdin", []⟩

/-- `_read_batch`, the message read. -/
def readBatch (o : CopyOptions) (r : CopyInReader) (m : Message) :
    CopyInReader × Except Raised (List Row) :=
  if m.tag = Tag.COPY_DATA then
    match r.decoder.feed o m.payload with
    | some (rows, decoder) => ({ r with decoder }, .ok rows)
    | none => (r, .error .undecodable)
  else if m.tag = Tag.COPY_DONE then
    match r.decoder.finish o with
    | some rows => ({ r with done := true }, .ok rows)
    | none => ({ r with done := true }, .error .undecodable)
  else if m.tag = Tag.COPY_FAIL then ({ r with done := true }, .error (copyFailed m.payload))
  else if m.tag = Tag.FLUSH ∨ m.tag = Tag.SYNC then (r, .ok [])
  else (r, .error (unexpectedMessage m.tag))

/-- What a hook that has been run leaves. -/
structure Copied (σ : Type) where
  unread : List Message
  reader : CopyInReader
  read : List Row
  outcome : Outcome σ

section Reader

variable {σ : Type} (o : CopyOptions) (hook : Hook σ)

/-- The rows of one batch, as long as the hook asks for another: those it has read then,
and what it has come to. -/
def offer (read : List Row) : List Row → List Row × Option (Outcome σ)
  | [] => (read, hook.act read)
  | row :: batch =>
    match hook.act read with
    | some outcome => (read, some outcome)
    | none => offer (read ++ [row]) batch

/-- `statement.copy_in(reader.rows())`: a message is read for every batch that `_iterate`
has not got yet when the hook asks for a row. -/
def iterate (unread : List Message) (r : CopyInReader) (batch read : List Row) : Copied σ :=
  match offer hook read batch with
  | (read, some outcome) => ⟨unread, r, read, outcome⟩
  | (read, none) =>
    if r.done then ⟨unread, r, read, hook.after read .exhausted⟩
    else
      match unread with
      | [] => ⟨[], r, read, hook.after read (.raised .connectionClosed)⟩
      | m :: unread =>
        match readBatch o r m with
        | (r, .error e) => ⟨unread, r, read, hook.after read (.raised e)⟩
        | (r, .ok batch) => iterate unread r batch read

/-- `finish`. -/
def finish (unread : List Message) (r : CopyInReader) : List Message × Option Raised :=
  if r.done then (unread, none)
  else
    match unread with
    | [] => ([], some .connectionClosed)
    | m :: unread =>
      match readBatch o r m with
      | (_, .error e) => (unread, some e)
      | (r, .ok _) => finish unread r

end Reader

/-! ## Statements -/

/-- A `CopyStatement` that copies in. -/
structure CopyStatement (σ : Type) where
  sql : Text
  options : CopyOptions
  columnCount : Nat
  copyIn : Conn σ → Hook σ

/-- Every statement but a copy-in leaves the messages alone. -/
inductive Statement (σ : Type) where
  | copyIn (copy : CopyStatement σ)
  | other (run : Conn σ → Conn σ × List Reply × Option Raised)

/-- What the connection calls: sqlglot's tokenizer, what the session prepares, the handlers
of the extended protocol, and the reports that are due in front of a ReadyForQuery. -/
structure Session (σ : Type) where
  tokenize : Text → Option (List Protocols.Semicolon)
  prepare : Conn σ → Text → Except Raised (Statement σ)
  isCopyIn : Text → Bool
  /-- A statement that copies in reads as one. -/
  reads : ∀ c sql copy, prepare c sql = .ok (.copyIn copy) → isCopyIn sql = true
  extended : Conn σ → Message → Statement σ
  flush : Conn σ → Conn σ × List Reply

/-- How a handler returned: the messages it left, what it wrote, the rows of each copy-in
it ran, and what it raised. -/
structure Ran (σ : Type) where
  conn : Conn σ
  unread : List Message
  written : List Reply
  copies : List (CopyOptions × List Row)
  raised : Option Raised

section Handlers

variable {σ : Type} (t : TextTables) (s : Session σ)

/-- `_copy_in`, and the CommandComplete of `_run_copy`. -/
def copyIn (c : Conn σ) (copy : CopyStatement σ) (unread : List Message) : Ran σ :=
  let copied := iterate copy.options (copy.copyIn c) unread (.start copy.options) [] []
  let response := Reply.copyInResponse copy.columnCount
  let rows := [(copy.options, copied.read)]
  match copied.outcome with
  | (c, .error e) => ⟨c, copied.unread, [response], rows, some e⟩
  | (c, .ok count) =>
    match finish copy.options copied.unread copied.reader with
    | (unread, some e) => ⟨c, unread, [response], rows, some e⟩
    | (unread, none) =>
      let tag := StatementText.commandTag t copy.sql (count.getD copied.read.length)
      ⟨c, unread, [response, .commandComplete tag], rows, none⟩

def runStatement (c : Conn σ) (statement : Statement σ) (unread : List Message) : Ran σ :=
  match statement with
  | .copyIn copy => copyIn t c copy unread
  | .other run =>
    let (c, written, raised) := run c
    ⟨c, unread, written, [], raised⟩

/-- `_execute_one_simple_statement`. -/
def executeOneSimpleStatement (c : Conn σ) (sql : Text) (unread : List Message) : Ran σ :=
  if c.txStatus = .E ∧ StatementText.allowedInFailedTransaction t sql = false then
    ⟨c, unread, [], [], some (.error Protocols.abortedTransaction)⟩
  else if Endpoint.strip sql = [] then ⟨c, unread, [.emptyQueryResponse], [], none⟩
  else
    match s.prepare c sql with
    | .error e => ⟨c, unread, [], [], some e⟩
    | .ok statement => runStatement t c statement unread

/-- One statement after another, up to the first that raises. -/
def executeAll (c : Conn σ) (unread : List Message) : List Text → Ran σ
  | [] => ⟨c, unread, [], [], none⟩
  | sql :: later =>
    let ran := executeOneSimpleStatement t s c sql unread
    match ran.raised with
    | some _ => ran
    | none =>
      let more := executeAll ran.conn ran.unread later
      ⟨more.conn, more.unread, ran.written ++ more.written, ran.copies ++ more.copies, more.raised⟩

/-- `_handle_simple_query`. -/
def handleSimpleQuery (c : Conn σ) (sql : Text) (unread : List Message) : Ran σ :=
  if Endpoint.strip sql = [] then ⟨c, unread, [.emptyQueryResponse], [], none⟩
  else executeAll t s c unread (Protocols.splitStatements s.tokenize sql)

/-- `_handle_simple_query(parse_query(payload))`. -/
def handleQuery (c : Conn σ) (payload : List UInt8) (unread : List Message) : Ran σ :=
  match readCstring payload 0 with
  | none => ⟨c, unread, [], [], some .undecodable⟩
  | some (sql, _) => handleSimpleQuery t s c sql unread

end Handlers

/-! ## The loop -/

/-- The command loop in front of a `read_message`. -/
structure Loop (σ : Type) where
  conn : Conn σ
  ignoreUntilSync : Bool
  unread : List Message
  running : Bool

/-- One turn of it: the message it read, whether the handler of its type was given it, the
rows of the copy-ins it ran, and what was written. -/
structure Turn where
  message : Message
  dispatched : Bool
  copies : List (CopyOptions × List Row)
  written : List Reply
deriving DecidableEq

def skips (ignoreUntilSync : Bool) (tag : Tag) : Bool :=
  (ignoreUntilSync && !(tag == Tag.SYNC || tag == Tag.TERMINATE)) ||
    (tag == Tag.COPY_DATA || tag == Tag.COPY_DONE || tag == Tag.COPY_FAIL)

/-- `repr` of one byte. -/
def byteRepr (byte : UInt8) : Text :=
  let c := Char.ofNat byte.toNat
  if c = '\'' then ['b', '"', '\'', '"']
  else
    let inner := if c = '\\' then ['\\', '\\'] else if c = '\t' then ['\\', 't']
      else if c = '\n' then ['\\', 'n'] else if c = '\r' then ['\\', 'r']
      else if 32 ≤ byte.toNat ∧ byte.toNat < 127 then [c]
      else ['\\', 'x', Nat.digitChar (byte.toNat / 16), Nat.digitChar (byte.toNat % 16)]
    'b' :: '\'' :: (inner ++ ['\''])

def unsupportedMessage (tag : Tag) : Raised :=
  .error ⟨"08P01", "unsupported message type " ++ String.ofList (byteRepr tag), []⟩

section Rounds

variable {σ : Type} (t : TextTables) (s : Session σ)

/-- An error is answered and leaves a transaction failed, unless it ends the connection. -/
def report (l : Loop σ) (m : Message) (dispatched : Bool) (ran : Ran σ) : Loop σ × Turn :=
  match ran.raised with
  | none => ({ l with conn := ran.conn, unread := ran.unread }, ⟨m, dispatched, ran.copies, ran.written⟩)
  | some e =>
    if e.ends then
      ({ l with conn := ran.conn, unread := ran.unread, running := false },
        ⟨m, dispatched, ran.copies, ran.written⟩)
    else
      ({ l with
          conn := { ran.conn with txStatus := if ran.conn.txStatus = .I then .I else .E }
          unread := ran.unread, ignoreUntilSync := true },
        ⟨m, dispatched, ran.copies, ran.written ++ [.errorResponse e]⟩)

/-- `_dispatch`. -/
def dispatch (l : Loop σ) (m : Message) (unread : List Message) : Loop σ × Turn :=
  if skips l.ignoreUntilSync m.tag ∨ CommandLoop.Loop.passes m.tag then
    ({ l with unread }, ⟨m, false, [], []⟩)
  else if m.tag = Tag.QUERY then report l m true (handleQuery t s l.conn m.payload unread)
  else if CommandLoop.Loop.handled m.tag then
    report l m true (runStatement t l.conn (s.extended l.conn m) unread)
  else report l m false ⟨l.conn, unread, [], [], some (unsupportedMessage m.tag)⟩

/-- The end of a round for Query and Sync. -/
def readyForQuery (l : Loop σ) (turn : Turn) : Loop σ × Turn :=
  let (conn, reports) := s.flush l.conn
  ({ l with conn, ignoreUntilSync := false },
    { turn with written := turn.written ++ reports ++ [.readyForQuery conn.txStatus] })

/-- One round of `_command_loop`. -/
def round (l : Loop σ) (m : Message) (unread : List Message) : Loop σ × Turn :=
  if m.tag = Tag.TERMINATE then ({ l with unread, running := false }, ⟨m, false, [], []⟩)
  else
    let (l, turn) := dispatch t s l m unread
    if l.running = true ∧ (m.tag = Tag.QUERY ∨ m.tag = Tag.SYNC) then readyForQuery s l turn
    else (l, turn)

/-- So many rounds at most; the loop ends, or waits for a message. -/
def commandLoop : Nat → Loop σ → List Turn × Loop σ
  | 0, l => ([], l)
  | rounds + 1, l =>
    match l.running, l.unread with
    | true, m :: unread =>
      let (l, turn) := round t s l m unread
      let (turns, l) := commandLoop rounds l
      (turn :: turns, l)
    | _, _ => ([], l)

/-- Every round takes a message at least. -/
def serve (c : Conn σ) (sent : List Message) : List Turn × Loop σ :=
  commandLoop t s sent.length ⟨c, false, sent, true⟩

end Rounds

/-! ## What is sent -/

/-- CopyData and Flush, and at the end CopyDone or CopyFail. -/
inductive CopyMessages : List Message → Prop where
  | ends {m : Message} (last : m.tag = Tag.COPY_DONE ∨ m.tag = Tag.COPY_FAIL) : CopyMessages [m]
  | more {m : Message} {later : List Message} (inside : m.tag = Tag.COPY_DATA ∨ m.tag = Tag.FLUSH)
      (rest : CopyMessages later) : CopyMessages (m :: later)

/-- The rows such messages come to, as far as they can be decoded. -/
def decodedRows (o : CopyOptions) (d : CopyInDecoder) : List Message → List Row
  | [] => []
  | m :: later =>
    if m.tag = Tag.COPY_DATA then
      match d.feed o m.payload with
      | some (rows, d) => rows ++ decodedRows o d later
      | none => []
    else if m.tag = Tag.COPY_DONE then (d.finish o).getD []
    else if m.tag = Tag.COPY_FAIL then []
    else decodedRows o d later

/-- A Query, and the messages of the copy-ins it may start. -/
structure Exchange where
  query : Message
  copies : List (List Message)

def Exchange.messages (e : Exchange) : List Message := e.query :: e.copies.flatten

section Exchanges

variable {σ : Type}

/-- The statements of a Query. -/
def Session.batch (s : Session σ) (query : Message) : List Text :=
  match readCstring query.payload 0 with
  | none => []
  | some (sql, _) =>
    if Endpoint.strip sql = [] then [] else Protocols.splitStatements s.tokenize sql

/-- There are messages for as many copy-ins as the Query can start. -/
structure Exchange.Fed (s : Session σ) (e : Exchange) : Prop where
  query : e.query.tag = Tag.QUERY
  copies : ∀ list ∈ e.copies, CopyMessages list
  enough : (s.batch e.query).countP s.isCopyIn ≤ e.copies.length

/-- The hook raises nothing that ends the connection, unless the iterator did. -/
structure Hook.Spares (hook : Hook σ) : Prop where
  act : ∀ read c e, hook.act read = some (c, .error e) → e.ends = false
  exhausted : ∀ read c e, hook.after read .exhausted = (c, .error e) → e.ends = false
  raised : ∀ read e c e', e.ends = false → hook.after read (.raised e) = (c, .error e') →
    e'.ends = false

structure Session.Spares (s : Session σ) : Prop where
  prepare : ∀ c sql e, s.prepare c sql = .error e → e.ends = false
  copyIn : ∀ c sql copy, s.prepare c sql = .ok (.copyIn copy) → ∀ c, (copy.copyIn c).Spares
  other : ∀ c sql run, s.prepare c sql = .ok (.other run) →
    ∀ c e, (run c).2.2 = some e → e.ends = false

end Exchanges

/-- Each copy-in was handed rows from the front of those its own messages come to. -/
inductive Handed : List (CopyOptions × List Row) → List (List Message) → Prop where
  | nil {lists : List (List Message)} : Handed [] lists
  | cons {o : CopyOptions} {rows : List Row} {copies : List (CopyOptions × List Row)}
      {list : List Message} {lists : List (List Message)}
      (front : rows <+: decodedRows o (.start o) list) (others : Handed copies lists) :
      Handed ((o, rows) :: copies) (list :: lists)

/-- Each Query was dispatched once, in order, and nothing else was or was answered. -/
structure Consumed (exchanges : List Exchange) (turns : List Turn) : Prop where
  dispatched : (turns.filter Turn.dispatched).map Turn.message = exchanges.map Exchange.query
  unanswered : ∀ turn ∈ turns, turn.message.tag ≠ Tag.QUERY → turn.written = []
  handed : List.Forall₂ (fun turn exchange => Handed turn.copies exchange.copies)
    (turns.filter Turn.dispatched) exchanges

/-! ## One copy-in -/

section Reading

variable {σ : Type} {o : CopyOptions} {hook : Hook σ} {r r' : CopyInReader} {m : Message}
  {left rest : List Message} {batch read read' : List Row}

/-- What the CopyData carry. -/
def payloads (list : List Message) : List (List UInt8) :=
  (list.filter fun m => m.tag = Tag.COPY_DATA).map Message.payload

/-- Up to a CopyDone, these are the rows that the pieces of a COPY come to. -/
theorem decodedRows_eq {list : List Message} (copying : CopyMessages list)
    (completed : ∀ m ∈ list.getLast?, m.tag = Tag.COPY_DONE) {d : CopyInDecoder} {rows : List Row}
    (decoded : d.decode o (payloads list) = some rows) : decodedRows o d list = rows := by
  have others : ¬ Tag.COPY_DONE = Tag.COPY_DATA ∧ ¬ Tag.FLUSH = Tag.COPY_DATA ∧
      ¬ Tag.FLUSH = Tag.COPY_DONE ∧ ¬ Tag.FLUSH = Tag.COPY_FAIL := by decide
  induction copying generalizing d rows with
  | @ends m last =>
    have done : m.tag = Tag.COPY_DONE := completed m rfl
    have finished : d.finish o = some rows := by
      simpa [payloads, done, others, CopyInDecoder.decode] using decoded
    simp only [decodedRows, done, others, if_false, if_true, finished, Option.getD_some]
  | @more m later inside rest ih =>
    have completed' : ∀ m ∈ later.getLast?, m.tag = Tag.COPY_DONE := by
      cases rest with
      | ends => exact completed
      | more => exact completed
    rcases inside with data | flush
    · have parts : payloads (m :: later) = m.payload :: payloads later := by simp [payloads, data]
      rw [parts, CopyInDecoder.decode, Option.bind_eq_some_iff] at decoded
      obtain ⟨⟨front, d'⟩, fed, decoded⟩ := decoded
      obtain ⟨back, behind, rfl⟩ := Option.map_eq_some_iff.mp decoded
      simp only [decodedRows, data, if_true, fed, ih completed' behind]
    · have parts : payloads (m :: later) = payloads later := by simp [payloads, flush, others]
      rw [parts] at decoded
      simp only [decodedRows, flush, others, if_false, ih completed' decoded]

theorem decodedRows_nil (d : CopyInDecoder) : decodedRows o d [] = [] := rfl

/-- The messages of the copy-in that are still to be read. -/
def Stands (r : CopyInReader) (left : List Message) : Prop :=
  (r.done = true ∧ left = []) ∨ (r.done = false ∧ CopyMessages left)

/-- The rows of a batch are the first of those due, or what is raised is answered. -/
def Due (due later : List Row) : Except Raised (List Row) → Prop
  | .ok rows => due = rows ++ later
  | .error e => e.ends = false

theorem copyFailed_ends (payload : List UInt8) : (copyFailed payload).ends = false := by
  rw [copyFailed]
  split <;> rfl

/-- One message of the copy-in is read, and the rows it completes are the next. -/
theorem readBatch_stands {result : Except Raised (List Row)} (undone : r.done = false)
    (copying : CopyMessages (m :: left)) (reads : readBatch o r m = (r', result)) :
    Stands r' left ∧
      Due (decodedRows o r.decoder (m :: left)) (decodedRows o r'.decoder left) result := by
  cases copying with
  | ends last =>
    rcases last with tag | tag
    · have other : ¬ (Tag.COPY_DONE = Tag.COPY_DATA) := by decide
      simp only [readBatch, tag, if_neg other, if_true] at reads
      simp only [decodedRows, tag, if_neg other, if_true, List.append_nil]
      cases finished : r.decoder.finish o with
      | none =>
        rw [finished] at reads
        obtain ⟨rfl, rfl⟩ := Prod.mk.inj reads
        exact ⟨Or.inl ⟨rfl, rfl⟩, rfl⟩
      | some rows =>
        rw [finished] at reads
        obtain ⟨rfl, rfl⟩ := Prod.mk.inj reads
        exact ⟨Or.inl ⟨rfl, rfl⟩, (List.append_nil rows).symm⟩
    · have others :
          ¬ (Tag.COPY_FAIL = Tag.COPY_DATA) ∧ ¬ (Tag.COPY_FAIL = Tag.COPY_DONE) := by decide
      simp only [readBatch, tag, if_neg others.1, if_neg others.2, if_true] at reads
      obtain ⟨rfl, rfl⟩ := Prod.mk.inj reads
      exact ⟨Or.inl ⟨rfl, rfl⟩, copyFailed_ends m.payload⟩
  | more inside rest =>
    rcases inside with tag | tag
    · simp only [readBatch, tag, if_true] at reads
      simp only [decodedRows, tag, if_true]
      cases fed : r.decoder.feed o m.payload with
      | none =>
        rw [fed] at reads
        obtain ⟨rfl, rfl⟩ := Prod.mk.inj reads
        exact ⟨Or.inr ⟨undone, rest⟩, rfl⟩
      | some fed' =>
        rw [fed] at reads
        obtain ⟨rfl, rfl⟩ := Prod.mk.inj reads
        exact ⟨Or.inr ⟨undone, rest⟩, rfl⟩
    · have others : ¬ (Tag.FLUSH = Tag.COPY_DATA) ∧ ¬ (Tag.FLUSH = Tag.COPY_DONE) ∧
          ¬ (Tag.FLUSH = Tag.COPY_FAIL) := by decide
      simp only [readBatch, tag, others, if_false, true_or, if_true] at reads
      simp only [decodedRows, tag, others, if_false]
      obtain ⟨rfl, rfl⟩ := Prod.mk.inj reads
      exact ⟨Or.inr ⟨undone, rest⟩, rfl⟩

/-- The hook has read so many rows of the batch; it asks for another only behind the last. -/
theorem offer_front {x : Option (Outcome σ)} (offered : offer hook read batch = (read', x)) :
    read' <+: read ++ batch ∧ hook.act read' = x ∧ (x = none → read' = read ++ batch) := by
  induction batch generalizing read with
  | nil =>
    obtain ⟨rfl, rfl⟩ := Prod.mk.inj offered
    rw [List.append_nil]
    exact ⟨List.prefix_rfl, rfl, fun _ => rfl⟩
  | cons row batch ih =>
    rw [offer] at offered
    cases acts : hook.act read with
    | some outcome =>
      rw [acts] at offered
      obtain ⟨rfl, rfl⟩ := Prod.mk.inj offered
      exact ⟨List.prefix_append read _, acts, fun none => by cases none⟩
    | none =>
      rw [acts] at offered
      have shown := ih offered
      rwa [List.append_assoc, List.singleton_append] at shown

/-- Where the hook has stopped among its messages, and what it was given of their rows. -/
structure Stops (hook : Hook σ) (given : List Row) (left rest : List Message)
    (copied : Copied σ) : Prop where
  unread : ∃ left', copied.unread = left' ++ rest ∧ left' <:+ left ∧ Stands copied.reader left'
  read : copied.read <+: given
  spares : hook.Spares → ∀ c e, copied.outcome = (c, .error e) → e.ends = false

/-- The hook reads no further than its own messages, and its rows are the first of theirs. -/
theorem iterate_stops (stands : Stands r left) (batch read : List Row) :
    Stops hook (read ++ (batch ++ decodedRows o r.decoder left)) left rest
      (iterate o hook (left ++ rest) r batch read) := by
  induction left generalizing r batch read with
  | nil =>
    rw [List.nil_append, iterate.eq_def]
    obtain ⟨done, -⟩ | ⟨-, copying⟩ := stands
    · cases offered : offer hook read batch with
      | mk read' x =>
        obtain ⟨front, acts, -⟩ := offer_front offered
        rw [decodedRows_nil, List.append_nil]
        cases x with
        | some outcome =>
          exact ⟨⟨[], rfl, List.suffix_rfl, Or.inl ⟨done, rfl⟩⟩, front,
            fun spares c e same => spares.act read' c e (same ▸ acts)⟩
        | none =>
          simp only [done, if_true]
          exact ⟨⟨[], rfl, List.suffix_rfl, Or.inl ⟨done, rfl⟩⟩, front,
            fun spares c e same => spares.exhausted read' c e same⟩
    · cases copying
  | cons m left ih =>
    rw [List.cons_append, iterate.eq_def]
    obtain ⟨-, none_left⟩ | ⟨undone, copying⟩ := stands
    · cases none_left
    · cases offered : offer hook read batch with
      | mk read' x =>
        obtain ⟨front, acts, whole⟩ := offer_front offered
        have further : read' <+: read ++ (batch ++ decodedRows o r.decoder (m :: left)) := by
          rw [← List.append_assoc]
          exact front.trans (List.prefix_append _ _)
        cases x with
        | some outcome =>
          exact ⟨⟨m :: left, rfl, List.suffix_rfl, Or.inr ⟨undone, copying⟩⟩, further,
            fun spares c e same => spares.act read' c e (same ▸ acts)⟩
        | none =>
          simp only [undone, Bool.false_eq_true, if_false]
          cases reads : readBatch o r m with
          | mk r' result =>
            obtain ⟨stands', decoded⟩ := readBatch_stands undone copying reads
            cases result with
            | error e =>
              exact ⟨⟨left, rfl, List.suffix_cons m left, stands'⟩, further,
                fun spares c e' same => spares.raised read' e c e' decoded same⟩
            | ok rows =>
              have later := ih stands' rows read'
              have due :
                  decodedRows o r.decoder (m :: left) = rows ++ decodedRows o r'.decoder left :=
                decoded
              rw [whole rfl, List.append_assoc, ← due] at later
              obtain ⟨⟨left', unread, suffix, stands''⟩, read_, spares⟩ := later
              rw [whole rfl]
              exact ⟨⟨left', unread, suffix.trans (List.suffix_cons m left), stands''⟩, read_,
                spares⟩

/-- `finish` reads the rest of the copy-in and no more. -/
theorem finish_stands (stands : Stands r left) : ∃ left' raised,
    finish o (left ++ rest) r = (left' ++ rest, raised) ∧ left' <:+ left ∧
      (raised = none → left' = []) ∧ ∀ e, raised = some e → e.ends = false := by
  induction left generalizing r with
  | nil =>
    obtain ⟨done, -⟩ | ⟨-, copying⟩ := stands
    · refine ⟨[], none, ?_, List.suffix_rfl, fun _ => rfl, by simp⟩
      rw [List.nil_append, finish.eq_def, if_pos done]
    · cases copying
  | cons m left ih =>
    obtain ⟨-, none_left⟩ | ⟨undone, copying⟩ := stands
    · cases none_left
    · rw [List.cons_append, finish.eq_def, if_neg (by simp [undone])]
      cases reads : readBatch o r m with
      | mk r' result =>
        obtain ⟨stands', decoded⟩ := readBatch_stands undone copying reads
        simp only [reads]
        cases result with
        | error e =>
          exact ⟨left, some e, rfl, List.suffix_cons m left, (by simp),
            fun e' same => Option.some.inj same ▸ decoded⟩
        | ok rows =>
          obtain ⟨left', raised, finished, suffix, whole, spares⟩ := ih stands'
          exact ⟨left', raised, finished, suffix.trans (List.suffix_cons m left), whole, spares⟩

end Reading

/-! ## The statements of a Query -/

section Statements

variable {σ : Type} {t : TextTables} {s : Session σ} {rest : List Message}

/-- What a copy-in did with its own messages. -/
theorem copyIn_leaves {list : List Message} (copying : CopyMessages list) (c : Conn σ)
    (copy : CopyStatement σ) (spares : (copy.copyIn c).Spares) (rest : List Message) : ∃ left rows,
      (copyIn t c copy (list ++ rest)).unread = left ++ rest ∧ left <:+ list ∧
      (copyIn t c copy (list ++ rest)).copies = [(copy.options, rows)] ∧
      rows <+: decodedRows copy.options (.start copy.options) list ∧
      ((copyIn t c copy (list ++ rest)).raised = none → left = []) ∧
      ∀ e, (copyIn t c copy (list ++ rest)).raised = some e → e.ends = false := by
  have stands : Stands (.start copy.options) list := Or.inr ⟨rfl, copying⟩
  have stops : Stops (copy.copyIn c) _ list rest (iterate copy.options (copy.copyIn c)
      (list ++ rest) (.start copy.options) [] []) := iterate_stops stands [] []
  rw [copyIn]
  generalize iterate copy.options (copy.copyIn c) (list ++ rest) (.start copy.options) [] [] =
    copied at stops
  obtain ⟨⟨left, unread, suffix, stands'⟩, read, quiet⟩ := stops
  obtain ⟨unread_, reader, rows, c', outcome⟩ := copied
  obtain rfl : unread_ = left ++ rest := unread
  cases outcome with
  | error e =>
    exact ⟨left, rows, rfl, suffix, rfl, read, (by simp),
      fun e' same => Option.some.inj same ▸ quiet spares c' e rfl⟩
  | ok count =>
    obtain ⟨left', raised, finished, suffix', whole, quiet'⟩ :=
      @finish_stands copy.options reader left rest stands'
    simp only [finished]
    cases raised with
    | some e =>
      exact ⟨left', rows, rfl, suffix'.trans suffix, rfl, read, (by simp), quiet'⟩
    | none => exact ⟨left', rows, rfl, suffix'.trans suffix, rfl, read, whole, (by simp)⟩

/-- A statement leaves the messages alone, or it is a copy-in and reads as one. -/
theorem executeOneSimpleStatement_cases (spares : s.Spares) (c : Conn σ) (sql : Text)
    (unread : List Message) :
    ((executeOneSimpleStatement t s c sql unread).unread = unread ∧
      (executeOneSimpleStatement t s c sql unread).copies = [] ∧
      ∀ e, (executeOneSimpleStatement t s c sql unread).raised = some e → e.ends = false) ∨
    s.isCopyIn sql = true ∧ ∃ copy, (∀ c, (copy.copyIn c).Spares) ∧
      executeOneSimpleStatement t s c sql unread = copyIn t c copy unread := by
  rw [executeOneSimpleStatement]
  split_ifs with refused blank
  · exact Or.inl ⟨rfl, rfl, fun e same => Option.some.inj same ▸ rfl⟩
  · exact Or.inl ⟨rfl, rfl, by simp⟩
  · cases prepared : s.prepare c sql with
    | error e =>
      exact Or.inl ⟨rfl, rfl, fun e' same => Option.some.inj same ▸ spares.prepare c sql e prepared⟩
    | ok statement =>
      cases statement with
      | copyIn copy =>
        exact Or.inr ⟨s.reads c sql copy prepared, copy, spares.copyIn c sql copy prepared, rfl⟩
      | other run => exact Or.inl ⟨rfl, rfl, spares.other c sql run prepared c⟩

/-- What a batch leaves of the messages of its copy-ins, and of what is behind them. -/
structure Leaves (lists : List (List Message)) (rest : List Message) (ran : Ran σ) : Prop where
  unread : ∃ left, ran.unread = left ++ rest ∧ left <:+ lists.flatten
  handed : Handed ran.copies lists
  answered : ∀ e, ran.raised = some e → e.ends = false

theorem executeAll_leaves (spares : s.Spares) {lists : List (List Message)} {batch : List Text}
    (copying : ∀ list ∈ lists, CopyMessages list) (enough : batch.countP s.isCopyIn ≤ lists.length)
    (c : Conn σ) : Leaves lists rest (executeAll t s c (lists.flatten ++ rest) batch) := by
  induction batch generalizing c lists with
  | nil => exact ⟨⟨lists.flatten, rfl, List.suffix_rfl⟩, .nil, by simp [executeAll]⟩
  | cons sql batch ih =>
    rw [executeAll]
    rcases executeOneSimpleStatement_cases (t := t) spares c sql (lists.flatten ++ rest) with
      ⟨unread, copies, answered⟩ | ⟨copies_in, copy, quiet, same⟩
    · generalize executeOneSimpleStatement t s c sql (lists.flatten ++ rest) = ran at *
      cases raised : ran.raised with
      | some e =>
        refine ⟨⟨lists.flatten, unread, List.suffix_rfl⟩, ?_, answered⟩
        rw [copies]
        exact .nil
      | none =>
        have fewer : batch.countP s.isCopyIn ≤ lists.length := by
          rw [List.countP_cons] at enough
          omega
        have more := ih copying fewer ran.conn
        rw [← unread] at more
        refine ⟨more.unread, ?_, more.answered⟩
        rw [copies]
        exact more.handed
    · rw [List.countP_cons, if_pos copies_in] at enough
      cases lists with
      | nil => exact absurd enough (by simp)
      | cons list lists =>
        have within : list ++ (lists.flatten ++ rest) = (list :: lists).flatten ++ rest := by simp
        obtain ⟨left, rows, unread, suffix, copies, front, whole, answered⟩ :=
          copyIn_leaves (t := t) (copying list List.mem_cons_self) c copy (quiet c)
            (lists.flatten ++ rest)
        rw [within] at unread copies whole answered
        rw [same]
        generalize copyIn t c copy ((list :: lists).flatten ++ rest) = ran at *
        cases raised : ran.raised with
        | some e =>
          refine ⟨⟨left ++ lists.flatten, by rw [unread, List.append_assoc], ?_⟩, ?_, answered⟩
          · obtain ⟨before, rfl⟩ := suffix
            exact ⟨before, by simp⟩
          · rw [copies]
            exact .cons front .nil
        | none =>
          obtain rfl := whole raised
          have more := ih (fun list inside => copying list (List.mem_cons_of_mem _ inside))
            (by simpa using enough) ran.conn
          rw [List.nil_append] at unread
          rw [← unread] at more
          obtain ⟨left', unread', suffix'⟩ := more.unread
          refine ⟨⟨left', unread', suffix'.trans (List.suffix_append list _)⟩, ?_, more.answered⟩
          rw [copies]
          exact .cons front more.handed

theorem handleQuery_leaves (spares : s.Spares) {e : Exchange} (fed : e.Fed s) (c : Conn σ)
    (rest : List Message) :
    Leaves e.copies rest (handleQuery t s c e.query.payload (e.copies.flatten ++ rest)) := by
  have untouched : ∀ written raised, (∀ e, raised = some e → e.ends = false) →
      Leaves e.copies rest ⟨c, e.copies.flatten ++ rest, written, [], raised⟩ :=
    fun written raised answered => ⟨⟨e.copies.flatten, rfl, List.suffix_rfl⟩, .nil, answered⟩
  have enough := fed.enough
  rw [Session.batch] at enough
  rw [handleQuery]
  cases read : readCstring e.query.payload 0 with
  | none => exact untouched [] _ fun e same => Option.some.inj same ▸ rfl
  | some text =>
    obtain ⟨sql, stop⟩ := text
    rw [read] at enough
    simp only [handleSimpleQuery]
    split_ifs with blank
    · exact untouched [.emptyQueryResponse] none (by simp)
    · simp only [if_neg blank] at enough
      exact executeAll_leaves spares fed.copies enough c

end Statements

/-! ## The rounds -/

section Rounds

variable {σ : Type} {t : TextTables} {s : Session σ}

/-- What is left of a copy-in that has ended. -/
def Stray (m : Message) : Prop :=
  m.tag = Tag.COPY_DATA ∨ m.tag = Tag.COPY_DONE ∨ m.tag = Tag.COPY_FAIL ∨ m.tag = Tag.FLUSH

theorem CopyMessages.stray {list : List Message} (copying : CopyMessages list) :
    ∀ m ∈ list, Stray m := by
  induction copying with
  | @ends m last =>
    intro m' inside
    obtain rfl := List.mem_singleton.mp inside
    rcases last with done | fail
    · exact Or.inr (Or.inl done)
    · exact Or.inr (Or.inr (Or.inl fail))
  | @more m later here rest ih =>
    intro m' inside
    rcases List.mem_cons.mp inside with rfl | inside
    · rcases here with data | flush
      · exact Or.inl data
      · exact Or.inr (Or.inr (Or.inr flush))
    · exact ih m' inside

theorem Exchange.Fed.stray {e : Exchange} (fed : e.Fed s) : ∀ m ∈ e.copies.flatten, Stray m := by
  intro m inside
  obtain ⟨list, member, inside⟩ := List.mem_flatten.mp inside
  exact (fed.copies list member).stray m inside

/-- A stray message is dropped. -/
theorem round_stray {m : Message} (stray : Stray m) (l : Loop σ) (unread : List Message) :
    round t s l m unread = ({ l with unread }, ⟨m, false, [], []⟩) := by
  have passed : skips l.ignoreUntilSync m.tag = true ∨ CommandLoop.Loop.passes m.tag = true := by
    rcases stray with tag | tag | tag | tag
    · exact Or.inl (by simp [skips, tag])
    · exact Or.inl (by simp [skips, tag])
    · exact Or.inl (by simp [skips, tag])
    · exact Or.inr (by rw [tag]; decide)
  have others : m.tag ≠ Tag.TERMINATE ∧ m.tag ≠ Tag.QUERY ∧ m.tag ≠ Tag.SYNC := by
    rcases stray with tag | tag | tag | tag
    all_goals
      rw [tag]
      decide
  have dispatched : dispatch t s l m unread = ({ l with unread }, ⟨m, false, [], []⟩) := by
    rw [dispatch, if_pos passed]
  rw [round, if_neg others.1]
  simp only [dispatched, others, or_self, and_false, if_false]

/-- Whatever is raised, as long as it is answered, the loop goes on. -/
theorem report_answered {ran : Ran σ} (answered : ∀ e, ran.raised = some e → e.ends = false)
    (l : Loop σ) (m : Message) (dispatched : Bool) : ∃ c ignoreUntilSync written,
      report l m dispatched ran =
        (⟨c, ignoreUntilSync, ran.unread, l.running⟩, ⟨m, dispatched, ran.copies, written⟩) := by
  rw [report]
  cases raised : ran.raised with
  | none => exact ⟨_, _, _, rfl⟩
  | some e =>
    simp only [answered e raised, Bool.false_eq_true, if_false]
    exact ⟨_, _, _, rfl⟩

theorem readyForQuery_goes_on (l : Loop σ) (turn : Turn) : ∃ c written,
    readyForQuery s l turn = (⟨c, false, l.unread, l.running⟩, { turn with written }) :=
  ⟨_, _, rfl⟩

/-- The round of a Query: it is dispatched, and nothing behind its own messages is read. -/
theorem round_query (spares : s.Spares) {e : Exchange} (fed : e.Fed s) (c : Conn σ)
    (rest : List Message) : ∃ c' left copies written,
      round t s ⟨c, false, e.query :: (e.copies.flatten ++ rest), true⟩ e.query
          (e.copies.flatten ++ rest) =
        (⟨c', false, left ++ rest, true⟩, ⟨e.query, true, copies, written⟩) ∧
      left <:+ e.copies.flatten ∧ Handed copies e.copies := by
  have leaves := handleQuery_leaves (t := t) spares fed c rest
  have others : ¬ (skips false Tag.QUERY = true ∨ CommandLoop.Loop.passes Tag.QUERY = true) := by
    decide
  have terminate : ¬ Tag.QUERY = Tag.TERMINATE := by decide
  rw [round, dispatch, fed.query, if_neg terminate, if_neg others, if_pos rfl]
  generalize handleQuery t s c e.query.payload (e.copies.flatten ++ rest) = ran at leaves
  obtain ⟨left, unread, suffix⟩ := leaves.unread
  obtain ⟨c', ignoreUntilSync, written, reported⟩ := report_answered leaves.answered
    ⟨c, false, e.query :: (e.copies.flatten ++ rest), true⟩ e.query true
  obtain ⟨c'', written', goes_on⟩ := readyForQuery_goes_on (s := s)
    ⟨c', ignoreUntilSync, ran.unread, true⟩ ⟨e.query, true, ran.copies, written⟩
  refine ⟨c'', left, ran.copies, written', ?_, suffix, leaves.handed⟩
  simp only [reported, true_or, and_self, if_true]
  rw [goes_on, unread]

theorem Consumed.stray {exchanges : List Exchange} {turns : List Turn} (m : Message)
    (consumed : Consumed exchanges turns) : Consumed exchanges (⟨m, false, [], []⟩ :: turns) := by
  obtain ⟨dispatched, unanswered, handed⟩ := consumed
  refine ⟨dispatched, fun turn inside other => ?_, handed⟩
  rcases List.mem_cons.mp inside with rfl | inside
  · rfl
  · exact unanswered turn inside other

theorem Consumed.query {exchanges : List Exchange} {turns : List Turn} {e : Exchange}
    (query : e.query.tag = Tag.QUERY) {copies : List (CopyOptions × List Row)}
    (handed : Handed copies e.copies) (written : List Reply) (consumed : Consumed exchanges turns) :
    Consumed (e :: exchanges) (⟨e.query, true, copies, written⟩ :: turns) := by
  obtain ⟨dispatched, unanswered, handed'⟩ := consumed
  refine ⟨congrArg (e.query :: ·) dispatched, fun turn inside other => ?_, .cons handed handed'⟩
  rcases List.mem_cons.mp inside with rfl | inside
  · exact absurd query other
  · exact unanswered turn inside other

/-- The rounds of all the exchanges, behind what one before them has left. -/
theorem commandLoop_consumes (spares : s.Spares) {exchanges : List Exchange}
    (fed : ∀ e ∈ exchanges, e.Fed s) {rounds : Nat} {left : List Message}
    (stray : ∀ m ∈ left, Stray m) (c : Conn σ)
    (enough : (left ++ exchanges.flatMap Exchange.messages).length ≤ rounds) :
    ∃ turns c', commandLoop t s rounds
        ⟨c, false, left ++ exchanges.flatMap Exchange.messages, true⟩ =
          (turns, ⟨c', false, [], true⟩) ∧ Consumed exchanges turns := by
  induction rounds generalizing exchanges left c with
  | zero =>
    have nothing := List.append_eq_nil_iff.mp (List.length_eq_zero_iff.mp (Nat.le_zero.mp enough))
    cases exchanges with
    | nil =>
      obtain rfl := nothing.1
      exact ⟨[], c, rfl, rfl, by simp, .nil⟩
    | cons e exchanges => cases nothing.2
  | succ rounds ih =>
    cases left with
    | cons m left =>
      have fewer : (left ++ exchanges.flatMap Exchange.messages).length ≤ rounds := by
        simpa using enough
      obtain ⟨turns, c', later, consumed⟩ :=
        ih fed (fun m' inside => stray m' (List.mem_cons_of_mem m inside)) c fewer
      refine ⟨_, c', ?_, consumed.stray m⟩
      rw [List.cons_append, commandLoop]
      simp only [round_stray (stray m List.mem_cons_self), later]
    | nil =>
      cases exchanges with
      | nil => exact ⟨[], c, rfl, rfl, by simp, .nil⟩
      | cons e exchanges =>
        have fed_e := fed e List.mem_cons_self
        obtain ⟨c', left, copies, written, rounded, suffix, handed⟩ := round_query (t := t) spares
          fed_e c (exchanges.flatMap Exchange.messages)
        have fewer : (left ++ exchanges.flatMap Exchange.messages).length ≤ rounds := by
          have shorter := suffix.length_le
          simp only [List.nil_append, List.flatMap_cons, Exchange.messages, List.length_append,
            List.length_cons] at enough ⊢
          omega
        obtain ⟨turns, c'', later, consumed⟩ :=
          ih (fun e' inside => fed e' (List.mem_cons_of_mem e inside))
            (fun m inside => fed_e.stray m (suffix.subset inside)) c' fewer
        refine ⟨_, c'', ?_, consumed.query fed_e.query handed written⟩
        rw [List.nil_append, List.flatMap_cons, Exchange.messages, List.cons_append, commandLoop]
        simp only [rounded, later]

end Rounds

/-! ## One session -/

/-- A hook that reads so many rows, or as many as there are. -/
def readsSome (rows : Nat) (result : Except Raised (Option Nat)) : Hook Unit where
  act := fun read => if rows ≤ read.length then some (⟨(), .I⟩, result) else none
  after := fun _ _ => (⟨(), .I⟩, result)

def copySql : Text := "COPY t FROM STDIN".toList

/-- A session that knows one COPY, and answers everything else with no rows. -/
def loads (hook : Hook Unit) : Session Unit where
  tokenize := fun _ => none
  prepare := fun _ sql =>
    .ok (if sql = copySql then .copyIn ⟨copySql, {}, 0, fun _ => hook⟩ else .other fun c => (c, [], none))
  isCopyIn := fun sql => sql = copySql
  reads := by
    intro c sql copy prepared
    split_ifs at prepared with same
    · exact decide_eq_true same
    · cases prepared
  extended := fun _ _ => .other fun c => (c, [], none)
  flush := fun c => (c, [])

theorem loads_spares {hook : Hook Unit} (spares : hook.Spares) : (loads hook).Spares := by
  refine ⟨fun c sql e refused => ?_, fun c sql copy prepared c' => ?_,
    fun c sql run prepared c' e raised => ?_⟩
  · cases refused
  · simp only [loads, Except.ok.injEq] at prepared
    split_ifs at prepared with same
    cases prepared
    exact spares
  · simp only [loads, Except.ok.injEq] at prepared
    split_ifs at prepared with same
    cases prepared
    exact absurd raised (by simp)

theorem readsSome_spares (rows : Nat) (count : Option Nat) :
    (readsSome rows (.ok count)).Spares := by
  refine ⟨fun read c e acts => ?_, fun read c e ended => ?_, fun read e c e' _ ended => ?_⟩
  · simp only [readsSome] at acts
    split_ifs at acts with enough
    cases acts
  · cases ended
  · cases ended

def query (sql : Text) : Message := ⟨Tag.QUERY, Wire.cstring sql⟩

def copyData (text : Text) : Message := ⟨Tag.COPY_DATA, Utf8.encode text⟩

def copyDone : Message := ⟨Tag.COPY_DONE, []⟩

/-- Where a Query starts a copy-in without messages of its own the Query behind it is
swallowed, and where the hook raises `ConnectionClosed` no Query behind it is read. -/
theorem next_query_lost :
    CopyMessages [copyDone] ∧
    ¬ Consumed [⟨query copySql, [[copyDone]]⟩, ⟨query copySql, []⟩, ⟨query ['S'], []⟩]
      (serve Endpoint.asciiTables (loads (readsSome 0 (.ok none))) ⟨(), .I⟩
        [query copySql, copyDone, query copySql, query ['S']]).1 ∧
    ¬ Consumed [⟨query copySql, [[copyDone]]⟩, ⟨query ['S'], []⟩]
      (serve Endpoint.asciiTables (loads (readsSome 0 (.error .connectionClosed))) ⟨(), .I⟩
        [query copySql, copyDone, query ['S']]).1 := by
  refine ⟨.ends (Or.inl rfl), fun consumed => ?_, fun consumed => ?_⟩
  · exact absurd consumed.dispatched (by decide)
  · exact absurd consumed.dispatched (by decide)

/-- Every copy-in takes its own messages: the rows its hook is handed are the first of
theirs, every Query is dispatched once and in order, whatever a hook leaves unread is
dropped without an answer, and at the end the loop waits for the next message. -/
theorem copy_ins_consume_their_own {σ : Type} (t : TextTables) {s : Session σ} (spares : s.Spares)
    {exchanges : List Exchange} (fed : ∀ e ∈ exchanges, e.Fed s) (c : Conn σ) :
    ∃ turns c', serve t s c (exchanges.flatMap Exchange.messages) =
      (turns, ⟨c', false, [], true⟩) ∧ Consumed exchanges turns :=
  commandLoop_consumes spares fed (fun _ inside => absurd inside List.not_mem_nil) c le_rfl

/-- The session stops behind the first row, and the next Query is answered all the same. -/
theorem abandoned_copy_consumed : ∃ turns c',
    serve Endpoint.asciiTables (loads (readsSome 1 (.ok none))) ⟨(), .I⟩
        [query copySql, copyData ['0', '\n', '1'], ⟨Tag.FLUSH, []⟩, copyData ['\n'], copyDone,
          query ['S']] = (turns, ⟨c', false, [], true⟩) ∧
      Consumed [⟨query copySql, [[copyData ['0', '\n', '1'], ⟨Tag.FLUSH, []⟩, copyData ['\n'],
        copyDone]]⟩, ⟨query ['S'], []⟩] turns := by
  have copying : CopyMessages
      [copyData ['0', '\n', '1'], ⟨Tag.FLUSH, []⟩, copyData ['\n'], copyDone] :=
    .more (Or.inl rfl) (.more (Or.inr rfl) (.more (Or.inl rfl) (.ends (Or.inl rfl))))
  have fed : ∀ e ∈ [⟨query copySql, [[copyData ['0', '\n', '1'], ⟨Tag.FLUSH, []⟩, copyData ['\n'],
      copyDone]]⟩, ⟨query ['S'], []⟩], Exchange.Fed (loads (readsSome 1 (.ok none))) e := by
    intro e inside
    rcases List.mem_cons.mp inside with rfl | inside
    · refine ⟨rfl, fun list member => ?_, by decide⟩
      obtain rfl := List.mem_singleton.mp member
      exact copying
    · obtain rfl := List.mem_singleton.mp inside
      exact ⟨rfl, by simp, by decide⟩
  exact copy_ins_consume_their_own Endpoint.asciiTables (loads_spares (readsSome_spares 1 none)) fed
    ⟨(), .I⟩

end PgMimic.CopyIn

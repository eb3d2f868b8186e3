import PgMimic.Settings

/-!
# The statements the middleware answers

Each statement is what the middleware resolved a text to, with the effect it
has at Execute. What the session answers when it is told of a setting or a
discard is not under the connection's control: a request carries those answers,
one for every time the session is asked.
-/

namespace PgMimic

/-- The tag `_transaction_statement` is built with. -/
inductive TransactionTag where
  | begin
  | commit
  | rollback
  deriving DecidableEq

inductive SavepointKind where
  | savepoint
  | release
  | rollbackTo
  deriving DecidableEq

inductive DiscardKind where
  | all
  | plans
  | sequences
  | temp
  deriving DecidableEq

/-- One effect `_substitute_session_functions` hands back. -/
inductive Effect where
  | setConfig (key : String) (value : Option String)
  | notify (channel message : String)

/-- `query` is any statement the session answers itself. It may raise events
through `Connection.notify_listeners` before it answers. -/
inductive Statement where
  | transaction (tag : TransactionTag)
  | savepoint (kind : SavepointKind) (name : String)
  | assignment (assignments : List (String × Option String)) (isLocal : Bool)
  | resetAll
  | discard (kind : DiscardKind)
  | listen (channel : String)
  | unlisten (channel : Option String)
  | notify (channel payload : String)
  | select (effects : List Effect)
  | query (raised : List (String × String))

/-- A statement to execute, with what the session will answer each time it is asked. -/
structure Request where
  statement : Statement
  answers : List Answer

variable {Value Stmt Port : Type}

/-- `len(stack) - 1 - stack[::-1].index(name)`. -/
def innermost (stack : List String) (name : String) : Option Nat :=
  (stack.reverse.idxOf? name).map fun i => stack.length - 1 - i

def noTransactionMessage : SavepointKind → String
  | .savepoint => "SAVEPOINT can only be used in transaction blocks"
  | .release => "RELEASE SAVEPOINT can only be used in transaction blocks"
  | .rollbackTo => "ROLLBACK TO SAVEPOINT can only be used in transaction blocks"

def noSuchSavepoint (name : String) : PgError :=
  ⟨"3B001", "savepoint \"" ++ name ++ "\" does not exist", []⟩

def discardInTransaction : PgError :=
  ⟨"25001", "DISCARD ALL cannot run inside a transaction block", []⟩

def failedTransaction : PgError :=
  ⟨"25P02", "current transaction is aborted, commands ignored", []⟩

def setLocalOutside : Notice :=
  ⟨"WARNING", "25P01", "SET LOCAL can only be used in transaction blocks"⟩

/-- `is_transaction_end`, of a resolved statement. -/
def Statement.isTransactionEnd : Statement → Bool
  | .transaction .commit | .transaction .rollback => true
  | _ => false

/-- `allowed_in_failed_transaction`, of a resolved statement. -/
def Statement.allowedInFailedTransaction (s : Statement) : Bool :=
  s.isTransactionEnd || match s with
    | .savepoint .rollbackTo _ => true
    | _ => false

namespace World

variable [DecidableEq Value] (cat : Catalogue Value)

/-- `_end_transaction`. -/
def endTransaction (w : World Value Stmt Port) (committed : Bool) : World Value Stmt Port :=
  let before := w.state.sessionVars
  let settled := w.withState
    (if committed then w.state.commitTransaction else w.state.endTransaction)
  let reported := reportChanged cat before settled
  (if committed then reported.flushPendingNotifies else reported).syncListeners

/-- `_transaction_statement`. -/
def transactionStatement (w : World Value Stmt Port) (tag : TransactionTag) :
    World Value Stmt Port :=
  let moved := w.withTxStatus (if tag = .begin then .T else .I)
  if tag = .begin ∧ w.txStatus = .T then moved
  else
    let cleared := moved.withState { moved.state with savepoints := [] }
    match tag with
    | .begin => cleared.withState cleared.state.openScope
    | _ => if w.txStatus = .I then cleared else endTransaction cat cleared (tag = .commit)

/-- The ROLLBACK TO branch of `_savepoint_statement`, once the index is known. -/
def rollbackTo (w : World Value Stmt Port) (index : Nat) : World Value Stmt Port :=
  let before := w.state.sessionVars
  let cut := w.withState { w.state with savepoints := w.state.savepoints.take (index + 1) }
  let restored := cut.withState (cut.state.restoreScope (index + 1))
  (reportChanged cat before restored).syncListeners.withTxStatus .T

/-- The SAVEPOINT branch: a name pushed, and a frame with it. -/
def savepoint (w : World Value Stmt Port) (name : String) : World Value Stmt Port :=
  let pushed := w.withState { w.state with savepoints := w.state.savepoints ++ [name] }
  pushed.withState pushed.state.openScope

/-- The RELEASE branch. -/
def release (w : World Value Stmt Port) (index : Nat) : World Value Stmt Port :=
  let cut := w.withState { w.state with savepoints := w.state.savepoints.take index }
  cut.withState (cut.state.discardScopes (index + 1))

/-- `_savepoint_statement`. -/
def savepointStatement (w : World Value Stmt Port) (kind : SavepointKind) (name : String) :
    World Value Stmt Port × Option Failure :=
  if w.txStatus = .I then (w, some (.error ⟨"25P01", noTransactionMessage kind, []⟩))
  else match kind with
    | .savepoint => (w.savepoint name, none)
    | .release => match innermost w.state.savepoints name with
      | none => (w, some (.error (noSuchSavepoint name)))
      | some index => (w.release index, none)
    | .rollbackTo => match innermost w.state.savepoints name with
      | none => (w, some (.error (noSuchSavepoint name)))
      | some index => (rollbackTo cat w index, none)

omit [DecidableEq Value] in
/-- `_assignment_statement`: the warning, then every name, then every write. -/
def assignmentStatement (w : World Value Stmt Port) (assignments : List (String × Option String))
    (isLocal : Bool) (answers : List Answer) : World Value Stmt Port × Option Failure :=
  let outside := isLocal = true ∧ w.txStatus = .I
  let warned := if outside then w.notice setLocalOutside else w
  match assignments.findSome? fun a => checkSettable cat a.1 with
  | some e => (warned, some (.error e))
  | none => if outside then (warned, none) else applyAll cat isLocal assignments answers warned

omit [DecidableEq Value] in
/-- `_discard_statement`. -/
def discardStatement (w : World Value Stmt Port) (kind : DiscardKind) (answers : List Answer) :
    World Value Stmt Port × Option Failure :=
  if kind = .all ∧ w.txStatus ≠ .I then (w, some (.error discardInTransaction))
  else match answers.headD none with
    | some failure => (w, some failure)
    | none =>
      if kind ≠ .all then (w, none)
      else match resetAll cat answers.tail w with
        | (w', some failure) => (w', some failure)
        | (w', none) => ((w'.withState w'.state.reset).syncListeners, none)

omit [DecidableEq Value] in
/-- `sync_listeners()` where the write is immediately real. -/
def syncOutside (w : World Value Stmt Port) : World Value Stmt Port :=
  if w.txStatus = .I then w.syncListeners else w

def listenStatement (w : World Value Stmt Port) (channel : String) : World Value Stmt Port :=
  (w.withState { w.state with listening := insert channel w.state.listening }).syncOutside

/-- No channel is `UNLISTEN *`. -/
def unlistenStatement (w : World Value Stmt Port) (channel : Option String) :
    World Value Stmt Port :=
  (w.withState { w.state with listening := match channel with
    | none => ∅
    | some c => w.state.listening.erase c }).syncOutside

/-- `_run_all`: the effects in the order they were found. -/
def runAll : List Effect → List Answer → World Value Stmt Port →
    World Value Stmt Port × Option Failure
  | [], _, w => (w, none)
  | .notify channel message :: rest, answers, w =>
    runAll rest answers (w.notifyListeners channel message)
  | .setConfig key value :: rest, answers, w =>
    match applySetConfig cat w key value false (answers.headD none) with
    | (w', none) => runAll rest answers.tail w'
    | (w', some failure) => (w', some failure)

/-- The effect of a statement at Execute. -/
def onExecute (w : World Value Stmt Port) (r : Request) : World Value Stmt Port × Option Failure :=
  match r.statement with
  | .transaction tag => (transactionStatement cat w tag, none)
  | .savepoint kind name => savepointStatement cat w kind name
  | .assignment assignments isLocal => assignmentStatement cat w assignments isLocal r.answers
  | .resetAll => resetAll cat r.answers w
  | .discard kind => discardStatement cat w kind r.answers
  | .listen channel => (w.listenStatement channel, none)
  | .unlisten channel => (w.unlistenStatement channel, none)
  | .notify channel payload => (w.notifyListeners channel payload, none)
  | .select effects => runAll cat effects r.answers w
  | .query raised =>
    (raised.foldl (fun w entry => w.notifyListeners entry.1 entry.2) w, r.answers.headD none)

/-- One statement through the dispatcher: refused in a failed transaction, and
whatever ends it early fails the transaction it ran in. -/
def execute (w : World Value Stmt Port) (r : Request) : World Value Stmt Port × Option Failure :=
  if w.txStatus = .E ∧ r.statement.allowedInFailedTransaction = false then
    (w.fail, some (.error failedTransaction))
  else match onExecute cat w r with
    | (w', none) => (w', none)
    | (w', some failure) => (w'.fail, some failure)

end World

end PgMimic

import PgMimic.State
import PgMimic.Server

/-!
# The connection a statement runs on

`Connection` holds what `DISCARD ALL` leaves alone, and `World` what one
statement of that connection can reach: the connection, the server behind it,
and the calls it has made to `PgServer.notify` and to `Connection.notice`.
-/

namespace PgMimic

structure PgError where
  sqlstate : String
  message : String
  fields : List (String × String) := []
  deriving DecidableEq

/-- What ends a command early: a `PgError`, some other exception of the
session's, or the `CancelledError` a CancelRequest throws into an await. -/
inductive Failure where
  | error (e : PgError)
  | exception (text : String)
  | cancelled
  deriving DecidableEq

/-- `tx_status`: outside a transaction, inside one, inside a failed one. -/
inductive TxStatus where
  | I
  | T
  | E
  deriving DecidableEq

structure PgServer where
  registry : Registry
  parameterStatus : Dict String String
  port : Nat

structure Connection (Value Stmt Port : Type) where
  pid : Pid
  username : String
  startupParams : Dict String String
  txStatus : TxStatus
  pendingParameterStatus : Dict String String
  registeredChannels : Finset String
  state : SessionState Value Stmt Port

/-- One call of `PgServer.notify`, with the listeners its fanout found. -/
structure Notification where
  channel : String
  payload : String
  recipients : Finset Pid
  deriving DecidableEq

structure Notice where
  severity : String
  sqlstate : String
  message : String
  deriving DecidableEq

structure World (Value Stmt Port : Type) where
  connection : Connection Value Stmt Port
  server : PgServer
  notified : List Notification
  notices : List Notice

variable {Value Stmt Port : Type}

namespace Connection

/-- A connection as the constructor leaves it. -/
def fresh (pid : Pid) (username : String) (startupParams : Dict String String) :
    Connection Value Stmt Port where
  pid := pid
  username := username
  startupParams := startupParams
  txStatus := .I
  pendingParameterStatus := ∅
  registeredChannels := ∅
  state := SessionState.initial

end Connection

namespace World

/-- The session state replaced, everything else as it was. -/
def withState (w : World Value Stmt Port) (s : SessionState Value Stmt Port) :
    World Value Stmt Port :=
  { w with connection := { w.connection with state := s } }

def withTxStatus (w : World Value Stmt Port) (t : TxStatus) : World Value Stmt Port :=
  { w with connection := { w.connection with txStatus := t } }

def withParameterStatus (w : World Value Stmt Port) (owed : Dict String String) :
    World Value Stmt Port :=
  { w with connection := { w.connection with pendingParameterStatus := owed } }

def state (w : World Value Stmt Port) : SessionState Value Stmt Port := w.connection.state

def txStatus (w : World Value Stmt Port) : TxStatus := w.connection.txStatus

/-- Last write wins: one report of a parameter is owed at a time. -/
def reportParameter (w : World Value Stmt Port) (name value : String) : World Value Stmt Port :=
  w.withParameterStatus (w.connection.pendingParameterStatus.set name value)

def notice (w : World Value Stmt Port) (n : Notice) : World Value Stmt Port :=
  { w with notices := w.notices ++ [n] }

/-- `self.server.notify(channel, payload, self.pid)`. -/
def serverNotify (w : World Value Stmt Port) (channel payload : String) : World Value Stmt Port :=
  { w with notified := w.notified ++ [⟨channel, payload, w.server.registry.listeners channel⟩] }

def notifyListeners (w : World Value Stmt Port) (channel payload : String) :
    World Value Stmt Port :=
  if w.txStatus = .I then w.serverNotify channel payload
  else if (channel, payload) ∈ w.state.pendingNotifies then w
  else w.withState
    { w.state with pendingNotifies := w.state.pendingNotifies ++ [(channel, payload)] }

def flushPendingNotifies (w : World Value Stmt Port) : World Value Stmt Port :=
  let taken := w.state.takePendingNotifies
  taken.1.foldl (fun w entry => w.serverNotify entry.1 entry.2) (w.withState taken.2)

/-- Make `listening` real: leave the channels no longer in it, join the new ones. -/
def syncListeners (w : World Value Stmt Port) : World Value Stmt Port :=
  let registered := w.connection.registeredChannels
  let listening := w.state.listening
  let pid := w.connection.pid
  { w with
    server :=
      { w.server with
        registry :=
          (w.server.registry.removeAll (registered \ listening) pid).addAll
            (listening \ registered) pid }
    connection := { w.connection with registeredChannels := listening } }

/-- `if self.tx_status != b"I": self.tx_status = b"E"`, after any error report. -/
def fail (w : World Value Stmt Port) : World Value Stmt Port :=
  if w.txStatus = .I then w else w.withTxStatus .E

variable (w : World Value Stmt Port)

@[simp] theorem state_withState (s : SessionState Value Stmt Port) : (w.withState s).state = s :=
  rfl

@[simp] theorem txStatus_withState (s : SessionState Value Stmt Port) :
    (w.withState s).txStatus = w.txStatus := rfl

@[simp] theorem state_withTxStatus (t : TxStatus) : (w.withTxStatus t).state = w.state := rfl

@[simp] theorem txStatus_withTxStatus (t : TxStatus) : (w.withTxStatus t).txStatus = t := rfl

@[simp] theorem notified_withTxStatus (t : TxStatus) :
    (w.withTxStatus t).notified = w.notified := rfl

@[simp] theorem state_withParameterStatus (owed : Dict String String) :
    (w.withParameterStatus owed).state = w.state := rfl

@[simp] theorem txStatus_withParameterStatus (owed : Dict String String) :
    (w.withParameterStatus owed).txStatus = w.txStatus := rfl

@[simp] theorem state_syncListeners : w.syncListeners.state = w.state := rfl

@[simp] theorem txStatus_syncListeners : w.syncListeners.txStatus = w.txStatus := rfl

@[simp] theorem state_fail : w.fail.state = w.state := by
  simp only [fail]
  split <;> rfl

end World

end PgMimic

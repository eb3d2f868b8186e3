import Mathlib.Data.Finset.Insert
import PgMimic.Lib.Trace
import PgMimic.Server
import PgMimic.Startup

/-!
# The sockets of a server

`PgServer` from the accepting of a socket to its end: the callback of asyncio, the negotiation
that may turn out to be a CancelRequest, the registry of connections by their process numbers,
and `close`. Each event is what one task does between two of its awaits, and the tasks take
turns in any order.
-/

namespace PgMimic.Sockets

open Wire (packInt32)
open Startup (negotiateStartup Answer packet PROTOCOL_VERSION CANCEL_REQUEST_CODE)

/-! ## The server -/

abbrev Socket := Nat

/-- `Connection._current_task`. -/
inductive Task where
  | none
  | going (cancelled : Bool)
  /-- Done, and the loop has not taken note of it. -/
  | ended
deriving DecidableEq

/-- How far the callback of a socket has come. -/
inductive Phase where
  | absent
  | accepted
  | negotiating
  /-- Waiting for the session factory. -/
  | making
  | running (pid : Pid) (secret : Int) (task : Task)
  /-- Nothing is left but to close the stream. -/
  | leaving
  | done
deriving DecidableEq

/-- The callback is under way. -/
def Phase.begun : Phase → Bool
  | .negotiating | .making | .running _ _ _ | .leaving => true
  | _ => false

def Phase.pid : Phase → Option Pid
  | .running pid _ _ => some pid
  | _ => none

structure State where
  phase : Socket → Phase
  /-- The transport is closed. -/
  closed : Socket → Bool
  /-- `_connections`: a connection is named by its socket. -/
  connections : Pid → Option Socket
  /-- `_tasks`, each named by the socket of its callback. -/
  tasks : Finset Socket
  /-- `_writers`. -/
  writers : Finset Socket
  closing : Bool
  nextPid : Pid

inductive Event where
  | accept (socket : Socket)
  /-- The callback of a socket is run for the first time. -/
  | begin (socket : Socket)
  /-- The client has sent what it opens with. -/
  | request (socket : Socket) (bytes : List UInt8)
  /-- There is a session, and `os.urandom` has given the connection its secret. -/
  | register (socket : Socket) (secret : Int)
  /-- `_current_task` is set. -/
  | command (socket : Socket)
  | settled (socket : Socket)
  /-- `_current_task` is none again. -/
  | collected (socket : Socket)
  /-- The callback comes to its end, by whatever way. -/
  | finish (socket : Socket)
  | close

def start : State where
  phase := fun _ => .absent
  closed := fun _ => false
  connections := fun _ => none
  tasks := ∅
  writers := ∅
  closing := false
  nextPid := 10000

def State.become (s : State) (socket : Socket) (p : Phase) : State :=
  { s with phase := Function.update s.phase socket p }

def State.shut (s : State) (socket : Socket) : State :=
  { s with closed := Function.update s.closed socket true }

/-- `request_cancel`, and `task.cancel()` of the callback that waits for it. -/
def Task.cancel : Task → Task
  | .going _ => .going true
  | task => task

def Phase.cancel : Phase → Phase
  | .running pid secret task => .running pid secret task.cancel
  | p => p

/-- The connection has this secret. -/
def Phase.keeps (secret : Int) : Phase → Bool
  | .running _ own _ => own = secret
  | _ => false

/-- `PgServer.cancel`. -/
def cancel (s : State) (pid secret : Int) : State :=
  match if 0 ≤ pid then s.connections pid.toNat else none with
  | none => s
  | some socket =>
    if (s.phase socket).keeps secret then s.become socket (s.phase socket).cancel else s

/-- `_allocate_pid`, and the connection in the registry. -/
def register (s : State) (socket : Socket) (secret : Int) : State :=
  { s.become socket (.running s.nextPid secret .none) with
    connections := Function.update s.connections s.nextPid (some socket)
    nextPid := s.nextPid + 1 }

/-- `self._connections.pop(pid, None)`. -/
def popped (s : State) (p : Phase) : Pid → Option Socket :=
  match p.pid with
  | none => s.connections
  | some pid => Function.update s.connections pid none

/-- The two `finally` clauses. -/
def leave (s : State) (socket : Socket) : State :=
  { (s.become socket .done).shut socket with
    connections := popped s (s.phase socket)
    tasks := s.tasks.erase socket
    writers := s.writers.erase socket }

/-- `_client_connected_cb`, up to its first await. -/
def begin (s : State) (socket : Socket) : State :=
  if s.closing then (s.become socket .done).shut socket
  else
    { s.become socket .negotiating with
      tasks := insert socket s.tasks
      writers := insert socket s.writers }

/-- `PgServer.close`. -/
def close (s : State) : State :=
  { s with
    phase := fun socket => if socket ∈ s.tasks then (s.phase socket).cancel else s.phase socket
    closed := fun socket => s.closed socket || decide (socket ∈ s.writers)
    closing := true }

section Step

variable (maxMessageSize : Int)

/-- What `_negotiate_startup` has come to. -/
def answered (s : State) (socket : Socket) (bytes : List UInt8) : State :=
  match (negotiateStartup maxMessageSize bytes).2 with
  | .ok (.startup _, _) => s.become socket .making
  | .ok (.cancelled pid secret, _) => ((cancel s pid secret).become socket .leaving).shut socket
  | .error _ => s.become socket .leaving

def step (s : State) : Event → Option State
  | .accept socket => if s.phase socket = .absent then some (s.become socket .accepted) else none
  | .begin socket => if s.phase socket = .accepted then some (begin s socket) else none
  | .request socket bytes =>
    if s.phase socket = .negotiating then some (answered maxMessageSize s socket bytes) else none
  | .register socket secret =>
    if s.phase socket = .making then some (register s socket secret) else none
  | .command socket =>
    match s.phase socket with
    | .running pid secret .none => some (s.become socket (.running pid secret (.going false)))
    | _ => none
  | .settled socket =>
    match s.phase socket with
    | .running pid secret (.going _) => some (s.become socket (.running pid secret .ended))
    | _ => none
  | .collected socket =>
    match s.phase socket with
    | .running pid secret .ended => some (s.become socket (.running pid secret .none))
    | _ => none
  | .finish socket => if (s.phase socket).begun then some (leave s socket) else none
  | .close => some (close s)

end Step

/-! ## What is kept -/

/-- What the server knows of its sockets is so. -/
structure Tidy (s : State) : Prop where
  connections : ∀ pid socket, s.connections pid = some socket ↔ (s.phase socket).pid = some pid
  pids : ∀ socket pid, (s.phase socket).pid = some pid → pid < s.nextPid
  tasks : ∀ socket, socket ∈ s.tasks ↔ (s.phase socket).begun = true
  writers : ∀ socket, socket ∈ s.writers ↔ (s.phase socket).begun = true
  done : ∀ socket, s.phase socket = .done → s.closed socket = true
  shut : s.closing = true → ∀ socket, (s.phase socket).begun = true → s.closed socket = true

section Tidying

variable {maxMessageSize : Int} {s t : State} {socket : Socket}

theorem phase_become_self (s : State) (socket : Socket) (p : Phase) :
    (s.become socket p).phase socket = p := Function.update_self ..

theorem phase_become_of_ne (s : State) (p : Phase) {other : Socket} (apart : other ≠ socket) :
    (s.become socket p).phase other = s.phase other := Function.update_of_ne apart ..

theorem closed_shut_self (s : State) (socket : Socket) : (s.shut socket).closed socket = true :=
  Function.update_self ..

theorem closed_shut {other : Socket} (closed : s.closed other = true) :
    (s.shut socket).closed other = true := by
  by_cases same : other = socket
  · rw [same]
    exact closed_shut_self s socket
  · exact (Function.update_of_ne same ..).trans closed

/-- The server has the same to keep of both. -/
structure Alike (p q : Phase) : Prop where
  begun : p.begun = q.begun
  pid : p.pid = q.pid

theorem Alike.refl (p : Phase) : Alike p p := ⟨rfl, rfl⟩

theorem alike_cancel (p : Phase) : Alike p p.cancel := by
  cases p <;> exact ⟨rfl, rfl⟩

theorem alike_become {p : Phase} (same : Alike (s.phase socket) p) (other : Socket) :
    Alike (s.phase other) ((s.become socket p).phase other) := by
  by_cases apart : other = socket
  · rw [apart, phase_become_self]
    exact same
  · rw [phase_become_of_ne s p apart]
    exact Alike.refl _

/-- Where the phases are alike and transports are only closed, nothing changes for the server. -/
theorem Tidy.alike (tidy : Tidy s) (phases : ∀ socket, Alike (s.phase socket) (t.phase socket))
    (done : ∀ socket, t.phase socket = .done →
      s.phase socket = .done ∨ t.closed socket = true)
    (connections : t.connections = s.connections) (nextPid : t.nextPid = s.nextPid)
    (tasks : t.tasks = s.tasks) (writers : t.writers = s.writers)
    (closed : ∀ socket, s.closed socket = true → t.closed socket = true)
    (shut : t.closing = true → s.closing = true ∨
      ∀ socket ∈ s.writers, t.closed socket = true) : Tidy t where
  connections := fun pid socket => by
    rw [connections, tidy.connections, (phases socket).pid]
  pids := fun socket pid named => by
    rw [nextPid]
    exact tidy.pids socket pid ((phases socket).pid.trans named)
  tasks := fun socket => by rw [tasks, tidy.tasks, (phases socket).begun]
  writers := fun socket => by rw [writers, tidy.writers, (phases socket).begun]
  done := fun socket ended =>
    (done socket ended).elim (fun before => closed socket (tidy.done socket before)) id
  shut := fun closing socket begun => by
    have before := (phases socket).begun.trans begun
    rcases shut closing with earlier | all
    · exact closed socket (tidy.shut earlier socket before)
    · exact all socket ((tidy.writers socket).mpr before)

/-- One callback goes on. -/
theorem Tidy.become (tidy : Tidy s) {p : Phase} (same : Alike (s.phase socket) p)
    (on : p ≠ .done) : Tidy (s.become socket p) := by
  refine tidy.alike (alike_become same) (fun other ended => .inl ?_) rfl rfl rfl rfl (fun _ h => h)
    .inl
  by_cases apart : other = socket
  · rw [apart, phase_become_self] at ended
    exact absurd ended on
  · rwa [phase_become_of_ne s p apart] at ended

theorem Tidy.shutting (tidy : Tidy s) (socket : Socket) : Tidy (s.shut socket) :=
  tidy.alike (fun _ => Alike.refl _) (fun _ => .inl) rfl rfl rfl rfl (fun _ => closed_shut) .inl

theorem cancel_ne_done {p : Phase} (on : p ≠ .done) : p.cancel ≠ .done := by
  cases p with
  | done => exact absurd rfl on
  | running pid secret task => exact Phase.noConfusion
  | _ => exact on

theorem ne_done_of_keeps {p : Phase} {secret : Int} (keeps : p.keeps secret = true) :
    p ≠ .done := by
  rintro rfl
  cases keeps

theorem Tidy.cancel (tidy : Tidy s) (pid secret : Int) : Tidy (Sockets.cancel s pid secret) := by
  rw [Sockets.cancel]
  split
  · exact tidy
  · split
    case isTrue keeps =>
      exact tidy.become (alike_cancel _) (cancel_ne_done (ne_done_of_keeps keeps))
    case isFalse => exact tidy

theorem alike_cancelled (s : State) (pid secret : Int) (socket : Socket) :
    Alike (s.phase socket) ((Sockets.cancel s pid secret).phase socket) := by
  rw [Sockets.cancel]
  split
  · exact Alike.refl _
  · split
    · exact alike_become (alike_cancel _) socket
    · exact Alike.refl _

theorem Tidy.answered (tidy : Tidy s) (opening : s.phase socket = .negotiating)
    (bytes : List UInt8) : Tidy (Sockets.answered maxMessageSize s socket bytes) := by
  have goes (p : Phase) (begun : p.begun = true) (nameless : p.pid = none) :
      Alike (s.phase socket) p := by
    rw [opening]
    exact ⟨begun.symm, nameless.symm⟩
  rw [Sockets.answered]
  split
  · exact tidy.become (goes .making rfl rfl) Phase.noConfusion
  · rename_i pid secret _ _
    have same := alike_cancelled s pid secret socket
    rw [opening] at same
    refine ((tidy.cancel pid secret).become ?_ Phase.noConfusion).shutting socket
    exact ⟨same.begun.symm, same.pid.symm⟩
  · exact tidy.become (goes .leaving rfl rfl) Phase.noConfusion

/-- A set of the callbacks under way, and one more of them. -/
theorem begun_insert {held : Finset Socket}
    (exact : ∀ socket, socket ∈ held ↔ (s.phase socket).begun = true) {p : Phase}
    (begun : p.begun = true) (other : Socket) :
    other ∈ insert socket held ↔ ((s.become socket p).phase other).begun = true := by
  by_cases apart : other = socket
  · rw [apart, phase_become_self]
    exact iff_of_true (Finset.mem_insert_self socket held) begun
  · rw [phase_become_of_ne s p apart, ← exact, Finset.mem_insert, or_iff_right apart]

/-- And one of them less. -/
theorem begun_erase {held : Finset Socket}
    (exact : ∀ socket, socket ∈ held ↔ (s.phase socket).begun = true) (other : Socket) :
    other ∈ held.erase socket ↔ ((s.become socket .done).phase other).begun = true := by
  by_cases apart : other = socket
  · rw [apart, phase_become_self]
    exact iff_of_false (Finset.notMem_erase socket held) Bool.noConfusion
  · rw [phase_become_of_ne s _ apart, ← exact, Finset.mem_erase, and_iff_right apart]

theorem Tidy.begin (tidy : Tidy s) (waiting : s.phase socket = .accepted) :
    Tidy (Sockets.begin s socket) := by
  rw [Sockets.begin]
  split
  case isTrue =>
    have same : Alike (s.phase socket) .done := by
      rw [waiting]
      exact ⟨rfl, rfl⟩
    refine tidy.alike (alike_become same) (fun other ended => ?_) rfl rfl rfl rfl
      (fun _ => closed_shut) .inl
    by_cases apart : other = socket
    · rw [apart]
      exact .inr (closed_shut_self _ socket)
    · exact .inl ((phase_become_of_ne s .done apart).symm.trans ended)
  case isFalse serving =>
    have phase (other : Socket) : ((s.become socket .negotiating).phase other).pid =
        (s.phase other).pid := by
      by_cases apart : other = socket
      · rw [apart, phase_become_self, waiting]
        rfl
      · rw [phase_become_of_ne s _ apart]
    constructor
    · intro pid other
      exact (tidy.connections pid other).trans (by rw [← phase])
    · intro other pid named
      exact tidy.pids other pid ((phase other).symm.trans named)
    · exact begun_insert tidy.tasks rfl
    · exact begun_insert tidy.writers rfl
    · intro other ended
      by_cases apart : other = socket
      · rw [apart] at ended
        cases (phase_become_self s socket .negotiating).symm.trans ended
      · exact tidy.done other ((phase_become_of_ne s _ apart).symm.trans ended)
    · intro closing
      exact absurd closing serving

theorem Tidy.register (tidy : Tidy s) (making : s.phase socket = .making) (secret : Int) :
    Tidy (Sockets.register s socket secret) := by
  have nameless : (s.phase socket).pid = none := by
    rw [making]
    rfl
  have begun (other : Socket) : (s.phase other).begun =
      ((s.become socket (.running s.nextPid secret .none)).phase other).begun := by
    by_cases apart : other = socket
    · rw [apart, phase_become_self, making]
      rfl
    · rw [phase_become_of_ne s _ apart]
  constructor
  · intro pid other
    rw [show (Sockets.register s socket secret).connections pid =
        Function.update s.connections s.nextPid (some socket) pid from rfl]
    by_cases apart : other = socket
    · rw [apart, show ((Sockets.register s socket secret).phase socket).pid = some s.nextPid from
        congrArg Phase.pid (phase_become_self s socket _)]
      by_cases fresh : pid = s.nextPid
      · rw [fresh, Function.update_self]
        exact iff_of_true rfl rfl
      · rw [Function.update_of_ne fresh]
        refine iff_of_false (fun known => ?_) fun same => fresh (Option.some.inj same).symm
        cases nameless.symm.trans ((tidy.connections pid socket).mp known)
    · rw [show ((Sockets.register s socket secret).phase other) = s.phase other from
        phase_become_of_ne s _ apart]
      by_cases fresh : pid = s.nextPid
      · rw [fresh, Function.update_self]
        refine iff_of_false (fun same => apart (Option.some.inj same).symm) fun named => ?_
        exact Nat.lt_irrefl _ (tidy.pids other s.nextPid named)
      · rw [Function.update_of_ne fresh]
        exact tidy.connections pid other
  · intro other pid named
    by_cases apart : other = socket
    · rw [apart] at named
      cases (congrArg Phase.pid (phase_become_self s socket _)).symm.trans named
      exact Nat.lt_succ_self _
    · exact Nat.lt_succ_of_lt (tidy.pids other pid
        ((congrArg Phase.pid (phase_become_of_ne s _ apart)).symm.trans named))
  · intro other
    exact (tidy.tasks other).trans (by rw [begun other]; exact Iff.rfl)
  · intro other
    exact (tidy.writers other).trans (by rw [begun other]; exact Iff.rfl)
  · intro other ended
    by_cases apart : other = socket
    · rw [apart] at ended
      cases (phase_become_self s socket _).symm.trans ended
    · exact tidy.done other ((phase_become_of_ne s _ apart).symm.trans ended)
  · intro closing other under
    exact tidy.shut closing other ((begun other).trans under)

theorem Tidy.popped (tidy : Tidy s) (pid : Pid) (other : Socket) :
    Sockets.popped s (s.phase socket) pid = some other ↔
      other ≠ socket ∧ (s.phase other).pid = some pid := by
  rw [Sockets.popped]
  cases own : (s.phase socket).pid with
  | none =>
    refine (tidy.connections pid other).trans ⟨fun named => ⟨?_, named⟩, And.right⟩
    rintro rfl
    cases own.symm.trans named
  | some mine =>
    by_cases same : pid = mine
    · refine iff_of_false ?_ fun ⟨apart, named⟩ => apart ?_
      · simp only [same, Function.update_self, reduceCtorEq, not_false_eq_true]
      · rw [same, ← tidy.connections] at named
        exact Option.some.inj (named.symm.trans ((tidy.connections mine socket).mpr own))
    · simp only [Function.update_of_ne same]
      refine (tidy.connections pid other).trans ⟨fun named => ⟨?_, named⟩, And.right⟩
      rintro rfl
      exact same (Option.some.inj (named.symm.trans own))

theorem Tidy.leave (tidy : Tidy s) : Tidy (Sockets.leave s socket) := by
  have phase {other : Socket} (apart : other ≠ socket) :
      (Sockets.leave s socket).phase other = s.phase other := phase_become_of_ne s _ apart
  have own : (Sockets.leave s socket).phase socket = .done := phase_become_self s socket _
  have still {other : Socket} (closed : s.closed other = true) :
      (Sockets.leave s socket).closed other = true := closed_shut (s := s) closed
  constructor
  · intro pid other
    have kept : Sockets.popped s (s.phase socket) pid = some other ↔
        other ≠ socket ∧ (s.phase other).pid = some pid := tidy.popped pid other
    refine kept.trans ?_
    by_cases apart : other = socket
    · rw [apart, own]
      exact iff_of_false (fun h => h.1 rfl) nofun
    · rw [phase apart, and_iff_right apart]
  · intro other pid named
    by_cases apart : other = socket
    · rw [apart, own] at named
      cases named
    · exact tidy.pids other pid (by rwa [phase apart] at named)
  · exact begun_erase tidy.tasks
  · exact begun_erase tidy.writers
  · intro other ended
    by_cases apart : other = socket
    · rw [apart]
      exact closed_shut_self _ socket
    · exact still (tidy.done other (by rwa [phase apart] at ended))
  · intro closing other begun
    by_cases apart : other = socket
    · rw [apart]
      exact closed_shut_self _ socket
    · exact still (tidy.shut closing other (by rwa [phase apart] at begun))

theorem phase_close (s : State) (socket : Socket) :
    (Sockets.close s).phase socket =
      if socket ∈ s.tasks then (s.phase socket).cancel else s.phase socket := rfl

theorem Tidy.close (tidy : Tidy s) : Tidy (Sockets.close s) := by
  refine tidy.alike (fun socket => ?_) (fun socket ended => .inl ?_) rfl rfl rfl rfl
    (fun socket closed => ?_) fun _ => .inr fun socket inside => ?_
  · rw [phase_close]
    split
    · exact alike_cancel _
    · exact Alike.refl _
  · rw [phase_close] at ended
    split at ended
    · by_contra on
      exact cancel_ne_done on ended
    · exact ended
  · exact Bool.or_eq_true_iff.mpr (.inl closed)
  · exact Bool.or_eq_true_iff.mpr (.inr (decide_eq_true inside))

theorem Tidy.start : Tidy start where
  connections := fun _ _ => iff_of_false nofun nofun
  pids := nofun
  tasks := fun socket => iff_of_false (Finset.notMem_empty socket) Bool.noConfusion
  writers := fun socket => iff_of_false (Finset.notMem_empty socket) Bool.noConfusion
  done := fun _ ended => Phase.noConfusion ended
  shut := fun closing => Bool.noConfusion closing

/-- Every event leaves the server tidy. -/
theorem Tidy.step {e : Event} (tidy : Tidy s) (stepped : Sockets.step maxMessageSize s e = some t) :
    Tidy t := by
  cases e with
  | accept socket =>
    obtain ⟨absent, ⟨⟩⟩ := Option.ite_none_right_eq_some.mp stepped
    refine tidy.become ?_ Phase.noConfusion
    rw [absent]
    exact ⟨rfl, rfl⟩
  | begin socket =>
    obtain ⟨waiting, ⟨⟩⟩ := Option.ite_none_right_eq_some.mp stepped
    exact tidy.begin waiting
  | request socket bytes =>
    obtain ⟨opening, ⟨⟩⟩ := Option.ite_none_right_eq_some.mp stepped
    exact tidy.answered opening bytes
  | register socket secret =>
    obtain ⟨making, ⟨⟩⟩ := Option.ite_none_right_eq_some.mp stepped
    exact tidy.register making secret
  | command socket | settled socket | collected socket =>
    rw [Sockets.step] at stepped
    split at stepped
    case h_1 phase =>
      cases stepped
      refine tidy.become ?_ Phase.noConfusion
      rw [phase]
      exact ⟨rfl, rfl⟩
    case h_2 => cases stepped
  | finish socket =>
    obtain ⟨_, ⟨⟩⟩ := Option.ite_none_right_eq_some.mp stepped
    exact tidy.leave
  | close =>
    cases stepped
    exact tidy.close

end Tidying

section Runs

variable {maxMessageSize : Int}

theorem tidy_of_visited {events : List Event} {t : State}
    (visited : Trace.Visits (step maxMessageSize) start events t) : Tidy t :=
  Trace.visits_invariant Tidy Tidy.start (fun _ _ _ => Tidy.step) visited

/-! ## Process numbers -/

/-- Nobody but one socket has this process number, now or ever again. -/
def Owned (pid : Pid) (socket : Socket) (s : State) : Prop :=
  pid < s.nextPid ∧ ∀ other, (s.phase other).pid = some pid → other = socket

theorem pid_cancel (p : Phase) : p.cancel.pid = p.pid := (alike_cancel p).pid.symm

/-- A callback goes on, and has no number that it did not have. -/
theorem pid_become {s : State} {socket other : Socket} {p : Phase} {pid : Pid}
    (named : ((s.become socket p).phase other).pid = some pid)
    (kept : p.pid = none ∨ p.pid = (s.phase socket).pid) : (s.phase other).pid = some pid := by
  by_cases apart : other = socket
  · rw [apart, phase_become_self] at named
    rcases kept with nameless | same
    · cases nameless.symm.trans named
    · rw [apart, ← same]
      exact named
  · rwa [phase_become_of_ne s p apart] at named

/-- A number that somebody has after an event somebody had before it, or nobody ever. -/
theorem named_before {s t : State} {e : Event} (stepped : step maxMessageSize s e = some t)
    {other : Socket} {pid : Pid} (named : (t.phase other).pid = some pid) :
    (s.phase other).pid = some pid ∨ pid = s.nextPid := by
  cases e with
  | accept socket =>
    obtain ⟨_, ⟨⟩⟩ := Option.ite_none_right_eq_some.mp stepped
    exact .inl (pid_become named (.inl rfl))
  | begin socket =>
    obtain ⟨_, ⟨⟩⟩ := Option.ite_none_right_eq_some.mp stepped
    rw [begin] at named
    split at named
    · exact .inl (pid_become named (.inl rfl))
    · exact .inl (pid_become named (.inl rfl))
  | request socket bytes =>
    obtain ⟨_, ⟨⟩⟩ := Option.ite_none_right_eq_some.mp stepped
    left
    rw [answered] at named
    split at named
    · exact pid_become named (.inl rfl)
    · rename_i pid' secret _ _
      exact (alike_cancelled s pid' secret other).pid.trans (pid_become named (.inl rfl))
    · exact pid_become named (.inl rfl)
  | register socket secret =>
    obtain ⟨_, ⟨⟩⟩ := Option.ite_none_right_eq_some.mp stepped
    by_cases apart : other = socket
    · rw [apart] at named
      cases (congrArg Phase.pid (phase_become_self s socket _)).symm.trans named
      exact .inr rfl
    · exact .inl ((congrArg Phase.pid (phase_become_of_ne s _ apart)).symm.trans named)
  | command socket | settled socket | collected socket =>
    rw [step] at stepped
    split at stepped
    case h_1 phase =>
      cases stepped
      exact .inl (pid_become named (.inr (by rw [phase]; rfl)))
    case h_2 => cases stepped
  | finish socket =>
    obtain ⟨_, ⟨⟩⟩ := Option.ite_none_right_eq_some.mp stepped
    exact .inl (pid_become named (.inl rfl))
  | close =>
    cases stepped
    rw [phase_close] at named
    split at named
    · exact .inl ((pid_cancel _).symm.trans named)
    · exact .inl named

theorem nextPid_cancel (s : State) (pid secret : Int) :
    (cancel s pid secret).nextPid = s.nextPid := by
  rw [cancel]
  split
  · rfl
  · split
    · rfl
    · rfl

theorem nextPid_le {s t : State} {e : Event} (stepped : step maxMessageSize s e = some t) :
    s.nextPid ≤ t.nextPid := by
  cases e with
  | accept | finish =>
    obtain ⟨_, ⟨⟩⟩ := Option.ite_none_right_eq_some.mp stepped
    exact Nat.le_refl _
  | begin socket =>
    obtain ⟨_, ⟨⟩⟩ := Option.ite_none_right_eq_some.mp stepped
    rw [begin]
    split
    · exact Nat.le_refl _
    · exact Nat.le_refl _
  | request socket bytes =>
    obtain ⟨_, ⟨⟩⟩ := Option.ite_none_right_eq_some.mp stepped
    rw [answered]
    split
    · exact Nat.le_refl _
    · exact Nat.le_of_eq (nextPid_cancel s _ _).symm
    · exact Nat.le_refl _
  | register =>
    obtain ⟨_, ⟨⟩⟩ := Option.ite_none_right_eq_some.mp stepped
    exact Nat.le_succ _
  | command socket | settled socket | collected socket =>
    rw [step] at stepped
    split at stepped
    case h_1 =>
      cases stepped
      exact Nat.le_refl _
    case h_2 => cases stepped
  | close =>
    cases stepped
    exact Nat.le_refl _

theorem Owned.step {s t : State} {e : Event} {pid : Pid} {socket : Socket}
    (owned : Owned pid socket s) (stepped : Sockets.step maxMessageSize s e = some t) :
    Owned pid socket t := by
  refine ⟨Nat.lt_of_lt_of_le owned.1 (nextPid_le stepped), fun other named => ?_⟩
  rcases named_before stepped named with before | fresh
  · exact owned.2 other before
  · exact absurd owned.1 (fresh ▸ Nat.lt_irrefl _)

theorem owned_of_named {s : State} {pid : Pid} {socket : Socket} (tidy : Tidy s)
    (named : (s.phase socket).pid = some pid) : Owned pid socket s :=
  ⟨tidy.pids socket pid named, fun other same =>
    Option.some.inj ((((tidy.connections pid other).mpr same).symm.trans
      ((tidy.connections pid socket).mpr named)))⟩

/-- Whoever has the number of a socket in a later state is that socket. -/
theorem same_of_later {s t : State} {earlier later : List Event} {pid : Pid} {a b : Socket}
    (ran : Trace.run (step maxMessageSize) start earlier = some s)
    (on : Trace.run (step maxMessageSize) s later = some t)
    (first : (s.phase a).pid = some pid) (second : (t.phase b).pid = some pid) : b = a := by
  have owned := owned_of_named (tidy_of_visited (Trace.visits_end ran)) first
  exact (Trace.run_invariant (Owned pid a) owned (fun _ _ _ => Owned.step) on).2 b second

theorem same_of_named {s t : State} {events : List Event} {pid : Pid} {a b : Socket}
    (before : Trace.Visits (step maxMessageSize) start events s)
    (after : Trace.Visits (step maxMessageSize) start events t)
    (first : (s.phase a).pid = some pid) (second : (t.phase b).pid = some pid) : b = a := by
  obtain ⟨done, left, split, ran⟩ := before
  obtain ⟨done', left', split', ran'⟩ := after
  rcases List.append_eq_append_iff.mp (split.symm.trans split') with
    ⟨more, rfl, -⟩ | ⟨more, rfl, -⟩
  · rw [Trace.run_append, ran] at ran'
    exact same_of_later ran ran' first second
  · rw [Trace.run_append, ran'] at ran
    exact (same_of_later ran' ran second first).symm

/-- What `close` is for: no transport is left open. -/
theorem dropped_of_closing {s : State} (tidy : Tidy s) (closing : s.closing = true)
    {socket : Socket} (present : s.phase socket ≠ .absent) (begun : s.phase socket ≠ .accepted) :
    s.closed socket = true := by
  cases phase : s.phase socket with
  | absent => exact absurd phase present
  | accepted => exact absurd phase begun
  | done => exact tidy.done socket phase
  | _ =>
    apply tidy.shut closing
    rw [phase]
    rfl

theorem pid_eq_some {p : Phase} {pid : Pid} :
    p.pid = some pid ↔ ∃ secret task, p = .running pid secret task := by
  constructor
  · intro named
    cases p with
    | running own secret task =>
      cases named
      exact ⟨secret, task, rfl⟩
    | _ => cases named
  · rintro ⟨secret, task, rfl⟩
    rfl

/-- The server knows its sockets throughout a run, whatever the order the callbacks take turns
in: its registry has each running connection under its number and nothing else, no number is
given to two sockets, its sets of tasks and of writers are the callbacks under way, and from
`close` on there is no callback with an open transport. -/
theorem sockets_accounted {events : List Event} {s t : State}
    (earlier : Trace.Visits (step maxMessageSize) start events s)
    (visited : Trace.Visits (step maxMessageSize) start events t) :
    (∀ pid socket, t.connections pid = some socket ↔
      ∃ secret task, t.phase socket = .running pid secret task) ∧
    (∀ pid a b, (s.phase a).pid = some pid → (t.phase b).pid = some pid → b = a) ∧
    (∀ socket, socket ∈ t.tasks ↔ (t.phase socket).begun = true) ∧
    (∀ socket, socket ∈ t.writers ↔ (t.phase socket).begun = true) ∧
    (t.closing = true → ∀ socket, t.phase socket ≠ .absent → t.phase socket ≠ .accepted →
      t.closed socket = true) := by
  have tidy := tidy_of_visited visited
  refine ⟨fun pid socket => ?_, fun pid a b first second => ?_, tidy.tasks, tidy.writers,
    fun closing socket => dropped_of_closing tidy closing⟩
  · rw [tidy.connections, pid_eq_some]
  · exact same_of_named earlier visited first second

/-- A client connects and sends a command, and another asks to cancel it. -/
def connecting : List Event :=
  [.accept 0, .begin 0, .request 0 (packet PROTOCOL_VERSION [0]), .register 0 7]

def quoting : List Event :=
  [.accept 1, .begin 1,
    .request 1 (packet CANCEL_REQUEST_CODE (packInt32 10000 ++ packInt32 7))]

theorem quoted : (Trace.run (step 65536) start (connecting ++ .command 0 :: quoting)).map
    (fun t => t.phase 0) = some (.running 10000 7 (.going true)) := by
  decide +kernel

theorem first_registered :
    ∃ t, Trace.run (step 65536) start (connecting ++ .command 0 :: quoting) = some t ∧
      t.connections 10000 = some 0 := by
  obtain ⟨t, ran, phase⟩ := Option.map_eq_some_iff.mp quoted
  have visited := Trace.visits_end ran
  exact ⟨t, ran, ((sockets_accounted visited visited).1 10000 0).mpr ⟨7, _, phase⟩⟩

/-! ## Cancelling -/

/-- The callback whose turn it is. -/
def Event.socket : Event → Option Socket
  | .accept socket | .begin socket | .request socket _ | .register socket _ | .command socket
  | .settled socket | .collected socket | .finish socket => some socket
  | .close => none

/-- What has to be quoted to cancel what the connection is doing. -/
def Phase.key : Phase → Option (Int × Int)
  | .running pid secret _ => some (pid, secret)
  | _ => none

theorem key_eq_some {p : Phase} {pid secret : Int} (key : p.key = some (pid, secret)) :
    ∃ (own : Pid) (task : Task), pid = own ∧ p = .running own secret task := by
  cases p with
  | running own other task =>
    cases key
    exact ⟨own, task, rfl, rfl⟩
  | _ => cases key

/-- Nobody but the connection that has the key is cancelled. -/
theorem phase_cancel {s : State} (tidy : Tidy s) (pid secret : Int) (socket : Socket) :
    (cancel s pid secret).phase socket =
      if (s.phase socket).key = some (pid, secret) then (s.phase socket).cancel
      else s.phase socket := by
  split
  case isTrue key =>
    obtain ⟨own, task, rfl, phase⟩ := key_eq_some key
    have known := (tidy.connections own socket).mpr (pid_eq_some.mpr ⟨secret, task, phase⟩)
    have keeps : (s.phase socket).keeps secret = true := by
      rw [phase]
      exact decide_eq_true rfl
    rw [cancel, if_pos (Int.natCast_nonneg own)]
    simp only [Int.toNat_natCast, known, if_pos keeps]
    exact phase_become_self s socket _
  case isFalse other =>
    rw [cancel]
    split
    · rfl
    · rename_i found named
      split
      case isFalse => rfl
      case isTrue keeps =>
        obtain ⟨natural, named⟩ := Option.ite_none_right_eq_some.mp named
        refine phase_become_of_ne s _ ?_
        rintro rfl
        obtain ⟨own, task, phase⟩ := pid_eq_some.mp ((tidy.connections _ _).mp named)
        rw [phase] at keeps
        rw [phase, Phase.key, Int.toNat_of_nonneg natural, of_decide_eq_true keeps] at other
        exact other rfl

variable (maxMessageSize) in
/-- It asks for what a callback in this phase is doing. -/
def Event.reaches (p : Phase) : Event → Bool
  | .request _ bytes =>
    match (negotiateStartup maxMessageSize bytes).2 with
    | .ok (.cancelled pid secret, _) => p.key = some (pid, secret)
    | _ => false
  | .close => p.begun
  | _ => false

/-- A callback whose turn it is not stays as it is, or is cancelled. -/
theorem phase_step {s t : State} {e : Event} {socket : Socket} (tidy : Tidy s)
    (stepped : step maxMessageSize s e = some t) (waits : e.socket ≠ some socket) :
    t.phase socket = if e.reaches maxMessageSize (s.phase socket) then (s.phase socket).cancel
      else s.phase socket := by
  have apart {other : Socket} (turn : e.socket = some other) : socket ≠ other := by
    rintro rfl
    exact waits turn
  cases e with
  | accept other =>
    obtain ⟨_, ⟨⟩⟩ := Option.ite_none_right_eq_some.mp stepped
    exact phase_become_of_ne s _ (apart rfl)
  | begin other =>
    obtain ⟨_, ⟨⟩⟩ := Option.ite_none_right_eq_some.mp stepped
    rw [begin]
    split
    · exact phase_become_of_ne s _ (apart rfl)
    · exact phase_become_of_ne s _ (apart rfl)
  | request other bytes =>
    obtain ⟨_, ⟨⟩⟩ := Option.ite_none_right_eq_some.mp stepped
    rw [answered, Event.reaches]
    rcases (negotiateStartup maxMessageSize bytes).2 with
      failure | ⟨request | ⟨pid, secret⟩, unread⟩
    · exact phase_become_of_ne s _ (apart rfl)
    · exact phase_become_of_ne s _ (apart rfl)
    · refine (phase_become_of_ne _ _ (apart rfl)).trans ?_
      rw [phase_cancel tidy]
      simp only [decide_eq_true_eq]
  | register other secret =>
    obtain ⟨_, ⟨⟩⟩ := Option.ite_none_right_eq_some.mp stepped
    exact phase_become_of_ne s _ (apart rfl)
  | command other | settled other | collected other =>
    rw [step] at stepped
    split at stepped
    case h_1 =>
      cases stepped
      exact phase_become_of_ne s _ (apart rfl)
    case h_2 => cases stepped
  | finish other =>
    obtain ⟨_, ⟨⟩⟩ := Option.ite_none_right_eq_some.mp stepped
    exact phase_become_of_ne s _ (apart rfl)
  | close =>
    cases stepped
    rw [phase_close]
    simp only [tidy.tasks]
    rfl

/-- Whatever it was doing is behind it. -/
def Phase.idle : Phase → Bool
  | .running _ _ .none | .running _ _ .ended | .done => true
  | _ => false

theorem cancel_of_idle {p : Phase} (idle : p.idle = true) : p.cancel = p := by
  cases p with
  | running pid secret task =>
    cases task with
    | going => cases idle
    | _ => rfl
  | _ => rfl

/-- There is nothing to do again before there is another command. -/
theorem idle_step {s t : State} {e : Event} {socket : Socket} (tidy : Tidy s)
    (idle : (s.phase socket).idle = true) (stepped : step maxMessageSize s e = some t)
    (same : e ≠ .command socket) : (t.phase socket).idle = true := by
  by_cases turn : e.socket = some socket
  · cases e with
    | finish other =>
      cases turn
      obtain ⟨_, ⟨⟩⟩ := Option.ite_none_right_eq_some.mp stepped
      exact congrArg Phase.idle (phase_become_self s socket .done)
    | collected other =>
      cases turn
      rw [step] at stepped
      split at stepped
      case h_1 =>
        cases stepped
        exact congrArg Phase.idle (phase_become_self s socket _)
      case h_2 => cases stepped
    | command other =>
      cases turn
      exact absurd rfl same
    | settled other =>
      cases turn
      rw [step] at stepped
      split at stepped
      case h_1 phase => cases (congrArg Phase.idle phase).symm.trans idle
      case h_2 => cases stepped
    | accept other | begin other | request other | register other =>
      cases turn
      obtain ⟨before, _⟩ := Option.ite_none_right_eq_some.mp stepped
      cases (congrArg Phase.idle before).symm.trans idle
    | close => cases turn
  · rw [phase_step tidy stepped turn, cancel_of_idle idle, ite_self]
    exact idle

/-- The connection is at a command, cancelled or not, or is done with it. -/
def Going (socket : Socket) (pid : Pid) (secret : Int) (c : Bool) (s : State) : Prop :=
  s.phase socket = .running pid secret (.going c) ∨ (s.phase socket).idle = true

variable (maxMessageSize) in
/-- It quotes the key, or ends everything. -/
def Event.cancels (pid : Pid) (secret : Int) (e : Event) : Bool :=
  e.reaches maxMessageSize (.running pid secret .none)

theorem going_step {s t : State} {e : Event} {socket : Socket} {pid : Pid} {secret : Int}
    {c : Bool} (tidy : Tidy s) (going : Going socket pid secret c s)
    (stepped : step maxMessageSize s e = some t) (same : e ≠ .command socket) :
    Going socket pid secret (c || e.cancels maxMessageSize pid secret) t := by
  rcases going with phase | idle
  · by_cases turn : e.socket = some socket
    · right
      cases e with
      | finish other =>
        cases turn
        obtain ⟨_, ⟨⟩⟩ := Option.ite_none_right_eq_some.mp stepped
        exact congrArg Phase.idle (phase_become_self s socket .done)
      | settled other =>
        cases turn
        simp only [step, phase, Option.some.injEq] at stepped
        rw [← stepped, phase_become_self]
        rfl
      | command other =>
        cases turn
        exact absurd rfl same
      | collected other =>
        cases turn
        simp only [step, phase, reduceCtorEq] at stepped
      | accept other | begin other | request other | register other =>
        cases turn
        obtain ⟨before, _⟩ := Option.ite_none_right_eq_some.mp stepped
        cases phase.symm.trans before
      | close => cases turn
    · left
      have reaches : e.reaches maxMessageSize (.running pid secret (.going c)) =
          e.cancels maxMessageSize pid secret := rfl
      rw [phase_step tidy stepped turn, phase, reaches]
      cases e.cancels maxMessageSize pid secret with
      | true => rw [Bool.or_true, if_pos rfl, Phase.cancel, Task.cancel]
      | false => rw [Bool.or_false, if_neg Bool.false_ne_true]
  · exact .inr (idle_step tidy idle stepped same)

theorem going_run {events : List Event} {s t : State} {socket : Socket} {pid : Pid}
    {secret : Int} {c : Bool} (tidy : Tidy s) (going : Going socket pid secret c s)
    (ran : Trace.run (step maxMessageSize) s events = some t)
    (same : .command socket ∉ events) :
    Going socket pid secret (c || events.any (Event.cancels maxMessageSize pid secret)) t := by
  induction events generalizing s c with
  | nil =>
    cases ran
    rwa [List.any_nil, Bool.or_false]
  | cons e events ih =>
    obtain ⟨u, stepped, rest⟩ := Option.bind_eq_some_iff.mp ran
    obtain ⟨first, others⟩ := not_or.mp fun h => same (List.mem_cons.mpr h)
    rw [List.any_cons, ← Bool.or_assoc]
    exact ih (tidy.step stepped) (going_step tidy going stepped (Ne.symm first)) rest others

/-- A command is cancelled by a request that quotes the key of its connection and comes while it
is the last that the connection has begun, or with the whole server. Nothing else does it:
neither what came before it nor a key that is wrong in either of its halves. -/
theorem cancelled_iff {before later : List Event} {t : State} {socket : Socket} {pid : Pid}
    {secret : Int} {c : Bool}
    (ran : Trace.run (step maxMessageSize) start (before ++ .command socket :: later) = some t)
    (last : .command socket ∉ later)
    (phase : t.phase socket = .running pid secret (.going c)) :
    c = true ↔ ∃ e ∈ later, e.cancels maxMessageSize pid secret = true := by
  rw [Trace.run_append] at ran
  obtain ⟨s, earlier, rest⟩ := Option.bind_eq_some_iff.mp ran
  obtain ⟨u, stepped, on⟩ := Option.bind_eq_some_iff.mp rest
  have tidy := tidy_of_visited (Trace.visits_end earlier)
  obtain ⟨own, key, begun⟩ : ∃ own key, u.phase socket = .running own key (.going false) := by
    rw [step] at stepped
    split at stepped
    case h_1 =>
      cases stepped
      exact ⟨_, _, phase_become_self s socket _⟩
    case h_2 => cases stepped
  rcases going_run (tidy.step stepped) (.inl begun) on last with going | idle
  · cases going.symm.trans phase
    rw [Bool.false_or, List.any_eq_true]
  · rw [phase] at idle
    cases idle

end Runs

theorem quoted_cancelled : ∃ e ∈ quoting, e.cancels 65536 10000 7 = true := by
  obtain ⟨t, ran, phase⟩ := Option.map_eq_some_iff.mp quoted
  refine (cancelled_iff ran ?_ phase).mp rfl
  simp only [quoting, List.mem_cons, reduceCtorEq, List.not_mem_nil, or_self, not_false_eq_true]

end PgMimic.Sockets

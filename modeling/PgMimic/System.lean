import PgMimic.Lib.Offsets
import PgMimic.Lib.Trace
import PgMimic.Execution

/-!
# A server and the connections on it

Connections are opened, send statements and go away in any order. The ledger
beside each connection is not in the program: it is the transaction told from
the outcomes alone, so that what a statement did to the frames can be compared
with what a client may expect of it.
-/

namespace PgMimic

variable {Value Stmt Port : Type}

/-- A live savepoint: what there was when it was taken, and whether there has
been a ROLLBACK TO it since. -/
structure Mark (Value : Type) where
  name : String
  taken : Scope Value
  rolledBack : Bool

/-- The world BEGIN executed in, and the live savepoints, outermost first. -/
structure Ledger (Value Stmt Port : Type) where
  begun : Option (World Value Stmt Port)
  marks : List (Mark Value)

namespace Ledger

/-- The innermost mark of a name, after the marks outside it. -/
def find (name : String) : List (Mark Value) → Option (List (Mark Value) × Mark Value)
  | [] => none
  | m :: rest => match find name rest with
    | some (outer, found) => some (m :: outer, found)
    | none => if m.name = name then some ([], m) else none

/-- A statement that failed leaves the ledger as it was. -/
def record (l : Ledger Value Stmt Port) (w : World Value Stmt Port) (s : Statement) :
    Option Failure → Ledger Value Stmt Port
  | some _ => l
  | none => match s with
    | .transaction .begin => if w.txStatus = .I then ⟨some w, []⟩ else l
    | .transaction _ => ⟨none, []⟩
    | .savepoint .savepoint name =>
      { l with marks := l.marks ++ [⟨name, w.state.snapshot, false⟩] }
    | .savepoint .release name => match find name l.marks with
      | none => l
      | some (outer, _) => { l with marks := outer }
    | .savepoint .rollbackTo name => match find name l.marks with
      | none => l
      | some (outer, found) => { l with marks := outer ++ [{ found with rolledBack := true }] }
    | _ => l

theorem record_of_not_editsFrames (l : Ledger Value Stmt Port) (w : World Value Stmt Port)
    {s : Statement} (frames : s.editsFrames = false) (failed : Option Failure) :
    l.record w s failed = l := by
  cases failed with
  | some failure => rfl
  | none =>
    cases s with
    | transaction tag => cases frames
    | savepoint kind name => cases frames
    | _ => rfl

theorem find_eq_none_iff {name : String} {marks : List (Mark Value)} :
    find name marks = none ↔ name ∉ marks.map Mark.name := by
  induction marks with
  | nil => simp [find]
  | cons m rest ih =>
    rw [find, List.map_cons, List.mem_cons, not_or, ← ih]
    cases deeper : find name rest with
    | some p => simp
    | none => simp [eq_comm]

theorem find_eq_some {name : String} {marks outer : List (Mark Value)} {found : Mark Value}
    (h : find name marks = some (outer, found)) :
    ∃ inner, marks = outer ++ found :: inner ∧ found.name = name ∧
      name ∉ inner.map Mark.name := by
  induction marks generalizing outer with
  | nil => cases h
  | cons m rest ih =>
    cases deeper : find name rest with
    | some p =>
      rw [find, deeper] at h
      obtain ⟨rfl, rfl⟩ := Prod.mk.inj (Option.some.inj h)
      obtain ⟨inner, split, named, absent⟩ := ih deeper
      exact ⟨inner, by rw [split, List.cons_append], named, absent⟩
    | none =>
      rw [find, deeper] at h
      by_cases hm : m.name = name
      · simp only [hm, if_true, Option.some.injEq, Prod.mk.injEq] at h
        obtain ⟨rfl, rfl⟩ := h
        exact ⟨rest, rfl, hm, find_eq_none_iff.mp deeper⟩
      · simp [hm] at h

/-- The index the middleware computes is the number of marks outside. -/
theorem innermost_names (name : String) (marks : List (Mark Value)) :
    innermost (marks.map Mark.name) name = (find name marks).map fun p => p.1.length := by
  cases h : find name marks with
  | none =>
    have absent := find_eq_none_iff.mp h
    have missing : (marks.map Mark.name).reverse.idxOf? name = none := by
      rw [List.idxOf?_eq_none_iff, List.mem_reverse]
      exact absent
    rw [innermost, missing]
    rfl
  | some p =>
    obtain ⟨outer, found⟩ := p
    obtain ⟨inner, split, named, absent⟩ := find_eq_some h
    have reversed : (marks.map Mark.name).reverse =
        (inner.map Mark.name).reverse ++ name :: (outer.map Mark.name).reverse := by
      simp [split, named]
    have absent' : name ∉ (inner.map Mark.name).reverse := fun h => absent (List.mem_reverse.mp h)
    have at_inner : (marks.map Mark.name).reverse.idxOf? name = some inner.length := by
      rw [reversed, Offsets.idxOf?_of_split absent', List.length_reverse, List.length_map]
    rw [innermost, at_inner]
    simp only [Option.map_some, List.length_map, split, List.length_append, List.length_cons]
    congr 1
    omega

end Ledger

section Moves

variable [DecidableEq Value] {cat : Catalogue Value}

/-- A transaction that stays open keeps the world it began in. -/
theorem Move.begun_of_open {w w' : World Value Stmt Port} {s : Statement}
    {failed : Option Failure} (move : Move cat w s failed w') (opened : w.txStatus ≠ .I)
    (still : w'.txStatus ≠ .I) (l : Ledger Value Stmt Port) :
    (l.record w s failed).begun = l.begun := by
  cases move with
  | stopped _ => rfl
  | quiet frames _ => rw [Ledger.record_of_not_editsFrames l w frames]
  | subscribed frames _ => rw [Ledger.record_of_not_editsFrames l w frames]
  | discarded idle _ => exact False.elim (opened idle)
  | @transaction tag _ =>
    by_cases begins : tag = .begin
    · subst begins
      simp only [Ledger.record, opened, if_false]
    · rw [World.transactionStatement_end cat w begins opened,
        World.txStatus_endTransaction] at still
      exact False.elim (still rfl)
  | savepoint _ => rfl
  | @release name _ _ _ =>
    cases found : Ledger.find name l.marks <;> simp only [Ledger.record, found]
  | @rollbackTo name _ _ _ =>
    cases found : Ledger.find name l.marks <;> simp only [Ledger.record, found]

end Moves

/-- A live connection, the calls it has made, and its ledger. -/
structure Client (Value Stmt Port : Type) where
  connection : Connection Value Stmt Port
  notified : List Notification
  notices : List Notice
  ledger : Ledger Value Stmt Port

namespace Client

def fresh (pid : Pid) (username : String) (startupParams : Dict String String) :
    Client Value Stmt Port where
  connection := Connection.fresh pid username startupParams
  notified := []
  notices := []
  ledger := ⟨none, []⟩

/-- What a statement of this connection can reach. -/
def world (c : Client Value Stmt Port) (server : PgServer) : World Value Stmt Port :=
  ⟨c.connection, server, c.notified, c.notices⟩

/-- The client a statement leaves, the ledger kept up with it. -/
def settle (c : Client Value Stmt Port) (server : PgServer) (s : Statement)
    (failed : Option Failure) (w : World Value Stmt Port) : Client Value Stmt Port where
  connection := w.connection
  notified := w.notified
  notices := w.notices
  ledger := c.ledger.record (c.world server) s failed

end Client

structure System (Value Stmt Port : Type) where
  server : PgServer
  clients : Pid → Option (Client Value Stmt Port)

/-- What can happen next, on one connection or another. -/
inductive Event where
  | connect (pid : Pid) (username : String) (startupParams : Dict String String)
  | request (pid : Pid) (r : Request)
  | disconnect (pid : Pid)

namespace System

/-- A server nobody has connected to yet. -/
def start (parameterStatus : Dict String String) (port : Nat) : System Value Stmt Port where
  server := ⟨fun _ => none, parameterStatus, port⟩
  clients := fun _ => none

/-- What one connection now is, and the server with it. -/
def put (sys : System Value Stmt Port) (server : PgServer) (pid : Pid)
    (c : Option (Client Value Stmt Port)) : System Value Stmt Port where
  server := server
  clients := Function.update sys.clients pid c

theorem clients_put_self (sys : System Value Stmt Port) (server : PgServer) (pid : Pid)
    (c : Option (Client Value Stmt Port)) : (sys.put server pid c).clients pid = c := by
  simp only [put, Function.update_self]

theorem clients_put_of_ne (sys : System Value Stmt Port) (server : PgServer) {pid q : Pid}
    (c : Option (Client Value Stmt Port)) (h : q ≠ pid) :
    (sys.put server pid c).clients q = sys.clients q := by
  simp only [put, Function.update_of_ne h]

/-- Of any connection afterwards: it is the one just put, or it was there before. -/
theorem clients_put {sys : System Value Stmt Port} {server : PgServer} {pid q : Pid}
    {put : Option (Client Value Stmt Port)} {c : Client Value Stmt Port}
    (h : (sys.put server pid put).clients q = some c) :
    (q = pid ∧ put = some c) ∨ (q ≠ pid ∧ sys.clients q = some c) := by
  by_cases same : q = pid
  · subst same
    rw [clients_put_self] at h
    exact Or.inl ⟨rfl, h⟩
  · rw [clients_put_of_ne sys server put same] at h
    exact Or.inr ⟨same, h⟩

variable [DecidableEq Value] (cat : Catalogue Value)

/-- Of a live connection: its statement executes, or it leaves the registry and is
gone. A process number is given out once at a time. -/
def step (sys : System Value Stmt Port) : Event → Option (System Value Stmt Port)
  | .connect pid username startupParams => match sys.clients pid with
    | some _ => none
    | none => some (sys.put sys.server pid (some (Client.fresh pid username startupParams)))
  | .request pid r => (sys.clients pid).map fun c =>
    let done := World.execute cat (c.world sys.server) r
    sys.put done.1.server pid (some (c.settle sys.server r.statement done.2 done.1))
  | .disconnect pid => (sys.clients pid).map fun c =>
    sys.put { sys.server with
      registry := sys.server.registry.removeAll c.connection.registeredChannels pid } pid none

variable {cat}

theorem step_connect {sys v : System Value Stmt Port} {pid : Pid} {username : String}
    {startupParams : Dict String String}
    (h : step cat sys (.connect pid username startupParams) = some v) :
    sys.clients pid = none ∧
      v = sys.put sys.server pid (some (Client.fresh pid username startupParams)) := by
  cases taken : sys.clients pid with
  | some c => simp only [step, taken, reduceCtorEq] at h
  | none =>
    simp only [step, taken] at h
    exact ⟨rfl, (Option.some.inj h).symm⟩

/-- The statement a connection executed, as a move of its world. -/
theorem step_request {sys v : System Value Stmt Port} {pid : Pid} {r : Request}
    (h : step cat sys (.request pid r) = some v) :
    ∃ c failed w, sys.clients pid = some c ∧
      World.execute cat (c.world sys.server) r = (w, failed) ∧
      Move cat (c.world sys.server) r.statement failed w ∧
      v = sys.put w.server pid (some (c.settle sys.server r.statement failed w)) := by
  cases live : sys.clients pid with
  | none => simp only [step, live, Option.map_none, reduceCtorEq] at h
  | some c =>
    simp only [step, live, Option.map_some] at h
    exact ⟨c, _, _, rfl, rfl, execute_move cat (c.world sys.server) r, (Option.some.inj h).symm⟩

theorem step_disconnect {sys v : System Value Stmt Port} {pid : Pid}
    (h : step cat sys (.disconnect pid) = some v) :
    ∃ c, sys.clients pid = some c ∧
      v = sys.put { sys.server with
        registry := sys.server.registry.removeAll c.connection.registeredChannels pid } pid
          none := by
  cases live : sys.clients pid with
  | none => simp only [step, live, Option.map_none, reduceCtorEq] at h
  | some c =>
    simp only [step, live, Option.map_some] at h
    exact ⟨c, rfl, (Option.some.inj h).symm⟩

/-- What a connection has when it opens, and keeps through every move whatever the
server then is, every connection of every run has. -/
theorem clients_invariant (P : Client Value Stmt Port → Prop)
    (fresh : ∀ pid username startupParams, P (Client.fresh pid username startupParams))
    (kept : ∀ (c : Client Value Stmt Port) server s failed w, P c →
      Move cat (c.world server) s failed w → P (c.settle server s failed w))
    {parameterStatus : Dict String String} {port : Nat} {events : List Event}
    {sys : System Value Stmt Port}
    (visited : Trace.Visits (step cat) (start parameterStatus port) events sys)
    {pid : Pid} {c : Client Value Stmt Port} (live : sys.clients pid = some c) : P c := by
  have all : ∀ pid c, sys.clients pid = some c → P c := by
    refine Trace.visits_invariant
      (fun sys : System Value Stmt Port => ∀ pid c, sys.clients pid = some c → P c)
      ?_ ?_ visited
    · intro pid c live
      cases live
    · intro u e v hu stepped pid c live
      cases e with
      | connect q username startupParams =>
        obtain ⟨_, rfl⟩ := step_connect stepped
        rcases clients_put live with ⟨_, h⟩ | ⟨_, h⟩
        · exact Option.some.inj h ▸ fresh q username startupParams
        · exact hu pid c h
      | request q r =>
        obtain ⟨d, failed, w, hd, _, move, rfl⟩ := step_request stepped
        rcases clients_put live with ⟨_, h⟩ | ⟨_, h⟩
        · exact Option.some.inj h ▸ kept d u.server r.statement failed w (hu q d hd) move
        · exact hu pid c h
      | disconnect q =>
        obtain ⟨d, _, rfl⟩ := step_disconnect stepped
        rcases clients_put live with ⟨_, h⟩ | ⟨_, h⟩
        · cases h
        · exact hu pid c h
  exact all pid c live

end System

end PgMimic

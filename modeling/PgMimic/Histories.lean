import PgMimic.FailedTransactions

/-!
# What is remembered of a connection's statements

A claim about everything a connection has done so far needs a record of it beside
the state. `Keeping` says what the record of one connection is and what one
statement adds to it; the server's machine is then run with a record for each
connection, which its steps never read.
-/

namespace PgMimic

variable {Value Stmt Port J : Type}

/-- The record a connection opens with, and what a statement adds: it is told the world
the statement found, and how the statement ended. -/
structure Keeping (Value Stmt Port J : Type) where
  opened : J
  add : J → World Value Stmt Port → Request → Option Failure → J

namespace System

variable [DecidableEq Value] (cat : Catalogue Value) (k : Keeping Value Stmt Port J)

def keep (records : Pid → J) (sys : System Value Stmt Port) : Event → Pid → J
  | .connect pid _ _ => Function.update records pid k.opened
  | .request pid r => match sys.clients pid with
    | none => records
    | some c => Function.update records pid
      (k.add (records pid) (c.world sys.server) r (World.execute cat (c.world sys.server) r).2)
  | .disconnect _ => records

/-- The server and its connections, with a record beside each. -/
abbrev recorded : System Value Stmt Port × (Pid → J) → Event →
    Option (System Value Stmt Port × (Pid → J)) :=
  Trace.annotate (step cat) (keep cat k)

/-- Before anybody has connected. -/
def startRecorded (parameterStatus : Dict String String) (port : Nat) :
    System Value Stmt Port × (Pid → J) :=
  (start parameterStatus port, fun _ => k.opened)

variable {cat} {k}

/-- One statement of a connection, with its record. -/
theorem recorded_request {u v : System Value Stmt Port × (Pid → J)} {pid : Pid} {r : Request}
    (h : recorded cat k u (.request pid r) = some v) :
    ∃ c failed w, u.1.clients pid = some c ∧
      World.execute cat (c.world u.1.server) r = (w, failed) ∧
      Move cat (c.world u.1.server) r.statement failed w ∧
      v = (u.1.put w.server pid (some (c.settle u.1.server r.statement failed w)),
        Function.update u.2 pid (k.add (u.2 pid) (c.world u.1.server) r failed)) := by
  obtain ⟨stepped, noted⟩ := Trace.annotate_eq_some h
  obtain ⟨c, failed, w, live, executed, move, hv⟩ := step_request stepped
  refine ⟨c, failed, w, live, executed, move, Prod.ext hv ?_⟩
  rw [noted]
  simp only [keep, live, executed]

/-- What a connection and its record have when it opens, and keep through each of its
statements, they have in every run. The statements may be known to be such as are
`allowed`, and the connection to be one of the run. -/
theorem recorded_invariant {parameterStatus : Dict String String} {port : Nat}
    {events : List Event} {pid : Pid} (allowed : Request → Prop)
    (only : ∀ r, Event.request pid r ∈ events → allowed r)
    (P : Client Value Stmt Port → J → Prop)
    (fresh : ∀ username startupParams, P (Client.fresh pid username startupParams) k.opened)
    (kept : ∀ (sys : System Value Stmt Port) c j r failed w,
      Trace.Visits (step cat) (start parameterStatus port) events sys →
      sys.clients pid = some c → allowed r → P c j →
      World.execute cat (c.world sys.server) r = (w, failed) →
      Move cat (c.world sys.server) r.statement failed w →
      P (c.settle sys.server r.statement failed w) (k.add j (c.world sys.server) r failed))
    {t : System Value Stmt Port × (Pid → J)}
    (visited : Trace.Visits (recorded cat k) (startRecorded k parameterStatus port) events t)
    {c : Client Value Stmt Port} (live : t.1.clients pid = some c) : P c (t.2 pid) := by
  have all : ∀ c, t.1.clients pid = some c → P c (t.2 pid) := by
    refine Trace.visits_induction
      (fun t : System Value Stmt Port × (Pid → J) => ∀ c, t.1.clients pid = some c → P c (t.2 pid))
      ?_ ?_ visited
    · intro c live
      cases live
    · intro u e v taken hu c live
      have member : e ∈ events := by
        obtain ⟨done, left, split, _⟩ := taken
        rw [split]
        exact List.mem_append_right done (List.mem_cons_self ..)
      cases e with
      | connect q username startupParams =>
        obtain ⟨stepped, noted⟩ := Trace.annotate_eq_some taken.possible
        obtain ⟨_, hv⟩ := step_connect stepped
        rw [hv] at live
        rcases clients_put live with ⟨rfl, put⟩ | ⟨other, old⟩
        · obtain rfl := Option.some.inj put
          rw [noted, keep, Function.update_self]
          exact fresh username startupParams
        · rw [noted, keep, Function.update_of_ne other]
          exact hu c old
      | request q r =>
        obtain ⟨d, failed, w, hd, executed, move, rfl⟩ := recorded_request taken.possible
        rcases clients_put live with ⟨rfl, put⟩ | ⟨other, old⟩
        · obtain rfl := Option.some.inj put
          change P _ (Function.update u.2 pid _ pid)
          rw [Function.update_self]
          exact kept u.1 d (u.2 pid) r failed w taken.before.of_annotate hd (only r member)
            (hu d hd) executed move
        · change P c (Function.update u.2 q _ pid)
          rw [Function.update_of_ne other]
          exact hu c old
      | disconnect q =>
        obtain ⟨stepped, noted⟩ := Trace.annotate_eq_some taken.possible
        obtain ⟨d, _, hv⟩ := step_disconnect stepped
        rw [hv] at live
        rcases clients_put live with ⟨_, put⟩ | ⟨_, old⟩
        · cases put
        · rw [noted, keep]
          exact hu c old
  exact all c live

end System

section Settings

variable (cat : Catalogue Value)

/-- How a write ends: refused by a check, or as the session answered. -/
def settingOutcome (key : String) (value : Option String) (answer : Answer) : Option Failure :=
  match checkSettable cat key with
  | some e => some (.error e)
  | none => match parseValue cat key value with
    | .error e => some (.error e)
    | .ok _ => answer

/-- Which does not depend on the connection that makes it. -/
theorem applySetConfig_outcome (w : World Value Stmt Port) (key : String) (value : Option String)
    (isLocal : Bool) (answer : Answer) :
    (applySetConfig cat w key value isLocal answer).2 = settingOutcome cat key value answer := by
  cases applied cat w key value isLocal answer with
  | unsettable e settable result => simp only [result, settingOutcome, settable]
  | unparsed e settable parsed result => simp only [result, settingOutcome, settable, parsed]
  | kept stored settable parsed stands result =>
    simp only [result, settingOutcome, settable, parsed]
  | undone stored settable parsed falls result =>
    simp only [result, settingOutcome, settable, parsed]

end Settings

end PgMimic

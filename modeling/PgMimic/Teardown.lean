import PgMimic.Subscriptions

/-!
# The registry over the life of a connection

A connection is given the next process number, runs statements, and leaves. The
`finally` of `Connection.run` takes it out of the registry first and closes its
session afterwards; other connections run while the session closes, and what the
closing raises comes too late to leave anything behind.
-/

namespace PgMimic

variable {Value Stmt Port : Type}

/-- `_drop_listeners`. -/
def World.dropListeners (w : World Value Stmt Port) : World Value Stmt Port :=
  { w with
    server :=
      { w.server with
        registry :=
          w.server.registry.removeAll w.connection.registeredChannels w.connection.pid }
    connection := { w.connection with registeredChannels := ∅ } }

/-- `try: await self.session.close() except Exception: pass`. A cancellation is no
`Exception`. -/
def closeSession : Option Failure → Option Failure
  | some .cancelled => some .cancelled
  | _ => none

/-- The server with the connections whose `run` has come to its `finally`. -/
structure House (Value Stmt Port : Type) where
  system : System Value Stmt Port
  /-- Out of the registry, their session not yet closed. -/
  closing : Pid → Option (Connection Value Stmt Port)
  /-- `_next_pid`. -/
  nextPid : Pid
  /-- The connections that are over, with what their `run` raised. -/
  ended : List (Pid × Option Failure)

namespace House

inductive Event where
  | accept (username : String) (startupParams : Dict String String)
  | request (pid : Pid) (r : Request)
  /-- The body of `run` is over, by whatever way out. -/
  | leave (pid : Pid)
  /-- `session.close()` returns, or raises. -/
  | closed (pid : Pid) (raised : Option Failure)

def start (parameterStatus : Dict String String) (port : Nat) : House Value Stmt Port where
  system := System.start parameterStatus port
  closing := fun _ => none
  nextPid := 10000
  ended := []

/-- `PgServer._connections`. -/
def connections (h : House Value Stmt Port) (pid : Pid) : Option (Connection Value Stmt Port) :=
  match h.system.clients pid with
  | some c => some c.connection
  | none => h.closing pid

section Step

variable [DecidableEq Value] (cat : Catalogue Value)

def step (h : House Value Stmt Port) : Event → Option (House Value Stmt Port)
  | .accept username startupParams =>
    (System.step cat h.system (.connect h.nextPid username startupParams)).map fun sys =>
      { h with system := sys, nextPid := h.nextPid + 1 }
  | .request pid r => (System.step cat h.system (.request pid r)).map fun sys =>
    { h with system := sys }
  | .leave pid => (h.system.clients pid).map fun c =>
    let w := (c.world h.system.server).dropListeners
    { h with
      system := h.system.put w.server pid none
      closing := Function.update h.closing pid (some w.connection) }
  | .closed pid raised => (h.closing pid).map fun _ =>
    { h with
      closing := Function.update h.closing pid none
      ended := h.ended ++ [(pid, closeSession raised)] }

end Step

/-- What holds whatever has happened: the registry is sound for those still running, and
nothing else is left of the others. -/
structure Tidy (h : House Value Stmt Port) : Prop where
  sound : Sound h.system
  closing : ∀ pid c, h.closing pid = some c →
    h.system.clients pid = none ∧ c.registeredChannels = ∅
  unused : ∀ pid, h.nextPid ≤ pid → h.system.clients pid = none ∧ h.closing pid = none
  ended : ∀ pid outcome, (pid, outcome) ∈ h.ended →
    pid < h.nextPid ∧ h.system.clients pid = none ∧ h.closing pid = none

namespace Tidy

variable {h : House Value Stmt Port}

theorem start (parameterStatus : Dict String String) (port : Nat) :
    Tidy (House.start parameterStatus port : House Value Stmt Port) where
  sound := Sound.start parameterStatus port
  closing := fun _ _ left => by cases left
  unused := fun _ _ => ⟨rfl, rfl⟩
  ended := fun _ _ member => by cases member

variable [DecidableEq Value] {cat : Catalogue Value}

theorem accept (tidy : Tidy h) {username : String} {startupParams : Dict String String}
    {sys : System Value Stmt Port}
    (stepped : System.step cat h.system (.connect h.nextPid username startupParams) = some sys) :
    Tidy { h with system := sys, nextPid := h.nextPid + 1 } := by
  have sound := tidy.sound.step stepped
  obtain ⟨_, rfl⟩ := System.step_connect stepped
  have others : ∀ q, q ≠ h.nextPid → h.system.clients q = none →
      (h.system.put h.system.server h.nextPid
        (some (Client.fresh h.nextPid username startupParams))).clients q = none := by
    intro q other gone
    rw [System.clients_put_of_ne h.system _ _ other]
    exact gone
  refine ⟨sound, ?_, ?_, ?_⟩
  · intro q c left
    have used : q ≠ h.nextPid := by
      rintro rfl
      have fresh := (tidy.unused h.nextPid (Nat.le_refl _)).2
      rw [fresh] at left
      cases left
    exact ⟨others q used (tidy.closing q c left).1, (tidy.closing q c left).2⟩
  · intro q beyond
    have beyond' : h.nextPid + 1 ≤ q := beyond
    have fresh := tidy.unused q (Nat.le_of_succ_le beyond')
    exact ⟨others q (Nat.ne_of_gt beyond') fresh.1, fresh.2⟩
  · intro q outcome member
    obtain ⟨used, gone, closed⟩ := tidy.ended q outcome member
    exact ⟨Nat.lt_succ_of_lt used, others q (Nat.ne_of_lt used) gone, closed⟩

theorem request (tidy : Tidy h) {pid : Pid} {r : Request} {sys : System Value Stmt Port}
    (stepped : System.step cat h.system (.request pid r) = some sys) :
    Tidy { h with system := sys } := by
  have sound := tidy.sound.step stepped
  obtain ⟨c, failed, w, live, _, _, rfl⟩ := System.step_request stepped
  have others : ∀ q, h.system.clients q = none →
      (h.system.put w.server pid
        (some (c.settle h.system.server r.statement failed w))).clients q = none := by
    intro q gone
    have other : q ≠ pid := by
      rintro rfl
      rw [live] at gone
      cases gone
    rw [System.clients_put_of_ne h.system _ _ other]
    exact gone
  refine ⟨sound, ?_, ?_, ?_⟩
  · intro q d left
    exact ⟨others q (tidy.closing q d left).1, (tidy.closing q d left).2⟩
  · intro q beyond
    exact ⟨others q (tidy.unused q beyond).1, (tidy.unused q beyond).2⟩
  · intro q outcome member
    obtain ⟨used, gone, closed⟩ := tidy.ended q outcome member
    exact ⟨used, others q gone, closed⟩

omit [DecidableEq Value] in
/-- The first thing the `finally` does is what a disconnection was all along. -/
theorem leave (tidy : Tidy h) {pid : Pid} {c : Client Value Stmt Port}
    (live : h.system.clients pid = some c) :
    Tidy { h with
      system := h.system.put (c.world h.system.server).dropListeners.server pid none
      closing := Function.update h.closing pid
        (some (c.world h.system.server).dropListeners.connection) } := by
  have own : c.connection.pid = pid := tidy.sound.pid pid c live
  have sound := tidy.sound.disconnect live
  have others : ∀ q, h.system.clients q = none ∨ q = pid →
      (h.system.put (c.world h.system.server).dropListeners.server pid none).clients q = none := by
    intro q gone
    by_cases same : q = pid
    · rw [same, System.clients_put_self]
    · rw [System.clients_put_of_ne h.system _ _ same]
      exact gone.resolve_right same
  have used : pid < h.nextPid := by
    refine Nat.lt_of_not_le fun beyond => ?_
    have fresh := (tidy.unused pid beyond).1
    rw [live] at fresh
    cases fresh
  refine ⟨?_, ?_, ?_, ?_⟩
  · rw [show (c.world h.system.server).dropListeners.server =
      { h.system.server with
        registry := h.system.server.registry.removeAll c.connection.registeredChannels pid } from by
        rw [← own]; rfl]
    exact sound
  · intro q d left
    by_cases same : q = pid
    · subst same
      change Function.update h.closing q _ q = some d at left
      rw [Function.update_self] at left
      obtain rfl := Option.some.inj left
      exact ⟨others q (Or.inr rfl), rfl⟩
    · change Function.update h.closing pid _ q = some d at left
      rw [Function.update_of_ne same] at left
      exact ⟨others q (Or.inl (tidy.closing q d left).1), (tidy.closing q d left).2⟩
  · intro q beyond
    have beyond' : h.nextPid ≤ q := beyond
    have other : q ≠ pid := Nat.ne_of_gt (Nat.lt_of_lt_of_le used beyond')
    refine ⟨others q (Or.inl (tidy.unused q beyond).1), ?_⟩
    change Function.update h.closing pid _ q = none
    rw [Function.update_of_ne other]
    exact (tidy.unused q beyond).2
  · intro q outcome member
    obtain ⟨past, gone, closed⟩ := tidy.ended q outcome member
    have other : q ≠ pid := by
      rintro rfl
      rw [live] at gone
      cases gone
    refine ⟨past, others q (Or.inl gone), ?_⟩
    change Function.update h.closing pid _ q = none
    rw [Function.update_of_ne other]
    exact closed

omit [DecidableEq Value] in
/-- Whatever `session.close()` did. -/
theorem closed (tidy : Tidy h) {pid : Pid} {c : Connection Value Stmt Port}
    (left : h.closing pid = some c) (raised : Option Failure) :
    Tidy { h with
      closing := Function.update h.closing pid none
      ended := h.ended ++ [(pid, closeSession raised)] } := by
  have cleared : ∀ q, h.closing q = none ∨ q = pid →
      Function.update h.closing pid none q = none := by
    intro q gone
    by_cases same : q = pid
    · rw [same, Function.update_self]
    · rw [Function.update_of_ne same]
      exact gone.resolve_right same
  have used : pid < h.nextPid := by
    refine Nat.lt_of_not_le fun beyond => ?_
    have fresh := (tidy.unused pid beyond).2
    rw [left] at fresh
    cases fresh
  refine ⟨tidy.sound, ?_, ?_, ?_⟩
  · intro q d still
    have other : q ≠ pid := by
      rintro rfl
      change Function.update h.closing q none q = some d at still
      rw [Function.update_self] at still
      cases still
    change Function.update h.closing pid none q = some d at still
    rw [Function.update_of_ne other] at still
    exact tidy.closing q d still
  · intro q beyond
    exact ⟨(tidy.unused q beyond).1, cleared q (Or.inl (tidy.unused q beyond).2)⟩
  · intro q outcome member
    rcases List.mem_append.mp member with past | now
    · obtain ⟨used, gone, closed⟩ := tidy.ended q outcome past
      exact ⟨used, gone, cleared q (Or.inl closed)⟩
    · obtain ⟨rfl, rfl⟩ := Prod.mk.inj (List.mem_singleton.mp now)
      exact ⟨used, (tidy.closing q c left).1, cleared q (Or.inr rfl)⟩

theorem step {v : House Value Stmt Port} {e : Event} (tidy : Tidy h)
    (stepped : House.step cat h e = some v) : Tidy v := by
  cases e with
  | accept username startupParams =>
    obtain ⟨sys, accepted, rfl⟩ := Option.map_eq_some_iff.mp stepped
    exact tidy.accept accepted
  | request pid r =>
    obtain ⟨sys, executed, rfl⟩ := Option.map_eq_some_iff.mp stepped
    exact tidy.request executed
  | leave pid =>
    obtain ⟨c, live, rfl⟩ := Option.map_eq_some_iff.mp stepped
    exact tidy.leave live
  | closed pid raised =>
    obtain ⟨c, left, rfl⟩ := Option.map_eq_some_iff.mp stepped
    exact tidy.closed left raised

end Tidy

/-- A connection's entries in the registry are its registered channels, as long as there is
such a connection. -/
theorem Tidy.registered_iff {h : House Value Stmt Port} (tidy : Tidy h) (pid : Pid)
    (channel : String) :
    h.system.server.registry.Registered pid channel ↔
      ∃ c, h.connections pid = some c ∧ channel ∈ c.registeredChannels := by
  cases live : h.system.clients pid with
  | some c =>
    have exact := tidy.sound.exact pid c live channel
    rw [show (c.world h.system.server).connection.pid = pid from tidy.sound.pid pid c live] at exact
    refine exact.trans ⟨fun told => ⟨c.connection, by rw [connections, live], told⟩, ?_⟩
    rintro ⟨d, hd, told⟩
    rw [connections, live] at hd
    obtain rfl := Option.some.inj hd
    exact told
  | none =>
    refine ⟨fun registered => False.elim (tidy.sound.absent pid channel live registered), ?_⟩
    rintro ⟨d, hd, told⟩
    rw [connections, live] at hd
    rw [(tidy.closing pid d hd).2] at told
    exact False.elim (Finset.notMem_empty channel told)

/-- Over any number of connections, in every order of their statements, openings and
closings: an entry of the registry is not empty and is the set of the connections whose
`_registered_channels` has its channel, a channel without an entry is in none of them,
and no entry mentions a connection that has ended. -/
theorem registry_exact [DecidableEq Value] (cat : Catalogue Value)
    (parameterStatus : Dict String String) (port : Nat) (events : List Event)
    (h : House Value Stmt Port)
    (visited : Trace.Visits (House.step cat) (House.start parameterStatus port) events h) :
    (∀ channel members, h.system.server.registry channel = some members →
      members.Nonempty ∧ ∀ pid, pid ∈ members ↔
        ∃ c, h.connections pid = some c ∧ channel ∈ c.registeredChannels) ∧
    (∀ channel, h.system.server.registry channel = none →
      ∀ pid c, h.connections pid = some c → channel ∉ c.registeredChannels) ∧
    (∀ pid outcome, (pid, outcome) ∈ h.ended →
      h.connections pid = none ∧ ∀ channel, ¬h.system.server.registry.Registered pid channel) := by
  have tidy : Tidy h := Trace.visits_invariant Tidy (Tidy.start parameterStatus port)
    (fun _ _ _ tidy stepped => tidy.step stepped) visited
  refine ⟨?_, ?_, ?_⟩
  · intro channel members entry
    constructor
    · rw [Finset.nonempty_iff_ne_empty]
      rintro rfl
      exact tidy.sound.husks channel entry
    · intro pid
      have registered := tidy.registered_iff pid channel
      rw [Registry.Registered, Registry.listeners, entry, Option.getD_some] at registered
      exact registered
  · intro channel entry pid c live told
    have registered := (tidy.registered_iff pid channel).mpr ⟨c, live, told⟩
    rw [Registry.Registered, Registry.listeners, entry, Option.getD_none] at registered
    exact Finset.notMem_empty pid registered
  · intro pid outcome member
    obtain ⟨_, gone, closed⟩ := tidy.ended pid outcome member
    refine ⟨by rw [connections, gone, closed], fun channel registered => ?_⟩
    exact tidy.sound.absent pid channel gone registered

/-- One of two listeners leaves, and its session raises. -/
def leavesRaising : List Event :=
  [.accept "app" ∅, .accept "app" ∅, .request 10000 ⟨.listen "chan", []⟩,
    .request 10001 ⟨.listen "chan", []⟩, .leave 10000,
    .closed 10000 (some (.exception "boom"))]

theorem leavesRaising_exact :
    ∃ h : House String Unit Unit,
      Trace.run (House.step plainCatalogue) (House.start ∅ 5432) leavesRaising = some h ∧
      h.ended = [(10000, none)] ∧
      (∀ channel, ¬h.system.server.registry.Registered 10000 channel) ∧
      ∃ c, h.connections 10001 = some c ∧ "chan" ∈ c.registeredChannels := by
  refine ⟨_, rfl, rfl, ?_, _, rfl, by decide⟩
  exact ((registry_exact plainCatalogue ∅ 5432 leavesRaising _ (Trace.visits_end rfl)).2.2 10000
    none (List.mem_singleton.mpr rfl)).2

end House

end PgMimic

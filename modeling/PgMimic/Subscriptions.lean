import PgMimic.Savepoints

/-!
# Pending and live subscriptions

`state.listening` is what a connection asked for, `_registered_channels` what it
last told the server, and the server's registry what fanouts read. The registry
holds exactly what each live connection last told it. COMMIT, ROLLBACK and
ROLLBACK TO all tell it again; the last of these is inside a transaction, and
leaves the registry alone only where the set it brings back is the set already
there.
-/

namespace PgMimic

variable {Value Stmt Port : Type}

/-- The registry holds for this connection what it remembers telling it. -/
def Exact (w : World Value Stmt Port) : Prop :=
  ∀ channel, w.server.registry.Registered w.connection.pid channel ↔
    channel ∈ w.connection.registeredChannels

/-- The registry afterwards: exact if it was, the same for everyone else, no new husk. -/
structure Wired (w w' : World Value Stmt Port) : Prop where
  pid : w'.connection.pid = w.connection.pid
  others : ∀ q channel, q ≠ w.connection.pid →
    (w'.server.registry.Registered q channel ↔ w.server.registry.Registered q channel)
  exact : Exact w → Exact w'
  husks : w.server.registry.NoHusk → w'.server.registry.NoHusk

/-- The parts of a world the registry depends on are the same. -/
structure Unwired (w w' : World Value Stmt Port) : Prop where
  pid : w'.connection.pid = w.connection.pid
  registeredChannels : w'.connection.registeredChannels = w.connection.registeredChannels
  registry : w'.server.registry = w.server.registry

theorem Quiet.unwired {w w' : World Value Stmt Port} (h : Quiet w w') : Unwired w w' :=
  ⟨h.pid, h.registeredChannels, congrArg PgServer.registry h.server⟩

namespace Unwired

theorem refl (w : World Value Stmt Port) : Unwired w w := ⟨rfl, rfl, rfl⟩

theorem trans {u v w : World Value Stmt Port} (h : Unwired u v) (h' : Unwired v w) :
    Unwired u w :=
  ⟨h'.pid.trans h.pid, h'.registeredChannels.trans h.registeredChannels,
    h'.registry.trans h.registry⟩

theorem withState (w : World Value Stmt Port) (s : SessionState Value Stmt Port) :
    Unwired w (w.withState s) := ⟨rfl, rfl, rfl⟩

theorem withTxStatus (w : World Value Stmt Port) (t : TxStatus) : Unwired w (w.withTxStatus t) :=
  ⟨rfl, rfl, rfl⟩

theorem fail (w : World Value Stmt Port) : Unwired w w.fail := by
  by_cases idle : w.txStatus = .I
  · simpa only [World.fail, if_pos idle] using refl w
  · simpa only [World.fail, if_neg idle] using withTxStatus w .E

theorem wired {w w' : World Value Stmt Port} (h : Unwired w w') : Wired w w' where
  pid := h.pid
  others := fun q channel _ => by rw [h.registry]
  exact := fun exact channel => by
    rw [h.registry, h.pid, h.registeredChannels]
    exact exact channel
  husks := fun none => h.registry ▸ none

end Unwired

theorem Wired.trans {u v w : World Value Stmt Port} (h : Wired u v) (h' : Wired v w) :
    Wired u w where
  pid := h'.pid.trans h.pid
  others := fun q channel other =>
    (h'.others q channel (h.pid ▸ other)).trans (h.others q channel other)
  exact := fun exact => h'.exact (h.exact exact)
  husks := fun none => h'.husks (h.husks none)

/-- After `sync_listeners` the connection is registered for what it is listening to. -/
theorem registered_syncListeners {w : World Value Stmt Port} (exact : Exact w)
    (channel : String) :
    w.syncListeners.server.registry.Registered w.connection.pid channel ↔
      channel ∈ w.state.listening := by
  have before := exact channel
  simp only [World.syncListeners, Registry.registered_addAll, Registry.registered_removeAll,
    Finset.mem_sdiff, true_and, before]
  change (channel ∈ w.state.listening ∧ _) ∨ _ ↔ _
  tauto

theorem wired_syncListeners (w : World Value Stmt Port) : Wired w w.syncListeners where
  pid := rfl
  others := fun q channel other => by
    simp only [World.syncListeners, Registry.registered_addAll, Registry.registered_removeAll,
      other, false_and, not_false_eq_true, true_and, false_or]
  exact := fun exact channel => registered_syncListeners exact channel
  husks := fun none => (none.removeAll _ _).addAll _ _

section Moves

variable [DecidableEq Value] {cat : Catalogue Value}

omit [DecidableEq Value] in
theorem unwired_flush (w : World Value Stmt Port) : Unwired w w.flushPendingNotifies := by
  rw [World.flushPendingNotifies_eq]
  exact ⟨rfl, rfl, rfl⟩

theorem wired_endTransaction (w : World Value Stmt Port) (committed : Bool) :
    Wired w (World.endTransaction cat w committed) := by
  cases committed with
  | true =>
    obtain ⟨owed, h⟩ := World.endTransaction_commit cat w
    rw [h]
    have settled : Unwired w ((w.withState w.state.commitTransaction).withParameterStatus owed) :=
      ⟨rfl, rfl, rfl⟩
    exact (settled.trans (unwired_flush _)).wired.trans (wired_syncListeners _)
  | false =>
    obtain ⟨owed, h⟩ := World.endTransaction_rollback cat w
    rw [h]
    have settled : Unwired w ((w.withState w.state.endTransaction).withParameterStatus owed) :=
      ⟨rfl, rfl, rfl⟩
    exact settled.wired.trans (wired_syncListeners _)

theorem wired_transaction (w : World Value Stmt Port) (tag : TransactionTag) :
    Wired w (World.transactionStatement cat w tag) := by
  by_cases begins : tag = .begin
  · subst begins
    by_cases redundant : w.txStatus = .T
    · rw [World.transactionStatement_redundant cat w redundant]
      exact (Unwired.withTxStatus w .T).wired
    · have opens : Unwired w (World.transactionStatement cat w .begin) := by
        simp only [World.transactionStatement, redundant, and_false, if_false]
        exact ⟨rfl, rfl, rfl⟩
      exact opens.wired
  · by_cases idle : w.txStatus = .I
    · rw [World.transactionStatement_idle cat w begins idle]
      exact ((Unwired.withTxStatus w .I).trans (Unwired.withState _ _)).wired
    · rw [World.transactionStatement_end cat w begins idle]
      exact ((Unwired.withTxStatus w .I).trans (Unwired.withState _ _)).wired.trans
        (wired_endTransaction _ _)

theorem wired_rollbackTo (w : World Value Stmt Port) (index : Nat) :
    Wired w (World.rollbackTo cat w index) := by
  obtain ⟨owed, h⟩ := World.rollbackTo_eq cat w index
  rw [h]
  have restored : ∀ s, Unwired w ((w.withState s).withParameterStatus owed) :=
    fun s => ⟨rfl, rfl, rfl⟩
  exact ((restored _).wired.trans (wired_syncListeners _)).trans
    (Unwired.withTxStatus _ .T).wired

/-- Whatever a statement does, it does to its own subscriptions only. -/
theorem Move.wired {w w' : World Value Stmt Port} {s : Statement} {failed : Option Failure}
    (move : Move cat w s failed w') : Wired w w' := by
  cases move with
  | stopped quiet => exact (quiet.unwired.trans (Unwired.fail _)).wired
  | quiet _ quiet => exact quiet.unwired.wired
  | subscribed _ listening =>
    by_cases idle : w.txStatus = .I
    · rw [World.syncOutside, if_pos (by simpa using idle)]
      exact (Unwired.withState w _).wired.trans (wired_syncListeners _)
    · rw [World.syncOutside, if_neg (by simpa using idle)]
      exact (Unwired.withState w _).wired
  | discarded _ quiet =>
    exact (quiet.unwired.trans (Unwired.withState _ _)).wired.trans (wired_syncListeners _)
  | transaction _ => exact wired_transaction w _
  | savepoint _ =>
    exact ((Unwired.withState w _).trans (Unwired.withState _ _)).wired
  | release _ _ =>
    exact ((Unwired.withState w _).trans (Unwired.withState _ _)).wired
  | rollbackTo _ _ => exact wired_rollbackTo w _

/-- In an open transaction only ROLLBACK TO tells the registry anything. -/
theorem Move.unwired_of_open {w w' : World Value Stmt Port} {s : Statement}
    {failed : Option Failure} (move : Move cat w s failed w') (opened : w.txStatus ≠ .I)
    (still : w'.txStatus ≠ .I) :
    Unwired w w' ∨ ∃ name index, s = .savepoint .rollbackTo name ∧ failed = none ∧
      innermost w.state.savepoints name = some index ∧ w' = World.rollbackTo cat w index := by
  cases move with
  | stopped quiet => exact Or.inl (quiet.unwired.trans (Unwired.fail _))
  | quiet _ quiet => exact Or.inl quiet.unwired
  | subscribed _ listening =>
    rw [World.syncOutside, if_neg (by simpa using opened)]
    exact Or.inl (Unwired.withState w _)
  | discarded idle _ => exact False.elim (opened idle)
  | @transaction tag allowed =>
    by_cases begins : tag = .begin
    · subst begins
      have inside : w.txStatus = .T := by
        cases status : w.txStatus with
        | I => exact False.elim (opened status)
        | T => rfl
        | E => exact False.elim (allowed rfl status)
      rw [World.transactionStatement_redundant cat w inside]
      exact Or.inl (Unwired.withTxStatus w .T)
    · rw [World.transactionStatement_end cat w begins opened,
        World.txStatus_endTransaction] at still
      exact False.elim (still rfl)
  | savepoint _ => exact Or.inl ((Unwired.withState w _).trans (Unwired.withState _ _))
  | release _ _ => exact Or.inl ((Unwired.withState w _).trans (Unwired.withState _ _))
  | @rollbackTo name index _ found => exact Or.inr ⟨name, index, rfl, rfl, found, rfl⟩

/-- Of the statements that leave a transaction open, only BEGIN can have opened it. -/
theorem Move.begins_of_idle {w w' : World Value Stmt Port} {s : Statement}
    {failed : Option Failure} (move : Move cat w s failed w') (idle : w.txStatus = .I)
    (opens : w'.txStatus ≠ .I) :
    s = .transaction .begin ∧ failed = none ∧ Unwired w w' := by
  cases move with
  | stopped quiet =>
    exact False.elim (opens ((World.txStatus_fail_eq_I _).mpr (quiet.txStatus.trans idle)))
  | quiet _ quiet => exact False.elim (opens (quiet.txStatus.trans idle))
  | subscribed _ listening => exact False.elim (opens (by simpa using idle))
  | discarded _ quiet => exact False.elim (opens (quiet.txStatus.trans idle))
  | @transaction tag _ =>
    by_cases begins : tag = .begin
    · subst begins
      rw [World.transactionStatement_begin cat w idle]
      exact ⟨rfl, rfl, (Unwired.withTxStatus w .T).trans (Unwired.withState _ _)⟩
    · rw [World.transactionStatement_idle cat w begins idle] at opens
      exact False.elim (opens rfl)
  | savepoint opened => exact False.elim (opened idle)
  | release opened _ => exact False.elim (opened idle)
  | rollbackTo opened _ => exact False.elim (opened idle)

end Moves

/-- The registry holds exactly what the live connections last told it. -/
structure Sound (sys : System Value Stmt Port) : Prop where
  pid : ∀ pid c, sys.clients pid = some c → c.connection.pid = pid
  exact : ∀ pid c, sys.clients pid = some c → Exact (c.world sys.server)
  absent : ∀ pid channel, sys.clients pid = none → ¬sys.server.registry.Registered pid channel
  husks : sys.server.registry.NoHusk

namespace Sound

variable {sys : System Value Stmt Port}

theorem start (parameterStatus : Dict String String) (port : Nat) :
    Sound (System.start parameterStatus port : System Value Stmt Port) where
  pid := fun _ _ live => by cases live
  exact := fun _ _ live => by cases live
  absent := fun pid channel _ => by
    simp [System.start, Registry.Registered, Registry.listeners]
  husks := fun channel h => by cases h

theorem connect (h : Sound sys) {pid : Pid} (username : String)
    (startupParams : Dict String String) (free : sys.clients pid = none) :
    Sound (sys.put sys.server pid (some (Client.fresh pid username startupParams))) where
  pid := fun q c live => by
    rcases System.clients_put live with ⟨rfl, put⟩ | ⟨_, old⟩
    · exact Option.some.inj put ▸ rfl
    · exact h.pid q c old
  exact := fun q c live => by
    rcases System.clients_put live with ⟨rfl, put⟩ | ⟨_, old⟩
    · obtain rfl := Option.some.inj put
      intro channel
      exact ⟨fun registered => False.elim (h.absent q channel free registered),
        fun told => False.elim (Finset.notMem_empty channel told)⟩
    · exact h.exact q c old
  absent := fun q channel gone => by
    by_cases same : q = pid
    · subst same
      rw [System.clients_put_self] at gone
      cases gone
    · rw [System.clients_put_of_ne sys _ _ same] at gone
      exact h.absent q channel gone
  husks := h.husks

theorem request (h : Sound sys) {pid : Pid} {c : Client Value Stmt Port}
    (live : sys.clients pid = some c) {s : Statement} {failed : Option Failure}
    {w : World Value Stmt Port} (wired : Wired (c.world sys.server) w) :
    Sound (sys.put w.server pid (some (c.settle sys.server s failed w))) where
  pid := fun q d put => by
    rcases System.clients_put put with ⟨rfl, hd⟩ | ⟨_, old⟩
    · exact Option.some.inj hd ▸ wired.pid.trans (h.pid q c live)
    · exact h.pid q d old
  exact := fun q d put => by
    rcases System.clients_put put with ⟨rfl, hd⟩ | ⟨other, old⟩
    · exact Option.some.inj hd ▸ wired.exact (h.exact q c live)
    · intro channel
      have told := h.exact q d old channel
      rw [Client.world, h.pid q d old] at told
      have same := wired.others q channel ((h.pid pid c live).symm ▸ other)
      rw [Client.world, h.pid q d old]
      exact same.trans told
  absent := fun q channel gone => by
    by_cases same : q = pid
    · subst same
      rw [System.clients_put_self] at gone
      cases gone
    · rw [System.clients_put_of_ne sys _ _ same] at gone
      intro registered
      exact h.absent q channel gone
        ((wired.others q channel ((h.pid pid c live).symm ▸ same)).mp registered)
  husks := wired.husks h.husks

theorem disconnect (h : Sound sys) {pid : Pid} {c : Client Value Stmt Port}
    (live : sys.clients pid = some c) :
    Sound (sys.put { sys.server with
      registry := sys.server.registry.removeAll c.connection.registeredChannels pid } pid
        none) where
  pid := fun q d put => by
    rcases System.clients_put put with ⟨_, hd⟩ | ⟨_, old⟩
    · cases hd
    · exact h.pid q d old
  exact := fun q d put => by
    rcases System.clients_put put with ⟨_, hd⟩ | ⟨other, old⟩
    · cases hd
    · intro channel
      have told := h.exact q d old channel
      rw [Client.world, h.pid q d old] at told
      rw [Client.world, h.pid q d old]
      refine Iff.trans ?_ told
      change (sys.server.registry.removeAll _ pid).Registered q channel ↔ _
      rw [Registry.registered_removeAll]
      exact ⟨fun both => both.2, fun registered => ⟨fun mine => other mine.1, registered⟩⟩
  absent := fun q channel gone => by
    change ¬(sys.server.registry.removeAll _ pid).Registered q channel
    rw [Registry.registered_removeAll]
    rintro ⟨kept, registered⟩
    by_cases same : q = pid
    · subst same
      have told := h.exact q c live channel
      rw [Client.world, h.pid q c live] at told
      exact kept ⟨rfl, told.mp registered⟩
    · rw [System.clients_put_of_ne sys _ _ same] at gone
      exact h.absent q channel gone registered
  husks := h.husks.removeAll _ _

variable [DecidableEq Value] {cat : Catalogue Value}

theorem step (h : Sound sys) {e : Event} {v : System Value Stmt Port}
    (stepped : System.step cat sys e = some v) : Sound v := by
  cases e with
  | connect pid username startupParams =>
    obtain ⟨free, rfl⟩ := System.step_connect stepped
    exact h.connect username startupParams free
  | request pid r =>
    obtain ⟨c, failed, w, live, _, move, rfl⟩ := System.step_request stepped
    exact h.request live move.wired
  | disconnect pid =>
    obtain ⟨c, live, rfl⟩ := System.step_disconnect stepped
    exact h.disconnect live

theorem of_visits {parameterStatus : Dict String String} {port : Nat} {events : List Event}
    (visited : Trace.Visits (System.step cat) (System.start parameterStatus port) events sys) :
    Sound sys :=
  Trace.visits_invariant Sound (start parameterStatus port)
    (fun _ _ _ h stepped => h.step stepped) visited

end Sound

/-- In an open transaction a connection is registered for what it was when BEGIN executed. -/
def HeldSinceBegin (sys : System Value Stmt Port) (pid : Pid) : Prop :=
  ∀ c, sys.clients pid = some c → c.connection.txStatus ≠ .I →
    ∃ begun, c.ledger.begun = some begun ∧ ∀ channel,
      (sys.server.registry.Registered pid channel ↔ begun.server.registry.Registered pid channel)

/-- The pending set a ROLLBACK TO goes back to: that of the frame it restores, or the
one already there if it finds no frame. -/
def broughtBack (s : SessionState Value Stmt Port) (index : Nat) : Finset String :=
  (s.scopes[index + 1]?.getD s.snapshot).listening

section Results

variable [DecidableEq Value]

theorem registered_rollbackTo (cat : Catalogue Value) {w : World Value Stmt Port} (exact : Exact w)
    (index : Nat)
    (channel : String) :
    (World.rollbackTo cat w index).server.registry.Registered w.connection.pid channel ↔
      channel ∈ broughtBack w.state index := by
  obtain ⟨owed, h⟩ := World.rollbackTo_eq cat w index
  have unwired : ∀ s, Unwired w ((w.withState s).withParameterStatus owed) :=
    fun s => ⟨rfl, rfl, rfl⟩
  rw [h]
  refine (registered_syncListeners ((unwired _).wired.exact exact) channel).trans ?_
  have snapshot := SessionState.snapshot_restoreScope
    { w.state with savepoints := w.state.savepoints.take (index + 1) } (index + 1)
  have listening := congrArg Scope.listening snapshot
  change channel ∈ (SessionState.restoreScope _ _).snapshot.listening ↔ _
  rw [listening]
  rfl

/-- One step of any connection, where a ROLLBACK TO brings back what is registered. -/
theorem HeldSinceBegin.step {cat : Catalogue Value} {u v : System Value Stmt Port} {e : Event}
    (stepped : System.step cat u e = some v) (sound : Sound u)
    (quietly : ∀ pid name answers c index, e = .request pid ⟨.savepoint .rollbackTo name, answers⟩ →
      u.clients pid = some c → c.connection.txStatus ≠ .I →
      innermost c.connection.state.savepoints name = some index → ∀ channel,
        (channel ∈ broughtBack c.connection.state index ↔
          u.server.registry.Registered pid channel))
    (held : ∀ pid, HeldSinceBegin u pid) (pid : Pid) : HeldSinceBegin v pid := by
  intro c live opened
  cases e with
  | connect q username startupParams =>
    obtain ⟨_, rfl⟩ := System.step_connect stepped
    rcases System.clients_put live with ⟨_, put⟩ | ⟨_, old⟩
    · obtain rfl := Option.some.inj put
      exact False.elim (opened rfl)
    · exact held pid c old opened
  | disconnect q =>
    obtain ⟨d, _, rfl⟩ := System.step_disconnect stepped
    rcases System.clients_put live with ⟨_, put⟩ | ⟨other, old⟩
    · cases put
    · obtain ⟨begun, begins, same⟩ := held pid c old opened
      refine ⟨begun, begins, fun channel => Iff.trans ?_ (same channel)⟩
      change (u.server.registry.removeAll _ q).Registered pid channel ↔ _
      rw [Registry.registered_removeAll]
      exact ⟨fun both => both.2, fun registered => ⟨fun mine => other mine.1, registered⟩⟩
  | request q r =>
    obtain ⟨d, failed, w, hd, _, move, rfl⟩ := System.step_request stepped
    rcases System.clients_put live with ⟨rfl, put⟩ | ⟨other, old⟩
    · obtain rfl := Option.some.inj put
      by_cases idle : d.connection.txStatus = .I
      · obtain ⟨begins, rfl, unwired⟩ := move.begins_of_idle idle opened
        refine ⟨d.world u.server, ?_, fun channel => by rw [System.put, unwired.registry]⟩
        have idle' : (d.world u.server).txStatus = .I := idle
        simp only [Client.settle, begins, Ledger.record, idle', if_true]
      · obtain ⟨begun, begins, same⟩ := held pid d hd idle
        refine ⟨begun, (move.begun_of_open idle opened d.ledger).trans begins, fun channel => ?_⟩
        rcases move.unwired_of_open idle opened with unwired | ⟨name, index, named, rfl, found, rfl⟩
        · rw [System.put, unwired.registry]
          exact same channel
        · obtain ⟨s, answers⟩ := r
          obtain rfl : s = .savepoint .rollbackTo name := named
          have told := registered_rollbackTo cat (sound.exact pid d hd) index channel
          rw [show (d.world u.server).connection.pid = pid from sound.pid pid d hd] at told
          exact told.trans ((quietly pid name answers d index rfl hd idle found channel).trans
            (same channel))
    · obtain ⟨begun, begins, same⟩ := held pid c old opened
      refine ⟨begun, begins, fun channel => Iff.trans ?_ (same channel)⟩
      exact move.wired.others pid channel (by rw [Client.world, sound.pid q d hd]; exact other)

/-- A run keeps every open transaction's registrations as BEGIN found them if and only if
each ROLLBACK TO in it brings back a pending set that is already the registered one. -/
theorem subscriptions_wait_iff (cat : Catalogue Value) (parameterStatus : Dict String String)
    (port : Nat) (events : List Event) :
    (∀ t : System Value Stmt Port,
      Trace.Visits (System.step cat) (System.start parameterStatus port) events t →
      ∀ pid, HeldSinceBegin t pid) ↔
    (∀ (u v : System Value Stmt Port) pid name answers c index,
      Trace.Takes (System.step cat) (System.start parameterStatus port) events u
        (.request pid ⟨.savepoint .rollbackTo name, answers⟩) v →
      u.clients pid = some c → c.connection.txStatus ≠ .I →
      innermost c.connection.state.savepoints name = some index → ∀ channel,
        (channel ∈ broughtBack c.connection.state index ↔
          u.server.registry.Registered pid channel)) := by
  constructor
  · intro held u v pid name answers c index taken live opened found channel
    have sound := Sound.of_visits taken.before
    obtain ⟨begun, begins, same⟩ := held u taken.before pid c live opened
    have executed : World.execute cat (c.world u.server) ⟨.savepoint .rollbackTo name, answers⟩ =
        (World.rollbackTo cat (c.world u.server) index, none) := by
      have refused : ¬((c.world u.server).txStatus = .E ∧
          (Statement.savepoint .rollbackTo name).allowedInFailedTransaction = false) :=
        fun both => Bool.noConfusion both.2
      have opened' : ¬(c.world u.server).txStatus = .I := opened
      have found' : innermost (c.world u.server).state.savepoints name = some index := found
      simp only [World.execute, if_neg refused, World.onExecute, World.savepointStatement,
        if_neg opened', found']
    obtain ⟨d, failed, w, hd, executed', move, rfl⟩ := System.step_request taken.possible
    obtain rfl : c = d := Option.some.inj (live.symm.trans hd)
    obtain ⟨rfl, rfl⟩ := Prod.mk.inj (executed.symm.trans executed')
    obtain ⟨begun', begins', same'⟩ := held _ taken.after pid _ (System.clients_put_self _ _ _ _)
      (show (World.rollbackTo cat (c.world u.server) index).txStatus ≠ .I from
        fun h => TxStatus.noConfusion h)
    have kept := move.begun_of_open opened
      (fun h => TxStatus.noConfusion h) c.ledger
    obtain rfl : begun = begun' :=
      Option.some.inj (begins.symm.trans (kept.symm.trans begins'))
    have told := registered_rollbackTo cat (sound.exact pid c live) index channel
    rw [show (c.world u.server).connection.pid = pid from sound.pid pid c live] at told
    exact (told.symm.trans (same' channel)).trans (same channel).symm
  · intro quietly t visited
    refine Trace.visits_induction (fun sys => ∀ pid, HeldSinceBegin sys pid) ?_ ?_ visited
    · intro pid c live
      cases live
    · intro u e v taken held pid
      refine HeldSinceBegin.step taken.possible (Sound.of_visits taken.before) ?_ held pid
      rintro q name answers c index rfl live opened found channel
      exact quietly u v q name answers c index taken live opened found channel

end Results

/-- A LISTEN still uncommitted when the savepoint is taken. -/
def listenedThenSavepoint : List Event :=
  [.connect 1 "app" ∅, .request 1 ⟨.transaction .begin, []⟩, .request 1 ⟨.listen "jobs", []⟩,
    .request 1 ⟨.savepoint .savepoint "s", []⟩, .request 1 ⟨.savepoint .rollbackTo "s", []⟩]

/-- Going back to it registers the connection before its COMMIT. -/
theorem rollbackTo_registers_early :
    ∃ (v : System String Unit Unit) (c : Client String Unit Unit)
      (begun : World String Unit Unit),
      Trace.run (System.step plainCatalogue) (System.start ∅ 5432) listenedThenSavepoint = some v ∧
      v.clients 1 = some c ∧ c.connection.txStatus = .T ∧ c.ledger.begun = some begun ∧
      v.server.registry.Registered 1 "jobs" ∧ ¬begun.server.registry.Registered 1 "jobs" := by
  refine ⟨_, _, _, rfl, rfl, rfl, rfl, ?_, ?_⟩
  · change 1 ∈ Registry.listeners _ "jobs"
    decide
  · change 1 ∉ Registry.listeners _ "jobs"
    decide

end PgMimic

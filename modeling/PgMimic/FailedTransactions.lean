import PgMimic.Savepoints

/-!
# Ending a transaction that failed

COMMIT does not look at the status it ends: a transaction in `E` is committed
like one in `T`. It comes out as ROLLBACK would leave it only where there is
nothing to commit. ROLLBACK itself always restores what BEGIN found, frame 0
being the one frame no savepoint statement reaches.
-/

namespace PgMimic

variable {Value Stmt Port : Type}

/-- Outside a transaction every setting is committed and nothing is queued. Inside
one that was so at BEGIN, frame 0 is BEGIN's, and nothing has been sent since. -/
structure Settled (w : World Value Stmt Port) (l : Ledger Value Stmt Port) : Prop where
  idle : w.txStatus = .I →
    w.state.sessionVars = w.state.committedVars ∧ w.state.pendingNotifies = []
  opened : w.txStatus ≠ .I → ∃ begun, l.begun = some begun ∧
    begun.state.sessionVars = begun.state.committedVars ∧ begun.state.pendingNotifies = [] ∧
    w.notified = begun.notified

/-- The first frame of an open transaction is the one BEGIN opened. -/
theorem Framed.frame_zero {status : TxStatus} {s : SessionState Value Stmt Port}
    {l : Ledger Value Stmt Port} (h : Framed status s l) (opened : status ≠ .I)
    {begun : World Value Stmt Port} (begins : l.begun = some begun) :
    s.scopes[0]? = some begun.state.snapshot := by
  obtain ⟨begun', beyond, begins', split, _⟩ := (h.opened opened).frames
  obtain rfl : begun = begun' := Option.some.inj (begins.symm.trans begins')
  rw [split]
  rfl

section Ends

variable [DecidableEq Value] (cat : Catalogue Value) {w begun : World Value Stmt Port}
  {l : Ledger Value Stmt Port}

theorem txStatus_of_end {tag : TransactionTag} (ends : tag ≠ .begin) :
    (World.transactionStatement cat w tag).txStatus = .I := by
  by_cases idle : w.txStatus = .I
  · rw [World.transactionStatement_idle cat w ends idle]
    rfl
  · rw [World.transactionStatement_end cat w ends idle, World.txStatus_endTransaction]
    rfl

theorem snapshot_of_rollback (framed : Framed w.txStatus w.state l) (opened : w.txStatus ≠ .I)
    (begins : l.begun = some begun) :
    (World.transactionStatement cat w .rollback).state.snapshot = begun.state.snapshot := by
  have zero : ({ w.state with savepoints := [] } : SessionState Value Stmt Port).scopes[0]? =
      some begun.state.snapshot := framed.frame_zero opened begins
  have restored := SessionState.snapshot_endTransaction { w.state with savepoints := [] }
  rw [zero] at restored
  rw [World.transactionStatement_end cat w (by simp) opened, decide_eq_false (by simp),
    World.state_rollback]
  exact restored

theorem notified_of_rollback (opened : w.txStatus ≠ .I) :
    (World.transactionStatement cat w .rollback).notified = w.notified := by
  rw [World.transactionStatement_end cat w (by simp) opened, decide_eq_false (by simp)]
  obtain ⟨owed, h⟩ := World.endTransaction_rollback cat
    ((w.withTxStatus .I).withState { w.state with savepoints := [] })
  rw [h]
  rfl

theorem state_of_commit (opened : w.txStatus ≠ .I) :
    (World.transactionStatement cat w .commit).state =
      { w.state with
        sessionVars := w.state.committedVars
        pendingNotifies := []
        scopes := []
        savepoints := [] } := by
  rw [World.transactionStatement_end cat w (by simp) opened, decide_eq_true rfl,
    World.state_commit]
  rfl

/-- COMMIT sends what is queued, whatever the status. -/
theorem notified_of_commit (opened : w.txStatus ≠ .I) :
    (World.transactionStatement cat w .commit).notified = w.notified ++
      w.state.pendingNotifies.map
        fun entry => ⟨entry.1, entry.2, w.server.registry.listeners entry.1⟩ := by
  rw [World.transactionStatement_end cat w (by simp) opened, decide_eq_true rfl]
  obtain ⟨owed, h⟩ := World.endTransaction_commit cat
    ((w.withTxStatus .I).withState { w.state with savepoints := [] })
  rw [h, World.flushPendingNotifies_eq]
  rfl

end Ends

namespace Settled

variable {w w' : World Value Stmt Port} {l : Ledger Value Stmt Port}

theorem of_idle (idle : w.txStatus = .I) (committed : w.state.sessionVars = w.state.committedVars)
    (pending : w.state.pendingNotifies = []) : Settled w l :=
  ⟨fun _ => ⟨committed, pending⟩, fun opened => False.elim (opened idle)⟩

/-- What neither opens nor closes the transaction, nor sends anything inside it. -/
theorem transfer {l' : Ledger Value Stmt Port} (h : Settled w l)
    (same : w'.txStatus = .I ↔ w.txStatus = .I)
    (idle : w.txStatus = .I →
      w'.state.sessionVars = w'.state.committedVars ∧ w'.state.pendingNotifies = [])
    (begun : l'.begun = l.begun) (notified : w.txStatus ≠ .I → w'.notified = w.notified) :
    Settled w' l' := by
  refine ⟨fun idle' => idle (same.mp idle'), fun opened' => ?_⟩
  have opened : w.txStatus ≠ .I := fun idle => opened' (same.mpr idle)
  obtain ⟨world, begins, committed, pending, sent⟩ := h.opened opened
  exact ⟨world, begun.trans begins, committed, pending, (notified opened).trans sent⟩

theorem of_quiet (h : Settled w l) (quiet : Quiet w w') : Settled w' l :=
  h.transfer (by rw [quiet.txStatus])
    (fun idle => ⟨quiet.committed idle (h.idle idle).1, (quiet.pending idle).trans (h.idle idle).2⟩)
    rfl quiet.notified

theorem fail (h : Settled w l) : Settled w.fail l := by
  refine h.transfer (World.txStatus_fail_eq_I w) ?_ rfl ?_
  · rw [World.state_fail]
    exact h.idle
  · intro opened
    rw [World.fail, if_neg opened, World.notified_withTxStatus]

variable [DecidableEq Value] {cat : Catalogue Value}

theorem transaction (h : Settled w l) (framed : Framed w.txStatus w.state l)
    {tag : TransactionTag} (allowed : tag = .begin → w.txStatus ≠ .E) :
    Settled (World.transactionStatement cat w tag) (l.record w (.transaction tag) none) := by
  by_cases begins : tag = .begin
  · subst begins
    cases status : w.txStatus with
    | I =>
      rw [World.transactionStatement_begin cat w status]
      refine ⟨fun idle => TxStatus.noConfusion idle, fun _ => ?_⟩
      refine ⟨w, ?_, (h.idle status).1, (h.idle status).2, rfl⟩
      simp only [Ledger.record, status, if_true]
    | T =>
      rw [World.transactionStatement_redundant cat w status]
      refine h.transfer (by simp [status]) (fun idle => ?_) ?_ (fun _ => rfl)
      · exact TxStatus.noConfusion (status.symm.trans idle)
      · simp only [Ledger.record, status, reduceCtorEq, if_false]
    | E => exact False.elim (allowed rfl status)
  · by_cases status : w.txStatus = .I
    · rw [World.transactionStatement_idle cat w begins status]
      exact of_idle rfl (h.idle status).1 (h.idle status).2
    · cases tag with
      | begin => exact False.elim (begins rfl)
      | commit =>
        refine of_idle (txStatus_of_end cat begins) ?_ ?_
        · rw [state_of_commit cat status]
        · rw [state_of_commit cat status]
      | rollback =>
        obtain ⟨begun, begins', committed, pending, _⟩ := h.opened status
        have undone := snapshot_of_rollback cat framed status begins'
        refine of_idle (txStatus_of_end cat begins) ?_ ?_
        · exact (congrArg Scope.sessionVars undone).trans
            (committed.trans (congrArg Scope.committedVars undone).symm)
        · exact (congrArg Scope.pendingNotifies undone).trans pending

theorem move {st : Statement} {failed : Option Failure} (h : Settled w l)
    (framed : Framed w.txStatus w.state l) (move : Move cat w st failed w') :
    Settled w' (l.record w st failed) := by
  cases move with
  | stopped quiet => exact (h.of_quiet quiet).fail
  | quiet frames quiet =>
    rw [Ledger.record_of_not_editsFrames l w frames]
    exact h.of_quiet quiet
  | subscribed frames listening =>
    rw [Ledger.record_of_not_editsFrames l w frames]
    refine h.transfer (by simp) (fun idle => ?_) rfl (fun _ => ?_)
    · rw [World.state_syncOutside]
      exact h.idle idle
    · rw [World.syncOutside]
      split <;> rfl
  | discarded idle quiet => exact of_idle (quiet.txStatus.trans idle) rfl rfl
  | transaction allowed => exact h.transaction framed allowed
  | savepoint opened =>
    exact h.transfer Iff.rfl (fun idle => False.elim (opened idle)) rfl (fun _ => rfl)
  | release opened found =>
    have begun := (Move.release opened found : Move cat w _ none _).begun_of_open opened opened l
    exact h.transfer Iff.rfl (fun idle => False.elim (opened idle)) begun (fun _ => rfl)
  | @rollbackTo name index opened found =>
    have still : (World.rollbackTo cat w index).txStatus ≠ .I :=
      fun h => TxStatus.noConfusion h
    have begun := (Move.rollbackTo opened found : Move cat w _ none _).begun_of_open opened still l
    exact h.transfer ⟨fun idle => False.elim (still idle), fun idle => False.elim (opened idle)⟩
      (fun idle => False.elim (opened idle)) begun
      (fun _ => World.notified_rollbackTo cat w index)

end Settled

/-- Of every connection of every run. -/
theorem settled_of_visits [DecidableEq Value] {cat : Catalogue Value}
    {parameterStatus : Dict String String} {port : Nat} {events : List Event}
    {sys : System Value Stmt Port}
    (visited : Trace.Visits (System.step cat) (System.start parameterStatus port) events sys)
    {pid : Pid} {c : Client Value Stmt Port} (live : sys.clients pid = some c)
    (server : PgServer) : Settled (c.world server) c.ledger := by
  have both := System.clients_invariant
    (fun c : Client Value Stmt Port => (∀ server, Settled (c.world server) c.ledger) ∧
      Framed c.connection.txStatus c.connection.state c.ledger)
    (fun _ _ _ => ⟨fun _ => Settled.of_idle rfl rfl rfl, Framed.fresh⟩) ?_ visited live
  · exact both.1 server
  · intro c server s failed w h move
    have settled := (h.1 server).move h.2 move
    exact ⟨fun _ => ⟨settled.idle, settled.opened⟩, Framed.move (w := c.world server) h.2 move⟩

/-- The transaction might as well not have been: the settings and subscriptions are
those of the world BEGIN executed in, and nothing has been sent since. -/
structure Undone (begun w : World Value Stmt Port) : Prop where
  ended : w.txStatus = .I
  sessionVars : w.state.sessionVars.Same begun.state.sessionVars
  committedVars : w.state.committedVars.Same begun.state.committedVars
  listening : w.state.listening = begun.state.listening
  notified : w.notified = begun.notified

section Results

variable [DecidableEq Value] (cat : Catalogue Value)

/-- ROLLBACK undoes any open transaction, failed or not. -/
theorem undone_of_rollback {w begun : World Value Stmt Port} {l : Ledger Value Stmt Port}
    (framed : Framed w.txStatus w.state l) (settled : Settled w l) (opened : w.txStatus ≠ .I)
    (begins : l.begun = some begun) :
    Undone begun (World.transactionStatement cat w .rollback) := by
  have undone := snapshot_of_rollback cat framed opened begins
  obtain ⟨begun', begins', _, _, sent⟩ := settled.opened opened
  obtain rfl : begun = begun' := Option.some.inj (begins.symm.trans begins')
  exact {
    ended := txStatus_of_end cat (by simp)
    sessionVars := fun name => congrArg (fun s => s.sessionVars.get? name) undone
    committedVars := fun name => congrArg (fun s => s.committedVars.get? name) undone
    listening := congrArg Scope.listening undone
    notified := (notified_of_rollback cat opened).trans sent }

/-- COMMIT undoes one exactly where it finds nothing to commit. -/
theorem undone_of_commit_iff {w begun : World Value Stmt Port} {l : Ledger Value Stmt Port}
    (settled : Settled w l) (opened : w.txStatus ≠ .I) (begins : l.begun = some begun) :
    Undone begun (World.transactionStatement cat w .commit) ↔
      w.state.committedVars.Same begun.state.committedVars ∧
        w.state.listening = begun.state.listening ∧ w.state.pendingNotifies = [] := by
  obtain ⟨begun', begins', committed, _, sent⟩ := settled.opened opened
  obtain rfl : begun = begun' := Option.some.inj (begins.symm.trans begins')
  have state := state_of_commit cat opened
  have notified := notified_of_commit cat opened
  constructor
  · intro undone
    refine ⟨?_, ?_, ?_⟩
    · have same := undone.committedVars
      rw [state] at same
      exact same
    · have same := undone.listening
      rw [state] at same
      exact same
    · have same := undone.notified
      rw [notified, ← sent] at same
      have none : w.state.pendingNotifies.map _ = [] := List.append_right_eq_self.mp same
      exact List.map_eq_nil_iff.mp none
  · rintro ⟨same, listening, pending⟩
    refine ⟨txStatus_of_end cat (by simp), ?_, ?_, ?_, ?_⟩
    · rw [state, committed]
      exact same
    · rw [state]
      exact same
    · rw [state]
      exact listening
    · rw [notified, pending, List.map_nil, List.append_nil, sent]

/-- A COMMIT executed in status `E`, anywhere in any run, ends the transaction as if it
had not been, which a ROLLBACK there would have done, exactly where the committed
settings and the pending subscriptions are still those of BEGIN and nothing is queued. -/
theorem commit_of_failed_iff (parameterStatus : Dict String String) (port : Nat)
    (events : List Event) (u v : System Value Stmt Port) (pid : Pid) (answers : List Answer)
    (c : Client Value Stmt Port)
    (taken : Trace.Takes (System.step cat) (System.start parameterStatus port) events u
      (.request pid ⟨.transaction .commit, answers⟩) v)
    (live : u.clients pid = some c) (failed : c.connection.txStatus = .E) :
    ∃ begun c', c.ledger.begun = some begun ∧ v.clients pid = some c' ∧
      Undone begun (World.transactionStatement cat (c.world u.server) .rollback) ∧
      (Undone begun (c'.world v.server) ↔
        c.connection.state.committedVars.Same begun.state.committedVars ∧
          c.connection.state.listening = begun.state.listening ∧
          c.connection.state.pendingNotifies = []) := by
  have settled := settled_of_visits taken.before live u.server
  have opened : (c.world u.server).txStatus ≠ .I := fun idle => by
    rw [show (c.world u.server).txStatus = .E from failed] at idle
    cases idle
  obtain ⟨begun, begins, _⟩ := settled.opened opened
  obtain ⟨d, ended, w, hd, executed, _, rfl⟩ := System.step_request taken.possible
  obtain rfl : c = d := Option.some.inj (live.symm.trans hd)
  have commits : World.execute cat (c.world u.server) ⟨.transaction .commit, answers⟩ =
      (World.transactionStatement cat (c.world u.server) .commit, none) := by
    have allowed : ¬((c.world u.server).txStatus = .E ∧
        (Statement.transaction .commit).allowedInFailedTransaction = false) :=
      fun both => Bool.noConfusion both.2
    simp only [World.execute, if_neg allowed, World.onExecute]
  obtain ⟨rfl, rfl⟩ := Prod.mk.inj (commits.symm.trans executed)
  exact ⟨begun, _, begins, System.clients_put_self _ _ _ _,
    undone_of_rollback cat (framed_of_visits taken.before live) settled opened begins,
    undone_of_commit_iff cat settled opened begins⟩

end Results

/-- A statement that fails in a transaction that has done nothing else. -/
def failedEmpty : List Event :=
  [.connect 1 "app" ∅, .request 1 ⟨.transaction .begin, []⟩,
    .request 1 ⟨.query [], [some (.exception "boom")]⟩]

theorem commit_of_failed_empty :
    ∃ (begun : World String Unit Unit) (v : System String Unit Unit)
      (c' : Client String Unit Unit),
      Trace.run (System.step plainCatalogue) (System.start ∅ 5432)
        (failedEmpty ++ [.request 1 ⟨.transaction .commit, []⟩]) = some v ∧
      v.clients 1 = some c' ∧ Undone begun (c'.world v.server) := by
  obtain ⟨begun, c', begins, live, _, iff⟩ :=
    commit_of_failed_iff plainCatalogue ∅ 5432
      (failedEmpty ++ [.request 1 ⟨.transaction .commit, []⟩]) _ _ 1 [] _
      ⟨failedEmpty, [], rfl, rfl, rfl⟩ rfl rfl
  obtain rfl := Option.some.inj begins
  exact ⟨_, _, c', rfl, live, iff.mpr ⟨fun _ => rfl, rfl, rfl⟩⟩

/-- A setting, a notification and then a failure. -/
def failedAfterWrites : List Event :=
  [.connect 1 "app" ∅, .request 1 ⟨.transaction .begin, []⟩,
    .request 1 ⟨.assignment [("search_path", some "app")] false, []⟩,
    .request 1 ⟨.notify "jobs" "1", []⟩, .request 1 ⟨.query [], [some (.exception "boom")]⟩]

/-- COMMIT keeps the setting and sends the notification. -/
theorem commit_of_failed_takes_effect :
    ∃ (u v : System String Unit Unit) (c c' : Client String Unit Unit)
      (begun : World String Unit Unit),
      Trace.Takes (System.step plainCatalogue) (System.start ∅ 5432)
        (failedAfterWrites ++ [.request 1 ⟨.transaction .commit, []⟩]) u
        (.request 1 ⟨.transaction .commit, []⟩) v ∧
      u.clients 1 = some c ∧ c.connection.txStatus = .E ∧ c.ledger.begun = some begun ∧
      v.clients 1 = some c' ∧
      c'.connection.state.sessionVars.get? "search_path" = some "app" ∧
      begun.state.sessionVars.get? "search_path" = none ∧
      c'.notified = [⟨"jobs", "1", ∅⟩] ∧ begun.notified = [] := by
  refine ⟨_, _, _, _, _, ⟨failedAfterWrites, [], rfl, rfl, rfl⟩, rfl, rfl, rfl, rfl, ?_⟩
  decide

end PgMimic

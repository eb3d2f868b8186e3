import PgMimic.Histories

/-!
# Every notification once

A NOTIFY outside a transaction goes to the server at once, one inside waits in
`pending_notifies` for the COMMIT. The outbox is what the calls of
`notify_listeners` alone say should have been handed over: it is told what was
raised and when a transaction ended, and nothing of the queue.
-/

namespace PgMimic

variable {Value Stmt Port : Type}

/-- The calls of `PgServer.notify` so far, without who heard them. -/
def World.passed (w : World Value Stmt Port) : List (String × String) :=
  w.notified.map fun n => (n.channel, n.payload)

/-- What waits for COMMIT after some more has been raised. -/
def collect (pending raised : List (String × String)) : List (String × String) :=
  raised.foldl (fun queue entry => if entry ∈ queue then queue else queue ++ [entry]) pending

theorem collect_append (pending first later : List (String × String)) :
    collect pending (first ++ later) = collect (collect pending first) later :=
  List.foldl_append

/-- The queue holds what was raised, each once and where it first was. -/
theorem collect_eraseDups (first later : List (String × String)) :
    collect first.eraseDups later = (first ++ later).eraseDups := by
  induction later generalizing first with
  | nil => rw [List.append_nil]; rfl
  | cons entry later ih =>
    have one : collect first.eraseDups [entry] = (first ++ [entry]).eraseDups := by
      rw [List.eraseDups_append]
      by_cases known : entry ∈ first
      · have known' : entry ∈ first.eraseDups := List.mem_eraseDups.mpr known
        simp [collect, known', List.removeAll, known]
      · have fresh : entry ∉ first.eraseDups := fun h => known (List.mem_eraseDups.mp h)
        simp [collect, fresh, List.removeAll, known, List.eraseDups_cons]
    have split : first ++ entry :: later = (first ++ [entry]) ++ later := by simp
    rw [split, ← ih, ← one]
    rfl

/-- The `notify_listeners` calls the effects of a SELECT get to. -/
def raisedAll (cat : Catalogue Value) : List Effect → List Answer → List (String × String)
  | [], _ => []
  | .notify channel message :: rest, answers => (channel, message) :: raisedAll cat rest answers
  | .setConfig key value :: rest, answers =>
    match settingOutcome cat key value (answers.headD none) with
    | none => raisedAll cat rest answers.tail
    | some _ => []

/-- The `notify_listeners` calls one statement makes, none if it is refused. -/
def raisedBy (cat : Catalogue Value) (w : World Value Stmt Port) (r : Request) :
    List (String × String) :=
  if w.txStatus = .E ∧ r.statement.allowedInFailedTransaction = false then []
  else match r.statement with
    | .notify channel payload => [(channel, payload)]
    | .select effects => raisedAll cat effects r.answers
    | .query raised => raised
    | _ => []

/-- What should have been handed to the server, and what the open transaction has raised. -/
structure Outbox where
  sent : List (String × String)
  raised : List (String × String)

/-- COMMIT hands over what its transaction raised, without repetitions; ROLLBACK drops it. -/
def outbox (cat : Catalogue Value) : Keeping Value Stmt Port Outbox where
  opened := ⟨[], []⟩
  add o w r failed :=
    match r.statement, failed with
    | .transaction .commit, none => ⟨o.sent ++ o.raised.eraseDups, []⟩
    | .transaction .rollback, none => ⟨o.sent, []⟩
    | _, _ =>
      if w.txStatus = .I then ⟨o.sent ++ raisedBy cat w r, o.raised⟩
      else ⟨o.sent, o.raised ++ raisedBy cat w r⟩

/-! ## What one statement raises -/

/-- Between the two worlds exactly these calls of `notify_listeners` were made. -/
structure Raises (w w' : World Value Stmt Port) (raised : List (String × String)) : Prop where
  txStatus : w'.txStatus = w.txStatus
  outside : w.txStatus = .I → w'.passed = w.passed ++ raised ∧
    (w.state.pendingNotifies = [] → w'.state.pendingNotifies = [])
  inside : w.txStatus ≠ .I → w'.passed = w.passed ∧
    w'.state.pendingNotifies = collect w.state.pendingNotifies raised

namespace Raises

variable {u v w w' : World Value Stmt Port}

/-- What touches neither the queue nor the server's notifications. -/
theorem nothing (txStatus : w'.txStatus = w.txStatus) (notified : w'.notified = w.notified)
    (pending : w'.state.pendingNotifies = w.state.pendingNotifies) : Raises w w' [] where
  txStatus := txStatus
  outside := by
    intro _
    rw [World.passed, notified, List.append_nil, pending]
    exact ⟨rfl, id⟩
  inside := by
    intro _
    rw [World.passed, notified, pending]
    exact ⟨rfl, rfl⟩

theorem refl (w : World Value Stmt Port) : Raises w w [] := nothing rfl rfl rfl

theorem trans {first later : List (String × String)} (h : Raises u v first)
    (h' : Raises v w later) : Raises u w (first ++ later) where
  txStatus := h'.txStatus.trans h.txStatus
  outside := by
    intro idle
    obtain ⟨sent, kept⟩ := h.outside idle
    obtain ⟨sent', kept'⟩ := h'.outside (h.txStatus.trans idle)
    refine ⟨?_, fun empty => kept' (kept empty)⟩
    rw [sent', sent, List.append_assoc]
  inside := by
    intro opened
    obtain ⟨sent, queued⟩ := h.inside opened
    obtain ⟨sent', queued'⟩ := h'.inside (h.txStatus ▸ opened)
    exact ⟨sent'.trans sent, by rw [queued', queued, collect_append]⟩

theorem notifyListeners (w : World Value Stmt Port) (channel payload : String) :
    Raises w (w.notifyListeners channel payload) [(channel, payload)] := by
  by_cases idle : w.txStatus = .I
  · rw [World.notifyListeners, if_pos idle]
    refine ⟨rfl, fun _ => ⟨?_, id⟩, fun opened => False.elim (opened idle)⟩
    simp [World.passed, World.serverNotify]
  · by_cases queued : (channel, payload) ∈ w.state.pendingNotifies
    · rw [World.notifyListeners, if_neg idle, if_pos queued]
      refine ⟨rfl, fun h => False.elim (idle h), fun _ => ⟨rfl, ?_⟩⟩
      simp [collect, queued]
    · rw [World.notifyListeners, if_neg idle, if_neg queued]
      refine ⟨rfl, fun h => False.elim (idle h), fun _ => ⟨rfl, ?_⟩⟩
      simp [collect, queued]

theorem foldl (raised : List (String × String)) (w : World Value Stmt Port) :
    Raises w (raised.foldl (fun w entry => w.notifyListeners entry.1 entry.2) w) raised :=
  Outcomes.foldl_relates (R := fun raised w w' => Raises w w' raised) refl
    (fun entry w => notifyListeners w entry.1 entry.2) trans raised w

variable (cat : Catalogue Value)

theorem reportSetting (w : World Value Stmt Port) (key : String) :
    Raises w (reportSetting cat w key) [] := by
  obtain ⟨owed, h⟩ := reportSetting_eq cat w key
  rw [h]
  exact nothing rfl rfl rfl

/-- A setting raises nothing, refused or not. -/
theorem applySetConfig (w : World Value Stmt Port) (key : String) (value : Option String)
    (isLocal : Bool) (answer : Answer) :
    Raises w (applySetConfig cat w key value isLocal answer).1 [] := by
  have put (v : World Value Stmt Port) (s : SessionState Value Stmt Port)
      (pending : s.pendingNotifies = v.state.pendingNotifies) :
      Raises v (PgMimic.reportSetting cat (v.withState s) key) [] := by
    have kept : Raises v (v.withState s) [] := nothing rfl rfl pending
    exact kept.trans (reportSetting cat _ key)
  have written (stored : Option Value) : Raises w (settingWritten cat w key stored isLocal) [] :=
    put w _ rfl
  cases applied cat w key value isLocal answer with
  | unsettable e settable result => exact result ▸ refl w
  | unparsed e settable parsed result => exact result ▸ refl w
  | kept stored settable parsed stands result => exact result ▸ written stored
  | undone stored settable parsed falls result =>
    rw [result]
    exact (written stored).trans (put _ _ rfl)

theorem applyAll (isLocal : Bool) (assignments : List (String × Option String))
    (answers : List Answer) (w : World Value Stmt Port) :
    Raises w (applyAll cat isLocal assignments answers w).1 [] :=
  applyAll_relates cat (R := fun w w' => Raises w w' []) refl trans
    (fun w key value answer => applySetConfig cat w key value isLocal answer) assignments answers w

theorem runAll (effects : List Effect) (answers : List Answer) (w : World Value Stmt Port) :
    Raises w (World.runAll cat effects answers w).1 (raisedAll cat effects answers) := by
  induction effects generalizing answers w with
  | nil => exact refl w
  | cons effect rest ih =>
    cases effect with
    | notify channel message => exact (notifyListeners w channel message).trans (ih answers _)
    | setConfig key value =>
      have one := applySetConfig cat w key value false (answers.headD none)
      have outcome := applySetConfig_outcome cat w key value false (answers.headD none)
      rw [World.runAll, raisedAll, ← outcome]
      cases h : PgMimic.applySetConfig cat w key value false (answers.headD none) with
      | mk w' failed =>
        rw [h] at one
        cases failed with
        | some failure => exact one
        | none => exact one.trans (ih answers.tail w')

theorem discardStatement (w : World Value Stmt Port) (kind : DiscardKind)
    (answers : List Answer) : Raises w (World.discardStatement cat w kind answers).1 [] := by
  have reset : Raises w (resetAll cat answers.tail w).1 [] := applyAll cat false _ answers.tail w
  cases discarded cat w kind answers with
  | nothing failed _ result => exact result ▸ refl w
  | stopped all idle told w' failure stopped result =>
    rw [stopped] at reset
    exact result ▸ reset
  | all all idle told w' done result =>
    rw [done] at reset
    rw [result]
    refine ⟨reset.txStatus, fun _ => ⟨(reset.outside idle).1, fun _ => rfl⟩, ?_⟩
    exact fun opened => False.elim (opened idle)

theorem assignmentStatement (w : World Value Stmt Port)
    (assignments : List (String × Option String)) (isLocal : Bool) (answers : List Answer) :
    Raises w (World.assignmentStatement cat w assignments isLocal answers).1 [] := by
  rcases assignmentStatement_cases cat w assignments isLocal answers with
    ⟨_, result⟩ | ⟨_, _, result⟩ | ⟨_, _, result⟩
  · rw [result]
    exact nothing rfl rfl rfl
  · rw [result]
    exact refl w
  · rw [result]
    exact applyAll cat isLocal assignments answers w

theorem syncOutside (w : World Value Stmt Port) : Raises w w.syncOutside [] := by
  refine nothing (World.txStatus_syncOutside w) ?_ (by rw [World.state_syncOutside])
  rw [World.syncOutside]
  split <;> rfl

variable [DecidableEq Value]

/-- A statement that edits no frames, let through by the dispatcher. -/
theorem onExecute (w : World Value Stmt Port) (r : Request)
    (frames : r.statement.editsFrames = false)
    (passes : ¬(w.txStatus = .E ∧ r.statement.allowedInFailedTransaction = false)) :
    Raises w (World.onExecute cat w r).1 (raisedBy cat w r) := by
  rw [raisedBy, if_neg passes]
  obtain ⟨statement, answers⟩ := r
  cases statement with
  | transaction tag => cases frames
  | savepoint kind name => cases frames
  | assignment assignments isLocal => exact assignmentStatement cat w assignments isLocal answers
  | resetAll => exact applyAll cat false _ answers w
  | discard kind => exact discardStatement cat w kind answers
  | listen channel =>
    have heard : Raises w
        (w.withState { w.state with listening := insert channel w.state.listening }) [] :=
      nothing rfl rfl rfl
    exact heard.trans (syncOutside _)
  | unlisten channel =>
    have heard (listening : Finset String) : Raises w
        (w.withState { w.state with listening := listening }) [] := nothing rfl rfl rfl
    exact (heard _).trans (syncOutside _)
  | notify channel payload => exact notifyListeners w channel payload
  | select effects => exact runAll cat effects answers w
  | query raised => exact foldl raised w

end Raises

/-- What failing leaves of the queue and of the notifications sent: everything. -/
theorem World.passed_fail (w : World Value Stmt Port) : w.fail.passed = w.passed := by
  rw [World.fail]
  split <;> rfl

/-! ## What every run keeps -/

/-- The queue is what the open transaction has raised, each once. -/
structure Posted (w : World Value Stmt Port) (o : Outbox) : Prop where
  sent : w.passed = o.sent
  idle : w.txStatus = .I → o.raised = [] ∧ w.state.pendingNotifies = []
  opened : w.txStatus ≠ .I → w.state.pendingNotifies = o.raised.eraseDups

namespace Posted

variable {w w' : World Value Stmt Port} {o : Outbox}

theorem fail (h : Posted w o) : Posted w.fail o := by
  refine ⟨?_, ?_, ?_⟩
  · rw [World.passed_fail]
    exact h.sent
  · rw [World.txStatus_fail_eq_I, World.state_fail]
    exact h.idle
  · rw [ne_eq, World.txStatus_fail_eq_I, World.state_fail]
    exact h.opened

/-- What the outbox says of a statement that ends no transaction. -/
def posted (o : Outbox) (w : World Value Stmt Port) (raised : List (String × String)) : Outbox :=
  if w.txStatus = .I then ⟨o.sent ++ raised, o.raised⟩ else ⟨o.sent, o.raised ++ raised⟩

theorem raises {raised : List (String × String)} (h : Posted w o) (made : Raises w w' raised) :
    Posted w' (posted o w raised) := by
  by_cases idle : w.txStatus = .I
  · obtain ⟨sent, kept⟩ := made.outside idle
    obtain ⟨none, empty⟩ := h.idle idle
    rw [posted, if_pos idle]
    refine ⟨by rw [sent, h.sent], fun _ => ⟨none, kept empty⟩, fun opened => ?_⟩
    exact False.elim (opened (made.txStatus.trans idle))
  · obtain ⟨sent, queued⟩ := made.inside idle
    rw [posted, if_neg idle]
    refine ⟨sent.trans h.sent, fun idle' => ?_, fun _ => ?_⟩
    · exact False.elim (idle (made.txStatus.symm.trans idle'))
    · rw [queued, h.opened idle, collect_eraseDups]

/-- A step that sends and raises nothing, and opens or closes no transaction. -/
theorem unchanged (h : Posted w o) (same : w'.txStatus = .I ↔ w.txStatus = .I)
    (notified : w'.notified = w.notified)
    (pending : w'.state.pendingNotifies = w.state.pendingNotifies) : Posted w' o where
  sent := by rw [World.passed, notified]; exact h.sent
  idle := fun idle => by rw [pending]; exact h.idle (same.mp idle)
  opened := fun opened => by
    rw [pending]
    exact h.opened (fun idle => opened (same.mpr idle))

end Posted

/-- A statement that ends no transaction, by being none or by failing. -/
theorem outbox_add (cat : Catalogue Value) (o : Outbox) (w : World Value Stmt Port) (r : Request)
    (failed : Option Failure) (h : r.statement.isTransactionEnd = false ∨ failed ≠ none) :
    (outbox cat : Keeping Value Stmt Port Outbox).add o w r failed =
      Posted.posted o w (raisedBy cat w r) := by
  obtain ⟨statement, answers⟩ := r
  cases failed with
  | some failure =>
    cases statement with
    | transaction tag => cases tag <;> rfl
    | _ => rfl
  | none =>
    have continues := h.resolve_right fun h => h rfl
    cases statement with
    | transaction tag =>
      cases tag with
      | begin => rfl
      | commit => cases continues
      | rollback => cases continues
    | _ => rfl

namespace Posted

variable [DecidableEq Value] {cat : Catalogue Value} {w w' : World Value Stmt Port} {o : Outbox}
  {l : Ledger Value Stmt Port}

theorem begin (h : Posted w o) (allowed : w.txStatus ≠ .E) :
    Posted (World.transactionStatement cat w .begin) (posted o w []) := by
  cases status : w.txStatus with
  | E => exact False.elim (allowed status)
  | I =>
    obtain ⟨none, empty⟩ := h.idle status
    rw [World.transactionStatement_begin cat w status, posted, if_pos status, List.append_nil]
    refine ⟨h.sent, fun idle => TxStatus.noConfusion idle, fun _ => ?_⟩
    rw [none]
    exact empty
  | T =>
    have opened : w.txStatus ≠ .I := by simp [status]
    rw [World.transactionStatement_redundant cat w status, posted, if_neg opened, List.append_nil]
    refine h.unchanged ⟨fun idle => TxStatus.noConfusion idle, fun idle => ?_⟩ rfl rfl
    exact False.elim (opened idle)

theorem commit (h : Posted w o) :
    Posted (World.transactionStatement cat w .commit) ⟨o.sent ++ o.raised.eraseDups, []⟩ := by
  by_cases idle : w.txStatus = .I
  · obtain ⟨none, empty⟩ := h.idle idle
    rw [World.transactionStatement_idle cat w (by simp) idle, none, List.eraseDups_nil,
      List.append_nil]
    exact ⟨h.sent, fun _ => ⟨rfl, empty⟩, fun opened => False.elim (opened rfl)⟩
  · have state := state_of_commit cat idle
    have ended : (World.transactionStatement cat w .commit).txStatus = .I :=
      txStatus_of_end cat (by simp)
    refine ⟨?_, fun _ => ⟨rfl, by rw [state]⟩, fun opened => False.elim (opened ended)⟩
    rw [World.passed, notified_of_commit cat idle, List.map_append, List.map_map, ← h.opened idle,
      ← h.sent]
    exact congrArg _ (List.map_id' _)

theorem rollback (h : Posted w o) (settled : Settled w l) (framed : Framed w.txStatus w.state l) :
    Posted (World.transactionStatement cat w .rollback) ⟨o.sent, []⟩ := by
  by_cases idle : w.txStatus = .I
  · rw [World.transactionStatement_idle cat w (by simp) idle]
    exact ⟨h.sent, fun _ => ⟨rfl, (h.idle idle).2⟩, fun opened => False.elim (opened rfl)⟩
  · obtain ⟨begun, begins, _, empty, _⟩ := settled.opened idle
    have undone := congrArg Scope.pendingNotifies (snapshot_of_rollback cat framed idle begins)
    have ended : (World.transactionStatement cat w .rollback).txStatus = .I :=
      txStatus_of_end cat (by simp)
    refine ⟨?_, fun _ => ⟨rfl, undone.trans empty⟩, fun opened => False.elim (opened ended)⟩
    rw [World.passed, notified_of_rollback cat idle]
    exact h.sent

/-- Taking a savepoint or releasing one, with or without success. -/
theorem savepoint (h : Posted w o) (kind : SavepointKind) (name : String)
    (forward : kind ≠ .rollbackTo) :
    Posted (World.savepointStatement cat w kind name).1 (posted o w []) := by
  have same : Posted w (posted o w []) := h.raises (Raises.refl w)
  by_cases idle : w.txStatus = .I
  · simp only [World.savepointStatement, if_pos idle]
    exact same
  · simp only [World.savepointStatement, if_neg idle]
    cases kind with
    | savepoint => exact same.unchanged Iff.rfl rfl rfl
    | rollbackTo => exact False.elim (forward rfl)
    | release =>
      cases innermost w.state.savepoints name with
      | none => exact same
      | some index => exact same.unchanged Iff.rfl rfl rfl

/-- The queue and the outbox agree after any statement but ROLLBACK TO. -/
theorem execute {r : Request} {failed : Option Failure} (h : Posted w o) (settled : Settled w l)
    (framed : Framed w.txStatus w.state l)
    (forward : ∀ name, r.statement ≠ .savepoint .rollbackTo name)
    (executed : World.execute cat w r = (w', failed)) :
    Posted w' ((outbox cat : Keeping Value Stmt Port Outbox).add o w r failed) := by
  by_cases refused : w.txStatus = .E ∧ r.statement.allowedInFailedTransaction = false
  · rw [World.execute, if_pos refused] at executed
    obtain ⟨rfl, rfl⟩ := Prod.mk.inj executed
    rw [outbox_add cat o w r _ (Or.inr (by simp)), raisedBy, if_pos refused]
    exact (h.raises (Raises.refl w)).fail
  · rw [World.execute, if_neg refused] at executed
    have settle (made : Posted (World.onExecute cat w r).1 (posted o w (raisedBy cat w r)))
        (continues : r.statement.isTransactionEnd = false) :
        Posted w' ((outbox cat : Keeping Value Stmt Port Outbox).add o w r failed) := by
      rw [outbox_add cat o w r failed (Or.inl continues)]
      cases h' : World.onExecute cat w r with
      | mk v outcome =>
        rw [h'] at made executed
        cases outcome with
        | none =>
          obtain ⟨rfl, rfl⟩ := Prod.mk.inj executed
          exact made
        | some failure =>
          obtain ⟨rfl, rfl⟩ := Prod.mk.inj executed
          exact made.fail
    by_cases frames : r.statement.editsFrames = false
    · exact settle (h.raises (Raises.onExecute cat w r frames refused))
        (continues_of_not_editsFrames frames)
    · obtain ⟨statement, answers⟩ := r
      cases statement with
      | transaction tag =>
        obtain ⟨rfl, rfl⟩ := Prod.mk.inj executed
        cases tag with
        | begin =>
          have allowed : w.txStatus ≠ .E := fun failed => refused ⟨failed, rfl⟩
          have made : Posted (World.transactionStatement cat w .begin) (posted o w []) :=
            h.begin allowed
          refine settle ?_ rfl
          rw [raisedBy, if_neg refused]
          exact made
        | commit => exact h.commit
        | rollback => exact h.rollback settled framed
      | savepoint kind name =>
        refine settle ?_ (by cases kind <;> rfl)
        rw [raisedBy, if_neg refused]
        exact h.savepoint kind name fun named => forward name (by rw [named])
      | _ => exact False.elim (frames rfl)

end Posted

section Results

variable [DecidableEq Value]

/-- In every run without a ROLLBACK TO of its own, what a connection has handed to
`PgServer.notify` is what its outbox says: each notification raised outside a
transaction at once, at COMMIT those of the transaction without their repetitions,
nothing of a transaction rolled back, and nothing twice. -/
theorem notified_exactly_once (cat : Catalogue Value) (parameterStatus : Dict String String)
    (port : Nat) (events : List Event) (t : System Value Stmt Port × (Pid → Outbox)) (pid : Pid)
    (c : Client Value Stmt Port)
    (forward : ∀ name answers,
      Event.request pid ⟨.savepoint .rollbackTo name, answers⟩ ∉ events)
    (visited : Trace.Visits (System.recorded cat (outbox cat))
      (System.startRecorded (outbox cat) parameterStatus port) events t)
    (live : t.1.clients pid = some c) :
    c.notified.map (fun n => (n.channel, n.payload)) = (t.2 pid).sent := by
  have posted : ∀ server, Posted (c.world server) (t.2 pid) := by
    refine System.recorded_invariant
      (fun r => ∀ name, r.statement ≠ .savepoint .rollbackTo name) ?_
      (fun c o => ∀ server, Posted (c.world server) o) ?_ ?_ visited live
    · rintro ⟨statement, answers⟩ member name rfl
      exact forward name answers member
    · intro username startupParams server
      exact ⟨rfl, fun _ => ⟨rfl, rfl⟩, fun opened => False.elim (opened rfl)⟩
    · intro sys c o r failed w reached at_pid forward h executed move server
      have next := (h sys.server).execute (settled_of_visits reached at_pid sys.server)
        (framed_of_visits reached at_pid) forward executed
      exact ⟨next.sent, next.idle, next.opened⟩
  exact (posted t.1.server).sent

end Results

/-- One transaction rolled back, one committed that repeats itself. -/
def repeated : List Event :=
  [.connect 1 "app" ∅, .request 1 ⟨.notify "c" "now", []⟩,
    .request 1 ⟨.transaction .begin, []⟩, .request 1 ⟨.notify "c" "lost", []⟩,
    .request 1 ⟨.transaction .rollback, []⟩,
    .request 1 ⟨.transaction .begin, []⟩, .request 1 ⟨.notify "c" "x", []⟩,
    .request 1 ⟨.savepoint .savepoint "s", []⟩, .request 1 ⟨.notify "c" "y", []⟩,
    .request 1 ⟨.notify "c" "x", []⟩, .request 1 ⟨.savepoint .release "s", []⟩,
    .request 1 ⟨.transaction .commit, []⟩]

theorem repeated_exactly_once :
    ∃ (t : System String Unit Unit × (Pid → Outbox)) (c : Client String Unit Unit),
      Trace.run (System.recorded plainCatalogue (outbox plainCatalogue))
        (System.startRecorded (outbox plainCatalogue) ∅ 5432) repeated = some t ∧
      t.1.clients 1 = some c ∧ (t.2 1).sent = [("c", "now"), ("c", "x"), ("c", "y")] ∧
      c.notified.map (fun n => (n.channel, n.payload)) = (t.2 1).sent := by
  refine ⟨_, _, rfl, rfl, by decide, ?_⟩
  exact notified_exactly_once plainCatalogue ∅ 5432 repeated _ 1 _
    (by simp [repeated]) (Trace.visits_end rfl) rfl

end PgMimic

import PgMimic.Lib.Outcomes
import PgMimic.Statements

/-!
# What one statement can do

`Move` lists the ways a statement can change a connection, each with its guard,
and `execute_move` says there is no other. Everything but transaction control,
savepoints and subscriptions is `Quiet`: it writes settings or queues
notifications and leaves the frames, the registry and the status alone.
-/

namespace PgMimic

variable {Value Stmt Port : Type}

/-- Every name a setting is held under is one this connection has written. -/
def Named (s : SessionState Value Stmt Port) : Prop :=
  ∀ key, s.sessionVars.get? key ≠ none ∨ s.committedVars.get? key ≠ none → key ∈ s.knownSettings

/-- What settings and notifications leave alone. -/
structure Quiet (w w' : World Value Stmt Port) : Prop where
  pid : w'.connection.pid = w.connection.pid
  registeredChannels : w'.connection.registeredChannels = w.connection.registeredChannels
  server : w'.server = w.server
  txStatus : w'.txStatus = w.txStatus
  scopes : w'.state.scopes = w.state.scopes
  savepoints : w'.state.savepoints = w.state.savepoints
  listening : w'.state.listening = w.state.listening
  notified : w.txStatus ≠ .I → w'.notified = w.notified
  pending : w.txStatus = .I → w'.state.pendingNotifies = w.state.pendingNotifies
  committed : w.txStatus = .I → w.state.sessionVars = w.state.committedVars →
    w'.state.sessionVars = w'.state.committedVars
  known : w.state.knownSettings ⊆ w'.state.knownSettings
  named : Named w.state → Named w'.state

namespace Quiet

theorem refl (w : World Value Stmt Port) : Quiet w w where
  pid := rfl
  registeredChannels := rfl
  server := rfl
  txStatus := rfl
  scopes := rfl
  savepoints := rfl
  listening := rfl
  notified := fun _ => rfl
  pending := fun _ => rfl
  committed := fun _ same => same
  known := Finset.Subset.refl _
  named := fun named => named

theorem trans {u v w : World Value Stmt Port} (h : Quiet u v) (h' : Quiet v w) : Quiet u w where
  pid := h'.pid.trans h.pid
  registeredChannels := h'.registeredChannels.trans h.registeredChannels
  server := h'.server.trans h.server
  txStatus := h'.txStatus.trans h.txStatus
  scopes := h'.scopes.trans h.scopes
  savepoints := h'.savepoints.trans h.savepoints
  listening := h'.listening.trans h.listening
  notified := fun opened => (h'.notified (h.txStatus ▸ opened)).trans (h.notified opened)
  pending := fun idle => (h'.pending (h.txStatus.trans idle)).trans (h.pending idle)
  committed := fun idle same =>
    h'.committed (h.txStatus.trans idle) (h.committed idle same)
  known := Finset.Subset.trans h.known h'.known
  named := fun named => h'.named (h.named named)

theorem foldl {α : Type} {f : World Value Stmt Port → α → World Value Stmt Port}
    (one : ∀ w a, Quiet w (f w a)) (l : List α) (w : World Value Stmt Port) :
    Quiet w (l.foldl f w) :=
  Outcomes.foldl_relates (R := fun _ => Quiet) refl (fun a w => one w a) trans l w

end Quiet

section Settings

variable (cat : Catalogue Value)

/-- A write, reported. -/
def settingWritten (w : World Value Stmt Port) (key : String) (stored : Option Value)
    (isLocal : Bool) : World Value Stmt Port :=
  reportSetting cat (w.withState (recordSetting w.state key stored isLocal).1) key

/-- A write put back and reported again. -/
def settingUndone (w : World Value Stmt Port) (key : String) (stored : Option Value)
    (isLocal : Bool) : World Value Stmt Port :=
  let written := settingWritten cat w key stored isLocal
  reportSetting cat (written.withState ((recordSetting w.state key stored isLocal).2 written.state))
    key

/-- The ways a write ends. A cancellation leaves it standing. -/
inductive Applied (w : World Value Stmt Port) (key : String) (value : Option String)
    (isLocal : Bool) (answer : Answer) : Prop where
  | unsettable (e : PgError) (settable : checkSettable cat key = some e)
      (result : applySetConfig cat w key value isLocal answer = (w, some (.error e)))
  | unparsed (e : PgError) (settable : checkSettable cat key = none)
      (parsed : parseValue cat key value = .error e)
      (result : applySetConfig cat w key value isLocal answer = (w, some (.error e)))
  | kept (stored : Option Value) (settable : checkSettable cat key = none)
      (parsed : parseValue cat key value = .ok stored)
      (stands : answer = none ∨ answer = some .cancelled)
      (result : applySetConfig cat w key value isLocal answer =
        (settingWritten cat w key stored isLocal, answer))
  | undone (stored : Option Value) (settable : checkSettable cat key = none)
      (parsed : parseValue cat key value = .ok stored)
      (falls : answer ≠ none ∧ answer ≠ some .cancelled)
      (result : applySetConfig cat w key value isLocal answer =
        (settingUndone cat w key stored isLocal, answer))

variable {cat} in
/-- A value that may be stored is written, and only a failure puts it back. -/
theorem applySetConfig_stored {w : World Value Stmt Port} {key : String} {value : Option String}
    {stored : Option Value} (settable : checkSettable cat key = none)
    (parsed : parseValue cat key value = .ok stored) (isLocal : Bool) (answer : Answer) :
    applySetConfig cat w key value isLocal answer = match answer with
      | none => (settingWritten cat w key stored isLocal, none)
      | some .cancelled => (settingWritten cat w key stored isLocal, some .cancelled)
      | some failure => (settingUndone cat w key stored isLocal, some failure) := by
  simp only [applySetConfig, settable, parsed]
  rfl

theorem applied (w : World Value Stmt Port) (key : String) (value : Option String)
    (isLocal : Bool) (answer : Answer) : Applied cat w key value isLocal answer := by
  cases settable : checkSettable cat key with
  | some e => exact .unsettable e settable (by simp only [applySetConfig, settable])
  | none =>
    cases parsed : parseValue cat key value with
    | error e => exact .unparsed e settable parsed (by simp only [applySetConfig, settable, parsed])
    | ok stored =>
      have result := applySetConfig_stored (w := w) settable parsed isLocal
      rcases answer with - | e | text | -
      · exact .kept stored settable parsed (Or.inl rfl) (result none)
      · exact .undone stored settable parsed (by simp) (result _)
      · exact .undone stored settable parsed (by simp) (result _)
      · exact .kept stored settable parsed (Or.inr rfl) (result _)

/-- What relates the worlds before and after each write relates those around all of them. -/
theorem applyAll_relates {R : World Value Stmt Port → World Value Stmt Port → Prop}
    (refl : ∀ w, R w w) (trans : ∀ {u v w}, R u v → R v w → R u w) {isLocal : Bool}
    (one : ∀ w key value answer, R w (applySetConfig cat w key value isLocal answer).1)
    (assignments : List (String × Option String)) (answers : List Answer)
    (w : World Value Stmt Port) : R w (applyAll cat isLocal assignments answers w).1 := by
  induction assignments generalizing answers w with
  | nil => exact refl w
  | cons a rest ih =>
    have first := one w a.1 a.2 (answers.headD none)
    rw [applyAll]
    cases h : applySetConfig cat w a.1 a.2 isLocal (answers.headD none) with
    | mk w' failed =>
      rw [h] at first
      cases failed with
      | some failure => exact first
      | none => exact trans first (ih answers.tail w')

theorem runAll_relates {R : World Value Stmt Port → World Value Stmt Port → Prop}
    (refl : ∀ w, R w w) (trans : ∀ {u v w}, R u v → R v w → R u w)
    (notify : ∀ w channel message, R w (w.notifyListeners channel message))
    (one : ∀ w key value answer, R w (applySetConfig cat w key value false answer).1)
    (effects : List Effect) (answers : List Answer) (w : World Value Stmt Port) :
    R w (World.runAll cat effects answers w).1 := by
  induction effects generalizing answers w with
  | nil => exact refl w
  | cons effect rest ih =>
    cases effect with
    | notify channel message => exact trans (notify w channel message) (ih answers _)
    | setConfig key value =>
      have first := one w key value (answers.headD none)
      rw [World.runAll]
      cases h : applySetConfig cat w key value false (answers.headD none) with
      | mk w' failed =>
        rw [h] at first
        cases failed with
        | some failure => exact first
        | none => exact trans first (ih answers.tail w')

/-- SET LOCAL outside a transaction only warns, a name that cannot be set stops every
write, and otherwise the writes are made one after another. -/
theorem assignmentStatement_cases (w : World Value Stmt Port)
    (assignments : List (String × Option String)) (isLocal : Bool) (answers : List Answer) :
    (isLocal = true ∧ w.txStatus = .I) ∧
        (World.assignmentStatement cat w assignments isLocal answers).1 =
          w.notice setLocalOutside ∨
      ¬(isLocal = true ∧ w.txStatus = .I) ∧
        (assignments.findSome? fun a => checkSettable cat a.1).isSome = true ∧
        (World.assignmentStatement cat w assignments isLocal answers).1 = w ∨
      ¬(isLocal = true ∧ w.txStatus = .I) ∧
        (assignments.findSome? fun a => checkSettable cat a.1).isSome = false ∧
        World.assignmentStatement cat w assignments isLocal answers =
          applyAll cat isLocal assignments answers w := by
  by_cases outside : isLocal = true ∧ w.txStatus = .I
  · refine Or.inl ⟨outside, ?_⟩
    cases unsettable : assignments.findSome? fun a => checkSettable cat a.1 with
    | some e => simp only [World.assignmentStatement, if_pos outside, unsettable]
    | none => simp only [World.assignmentStatement, if_pos outside, unsettable]
  · refine Or.inr ?_
    cases unsettable : assignments.findSome? fun a => checkSettable cat a.1 with
    | some e =>
      exact Or.inl ⟨outside, rfl, by
        simp only [World.assignmentStatement, if_neg outside, unsettable]⟩
    | none =>
      exact Or.inr ⟨outside, rfl, by
        simp only [World.assignmentStatement, if_neg outside, unsettable]⟩

/-- The ways a DISCARD ends: with nothing done, in a reset that fails, or with everything
dropped. -/
inductive Discarded (w : World Value Stmt Port) (kind : DiscardKind) (answers : List Answer) :
    Prop where
  | nothing (failed : Option Failure)
      (narrow : kind ≠ .all ∨ w.txStatus ≠ .I ∨ (answers.headD none).isSome = true)
      (result : World.discardStatement cat w kind answers = (w, failed))
  | stopped (all : kind = .all) (idle : w.txStatus = .I) (told : answers.headD none = none)
      (w' : World Value Stmt Port) (failure : Failure)
      (reset : resetAll cat answers.tail w = (w', some failure))
      (result : World.discardStatement cat w kind answers = (w', some failure))
  | all (all : kind = .all) (idle : w.txStatus = .I) (told : answers.headD none = none)
      (w' : World Value Stmt Port) (reset : resetAll cat answers.tail w = (w', none))
      (result : World.discardStatement cat w kind answers =
        ((w'.withState w'.state.reset).syncListeners, none))

theorem discarded (w : World Value Stmt Port) (kind : DiscardKind) (answers : List Answer) :
    Discarded cat w kind answers := by
  by_cases refused : kind = .all ∧ w.txStatus ≠ .I
  · exact .nothing _ (Or.inr (Or.inl refused.2)) (by rw [World.discardStatement, if_pos refused])
  · cases told : answers.headD none with
    | some failure =>
      exact .nothing _ (Or.inr (Or.inr (by rw [told]; rfl)))
        (by rw [World.discardStatement, if_neg refused, told])
    | none =>
      by_cases narrow : kind ≠ .all
      · refine .nothing none (Or.inl narrow) ?_
        simp only [World.discardStatement, if_neg refused, told, if_pos narrow]
      · have every : kind = .all := not_not.mp narrow
        have idle : w.txStatus = .I := not_not.mp fun opened => refused ⟨every, opened⟩
        cases reset : resetAll cat answers.tail w with
        | mk w' failed =>
          cases failed with
          | some failure =>
            refine .stopped every idle told w' failure reset ?_
            simp only [World.discardStatement, if_neg refused, told, if_neg narrow, reset]
          | none =>
            refine .all every idle told w' reset ?_
            simp only [World.discardStatement, if_neg refused, told, if_neg narrow, reset]

variable {cat} in
/-- A DISCARD that has done nothing and complains of nothing is a narrow one. -/
theorem narrow_of_nothing {w : World Value Stmt Port} {kind : DiscardKind} {answers : List Answer}
    (narrow : kind ≠ .all ∨ w.txStatus ≠ .I ∨ (answers.headD none).isSome = true)
    (result : World.discardStatement cat w kind answers = (w, none)) : kind ≠ .all := by
  rintro rfl
  by_cases idle : w.txStatus = .I
  · rcases narrow with other | opened | told
    · exact other rfl
    · exact opened idle
    · obtain ⟨failure, told⟩ := Option.isSome_iff_exists.mp told
      simp only [World.discardStatement, idle, told, ne_eq, not_true_eq_false, and_false, if_false,
        Prod.mk.injEq, reduceCtorEq] at result
  · rw [World.discardStatement, if_pos ⟨rfl, idle⟩] at result
    cases result

/-- A report is owed, and that is all that changes. -/
theorem reportSetting_eq (w : World Value Stmt Port) (key : String) :
    ∃ owed, reportSetting cat w key = w.withParameterStatus owed := by
  cases h : reportedSettings.lookup key with
  | none => exact ⟨w.connection.pendingParameterStatus, by simp only [reportSetting, h]; rfl⟩
  | some reported => exact ⟨_, by simp only [reportSetting, h, World.reportParameter]; rfl⟩

theorem reportChanged_eq [DecidableEq Value] (before : Dict String Value)
    (w : World Value Stmt Port) :
    ∃ owed, reportChanged cat before w = w.withParameterStatus owed := by
  have fold : ∀ (names : List String) (w : World Value Stmt Port),
      ∃ owed, names.foldl (reportSetting cat) w = w.withParameterStatus owed := by
    intro names
    induction names with
    | nil => exact fun w => ⟨w.connection.pendingParameterStatus, rfl⟩
    | cons name names ih =>
      intro w
      obtain ⟨first, hfirst⟩ := reportSetting_eq cat w name
      obtain ⟨owed, howed⟩ := ih (w.withParameterStatus first)
      exact ⟨owed, by rw [List.foldl_cons, hfirst, howed]; rfl⟩
  exact fold _ w

theorem quiet_withParameterStatus (w : World Value Stmt Port) (owed : Dict String String) :
    Quiet w (w.withParameterStatus owed) :=
  { Quiet.refl w with }

theorem quiet_reportSetting (w : World Value Stmt Port) (key : String) :
    Quiet w (reportSetting cat w key) := by
  obtain ⟨owed, h⟩ := reportSetting_eq cat w key
  exact h ▸ quiet_withParameterStatus w owed

/-- A write, session-scoped or made inside a transaction. -/
theorem quiet_recordSetting (w : World Value Stmt Port) (key : String) (stored : Option Value)
    {isLocal : Bool} (inside : isLocal = true → w.txStatus ≠ .I) :
    Quiet w (w.withState (recordSetting w.state key stored isLocal).1) :=
  { Quiet.refl w with
    committed := by
      intro idle same
      cases isLocal with
      | true => exact False.elim (inside rfl idle)
      | false =>
        change assign w.state.sessionVars key stored = assign w.state.committedVars key stored
        rw [same]
    known := Finset.subset_insert key w.state.knownSettings
    named := by
      intro named a held
      change a ∈ insert key w.state.knownSettings
      by_cases same : a = key
      · exact Finset.mem_insert.mpr (Or.inl same)
      · refine Finset.mem_insert.mpr (Or.inr (named a ?_))
        cases isLocal with
        | true => simpa [recordSetting, get?_assign, same] using held
        | false => simpa [recordSetting, get?_assign, same] using held }

/-- Putting back a refused write. -/
theorem quiet_undo {w v : World Value Stmt Port} (h : Quiet w v) (key : String)
    (stored : Option Value) {isLocal : Bool} (inside : isLocal = true → w.txStatus ≠ .I)
    (made : v.state = (recordSetting w.state key stored isLocal).1) :
    Quiet w (v.withState ((recordSetting w.state key stored isLocal).2 v.state)) :=
  { h with
    committed := by
      intro idle same
      cases isLocal with
      | true => exact False.elim (inside rfl idle)
      | false =>
        change assign v.state.sessionVars key (w.state.sessionVars.get? key) =
          assign v.state.committedVars key (w.state.committedVars.get? key)
        rw [h.committed idle same, same]
    known := by
      rw [World.state_withState]
      intro a ha
      by_cases known : key ∈ w.state.knownSettings
      · simpa [recordSetting, known] using h.known ha
      · have other : a ≠ key := fun same => known (same ▸ ha)
        simpa [recordSetting, known, other] using h.known ha
    named := by
      rw [World.state_withState, made]
      intro named a held
      by_cases same : a = key
      · subst same
        have known : a ∈ w.state.knownSettings := by
          apply named
          cases isLocal with
          | true => simpa [recordSetting, get?_assign] using held
          | false => simpa [recordSetting, get?_assign] using held
        simp [recordSetting, known]
      · have known : a ∈ w.state.knownSettings := by
          apply named
          cases isLocal with
          | true => simpa [recordSetting, get?_assign, same] using held
          | false => simpa [recordSetting, get?_assign, same] using held
        by_cases was : key ∈ w.state.knownSettings
        · simp [recordSetting, was, known]
        · simp [recordSetting, was, known] }

theorem quiet_applySetConfig (w : World Value Stmt Port) (key : String) (value : Option String)
    {isLocal : Bool} (answer : Answer) (inside : isLocal = true → w.txStatus ≠ .I) :
    Quiet w (applySetConfig cat w key value isLocal answer).1 := by
  have written (stored : Option Value) : Quiet w (settingWritten cat w key stored isLocal) :=
    (quiet_recordSetting w key stored inside).trans (quiet_reportSetting cat _ key)
  cases applied cat w key value isLocal answer with
  | unsettable e settable result => exact result ▸ Quiet.refl w
  | unparsed e settable parsed result => exact result ▸ Quiet.refl w
  | kept stored settable parsed stands result => exact result ▸ written stored
  | undone stored settable parsed falls result =>
    have made : (settingWritten cat w key stored isLocal).state =
        (recordSetting w.state key stored isLocal).1 := by
      obtain ⟨owed, h⟩ := reportSetting_eq cat
        (w.withState (recordSetting w.state key stored isLocal).1) key
      rw [settingWritten, h]
      rfl
    rw [result]
    exact (quiet_undo (written stored) key stored inside made).trans (quiet_reportSetting cat _ key)

theorem quiet_applyAll {isLocal : Bool} (assignments : List (String × Option String))
    (answers : List Answer) (w : World Value Stmt Port)
    (inside : isLocal = true → w.txStatus ≠ .I) :
    Quiet w (applyAll cat isLocal assignments answers w).1 := by
  refine applyAll_relates cat
    (R := fun w w' => (isLocal = true → w.txStatus ≠ .I) → Quiet w w') ?_ ?_ ?_
    assignments answers w inside
  · exact fun w _ => Quiet.refl w
  · intro u v w first later opened
    have quiet := first opened
    exact quiet.trans (later fun made => quiet.txStatus ▸ opened made)
  · exact fun w key value answer opened => quiet_applySetConfig cat w key value answer opened

theorem quiet_resetAll (answers : List Answer) (w : World Value Stmt Port) :
    Quiet w (resetAll cat answers w).1 :=
  quiet_applyAll cat _ answers w (fun h => Bool.noConfusion h)

end Settings

theorem quiet_notice (w : World Value Stmt Port) (n : Notice) : Quiet w (w.notice n) :=
  { Quiet.refl w with }

theorem quiet_notifyListeners (w : World Value Stmt Port) (channel payload : String) :
    Quiet w (w.notifyListeners channel payload) := by
  by_cases idle : w.txStatus = .I
  · rw [World.notifyListeners, if_pos idle]
    exact { Quiet.refl w with notified := fun opened => False.elim (opened idle) }
  · by_cases queued : (channel, payload) ∈ w.state.pendingNotifies
    · rw [World.notifyListeners, if_neg idle, if_pos queued]
      exact Quiet.refl w
    · rw [World.notifyListeners, if_neg idle, if_neg queued]
      exact { Quiet.refl w with
        pending := fun h => False.elim (idle h) }

namespace World

variable (cat : Catalogue Value)

theorem quiet_assignmentStatement (w : World Value Stmt Port)
    (assignments : List (String × Option String)) (isLocal : Bool) (answers : List Answer) :
    Quiet w (assignmentStatement cat w assignments isLocal answers).1 := by
  rcases assignmentStatement_cases cat w assignments isLocal answers with
    ⟨_, result⟩ | ⟨_, _, result⟩ | ⟨outside, _, result⟩
  · exact result ▸ quiet_notice w setLocalOutside
  · rw [result]
    exact Quiet.refl w
  · rw [result]
    exact quiet_applyAll cat assignments answers w fun made idle => outside ⟨made, idle⟩

theorem quiet_runAll (effects : List Effect) (answers : List Answer)
    (w : World Value Stmt Port) : Quiet w (runAll cat effects answers w).1 := by
  apply runAll_relates cat Quiet.refl Quiet.trans quiet_notifyListeners
  intro w key value answer
  exact quiet_applySetConfig cat w key value answer fun made => Bool.noConfusion made

theorem foldl_serverNotify (entries : List (String × String)) (w : World Value Stmt Port) :
    entries.foldl (fun w entry => w.serverNotify entry.1 entry.2) w =
      { w with notified := w.notified ++
        entries.map fun entry => ⟨entry.1, entry.2, w.server.registry.listeners entry.1⟩ } := by
  induction entries generalizing w with
  | nil => simp
  | cons entry entries ih =>
    rw [List.foldl_cons, ih]
    simp [serverNotify]

theorem flushPendingNotifies_eq (w : World Value Stmt Port) :
    w.flushPendingNotifies =
      { w.withState { w.state with pendingNotifies := [] } with
        notified := w.notified ++ w.state.pendingNotifies.map
          fun entry => ⟨entry.1, entry.2, w.server.registry.listeners entry.1⟩ } :=
  foldl_serverNotify _ _

section Ends

variable [DecidableEq Value] (cat : Catalogue Value) (w : World Value Stmt Port)

/-- COMMIT: the committed settings, the queue sent, the subscriptions made real. -/
theorem endTransaction_commit : ∃ owed,
    endTransaction cat w true =
      (((w.withState w.state.commitTransaction).withParameterStatus
        owed).flushPendingNotifies).syncListeners := by
  obtain ⟨owed, h⟩ := reportChanged_eq cat w.state.sessionVars
    (w.withState w.state.commitTransaction)
  refine ⟨owed, ?_⟩
  simp only [endTransaction, if_true]
  rw [h]

/-- ROLLBACK: the first frame's values, the queue among them. -/
theorem endTransaction_rollback : ∃ owed,
    endTransaction cat w false =
      ((w.withState w.state.endTransaction).withParameterStatus owed).syncListeners := by
  obtain ⟨owed, h⟩ := reportChanged_eq cat w.state.sessionVars (w.withState w.state.endTransaction)
  refine ⟨owed, ?_⟩
  simp only [endTransaction, Bool.false_eq_true, if_false]
  rw [h]

theorem transactionStatement_begin (idle : w.txStatus = .I) :
    transactionStatement cat w .begin = (w.withTxStatus .T).withState
      { w.state with savepoints := [], scopes := w.state.scopes ++ [w.state.snapshot] } := by
  simp only [transactionStatement, idle, if_true, true_and, reduceCtorEq, if_false]
  rfl

theorem transactionStatement_redundant (inside : w.txStatus = .T) :
    transactionStatement cat w .begin = w.withTxStatus .T := by
  simp only [transactionStatement, inside, and_self, if_true]

theorem transactionStatement_idle {tag : TransactionTag} (ends : tag ≠ .begin)
    (idle : w.txStatus = .I) :
    transactionStatement cat w tag =
      (w.withTxStatus .I).withState { w.state with savepoints := [] } := by
  cases tag with
  | begin => exact False.elim (ends rfl)
  | commit => simp [transactionStatement, idle]
  | rollback => simp [transactionStatement, idle]

theorem transactionStatement_end {tag : TransactionTag} (ends : tag ≠ .begin)
    (opened : w.txStatus ≠ .I) :
    transactionStatement cat w tag =
      endTransaction cat ((w.withTxStatus .I).withState { w.state with savepoints := [] })
        (tag = .commit) := by
  cases tag with
  | begin => exact False.elim (ends rfl)
  | commit => simp [transactionStatement, opened]
  | rollback => simp [transactionStatement, opened]

@[simp] theorem txStatus_endTransaction (committed : Bool) :
    (endTransaction cat w committed).txStatus = w.txStatus := by
  cases committed with
  | false => obtain ⟨owed, h⟩ := endTransaction_rollback cat w; rw [h]; rfl
  | true =>
    obtain ⟨owed, h⟩ := endTransaction_commit cat w
    rw [h, flushPendingNotifies_eq]
    rfl

theorem state_commit : (endTransaction cat w true).state =
    { w.state.commitTransaction with pendingNotifies := [] } := by
  obtain ⟨owed, h⟩ := endTransaction_commit cat w
  rw [h, flushPendingNotifies_eq]
  rfl

theorem state_rollback : (endTransaction cat w false).state = w.state.endTransaction := by
  obtain ⟨owed, h⟩ := endTransaction_rollback cat w
  rw [h]
  rfl

theorem rollbackTo_eq (index : Nat) : ∃ owed,
    rollbackTo cat w index =
      (((w.withState (SessionState.restoreScope
        { w.state with savepoints := w.state.savepoints.take (index + 1) }
          (index + 1))).withParameterStatus owed).syncListeners).withTxStatus .T := by
  obtain ⟨owed, h⟩ := reportChanged_eq cat w.state.sessionVars
    (w.withState (SessionState.restoreScope
      { w.state with savepoints := w.state.savepoints.take (index + 1) } (index + 1)))
  refine ⟨owed, ?_⟩
  rw [← h]
  rfl

theorem state_rollbackTo (index : Nat) : (rollbackTo cat w index).state =
    SessionState.restoreScope
      { w.state with savepoints := w.state.savepoints.take (index + 1) } (index + 1) := by
  obtain ⟨owed, h⟩ := rollbackTo_eq cat w index
  rw [h]
  rfl

theorem notified_rollbackTo (index : Nat) :
    (rollbackTo cat w index).notified = w.notified := by
  obtain ⟨owed, h⟩ := rollbackTo_eq cat w index
  rw [h]
  rfl

theorem txStatus_rollbackTo (index : Nat) : (rollbackTo cat w index).txStatus = .T := rfl

end Ends

theorem txStatus_fail_eq_I (w : World Value Stmt Port) :
    w.fail.txStatus = .I ↔ w.txStatus = .I := by
  by_cases idle : w.txStatus = .I
  · simp only [fail, if_pos idle]
  · rw [fail, if_neg idle, txStatus_withTxStatus]
    exact ⟨fun h => TxStatus.noConfusion h, fun h => False.elim (idle h)⟩

@[simp] theorem state_syncOutside (w : World Value Stmt Port) : w.syncOutside.state = w.state := by
  by_cases idle : w.txStatus = .I
  · rw [syncOutside, if_pos idle, state_syncListeners]
  · rw [syncOutside, if_neg idle]

@[simp] theorem txStatus_syncOutside (w : World Value Stmt Port) :
    w.syncOutside.txStatus = w.txStatus := by
  by_cases idle : w.txStatus = .I
  · rw [syncOutside, if_pos idle, txStatus_syncListeners]
  · rw [syncOutside, if_neg idle]

end World

/-- The statements that edit frames or savepoint names when they succeed. -/
def Statement.editsFrames : Statement → Bool
  | .transaction _ | .savepoint _ _ => true
  | _ => false

theorem continues_of_not_editsFrames {s : Statement} (frames : s.editsFrames = false) :
    s.isTransactionEnd = false := by
  cases s with
  | transaction tag => cases frames
  | _ => rfl

section Moves

variable [DecidableEq Value] (cat : Catalogue Value)

/-- The ways a statement can change a connection, with the failure it ends in. -/
inductive Move (w : World Value Stmt Port) :
    Statement → Option Failure → World Value Stmt Port → Prop where
  | stopped {s : Statement} {failure : Failure} {w' : World Value Stmt Port} (quiet : Quiet w w') :
      Move w s (some failure) w'.fail
  | quiet {s : Statement} {w' : World Value Stmt Port} (frames : s.editsFrames = false)
      (quiet : Quiet w w') : Move w s none w'
  | subscribed {s : Statement} (frames : s.editsFrames = false) (listening : Finset String) :
      Move w s none (w.withState { w.state with listening := listening }).syncOutside
  | discarded {w' : World Value Stmt Port} (idle : w.txStatus = .I) (quiet : Quiet w w') :
      Move w (.discard .all) none (w'.withState w'.state.reset).syncListeners
  | transaction {tag : TransactionTag} (allowed : tag = .begin → w.txStatus ≠ .E) :
      Move w (.transaction tag) none (World.transactionStatement cat w tag)
  | savepoint {name : String} (opened : w.txStatus ≠ .I) :
      Move w (.savepoint .savepoint name) none (w.savepoint name)
  | release {name : String} {index : Nat} (opened : w.txStatus ≠ .I)
      (found : innermost w.state.savepoints name = some index) :
      Move w (.savepoint .release name) none (w.release index)
  | rollbackTo {name : String} {index : Nat} (opened : w.txStatus ≠ .I)
      (found : innermost w.state.savepoints name = some index) :
      Move w (.savepoint .rollbackTo name) none (World.rollbackTo cat w index)

variable {cat}

/-- Where the effect of a statement was quiet, so is the whole of it. -/
theorem Move.of_quiet {w w' : World Value Stmt Port} {s : Statement} {failed : Option Failure}
    (frames : s.editsFrames = false) (quiet : Quiet w w') :
    Move cat w s failed (match failed with | none => w' | some _ => w'.fail) := by
  cases failed with
  | none => exact .quiet frames quiet
  | some failure => exact .stopped quiet

variable (cat)

theorem savepointStatement_move (w : World Value Stmt Port) (kind : SavepointKind)
    (name : String) :
    Move cat w (.savepoint kind name) (World.savepointStatement cat w kind name).2
      (match (World.savepointStatement cat w kind name).2 with
        | none => (World.savepointStatement cat w kind name).1
        | some _ => (World.savepointStatement cat w kind name).1.fail) := by
  by_cases idle : w.txStatus = .I
  · simp only [World.savepointStatement, if_pos idle]
    exact .stopped (Quiet.refl w)
  · simp only [World.savepointStatement, if_neg idle]
    cases kind with
    | savepoint => exact .savepoint idle
    | release =>
      cases found : innermost w.state.savepoints name with
      | none => exact .stopped (Quiet.refl w)
      | some index => exact .release idle found
    | rollbackTo =>
      cases found : innermost w.state.savepoints name with
      | none => exact .stopped (Quiet.refl w)
      | some index => exact .rollbackTo idle found

theorem discardStatement_move (w : World Value Stmt Port) (kind : DiscardKind)
    (answers : List Answer) :
    Move cat w (.discard kind) (World.discardStatement cat w kind answers).2
      (match (World.discardStatement cat w kind answers).2 with
        | none => (World.discardStatement cat w kind answers).1
        | some _ => (World.discardStatement cat w kind answers).1.fail) := by
  cases discarded cat w kind answers with
  | nothing failed _ result =>
    rw [result]
    exact .of_quiet rfl (Quiet.refl w)
  | stopped all idle told w' failure reset result =>
    have quiet := quiet_resetAll cat answers.tail w
    rw [reset] at quiet
    rw [result]
    exact .stopped quiet
  | all all idle told w' reset result =>
    have quiet := quiet_resetAll cat answers.tail w
    rw [reset] at quiet
    rw [result, all]
    exact .discarded idle quiet

theorem onExecute_move (w : World Value Stmt Port) (r : Request)
    (allowed : r.statement = .transaction .begin → w.txStatus ≠ .E) :
    Move cat w r.statement (World.onExecute cat w r).2
      (match (World.onExecute cat w r).2 with
        | none => (World.onExecute cat w r).1
        | some _ => (World.onExecute cat w r).1.fail) := by
  obtain ⟨statement, answers⟩ := r
  cases statement with
  | transaction tag => exact .transaction (fun h => allowed (h ▸ rfl))
  | savepoint kind name => exact savepointStatement_move cat w kind name
  | assignment assignments isLocal =>
    exact .of_quiet rfl (World.quiet_assignmentStatement cat w assignments isLocal answers)
  | resetAll => exact .of_quiet rfl (quiet_resetAll cat answers w)
  | discard kind => exact discardStatement_move cat w kind answers
  | listen channel => exact .subscribed rfl _
  | unlisten channel => exact .subscribed rfl _
  | notify channel payload => exact .quiet rfl (quiet_notifyListeners w channel payload)
  | select effects => exact .of_quiet rfl (World.quiet_runAll cat effects answers w)
  | query raised =>
    have one (w : World Value Stmt Port) (entry : String × String) :
        Quiet w (w.notifyListeners entry.1 entry.2) := quiet_notifyListeners w entry.1 entry.2
    exact .of_quiet rfl (Quiet.foldl one raised w)

/-- There is no other way. -/
theorem execute_move (w : World Value Stmt Port) (r : Request) :
    Move cat w r.statement (World.execute cat w r).2 (World.execute cat w r).1 := by
  by_cases refused : w.txStatus = .E ∧ r.statement.allowedInFailedTransaction = false
  · rw [World.execute, if_pos refused]
    exact .stopped (Quiet.refl w)
  · have allowed : r.statement = .transaction .begin → w.txStatus ≠ .E := by
      intro h failed
      exact refused ⟨failed, by rw [h]; rfl⟩
    have move := onExecute_move cat w r allowed
    rw [World.execute, if_neg refused]
    cases h : World.onExecute cat w r with
    | mk w' failed =>
      rw [h] at move
      cases failed with
      | none => exact move
      | some failure => exact move

end Moves

end PgMimic

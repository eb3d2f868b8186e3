import Mathlib.Data.Finset.Lattice.Lemmas
import PgMimic.Execution

/-!
# A pooled connection

A pooler sends DISCARD ALL before it gives a connection to another client. All that the last
one leaves behind is which settings it has ever written: the transaction control, the writes,
the notifications and the queries of the next run as on a connection that has just been opened.
Only reading a setting that nothing has a value for can tell the two apart, as SHOW does, which
is none of these statements: on the new connection it raises, here it is blank.
-/

namespace PgMimic

variable {Value Stmt Port : Type}

/-- The same, with more settings that were written once. -/
def SessionState.knowing (s : SessionState Value Stmt Port) (names : Finset String) :
    SessionState Value Stmt Port :=
  { s with knownSettings := s.knownSettings ∪ names }

def World.knowing (w : World Value Stmt Port) (names : Finset String) : World Value Stmt Port :=
  w.withState (w.state.knowing names)

variable {names : Finset String} {cat : Catalogue Value}

/-! ## Nothing depends on them -/

theorem knowing_withState (w : World Value Stmt Port) (s : SessionState Value Stmt Port) :
    (w.knowing names).withState (s.knowing names) = (w.withState s).knowing names := rfl

/-- A setting reads the same, if it has a value. -/
theorem settingValue_knowing (w : World Value Stmt Port) (key : String) :
    settingValue cat (w.knowing names) key = settingValue cat w key ∨
      settingValue cat (w.knowing names) key = some "" ∧ settingValue cat w key = none ∧
        key ∈ names := by
  cases written : w.state.sessionVars.get? key with
  | some value =>
    left
    have same : (w.knowing names).state.sessionVars.get? key = some value := written
    simp only [settingValue, written, same]
  | none =>
    have same : (w.knowing names).state.sessionVars.get? key = none := written
    have default : defaultSetting (w.knowing names).connection (w.knowing names).server key =
        defaultSetting w.connection w.server key := rfl
    simp only [settingValue, written, same, default]
    cases defaultSetting w.connection w.server key with
    | some text => exact .inl rfl
    | none =>
      cases cat.default key with
      | some text => exact .inl rfl
      | none =>
        have known : key ∈ (w.knowing names).state.knownSettings ↔
            key ∈ w.state.knownSettings ∨ key ∈ names := Finset.mem_union
        by_cases before : key ∈ w.state.knownSettings
        · exact .inl (by simp only [known, before, true_or, if_true])
        · by_cases more : key ∈ names
          · exact .inr (by simp only [known, before, more, or_true, if_true, if_false, and_self])
          · exact .inl (by simp only [known, before, more, or_self])

theorem reportSetting_knowing (w : World Value Stmt Port) (key : String) :
    reportSetting cat (w.knowing names) key = (reportSetting cat w key).knowing names := by
  have same : (settingValue cat (w.knowing names) key).getD "" =
      (settingValue cat w key).getD "" := by
    have read : settingValue cat (w.knowing names) key = settingValue cat w key ∨ _ :=
      settingValue_knowing w key
    rcases read with value | ⟨blank, none, _⟩
    · rw [value]
    · rw [blank, none, Option.getD_some, Option.getD_none]
  rw [reportSetting, reportSetting]
  split
  · rfl
  · rw [same]
    rfl

theorem foldl_reportSetting_knowing (keys : List String) (w : World Value Stmt Port) :
    keys.foldl (reportSetting cat) (w.knowing names) =
      (keys.foldl (reportSetting cat) w).knowing names := by
  induction keys generalizing w with
  | nil => rfl
  | cons key keys ih => rw [List.foldl_cons, List.foldl_cons, reportSetting_knowing, ih]

theorem recordSetting_knowing (s : SessionState Value Stmt Port) (key : String)
    (stored : Option Value) (isLocal : Bool) :
    (recordSetting (s.knowing names) key stored isLocal).1 =
      (recordSetting s key stored isLocal).1.knowing names := by
  have known : insert key (s.knownSettings ∪ names) = insert key s.knownSettings ∪ names :=
    (Finset.insert_union key s.knownSettings names).symm
  simp only [recordSetting, SessionState.knowing, known]

/-- Nor does putting a write back. -/
theorem recordSetting_back_knowing (s t : SessionState Value Stmt Port) (key : String)
    (stored : Option Value) (isLocal : Bool) :
    (recordSetting (s.knowing names) key stored isLocal).2 (t.knowing names) =
      ((recordSetting s key stored isLocal).2 t).knowing names := by
  have known : (if key ∈ s.knownSettings ∪ names then t.knownSettings ∪ names
      else (t.knownSettings ∪ names).erase key) =
      (if key ∈ s.knownSettings then t.knownSettings else t.knownSettings.erase key) ∪ names := by
    by_cases before : key ∈ s.knownSettings
    · rw [if_pos before, if_pos (Finset.mem_union_left names before)]
    · rw [if_neg before]
      by_cases more : key ∈ names
      · rw [if_pos (Finset.mem_union_right _ more)]
        ext name
        simp only [Finset.mem_union, Finset.mem_erase]
        by_cases same : name = key
        · simp only [same, more, or_true]
        · simp only [same, ne_eq, not_false_eq_true, true_and]
      · rw [if_neg (by simp only [Finset.mem_union, before, more, or_self, not_false_eq_true])]
        rw [Finset.erase_union_distrib, Finset.erase_eq_of_notMem more]
  simp only [recordSetting, SessionState.knowing]
  congr 1

theorem settingWritten_knowing (w : World Value Stmt Port) (key : String)
    (stored : Option Value) (isLocal : Bool) :
    settingWritten cat (w.knowing names) key stored isLocal =
      (settingWritten cat w key stored isLocal).knowing names := by
  have state : (w.knowing names).state = w.state.knowing names := rfl
  rw [settingWritten, settingWritten, state, recordSetting_knowing, knowing_withState,
    reportSetting_knowing]

theorem settingUndone_knowing (w : World Value Stmt Port) (key : String)
    (stored : Option Value) (isLocal : Bool) :
    settingUndone cat (w.knowing names) key stored isLocal =
      (settingUndone cat w key stored isLocal).knowing names := by
  have state (v : World Value Stmt Port) : (v.knowing names).state = v.state.knowing names := rfl
  rw [settingUndone, settingUndone]
  simp only [settingWritten_knowing, state, recordSetting_back_knowing]
  rw [knowing_withState, reportSetting_knowing]

/-- What a step and its failure are between two such worlds. -/
def knowingBoth (names : Finset String) (done : World Value Stmt Port × Option Failure) :
    World Value Stmt Port × Option Failure :=
  (done.1.knowing names, done.2)

theorem applySetConfig_knowing (w : World Value Stmt Port) (key : String)
    (value : Option String) (isLocal : Bool) (answer : Answer) :
    applySetConfig cat (w.knowing names) key value isLocal answer =
      knowingBoth names (applySetConfig cat w key value isLocal answer) := by
  cases settable : checkSettable cat key with
  | some e => simp only [applySetConfig, settable, knowingBoth]
  | none =>
    cases parsed : parseValue cat key value with
    | error e => simp only [applySetConfig, settable, parsed, knowingBoth]
    | ok stored =>
      rw [applySetConfig_stored settable parsed, applySetConfig_stored settable parsed]
      simp only [settingWritten_knowing, settingUndone_knowing]
      rcases answer with - | e | text | -
      · rfl
      · rfl
      · rfl
      · rfl

theorem applyAll_knowing (isLocal : Bool) (assignments : List (String × Option String))
    (answers : List Answer) (w : World Value Stmt Port) :
    applyAll cat isLocal assignments answers (w.knowing names) =
      knowingBoth names (applyAll cat isLocal assignments answers w) := by
  induction assignments generalizing answers w with
  | nil => rfl
  | cons a rest ih =>
    rw [applyAll, applyAll, applySetConfig_knowing]
    cases applySetConfig cat w a.1 a.2 isLocal (answers.headD none) with
    | mk v failed =>
      cases failed with
      | none => exact ih answers.tail v
      | some failure => rfl

/-! ## No statement depends on them -/

namespace World

theorem notifyListeners_knowing (w : World Value Stmt Port) (channel payload : String) :
    (w.knowing names).notifyListeners channel payload =
      (w.notifyListeners channel payload).knowing names := by
  have status : (w.knowing names).txStatus = w.txStatus := rfl
  have pending : (w.knowing names).state.pendingNotifies = w.state.pendingNotifies := rfl
  rw [notifyListeners, notifyListeners, status, pending]
  split
  · rfl
  · split
    · rfl
    · rfl

theorem foldl_notifyListeners_knowing (raised : List (String × String))
    (w : World Value Stmt Port) :
    raised.foldl (fun w entry => w.notifyListeners entry.1 entry.2) (w.knowing names) =
      (raised.foldl (fun w entry => w.notifyListeners entry.1 entry.2) w).knowing names := by
  induction raised generalizing w with
  | nil => rfl
  | cons entry raised ih =>
    rw [List.foldl_cons, List.foldl_cons, notifyListeners_knowing, ih]

theorem runAll_knowing (effects : List Effect) (answers : List Answer)
    (w : World Value Stmt Port) :
    runAll cat effects answers (w.knowing names) =
      knowingBoth names (runAll cat effects answers w) := by
  induction effects generalizing answers w with
  | nil => rfl
  | cons effect rest ih =>
    cases effect with
    | notify channel message =>
      rw [runAll, runAll, notifyListeners_knowing]
      exact ih answers _
    | setConfig key value =>
      rw [runAll, runAll, applySetConfig_knowing]
      cases applySetConfig cat w key value false (answers.headD none) with
      | mk v failed =>
        cases failed with
        | none => exact ih answers.tail v
        | some failure => rfl

theorem flushPendingNotifies_knowing (w : World Value Stmt Port) :
    (w.knowing names).flushPendingNotifies = w.flushPendingNotifies.knowing names := by
  rw [flushPendingNotifies_eq, flushPendingNotifies_eq]
  rfl

theorem fail_knowing (w : World Value Stmt Port) :
    (w.knowing names).fail = w.fail.knowing names := by
  have status : (w.knowing names).txStatus = w.txStatus := rfl
  rw [fail, fail, status]
  split
  · rfl
  · rfl

theorem restoreScope_knowing (s : SessionState Value Stmt Port) (depth : Nat) :
    (s.knowing names).restoreScope depth = (s.restoreScope depth).knowing names := by
  have scopes : (s.knowing names).scopes = s.scopes := rfl
  rw [SessionState.restoreScope, SessionState.restoreScope, scopes]
  split
  · rfl
  · rfl

theorem syncOutside_knowing (w : World Value Stmt Port) :
    (w.knowing names).syncOutside = w.syncOutside.knowing names := by
  have status : (w.knowing names).txStatus = w.txStatus := rfl
  rw [syncOutside, syncOutside, status]
  split
  · rfl
  · rfl

theorem assignmentStatement_knowing (w : World Value Stmt Port)
    (assignments : List (String × Option String)) (isLocal : Bool) (answers : List Answer) :
    assignmentStatement cat (w.knowing names) assignments isLocal answers =
      knowingBoth names (assignmentStatement cat w assignments isLocal answers) := by
  have status : (w.knowing names).txStatus = w.txStatus := rfl
  by_cases outside : isLocal = true ∧ w.txStatus = .I
  · simp only [assignmentStatement, status, if_pos outside]
    cases assignments.findSome? fun a => checkSettable cat a.1 with
    | some e => rfl
    | none => rfl
  · simp only [assignmentStatement, status, if_neg outside]
    cases assignments.findSome? fun a => checkSettable cat a.1 with
    | some e => rfl
    | none => exact applyAll_knowing isLocal assignments answers w

theorem discardStatement_knowing (w : World Value Stmt Port) (kind : DiscardKind)
    (answers : List Answer) :
    discardStatement cat (w.knowing names) kind answers =
      knowingBoth names (discardStatement cat w kind answers) := by
  have status : (w.knowing names).txStatus = w.txStatus := rfl
  have reset : resetAll cat answers.tail (w.knowing names) =
      knowingBoth names (resetAll cat answers.tail w) := applyAll_knowing false _ answers.tail w
  rw [discardStatement, discardStatement, status, reset]
  split
  · rfl
  · cases answers.headD none with
    | some failure => rfl
    | none =>
      by_cases narrow : kind ≠ .all
      · simp only [if_pos narrow]
        rfl
      · simp only [if_neg narrow]
        cases resetAll cat answers.tail w with
        | mk v failed =>
          cases failed with
          | none => rfl
          | some failure => rfl

section Ends

variable [DecidableEq Value]

theorem reportChanged_knowing (before : Dict String Value) (w : World Value Stmt Port) :
    reportChanged cat before (w.knowing names) = (reportChanged cat before w).knowing names :=
  foldl_reportSetting_knowing _ w

theorem endTransaction_knowing (w : World Value Stmt Port) (committed : Bool) :
    endTransaction cat (w.knowing names) committed =
      (endTransaction cat w committed).knowing names := by
  have before : (w.knowing names).state.sessionVars = w.state.sessionVars := rfl
  cases committed with
  | true =>
    have settled : (w.knowing names).withState (w.knowing names).state.commitTransaction =
        (w.withState w.state.commitTransaction).knowing names := rfl
    simp only [endTransaction, if_true]
    rw [before, settled, reportChanged_knowing, flushPendingNotifies_knowing]
    rfl
  | false =>
    have ended : (w.knowing names).state.endTransaction = w.state.endTransaction.knowing names := by
      rw [show (w.knowing names).state = w.state.knowing names from rfl,
        SessionState.endTransaction, restoreScope_knowing]
      rfl
    simp only [endTransaction, Bool.false_eq_true, if_false]
    rw [before, ended, knowing_withState, reportChanged_knowing]
    rfl

theorem transactionStatement_knowing (w : World Value Stmt Port) (tag : TransactionTag) :
    transactionStatement cat (w.knowing names) tag =
      (transactionStatement cat w tag).knowing names := by
  have status : (w.knowing names).txStatus = w.txStatus := rfl
  by_cases begins : tag = .begin
  · subst begins
    simp only [transactionStatement, status]
    split
    · rfl
    · rfl
  · have cleared (t : TxStatus) : ((w.knowing names).withTxStatus t).withState
        { (w.knowing names).state with savepoints := [] } =
          ((w.withTxStatus t).withState { w.state with savepoints := [] }).knowing names := rfl
    by_cases idle : w.txStatus = .I
    · rw [transactionStatement_idle cat (w.knowing names) begins idle,
        transactionStatement_idle cat w begins idle, cleared]
    · rw [transactionStatement_end cat (w.knowing names) begins idle,
        transactionStatement_end cat w begins idle, cleared, endTransaction_knowing]

/-- The savepoints inside the one gone back to are forgotten. -/
def cut (w : World Value Stmt Port) (index : Nat) : World Value Stmt Port :=
  w.withState { w.state with savepoints := w.state.savepoints.take (index + 1) }

theorem rollbackTo_cut (w : World Value Stmt Port) (index : Nat) :
    rollbackTo cat w index = (reportChanged cat w.state.sessionVars ((w.cut index).withState
      ((w.cut index).state.restoreScope (index + 1)))).syncListeners.withTxStatus .T := rfl

theorem rollbackTo_knowing (w : World Value Stmt Port) (index : Nat) :
    rollbackTo cat (w.knowing names) index = (rollbackTo cat w index).knowing names := by
  have before : (w.knowing names).state.sessionVars = w.state.sessionVars := rfl
  have within : (w.knowing names).cut index = (w.cut index).knowing names := rfl
  have state : ((w.cut index).knowing names).state = (w.cut index).state.knowing names := rfl
  rw [rollbackTo_cut, rollbackTo_cut, before, within, state, restoreScope_knowing,
    knowing_withState, reportChanged_knowing]
  rfl

theorem savepointStatement_knowing (w : World Value Stmt Port) (kind : SavepointKind)
    (name : String) :
    savepointStatement cat (w.knowing names) kind name =
      knowingBoth names (savepointStatement cat w kind name) := by
  have status : (w.knowing names).txStatus = w.txStatus := rfl
  have savepoints : (w.knowing names).state.savepoints = w.state.savepoints := rfl
  by_cases idle : w.txStatus = .I
  · simp only [savepointStatement, status, if_pos idle]
    rfl
  · simp only [savepointStatement, status, if_neg idle, savepoints]
    cases kind with
    | savepoint => rfl
    | release =>
      cases innermost w.state.savepoints name with
      | none => rfl
      | some index => rfl
    | rollbackTo =>
      cases innermost w.state.savepoints name with
      | none => rfl
      | some index => exact congrArg (·, none) (rollbackTo_knowing w index)

theorem onExecute_knowing (w : World Value Stmt Port) (r : Request) :
    onExecute cat (w.knowing names) r = knowingBoth names (onExecute cat w r) := by
  obtain ⟨statement, answers⟩ := r
  cases statement with
  | transaction tag => exact congrArg (·, none) (transactionStatement_knowing w tag)
  | savepoint kind name => exact savepointStatement_knowing w kind name
  | assignment assignments isLocal =>
    exact assignmentStatement_knowing w assignments isLocal answers
  | resetAll => exact applyAll_knowing false _ answers w
  | discard kind => exact discardStatement_knowing w kind answers
  | listen channel =>
    exact congrArg (·, none) (syncOutside_knowing
      (w.withState { w.state with listening := insert channel w.state.listening }))
  | unlisten channel =>
    cases channel with
    | none =>
      exact congrArg (·, none) (syncOutside_knowing
        (w.withState { w.state with listening := ∅ }))
    | some channel =>
      exact congrArg (·, none) (syncOutside_knowing
        (w.withState { w.state with listening := w.state.listening.erase channel }))
  | notify channel payload => exact congrArg (·, none) (notifyListeners_knowing w channel payload)
  | select effects => exact runAll_knowing effects answers w
  | query raised => exact congrArg (·, _) (foldl_notifyListeners_knowing raised w)

theorem execute_knowing (w : World Value Stmt Port) (r : Request) :
    execute cat (w.knowing names) r = knowingBoth names (execute cat w r) := by
  have status : (w.knowing names).txStatus = w.txStatus := rfl
  rw [execute, execute, status, fail_knowing, onExecute_knowing]
  split
  · rfl
  · cases onExecute cat w r with
    | mk v failed =>
      cases failed with
      | none => rfl
      | some failure => exact congrArg (·, _) (fail_knowing v)

end Ends

end World

/-! ## The next client -/

section Results

variable [DecidableEq Value] (cat : Catalogue Value)

/-- A connection's statements in turn, and how each ended. What the server is when it comes to
the next is up to the other connections. -/
def serve : List (PgServer × Request) → World Value Stmt Port →
    World Value Stmt Port × List (Option Failure)
  | [], w => (w, [])
  | (server, r) :: later, w =>
    let done := World.execute cat { w with server := server } r
    let rest := serve later done.1
    (rest.1, done.2 :: rest.2)

theorem serve_knowing (requests : List (PgServer × Request)) (w : World Value Stmt Port) :
    serve cat requests (w.knowing names) =
      ((serve cat requests w).1.knowing names, (serve cat requests w).2) := by
  induction requests generalizing w with
  | nil => rfl
  | cons next later ih =>
    obtain ⟨server, r⟩ := next
    have moved : ({ w.knowing names with server := server } : World Value Stmt Port) =
        ({ w with server := server } : World Value Stmt Port).knowing names := rfl
    rw [serve, serve, moved, World.execute_knowing]
    simp only [knowingBoth]
    rw [ih]

/-- The same client's connection as the constructor would leave it. -/
def World.opened (w : World Value Stmt Port) : World Value Stmt Port :=
  { w with connection :=
    Connection.fresh w.connection.pid w.connection.username w.connection.startupParams }

omit [DecidableEq Value] in
/-- Where there is no transaction and nothing is registered or kept. -/
theorem opened_of_reset {w : World Value Stmt Port} (status : w.txStatus = .I)
    (registered : w.connection.registeredChannels = ∅) :
    (w.withState w.state.reset).withParameterStatus ∅ =
      w.opened.knowing w.state.knownSettings := by
  obtain ⟨⟨pid, username, params, status', owed, registered', state⟩, server, notified,
    notices⟩ := w
  obtain rfl : status' = .I := status
  obtain rfl : registered' = ∅ := registered
  have known : state.knownSettings = ∅ ∪ state.knownSettings := (Finset.empty_union _).symm
  have reset : state.reset =
      (SessionState.initial : SessionState Value Stmt Port).knowing state.knownSettings := by
    rw [SessionState.reset, SessionState.knowing]
    congr 1
  exact congrArg (fun state => (⟨⟨pid, username, params, .I, ∅, ∅, state⟩, server, notified,
    notices⟩ : World Value Stmt Port)) reset

/-- What DISCARD ALL leaves, its reports flushed by the ReadyForQuery that follows. -/
theorem discarded_is_opened {w w' : World Value Stmt Port} {answers : List Answer}
    (ended : World.execute cat w ⟨.discard .all, answers⟩ = (w', none)) :
    w'.withParameterStatus ∅ = w'.opened.knowing w'.state.knownSettings := by
  have passes : ¬(w.txStatus = .E ∧
      (Statement.discard .all).allowedInFailedTransaction = false) := by
    intro refused
    rw [World.execute, if_pos refused] at ended
    cases ended
  have ran : World.onExecute cat w ⟨.discard .all, answers⟩ =
      World.discardStatement cat w .all answers := rfl
  rw [World.execute, if_neg passes, ran] at ended
  have quiet := quiet_resetAll cat answers.tail w
  cases discarded cat w .all answers with
  | nothing failed narrow result =>
    rw [result] at ended
    cases failed with
    | none => exact absurd rfl (narrow_of_nothing narrow result)
    | some failure => cases ended
  | stopped all idle told v failure reset result =>
    rw [result] at ended
    cases ended
  | all all idle told v reset result =>
    rw [result] at ended
    obtain ⟨rfl, -⟩ := Prod.mk.inj ended
    rw [reset] at quiet
    have status : (v.withState v.state.reset).syncListeners.txStatus = .I :=
      quiet.txStatus.trans idle
    exact opened_of_reset status rfl

/-- After a DISCARD ALL that succeeds the connection is as good as new, whatever has been done on
it: whichever of these statements its next client sends, and whatever other connections do in
between, each ends as it would have, with the same notices and notifications and the same state;
a setting reads differently only where nothing has a value for it and the last client has
written it, blank instead of not there. -/
theorem pooled_like_new {w w' : World Value Stmt Port} {answers : List Answer}
    (discarded : World.execute cat w ⟨.discard .all, answers⟩ = (w', none))
    (later : List (PgServer × Request)) :
    (serve cat later (w'.withParameterStatus ∅)).2 = (serve cat later w'.opened).2 ∧
    (serve cat later (w'.withParameterStatus ∅)).1 =
      (serve cat later w'.opened).1.knowing w'.state.knownSettings ∧
    ∀ key, settingValue cat (serve cat later (w'.withParameterStatus ∅)).1 key =
        settingValue cat (serve cat later w'.opened).1 key ∨
      settingValue cat (serve cat later (w'.withParameterStatus ∅)).1 key = some "" ∧
        settingValue cat (serve cat later w'.opened).1 key = none ∧
        key ∈ w'.state.knownSettings := by
  rw [discarded_is_opened cat discarded, serve_knowing]
  exact ⟨rfl, rfl, settingValue_knowing _⟩

end Results

def emptyServer : PgServer := ⟨fun _ => none, ∅, 5432⟩

/-- What a client does before it hands the connection back. -/
def lastClient : World String Unit Unit :=
  (serve plainCatalogue [(emptyServer, ⟨.select [.setConfig "app.x" (some "1")], []⟩),
    (emptyServer, ⟨.listen "jobs", []⟩)] ⟨.fresh 1 "app" ∅, emptyServer, [], []⟩).1

def nextClient : List (PgServer × Request) :=
  [(emptyServer, ⟨.transaction .begin, []⟩), (emptyServer, ⟨.savepoint .release "s", []⟩)]

theorem next_like_new : ∃ w', World.execute plainCatalogue lastClient ⟨.discard .all, []⟩ =
      (w', none) ∧
    (serve plainCatalogue nextClient (w'.withParameterStatus ∅)).2 =
      (serve plainCatalogue nextClient w'.opened).2 := by
  obtain ⟨w', ended⟩ : ∃ w', World.execute plainCatalogue lastClient ⟨.discard .all, []⟩ =
      (w', none) := ⟨_, rfl⟩
  exact ⟨w', ended, (pooled_like_new plainCatalogue ended nextClient).1⟩

end PgMimic

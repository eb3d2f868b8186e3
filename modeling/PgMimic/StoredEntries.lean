import PgMimic.Statements

/-!
# The stored statements and portals

What a statement of the middleware does at Execute does not depend on the statements and
portals that are stored, and leaves them as they are: except for `DISCARD ALL`, which
drops them all.
-/

namespace PgMimic

variable {Value Stmt Port : Type}

namespace World

/-- The world with other statements and portals stored. -/
def graft (w : World Value Stmt Port) (statements : Dict String Stmt) (portals : Dict String Port) :
    World Value Stmt Port :=
  w.withState { w.state with statements := statements, portals := portals }

/-- The same with what was raised. -/
def graftBoth (ran : World Value Stmt Port × Option Failure) (statements : Dict String Stmt)
    (portals : Dict String Port) : World Value Stmt Port × Option Failure :=
  (ran.1.graft statements portals, ran.2)

variable (cat : Catalogue Value) (statements : Dict String Stmt) (portals : Dict String Port)
  (w : World Value Stmt Port)

theorem graft_reportSetting (key : String) :
    reportSetting cat (w.graft statements portals) key =
      (reportSetting cat w key).graft statements portals := by
  rw [reportSetting, reportSetting]
  cases reportedSettings.lookup key with
  | none => rfl
  | some reported => rfl

theorem graft_foldl {α : Type} (f : World Value Stmt Port → α → World Value Stmt Port)
    (one : ∀ w a, f (w.graft statements portals) a = (f w a).graft statements portals)
    (entries : List α) :
    entries.foldl f (w.graft statements portals) =
      (entries.foldl f w).graft statements portals := by
  induction entries generalizing w with
  | nil => rfl
  | cons a later ih => rw [List.foldl_cons, List.foldl_cons, one, ih]

theorem graft_applySetConfig (key : String) (value : Option String) (isLocal : Bool)
    (answer : Answer) :
    applySetConfig cat (w.graft statements portals) key value isLocal answer =
      graftBoth (applySetConfig cat w key value isLocal answer) statements portals := by
  rw [applySetConfig, applySetConfig]
  cases checkSettable cat key with
  | some e => rfl
  | none =>
    cases parseValue cat key value with
    | error e => rfl
    | ok stored =>
      let recorded := recordSetting w.state key stored isLocal
      let written := reportSetting cat (w.withState recorded.1) key
      have first : reportSetting cat ((w.graft statements portals).withState
          (recordSetting (w.graft statements portals).state key stored isLocal).1) key =
          written.graft statements portals :=
        graft_reportSetting cat statements portals (w.withState recorded.1) key
      have undone : reportSetting cat ((written.graft statements portals).withState
          (recorded.2 (written.graft statements portals).state)) key =
          (reportSetting cat (written.withState (recorded.2 written.state)) key).graft
            statements portals :=
        graft_reportSetting cat statements portals
          (written.withState (recorded.2 written.state)) key
      simp only [first]
      rcases answer with - | e | text | -
      · rfl
      · exact congrArg (·, _) undone
      · exact congrArg (·, _) undone
      · rfl

theorem graft_applyAll (isLocal : Bool) (assignments : List (String × Option String))
    (answers : List Answer) :
    applyAll cat isLocal assignments answers (w.graft statements portals) =
      graftBoth (applyAll cat isLocal assignments answers w) statements portals := by
  induction assignments generalizing answers w with
  | nil => rfl
  | cons assignment rest ih =>
    rw [applyAll, applyAll, graft_applySetConfig, graftBoth]
    rcases applySetConfig cat w assignment.1 assignment.2 isLocal (answers.headD none) with
      ⟨w', failure | failure⟩
    · exact ih w' answers.tail
    · rfl

theorem graft_resetAll (answers : List Answer) :
    resetAll cat answers (w.graft statements portals) =
      graftBoth (resetAll cat answers w) statements portals :=
  graft_applyAll cat statements portals w false _ answers

theorem graft_notifyListeners (channel payload : String) :
    (w.graft statements portals).notifyListeners channel payload =
      (w.notifyListeners channel payload).graft statements portals := by
  have outside : (w.graft statements portals).txStatus = w.txStatus := rfl
  have pending : (w.graft statements portals).state.pendingNotifies = w.state.pendingNotifies := rfl
  rw [notifyListeners, notifyListeners, outside, pending]
  by_cases idle : w.txStatus = .I
  · rw [if_pos idle, if_pos idle]
    rfl
  · rw [if_neg idle, if_neg idle]
    by_cases held : (channel, payload) ∈ w.state.pendingNotifies
    · rw [if_pos held, if_pos held]
    · rw [if_neg held, if_neg held]
      rfl

theorem graft_syncOutside :
    (w.graft statements portals).syncOutside = w.syncOutside.graft statements portals := by
  have outside : (w.graft statements portals).txStatus = w.txStatus := rfl
  rw [syncOutside, syncOutside, outside]
  split
  · rfl
  · rfl

theorem graft_runAll (effects : List Effect) (answers : List Answer) :
    runAll cat effects answers (w.graft statements portals) =
      graftBoth (runAll cat effects answers w) statements portals := by
  induction effects generalizing answers w with
  | nil => rfl
  | cons effect rest ih =>
    cases effect with
    | notify channel message =>
      rw [runAll, runAll, graft_notifyListeners, ih]
    | setConfig key value =>
      rw [runAll, runAll, graft_applySetConfig, graftBoth]
      rcases applySetConfig cat w key value false (answers.headD none) with ⟨w', failure | failure⟩
      · exact ih w' answers.tail
      · rfl

theorem graft_assignmentStatement (assignments : List (String × Option String)) (isLocal : Bool)
    (answers : List Answer) :
    assignmentStatement cat (w.graft statements portals) assignments isLocal answers =
      graftBoth (assignmentStatement cat w assignments isLocal answers) statements portals := by
  have outside : (w.graft statements portals).txStatus = w.txStatus := rfl
  simp only [assignmentStatement, outside]
  by_cases idle : isLocal = true ∧ w.txStatus = .I
  · simp only [if_pos idle]
    cases assignments.findSome? fun a => checkSettable cat a.1 with
    | some e => rfl
    | none => rfl
  · simp only [if_neg idle]
    cases assignments.findSome? fun a => checkSettable cat a.1 with
    | some e => rfl
    | none => exact graft_applyAll cat statements portals w isLocal assignments answers

theorem graft_flushPendingNotifies :
    (w.graft statements portals).flushPendingNotifies =
      w.flushPendingNotifies.graft statements portals :=
  graft_foldl statements portals (w.withState w.state.takePendingNotifies.2) _ (fun _ _ => rfl) _

theorem graft_restoreScope (depth : Nat) :
    (w.graft statements portals).withState ((w.graft statements portals).state.restoreScope depth) =
      (w.withState (w.state.restoreScope depth)).graft statements portals := by
  have scopes : (w.graft statements portals).state.scopes = w.state.scopes := rfl
  rw [SessionState.restoreScope, SessionState.restoreScope, scopes]
  cases w.state.scopes[depth]? with
  | none => rfl
  | some scope => rfl

section Transactions

variable [DecidableEq Value]

theorem graft_reportChanged (before : Dict String Value) :
    reportChanged cat before (w.graft statements portals) =
      (reportChanged cat before w).graft statements portals :=
  graft_foldl statements portals w (reportSetting cat)
    (fun w key => graft_reportSetting cat statements portals w key) _

theorem graft_endTransaction (committed : Bool) :
    endTransaction cat (w.graft statements portals) committed =
      (endTransaction cat w committed).graft statements portals := by
  cases committed with
  | true =>
    have reported := graft_reportChanged cat statements portals
      (w.withState w.state.commitTransaction) w.state.sessionVars
    have flushed := graft_flushPendingNotifies statements portals
      (reportChanged cat w.state.sessionVars (w.withState w.state.commitTransaction))
    rw [← reported] at flushed
    exact congrArg syncListeners flushed
  | false =>
    have reported := graft_reportChanged cat statements portals
      (w.withState w.state.endTransaction) w.state.sessionVars
    have restored : (w.graft statements portals).withState
        (w.graft statements portals).state.endTransaction =
        (w.withState w.state.endTransaction).graft statements portals :=
      congrArg (fun v => v.withState { v.state with scopes := [] })
        (graft_restoreScope statements portals w 0)
    rw [← restored] at reported
    exact congrArg syncListeners reported

theorem graft_transactionStatement (tag : TransactionTag) :
    transactionStatement cat (w.graft statements portals) tag =
      (transactionStatement cat w tag).graft statements portals := by
  have outside : (w.graft statements portals).txStatus = w.txStatus := rfl
  simp only [transactionStatement, outside]
  by_cases redundant : tag = .begin ∧ w.txStatus = .T
  · rw [if_pos redundant, if_pos redundant]
    rfl
  · rw [if_neg redundant, if_neg redundant]
    let moved := w.withTxStatus (if tag = .begin then .T else .I)
    let cleared := moved.withState { moved.state with savepoints := [] }
    cases tag with
    | begin => rfl
    | commit =>
      by_cases idle : w.txStatus = .I
      · simp only [if_pos idle]
        rfl
      · simp only [if_neg idle]
        exact graft_endTransaction cat statements portals cleared _
    | rollback =>
      by_cases idle : w.txStatus = .I
      · simp only [if_pos idle]
        rfl
      · simp only [if_neg idle]
        exact graft_endTransaction cat statements portals cleared _

theorem graft_rollbackTo (index : Nat) :
    rollbackTo cat (w.graft statements portals) index =
      (rollbackTo cat w index).graft statements portals := by
  let cut := w.withState { w.state with savepoints := w.state.savepoints.take (index + 1) }
  have reported := graft_reportChanged cat statements portals
    (cut.withState (cut.state.restoreScope (index + 1))) w.state.sessionVars
  rw [← graft_restoreScope] at reported
  exact congrArg (fun v => v.syncListeners.withTxStatus .T) reported

theorem graft_savepointStatement (kind : SavepointKind) (name : String) :
    savepointStatement cat (w.graft statements portals) kind name =
      graftBoth (savepointStatement cat w kind name) statements portals := by
  have outside : (w.graft statements portals).txStatus = w.txStatus := rfl
  have stack : (w.graft statements portals).state.savepoints = w.state.savepoints := rfl
  simp only [savepointStatement, outside, stack]
  by_cases idle : w.txStatus = .I
  · simp only [if_pos idle]
    rfl
  · simp only [if_neg idle]
    cases kind with
    | savepoint => rfl
    | release =>
      cases innermost w.state.savepoints name with
      | none => rfl
      | some index => rfl
    | rollbackTo =>
      cases innermost w.state.savepoints name with
      | none => rfl
      | some index => exact congrArg (·, none) (graft_rollbackTo cat statements portals w index)

omit [DecidableEq Value] in
theorem graft_listenStatement (channel : String) :
    (w.graft statements portals).listenStatement channel =
      (w.listenStatement channel).graft statements portals :=
  graft_syncOutside statements portals
    (w.withState { w.state with listening := insert channel w.state.listening })

omit [DecidableEq Value] in
theorem graft_unlistenStatement (channel : Option String) :
    (w.graft statements portals).unlistenStatement channel =
      (w.unlistenStatement channel).graft statements portals := by
  cases channel with
  | none =>
    exact graft_syncOutside statements portals (w.withState { w.state with listening := ∅ })
  | some channel =>
    exact graft_syncOutside statements portals
      (w.withState { w.state with listening := w.state.listening.erase channel })

omit [DecidableEq Value] in
/-- A `DISCARD ALL` that goes through leaves neither statements nor portals. -/
theorem graft_discardStatement (w : World Value Stmt Port) (kind : DiscardKind)
    (answers : List Answer) :
    (∀ statements portals, discardStatement cat (w.graft statements portals) kind answers =
        graftBoth (discardStatement cat w kind answers) statements portals) ∨
      ∀ statements portals, discardStatement cat (w.graft statements portals) kind answers =
        discardStatement cat w kind answers := by
  have outside : ∀ statements portals, (w.graft statements portals).txStatus = w.txStatus :=
    fun _ _ => rfl
  simp only [discardStatement, outside]
  by_cases inside : kind = .all ∧ w.txStatus ≠ .I
  · simp only [if_pos inside]
    exact Or.inl fun _ _ => rfl
  · simp only [if_neg inside]
    cases answers.headD none with
    | some failure => exact Or.inl fun _ _ => rfl
    | none =>
      by_cases narrow : kind ≠ .all
      · simp only [if_pos narrow]
        exact Or.inl fun _ _ => rfl
      · simp only [if_neg narrow, graft_resetAll]
        rcases resetAll cat answers.tail w with ⟨w', failure | failure⟩
        · exact Or.inr fun _ _ => rfl
        · exact Or.inl fun _ _ => rfl

/-- A statement keeps whatever is stored, or drops it all. -/
theorem graft_onExecute (w : World Value Stmt Port) (r : Request) :
    (∀ statements portals, onExecute cat (w.graft statements portals) r =
        graftBoth (onExecute cat w r) statements portals) ∨
      ∀ statements portals, onExecute cat (w.graft statements portals) r = onExecute cat w r := by
  obtain ⟨statement, answers⟩ := r
  cases statement with
  | discard kind => exact graft_discardStatement cat w kind answers
  | transaction tag =>
    exact Or.inl fun statements portals =>
      congrArg (·, none) (graft_transactionStatement cat statements portals w tag)
  | savepoint kind name =>
    exact Or.inl fun statements portals =>
      graft_savepointStatement cat statements portals w kind name
  | assignment assignments isLocal =>
    exact Or.inl fun statements portals =>
      graft_assignmentStatement cat statements portals w assignments isLocal answers
  | resetAll =>
    exact Or.inl fun statements portals => graft_resetAll cat statements portals w answers
  | listen channel =>
    exact Or.inl fun statements portals =>
      congrArg (·, none) (graft_listenStatement statements portals w channel)
  | unlisten channel =>
    exact Or.inl fun statements portals =>
      congrArg (·, none) (graft_unlistenStatement statements portals w channel)
  | notify channel payload =>
    exact Or.inl fun statements portals =>
      congrArg (·, none) (graft_notifyListeners statements portals w channel payload)
  | select effects =>
    exact Or.inl fun statements portals => graft_runAll cat statements portals w effects answers
  | query raised =>
    exact Or.inl fun statements portals =>
      congrArg (·, _) (graft_foldl statements portals w _
        (fun w entry => graft_notifyListeners statements portals w entry.1 entry.2) raised)

end Transactions

/-- What keeps the entries of every world keeps those of this one. -/
theorem stored_of_graft {f : World Value Stmt Port → World Value Stmt Port × Option Failure}
    (keeps : ∀ statements portals,
      f (w.graft statements portals) = graftBoth (f w) statements portals) :
    (f w).1.state.statements = w.state.statements ∧ (f w).1.state.portals = w.state.portals := by
  have own : f w = graftBoth (f w) w.state.statements w.state.portals :=
    keeps w.state.statements w.state.portals
  constructor
  · rw [own]
    rfl
  · rw [own]
    rfl

end World

end PgMimic

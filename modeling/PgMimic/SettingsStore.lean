import PgMimic.Histories
import PgMimic.Lib.Overlay

/-!
# Settings follow their transaction

Two dictionaries and a stack of copies stand for one rule: a write is seen at once,
a session-scoped write outlives COMMIT, and nothing outlives ROLLBACK. The rule is
stated over the writes made since BEGIN, laid over what BEGIN found.
-/

namespace PgMimic

open Overlay (overwrite overwrite_nil overwrite_append overwrite_singleton)

variable {Value Stmt Port : Type}

/-- A setting write that stood; nothing stored is a name dropped. -/
structure Write (Value : Type) where
  key : String
  stored : Option Value
  isLocal : Bool

/-- What of the writes the connection itself sees: all of them. -/
def visibleLog (ws : List (Write Value)) : List (String × Option Value) :=
  ws.map fun w => (w.key, w.stored)

/-- What of them a COMMIT keeps. -/
def sessionLog (ws : List (Write Value)) : List (String × Option Value) :=
  (ws.filter fun w => !w.isLocal).map fun w => (w.key, w.stored)

theorem visibleLog_append (ws vs : List (Write Value)) :
    visibleLog (ws ++ vs) = visibleLog ws ++ visibleLog vs := List.map_append

theorem sessionLog_append (ws vs : List (Write Value)) :
    sessionLog (ws ++ vs) = sessionLog ws ++ sessionLog vs := by
  rw [sessionLog, List.filter_append, List.map_append]
  rfl

section Writes

variable (cat : Catalogue Value)

/-- One write, unless a check or the session refuses it. -/
def standing (key : String) (value : Option String) (isLocal : Bool) (answer : Answer) :
    List (Write Value) :=
  match checkSettable cat key, parseValue cat key value, answer with
  | none, .ok stored, none => [⟨key, stored, isLocal⟩]
  | none, .ok stored, some .cancelled => [⟨key, stored, isLocal⟩]
  | _, _, _ => []

/-- Of several, those before the first that failed. -/
def standingAll (isLocal : Bool) : List (String × Option String) → List Answer → List (Write Value)
  | [], _ => []
  | (key, value) :: rest, answers =>
    standing cat key value isLocal (answers.headD none) ++
      match settingOutcome cat key value (answers.headD none) with
      | none => standingAll isLocal rest answers.tail
      | some _ => []

def effectWrites : List Effect → List Answer → List (Write Value)
  | [], _ => []
  | .notify _ _ :: rest, answers => effectWrites rest answers
  | .setConfig key value :: rest, answers =>
    standing cat key value false (answers.headD none) ++
      match settingOutcome cat key value (answers.headD none) with
      | none => effectWrites rest answers.tail
      | some _ => []

/-- The writes of RESET ALL: every name held is dropped. -/
def resetWrites (w : World Value Stmt Port) (answers : List Answer) : List (Write Value) :=
  standingAll cat false (w.state.sessionVars.keys.map fun name => (name, none)) answers

/-- The setting writes one statement makes. -/
def writesBy (w : World Value Stmt Port) (r : Request) : List (Write Value) :=
  if w.txStatus = .E ∧ r.statement.allowedInFailedTransaction = false then []
  else match r.statement with
    | .assignment assignments isLocal =>
      if isLocal = true ∧ w.txStatus = .I then []
      else if (assignments.findSome? fun a => checkSettable cat a.1).isSome then []
      else standingAll cat isLocal assignments r.answers
    | .resetAll => resetWrites cat w r.answers
    | .discard .all =>
      if w.txStatus ≠ .I then []
      else match r.answers.headD none with
        | some _ => []
        | none => resetWrites cat w r.answers.tail
    | .select effects => effectWrites cat effects r.answers
    | _ => []

section Standing

variable {cat} {key : String} {value : Option String} {isLocal : Bool} {answer : Answer}

theorem standing_of_kept {stored : Option Value} (settable : checkSettable cat key = none)
    (parsed : parseValue cat key value = .ok stored)
    (stands : answer = none ∨ answer = some .cancelled) :
    standing cat key value isLocal answer = [⟨key, stored, isLocal⟩] := by
  rcases stands with rfl | rfl
  · simp only [standing, settable, parsed]
  · simp only [standing, settable, parsed]

/-- Nothing stands of a write that was refused. -/
theorem standing_of_refused (uncancelled : answer ≠ some .cancelled)
    (refused : settingOutcome cat key value answer ≠ none) :
    standing cat key value isLocal answer = ([] : List (Write Value)) := by
  cases settable : checkSettable cat key with
  | some e => simp only [standing, settable]
  | none =>
    cases parsed : parseValue cat key value with
    | error e => simp only [standing, settable, parsed]
    | ok stored =>
      simp only [settingOutcome, settable, parsed] at refused
      rcases answer with - | e | text | -
      · exact absurd rfl refused
      · simp only [standing, settable, parsed]
      · simp only [standing, settable, parsed]
      · exact absurd rfl uncancelled

end Standing

section Grades

variable {R : World Value Stmt Port → World Value Stmt Port → List (Write Value) → Prop}

/-- What a write relates to the writes that stand, several relate to theirs. -/
theorem applyAll_grades (refl : ∀ w, R w w [])
    (trans : ∀ {u v w ws vs}, R u v ws → R v w vs → R u w (ws ++ vs)) {isLocal : Bool}
    (one : ∀ w key value answer, R w (applySetConfig cat w key value isLocal answer).1
      (standing cat key value isLocal answer))
    (assignments : List (String × Option String)) (answers : List Answer)
    (w : World Value Stmt Port) :
    R w (applyAll cat isLocal assignments answers w).1
      (standingAll cat isLocal assignments answers) := by
  induction assignments generalizing answers w with
  | nil => exact refl w
  | cons a rest ih =>
    have first := one w a.1 a.2 (answers.headD none)
    have outcome := applySetConfig_outcome cat w a.1 a.2 isLocal (answers.headD none)
    rw [applyAll, standingAll, ← outcome]
    cases h : applySetConfig cat w a.1 a.2 isLocal (answers.headD none) with
    | mk w' failed =>
      rw [h] at first
      cases failed with
      | some failure => simpa only [List.append_nil] using first
      | none => exact trans first (ih answers.tail w')

theorem runAll_grades (refl : ∀ w, R w w [])
    (trans : ∀ {u v w ws vs}, R u v ws → R v w vs → R u w (ws ++ vs))
    (notify : ∀ w channel message, R w (w.notifyListeners channel message) [])
    (one : ∀ w key value answer, R w (applySetConfig cat w key value false answer).1
      (standing cat key value false answer))
    (effects : List Effect) (answers : List Answer) (w : World Value Stmt Port) :
    R w (World.runAll cat effects answers w).1 (effectWrites cat effects answers) := by
  induction effects generalizing answers w with
  | nil => exact refl w
  | cons effect rest ih =>
    cases effect with
    | notify channel message => exact trans (notify w channel message) (ih answers _)
    | setConfig key value =>
      have first := one w key value (answers.headD none)
      have outcome := applySetConfig_outcome cat w key value false (answers.headD none)
      rw [World.runAll, effectWrites, ← outcome]
      cases h : applySetConfig cat w key value false (answers.headD none) with
      | mk w' failed =>
        rw [h] at first
        cases failed with
        | some failure => simpa only [List.append_nil] using first
        | none => exact trans first (ih answers.tail w')

end Grades

end Writes

/-- The writes since BEGIN, none outside a transaction. -/
def journal (cat : Catalogue Value) : Keeping Value Stmt Port (List (Write Value)) where
  opened := []
  add ws w r failed :=
    match r.statement, failed with
    | .transaction .commit, none => []
    | .transaction .rollback, none => []
    | _, _ => if w.txStatus = .I then [] else ws ++ writesBy cat w r

/-! ## What one statement writes -/

/-- Between the two worlds exactly these writes were made. -/
structure Writes (w w' : World Value Stmt Port) (ws : List (Write Value)) : Prop where
  txStatus : w'.txStatus = w.txStatus
  visible : w'.state.sessionVars.get? = overwrite w.state.sessionVars.get? (visibleLog ws)
  session : w'.state.committedVars.get? = overwrite w.state.committedVars.get? (sessionLog ws)

namespace Writes

variable {u v w w' : World Value Stmt Port}

/-- What touches neither dictionary. -/
theorem nothing (txStatus : w'.txStatus = w.txStatus)
    (sessionVars : w'.state.sessionVars.get? = w.state.sessionVars.get?)
    (committedVars : w'.state.committedVars.get? = w.state.committedVars.get?) :
    Writes w w' [] where
  txStatus := txStatus
  visible := by rw [sessionVars]; exact (overwrite_nil _).symm
  session := by rw [committedVars]; exact (overwrite_nil _).symm

theorem refl (w : World Value Stmt Port) : Writes w w [] := nothing rfl rfl rfl

theorem trans {ws vs : List (Write Value)} (h : Writes u v ws) (h' : Writes v w vs) :
    Writes u w (ws ++ vs) where
  txStatus := h'.txStatus.trans h.txStatus
  visible := by rw [h'.visible, h.visible, visibleLog_append, overwrite_append]
  session := by rw [h'.session, h.session, sessionLog_append, overwrite_append]

variable (cat : Catalogue Value)

theorem reportSetting (w : World Value Stmt Port) (key : String) :
    Writes w (reportSetting cat w key) [] := by
  obtain ⟨owed, h⟩ := reportSetting_eq cat w key
  rw [h]
  exact nothing rfl rfl rfl

theorem recordSetting (w : World Value Stmt Port) (key : String) (stored : Option Value)
    (isLocal : Bool) :
    Writes w (w.withState (recordSetting w.state key stored isLocal).1) [⟨key, stored, isLocal⟩]
    where
  txStatus := rfl
  visible := by
    funext a
    exact (get?_assign w.state.sessionVars key a stored).trans
      (overwrite_singleton _ key a stored).symm
  session := by
    funext a
    cases isLocal with
    | true => rfl
    | false =>
      exact (get?_assign w.state.committedVars key a stored).trans
        (overwrite_singleton _ key a stored).symm

theorem get?_assign_back (vars : Dict String Value) (key : String) (stored : Option Value) :
    (assign (assign vars key stored) key (vars.get? key)).get? = vars.get? := by
  funext a
  by_cases same : a = key
  · rw [get?_assign, if_pos same, same]
  · rw [get?_assign, if_neg same, get?_assign, if_neg same]

/-- A refused write, reported and put back. -/
theorem undone (w : World Value Stmt Port) (key : String) (stored : Option Value)
    (isLocal : Bool) : Writes w (settingUndone cat w key stored isLocal) [] := by
  obtain ⟨owed, h⟩ := reportSetting_eq cat
    (w.withState (PgMimic.recordSetting w.state key stored isLocal).1) key
  simp only [settingUndone, settingWritten]
  rw [h]
  have back : Writes w (((w.withState
      (PgMimic.recordSetting w.state key stored isLocal).1).withParameterStatus owed).withState
        ((PgMimic.recordSetting w.state key stored isLocal).2
          (PgMimic.recordSetting w.state key stored isLocal).1)) [] := by
    refine nothing rfl ?_ ?_
    · exact get?_assign_back w.state.sessionVars key stored
    · cases isLocal with
      | true => rfl
      | false => exact get?_assign_back w.state.committedVars key stored
  exact back.trans (reportSetting cat _ key)

theorem applySetConfig (w : World Value Stmt Port) (key : String) (value : Option String)
    (isLocal : Bool) (answer : Answer) :
    Writes w (applySetConfig cat w key value isLocal answer).1
      (standing cat key value isLocal answer) := by
  cases applied cat w key value isLocal answer with
  | unsettable e settable result =>
    simpa only [result, standing, settable] using refl w
  | unparsed e settable parsed result =>
    simpa only [result, standing, settable, parsed] using refl w
  | kept stored settable parsed stands result =>
    rw [result, standing_of_kept settable parsed stands]
    exact (recordSetting w key stored isLocal).trans (reportSetting cat _ key)
  | undone stored settable parsed falls result =>
    have refused : settingOutcome cat key value answer ≠ none := by
      simpa only [settingOutcome, settable, parsed] using falls.1
    rw [result, standing_of_refused falls.2 refused]
    exact undone cat w key stored isLocal

theorem applyAll (isLocal : Bool) (assignments : List (String × Option String))
    (answers : List Answer) (w : World Value Stmt Port) :
    Writes w (applyAll cat isLocal assignments answers w).1
      (standingAll cat isLocal assignments answers) :=
  applyAll_grades cat refl trans
    (fun w key value answer => applySetConfig cat w key value isLocal answer)
    assignments answers w

theorem notifyListeners (w : World Value Stmt Port) (channel payload : String) :
    Writes w (w.notifyListeners channel payload) [] := by
  rw [World.notifyListeners]
  split
  · exact nothing rfl rfl rfl
  · split
    · exact refl w
    · exact nothing rfl rfl rfl

theorem foldl (raised : List (String × String)) (w : World Value Stmt Port) :
    Writes w (raised.foldl (fun w entry => w.notifyListeners entry.1 entry.2) w) [] :=
  Outcomes.foldl_relates (R := fun _ w w' => Writes w w' []) refl
    (fun entry w => notifyListeners w entry.1 entry.2) trans raised w

theorem runAll (effects : List Effect) (answers : List Answer) (w : World Value Stmt Port) :
    Writes w (World.runAll cat effects answers w).1 (effectWrites cat effects answers) :=
  runAll_grades cat refl trans notifyListeners
    (fun w key value answer => applySetConfig cat w key value false answer) effects answers w

end Writes

section Reset

variable (cat : Catalogue Value)

theorem standing_of_outcome {key : String} {isLocal : Bool} {answer : Answer}
    (accepted : settingOutcome cat key none answer = none) :
    standing cat key none isLocal answer = [⟨key, none, isLocal⟩] := by
  cases settable : checkSettable cat key with
  | some e => simp only [settingOutcome, settable, reduceCtorEq] at accepted
  | none =>
    obtain rfl :
        answer = none := by simpa only [settingOutcome, settable, parseValue] using accepted
    simp only [standing, settable, parseValue]

/-- Where none of the drops fails, every name is dropped. -/
theorem standingAll_of_reset (names : List String) (answers : List Answer)
    (w : World Value Stmt Port)
    (done : (applyAll cat false (names.map fun name => (name, none)) answers w).2 = none) :
    (standingAll cat false (names.map fun name => (name, none)) answers : List (Write Value)) =
      names.map fun name => ⟨name, none, false⟩ := by
  induction names generalizing answers w with
  | nil => rfl
  | cons name names ih =>
    have outcome := applySetConfig_outcome cat w name none false (answers.headD none)
    rw [List.map_cons, applyAll] at done
    rw [List.map_cons, standingAll, List.map_cons]
    cases h : applySetConfig cat w name none false (answers.headD none) with
    | mk w' failed =>
      rw [h] at outcome done
      cases failed with
      | some failure => cases done
      | none =>
        rw [standing_of_outcome cat outcome.symm, ← outcome]
        exact congrArg _ (ih answers.tail w' done)

/-- A key that is not held is not among the keys. -/
theorem overwrite_drops (d : Dict String Value) :
    overwrite d.get? (visibleLog (d.keys.map fun name => ⟨name, none, false⟩)) =
      fun _ => (none : Option Value) := by
  funext name
  have log : visibleLog (d.keys.map fun name => (⟨name, none, false⟩ : Write Value)) =
      d.keys.map fun name => (name, none) := by
    simp only [visibleLog, List.map_map, Function.comp_def]
  rw [log, Overlay.overwrite_all]
  split_ifs with held
  · rfl
  · exact Dict.find_eq_none_iff.mpr held

/-- RESET ALL, where the session refuses nothing, leaves no name held. -/
theorem resetAll_empties (answers : List Answer) (w : World Value Stmt Port)
    (done : (resetAll cat answers w).2 = none) :
    (resetAll cat answers w).1.state.sessionVars.get? = fun _ => none := by
  rw [resetAll] at done ⊢
  rw [(Writes.applyAll cat false _ answers w).visible, standingAll_of_reset cat _ answers w done]
  exact overwrite_drops w.state.sessionVars

end Reset

namespace Writes

variable (cat : Catalogue Value)

theorem discardStatement (w : World Value Stmt Port) (kind : DiscardKind) (answers : List Answer)
    (committed : w.txStatus = .I → w.state.sessionVars = w.state.committedVars)
    (passes : ¬(w.txStatus = .E ∧ (Statement.discard kind).allowedInFailedTransaction = false)) :
    Writes w (World.discardStatement cat w kind answers).1
      (writesBy cat w ⟨.discard kind, answers⟩) := by
  have reset := applyAll cat false
    (w.state.sessionVars.keys.map fun name => (name, none)) answers.tail w
  rw [writesBy, if_neg passes]
  cases discarded cat w kind answers with
  | nothing failed narrow result =>
    rw [result]
    cases kind with
    | plans => exact refl w
    | sequences => exact refl w
    | temp => exact refl w
    | all =>
      rcases narrow with other | opened | told
      · exact absurd rfl other
      · simpa only [if_pos opened] using refl w
      · obtain ⟨failure, told⟩ := Option.isSome_iff_exists.mp told
        simpa only [told, ite_self] using refl w
  | stopped all idle told w' failure stopped result =>
    rw [resetAll] at stopped
    rw [stopped] at reset
    rw [result, all]
    simpa only [idle, told, resetWrites, ne_eq, not_true_eq_false, if_false] using reset
  | all all idle told w' done result =>
    have empty := resetAll_empties cat answers.tail w (by rw [done])
    rw [done] at empty
    rw [resetAll] at done
    rw [done] at reset
    rw [result, all]
    simp only [idle, told, ne_eq, not_true_eq_false, if_false]
    refine ⟨reset.txStatus, ?_, ?_⟩
    · rw [resetWrites, ← reset.visible, empty]
      rfl
    · have session : sessionLog (resetWrites cat w answers.tail) =
          visibleLog (resetWrites cat w answers.tail) := by
        rw [resetWrites, standingAll_of_reset cat w.state.sessionVars.keys answers.tail w
          (by rw [done]), sessionLog, List.filter_eq_self.mpr (by simp)]
        rfl
      rw [session, ← committed idle, resetWrites, ← reset.visible, empty]
      rfl

theorem assignmentStatement (w : World Value Stmt Port)
    (assignments : List (String × Option String)) (isLocal : Bool) (answers : List Answer)
    (passes : ¬(w.txStatus = .E ∧
      (Statement.assignment assignments isLocal).allowedInFailedTransaction = false)) :
    Writes w (World.assignmentStatement cat w assignments isLocal answers).1
      (writesBy cat w ⟨.assignment assignments isLocal, answers⟩) := by
  rw [writesBy, if_neg passes]
  rcases assignmentStatement_cases cat w assignments isLocal answers with
    ⟨outside, result⟩ | ⟨inside, unsettable, result⟩ | ⟨inside, settable, result⟩
  · rw [result]
    simp only [if_pos outside]
    exact nothing rfl rfl rfl
  · rw [result]
    simp only [if_neg inside, if_pos unsettable]
    exact refl w
  · rw [result]
    simp only [if_neg inside, settable, Bool.false_eq_true, if_false]
    exact applyAll cat isLocal assignments answers w

variable [DecidableEq Value]

/-- A statement that edits no frames, let through by the dispatcher. -/
theorem onExecute (w : World Value Stmt Port) (r : Request)
    (frames : r.statement.editsFrames = false)
    (committed : w.txStatus = .I → w.state.sessionVars = w.state.committedVars)
    (passes : ¬(w.txStatus = .E ∧ r.statement.allowedInFailedTransaction = false)) :
    Writes w (World.onExecute cat w r).1 (writesBy cat w r) := by
  obtain ⟨statement, answers⟩ := r
  cases statement with
  | transaction tag => cases frames
  | savepoint kind name => cases frames
  | assignment assignments isLocal =>
    exact assignmentStatement cat w assignments isLocal answers passes
  | resetAll =>
    rw [writesBy, if_neg passes]
    exact applyAll cat false _ answers w
  | discard kind => exact discardStatement cat w kind answers committed passes
  | listen channel =>
    rw [writesBy, if_neg passes]
    refine nothing (World.txStatus_syncOutside _) ?_ ?_ <;>
      simp only [World.onExecute, World.listenStatement, World.state_syncOutside] <;> rfl
  | unlisten channel =>
    rw [writesBy, if_neg passes]
    refine nothing (World.txStatus_syncOutside _) ?_ ?_ <;>
      simp only [World.onExecute, World.unlistenStatement, World.state_syncOutside] <;> rfl
  | notify channel payload =>
    rw [writesBy, if_neg passes]
    exact notifyListeners w channel payload
  | select effects =>
    rw [writesBy, if_neg passes]
    exact runAll cat effects answers w
  | query raised =>
    rw [writesBy, if_neg passes]
    exact foldl raised w

end Writes

/-! ## What every run keeps -/

/-- A statement that ends no transaction, by being none or by failing. -/
theorem journal_add (cat : Catalogue Value) (ws : List (Write Value)) (w : World Value Stmt Port)
    (r : Request) (failed : Option Failure)
    (h : r.statement.isTransactionEnd = false ∨ failed ≠ none) :
    (journal cat : Keeping Value Stmt Port (List (Write Value))).add ws w r failed =
      if w.txStatus = .I then [] else ws ++ writesBy cat w r := by
  obtain ⟨statement, answers⟩ := r
  cases failed with
  | some failure =>
    cases statement with
    | transaction tag => cases tag <;> rfl
    | _ => rfl
  | none =>
    have continues := h.resolve_right fun h => h rfl
    cases statement with
    | transaction tag =>
      cases tag with
      | begin => rfl
      | commit => cases continues
      | rollback => cases continues
    | _ => rfl

/-- In an open transaction the two dictionaries are what BEGIN found with the writes made
since laid over it. -/
def Kept (w : World Value Stmt Port) (l : Ledger Value Stmt Port) (ws : List (Write Value)) :
    Prop :=
  w.txStatus ≠ .I → ∃ begun, l.begun = some begun ∧
    w.state.sessionVars.get? = overwrite begun.state.sessionVars.get? (visibleLog ws) ∧
    w.state.committedVars.get? = overwrite begun.state.committedVars.get? (sessionLog ws)

namespace Kept

variable {w w' : World Value Stmt Port} {l : Ledger Value Stmt Port} {ws : List (Write Value)}

theorem of_idle (idle : w.txStatus = .I) : Kept w l ws := fun opened => False.elim (opened idle)

/-- More writes, and nothing else. -/
theorem writes {l' : Ledger Value Stmt Port} {more : List (Write Value)} (h : Kept w l ws)
    (made : Writes w w' more) (begun : l'.begun = l.begun) :
    Kept w' l' (if w.txStatus = .I then [] else ws ++ more) := by
  by_cases idle : w.txStatus = .I
  · exact of_idle (made.txStatus.trans idle)
  · intro _
    obtain ⟨world, begins, visible, session⟩ := h idle
    rw [if_neg idle]
    refine ⟨world, begun.trans begins, ?_, ?_⟩
    · rw [made.visible, visible, visibleLog_append, overwrite_append]
    · rw [made.session, session, sessionLog_append, overwrite_append]

theorem fail (h : Kept w l ws) : Kept w.fail l ws := by
  intro opened
  rw [ne_eq, World.txStatus_fail_eq_I] at opened
  rw [World.state_fail]
  exact h opened

variable [DecidableEq Value] {cat : Catalogue Value}

theorem begin (h : Kept w l ws) (allowed : w.txStatus ≠ .E) :
    Kept (World.transactionStatement cat w .begin) (l.record w (.transaction .begin) none)
      (if w.txStatus = .I then [] else ws ++ []) := by
  cases status : w.txStatus with
  | E => exact False.elim (allowed status)
  | I =>
    rw [World.transactionStatement_begin cat w status]
    intro _
    refine ⟨w, ?_, rfl, rfl⟩
    simp only [Ledger.record, status, if_true]
  | T =>
    have opened : w.txStatus ≠ .I := by simp [status]
    rw [World.transactionStatement_redundant cat w status]
    intro _
    obtain ⟨world, begins, visible, session⟩ := h opened
    refine ⟨world, ?_, ?_, ?_⟩
    · simp only [Ledger.record, status, reduceCtorEq, if_false]
      exact begins
    · simpa using visible
    · simpa using session

/-- Of SAVEPOINT and RELEASE, with or without success. -/
theorem savepoint_values (kind : SavepointKind) (name : String) (forward : kind ≠ .rollbackTo) :
    Writes w (World.savepointStatement cat w kind name).1 [] := by
  by_cases idle : w.txStatus = .I
  · simp only [World.savepointStatement, if_pos idle]
    exact Writes.refl w
  · simp only [World.savepointStatement, if_neg idle]
    cases kind with
    | savepoint => exact Writes.nothing rfl rfl rfl
    | rollbackTo => exact False.elim (forward rfl)
    | release =>
      cases innermost w.state.savepoints name with
      | none => exact Writes.refl w
      | some index => exact Writes.nothing rfl rfl rfl

/-- Whatever the statement was, but a ROLLBACK TO. -/
theorem execute {r : Request} {failed : Option Failure} (h : Kept w l ws) (settled : Settled w l)
    (forward : ∀ name, r.statement ≠ .savepoint .rollbackTo name)
    (executed : World.execute cat w r = (w', failed)) :
    Kept w' (l.record w r.statement failed)
      ((journal cat : Keeping Value Stmt Port (List (Write Value))).add ws w r failed) := by
  by_cases refused : w.txStatus = .E ∧ r.statement.allowedInFailedTransaction = false
  · rw [World.execute, if_pos refused] at executed
    obtain ⟨rfl, rfl⟩ := Prod.mk.inj executed
    rw [journal_add cat ws w r _ (Or.inr (by simp)), writesBy, if_pos refused]
    exact (h.writes (Writes.refl w) rfl).fail
  · rw [World.execute, if_neg refused] at executed
    have settle (made : Writes w (World.onExecute cat w r).1 (writesBy cat w r))
        (continues : r.statement.isTransactionEnd = false)
        (begun : (World.onExecute cat w r).2 = none → w.txStatus ≠ .I →
          (l.record w r.statement none).begun = l.begun) :
        Kept w' (l.record w r.statement failed)
          ((journal cat : Keeping Value Stmt Port (List (Write Value))).add ws w r failed) := by
      rw [journal_add cat ws w r failed (Or.inl continues)]
      cases h' : World.onExecute cat w r with
      | mk v outcome =>
        rw [h'] at made executed begun
        cases outcome with
        | none =>
          obtain ⟨rfl, rfl⟩ := Prod.mk.inj executed
          by_cases idle : w.txStatus = .I
          · exact of_idle (made.txStatus.trans idle)
          · exact h.writes made (begun rfl idle)
        | some failure =>
          obtain ⟨rfl, rfl⟩ := Prod.mk.inj executed
          exact (h.writes made rfl).fail
    by_cases frames : r.statement.editsFrames = false
    · refine settle (Writes.onExecute cat w r frames (fun idle => (settled.idle idle).1) refused)
        (continues_of_not_editsFrames frames) ?_
      intro _ _
      rw [Ledger.record_of_not_editsFrames l w frames]
    · obtain ⟨statement, answers⟩ := r
      cases statement with
      | transaction tag =>
        obtain ⟨rfl, rfl⟩ := Prod.mk.inj executed
        cases tag with
        | begin =>
          have allowed : w.txStatus ≠ .E := fun failed => refused ⟨failed, rfl⟩
          rw [journal_add cat ws w _ _ (Or.inl rfl), writesBy, if_neg refused]
          exact h.begin allowed
        | commit => exact of_idle (txStatus_of_end cat (by simp))
        | rollback => exact of_idle (txStatus_of_end cat (by simp))
      | savepoint kind name =>
        have forward' : kind ≠ .rollbackTo := fun named => forward name (by rw [named])
        refine settle ?_ (by cases kind <;> rfl) ?_
        · rw [writesBy, if_neg refused]
          exact savepoint_values kind name forward'
        · intro _ _
          cases kind with
          | savepoint => rfl
          | rollbackTo => exact False.elim (forward' rfl)
          | release =>
            cases found : Ledger.find name l.marks <;> simp only [Ledger.record, found]
      | _ => exact False.elim (frames rfl)

end Kept

/-- What the values of the settings are in one state. -/
structure Follows (w : World Value Stmt Port) (l : Ledger Value Stmt Port)
    (ws : List (Write Value)) : Prop where
  outside : w.txStatus = .I → w.state.sessionVars = w.state.committedVars
  inside : w.txStatus ≠ .I → ∃ begun, l.begun = some begun ∧
    ∀ name, w.state.sessionVars.get? name =
      overwrite begun.state.sessionVars.get? (visibleLog ws) name

/-- What one statement does to them, by what it is. -/
structure Settles (l : Ledger Value Stmt Port) (ws : List (Write Value)) (s : Statement)
    (w w' : World Value Stmt Port) : Prop where
  commit : s = .transaction .commit → w.txStatus ≠ .I → ∃ begun, l.begun = some begun ∧
    ∀ name, w'.state.sessionVars.get? name =
      overwrite begun.state.sessionVars.get? (sessionLog ws) name ∧
        w'.state.committedVars.get? name = w'.state.sessionVars.get? name
  rollback : s = .transaction .rollback → w.txStatus ≠ .I → ∃ begun, l.begun = some begun ∧
    w'.state.sessionVars = begun.state.sessionVars ∧
      w'.state.committedVars = begun.state.sessionVars
  unmoved : (s = .transaction .begin ∨
      ∃ kind name, s = .savepoint kind name ∧ kind ≠ .rollbackTo) →
    w'.state.sessionVars.Same w.state.sessionVars ∧
      w'.state.committedVars.Same w.state.committedVars

section Results

variable [DecidableEq Value] {cat : Catalogue Value}

/-- A statement the dispatcher lets through, without its outcome. -/
theorem state_of_execute {w w' : World Value Stmt Port} {r : Request} {failed : Option Failure}
    (passes : ¬(w.txStatus = .E ∧ r.statement.allowedInFailedTransaction = false))
    (executed : World.execute cat w r = (w', failed)) :
    w'.state = (World.onExecute cat w r).1.state := by
  rw [World.execute, if_neg passes] at executed
  cases h : World.onExecute cat w r with
  | mk v outcome =>
    rw [h] at executed
    cases outcome with
    | none =>
      obtain ⟨rfl, rfl⟩ := Prod.mk.inj executed
      rfl
    | some failure =>
      obtain ⟨rfl, rfl⟩ := Prod.mk.inj executed
      exact World.state_fail v

theorem settles_of_execute {w w' : World Value Stmt Port} {l : Ledger Value Stmt Port}
    {ws : List (Write Value)} {r : Request} {failed : Option Failure} (kept : Kept w l ws)
    (settled : Settled w l) (framed : Framed w.txStatus w.state l)
    (executed : World.execute cat w r = (w', failed)) : Settles l ws r.statement w w' := by
  obtain ⟨statement, answers⟩ := r
  have passes (ends : statement.allowedInFailedTransaction = true) :
      ¬(w.txStatus = .E ∧ statement.allowedInFailedTransaction = false) := by
    rintro ⟨_, refused⟩
    rw [ends] at refused
    cases refused
  refine ⟨?_, ?_, ?_⟩
  · rintro rfl opened
    obtain ⟨begun, begins, _, session⟩ := kept opened
    obtain ⟨begun', begins', committed, _, _⟩ := settled.opened opened
    obtain rfl : begun = begun' := Option.some.inj (begins.symm.trans begins')
    have state := state_of_execute (r := ⟨.transaction .commit, answers⟩) (passes rfl) executed
    refine ⟨begun, begins, fun name => ?_⟩
    rw [state, show (World.onExecute cat w ⟨.transaction .commit, answers⟩).1.state =
      (World.transactionStatement cat w .commit).state from rfl, state_of_commit cat opened]
    refine ⟨?_, rfl⟩
    rw [committed]
    exact congrFun session name
  · rintro rfl opened
    obtain ⟨begun, begins, committed, _, _⟩ := settled.opened opened
    have state := state_of_execute (r := ⟨.transaction .rollback, answers⟩) (passes rfl) executed
    have undone := snapshot_of_rollback cat framed opened begins
    refine ⟨begun, begins, ?_, ?_⟩
    · rw [state]
      exact congrArg Scope.sessionVars undone
    · rw [state, committed]
      exact congrArg Scope.committedVars undone
  · intro unmoving
    by_cases refused : w.txStatus = .E ∧ statement.allowedInFailedTransaction = false
    · rw [World.execute, if_pos refused] at executed
      obtain ⟨rfl, rfl⟩ := Prod.mk.inj executed
      rw [World.state_fail]
      exact ⟨Dict.Same.refl _, Dict.Same.refl _⟩
    · rw [state_of_execute refused executed]
      rcases unmoving with rfl | ⟨kind, name, rfl, forward⟩
      · change (World.transactionStatement cat w .begin).state.sessionVars.Same _ ∧
          (World.transactionStatement cat w .begin).state.committedVars.Same _
        cases status : w.txStatus with
        | E => exact False.elim (refused ⟨status, rfl⟩)
        | I =>
          rw [World.transactionStatement_begin cat w status]
          exact ⟨Dict.Same.refl _, Dict.Same.refl _⟩
        | T =>
          rw [World.transactionStatement_redundant cat w status]
          exact ⟨Dict.Same.refl _, Dict.Same.refl _⟩
      · have made : Writes w (World.savepointStatement cat w kind name).1 [] :=
          Kept.savepoint_values kind name forward
        exact ⟨fun a => congrFun made.visible a, fun a => congrFun made.session a⟩

/-- Every connection and its journal, in every run without a ROLLBACK TO of its own. -/
theorem kept_of_visits {parameterStatus : Dict String String} {port : Nat} {events : List Event}
    {t : System Value Stmt Port × (Pid → List (Write Value))} {pid : Pid}
    {c : Client Value Stmt Port}
    (forward : ∀ name answers,
      Event.request pid ⟨.savepoint .rollbackTo name, answers⟩ ∉ events)
    (visited : Trace.Visits (System.recorded cat (journal cat))
      (System.startRecorded (journal cat) parameterStatus port) events t)
    (live : t.1.clients pid = some c) (server : PgServer) :
    Kept (c.world server) c.ledger (t.2 pid) := by
  have all : ∀ server, Kept (c.world server) c.ledger (t.2 pid) := by
    refine System.recorded_invariant
      (fun r => ∀ name, r.statement ≠ .savepoint .rollbackTo name) ?_
      (fun c ws => ∀ server, Kept (c.world server) c.ledger ws) ?_ ?_ visited live
    · rintro ⟨statement, answers⟩ member name rfl
      exact forward name answers member
    · intro username startupParams server
      exact Kept.of_idle rfl
    · intro sys c ws r failed w reached at_pid forward h executed _ server
      have next := (h sys.server).execute (settled_of_visits reached at_pid sys.server) forward
        executed
      exact fun opened => next opened
  exact all server

/-- In every run without a ROLLBACK TO of the connection's own: outside a transaction
the two dictionaries are equal, inside one a name reads as its latest write since BEGIN
or as BEGIN found it; COMMIT leaves the latest session-scoped writes, ROLLBACK what BEGIN
found, and BEGIN, SAVEPOINT and RELEASE change no value. -/
theorem settings_follow_transaction (cat : Catalogue Value) (parameterStatus : Dict String String)
    (port : Nat) (events : List Event) (pid : Pid)
    (forward : ∀ name answers,
      Event.request pid ⟨.savepoint .rollbackTo name, answers⟩ ∉ events) :
    (∀ (t : System Value Stmt Port × (Pid → List (Write Value))) (c : Client Value Stmt Port),
      Trace.Visits (System.recorded cat (journal cat))
        (System.startRecorded (journal cat) parameterStatus port) events t →
      t.1.clients pid = some c → Follows (c.world t.1.server) c.ledger (t.2 pid)) ∧
    (∀ (u v : System Value Stmt Port × (Pid → List (Write Value))) r
        (c c' : Client Value Stmt Port),
      Trace.Takes (System.recorded cat (journal cat))
        (System.startRecorded (journal cat) parameterStatus port) events u (.request pid r) v →
      u.1.clients pid = some c → v.1.clients pid = some c' →
      Settles c.ledger (u.2 pid) r.statement (c.world u.1.server) (c'.world v.1.server)) := by
  constructor
  · intro t c visited live
    have settled := settled_of_visits visited.of_annotate live t.1.server
    have kept := kept_of_visits forward visited live t.1.server
    refine ⟨fun idle => (settled.idle idle).1, fun opened => ?_⟩
    obtain ⟨begun, begins, visible, _⟩ := kept opened
    exact ⟨begun, begins, fun name => congrFun visible name⟩
  · intro u v r c c' taken live live'
    have settled := settled_of_visits taken.before.of_annotate live u.1.server
    have framed := framed_of_visits taken.before.of_annotate live
    have kept := kept_of_visits forward taken.before live u.1.server
    obtain ⟨d, failed, w, hd, executed, _, rfl⟩ := System.recorded_request taken.possible
    obtain rfl : c = d := Option.some.inj (live.symm.trans hd)
    obtain rfl : c.settle u.1.server r.statement failed w = c' := by
      rw [System.clients_put_self] at live'
      exact Option.some.inj live'
    have settles := settles_of_execute kept settled framed executed
    exact ⟨settles.commit, settles.rollback, settles.unmoved⟩

end Results

/-- A local write and a session-scoped one in one transaction. -/
def localThenSession : List Event :=
  [.connect 1 "app" ∅, .request 1 ⟨.transaction .begin, []⟩,
    .request 1 ⟨.assignment [("search_path", some "kept")] false, []⟩,
    .request 1 ⟨.savepoint .savepoint "s", []⟩,
    .request 1 ⟨.assignment [("search_path", some "seen")] true, []⟩]

theorem localThenSession_follows :
    ∃ (t v : System String Unit Unit × (Pid → List (Write String)))
      (c c' : Client String Unit Unit),
      Trace.run (System.recorded plainCatalogue (journal plainCatalogue))
        (System.startRecorded (journal plainCatalogue) ∅ 5432) localThenSession = some t ∧
      t.1.clients 1 = some c ∧ c.connection.state.sessionVars.get? "search_path" = some "seen" ∧
      System.recorded plainCatalogue (journal plainCatalogue) t
        (.request 1 ⟨.transaction .commit, []⟩) = some v ∧ v.1.clients 1 = some c' ∧
      c'.connection.state.sessionVars.get? "search_path" = some "kept" ∧
      Follows (c.world t.1.server) c.ledger (t.2 1) ∧
      Settles c.ledger (t.2 1) (.transaction .commit) (c.world t.1.server)
        (c'.world v.1.server) := by
  refine ⟨_, _, _, _, rfl, rfl, by decide, rfl, rfl, by decide, ?_, ?_⟩
  · exact (settings_follow_transaction plainCatalogue ∅ 5432 localThenSession 1
      (by simp [localThenSession])).1 _ _ (Trace.visits_end rfl) rfl
  · exact (settings_follow_transaction plainCatalogue ∅ 5432
      (localThenSession ++ [.request 1 ⟨.transaction .commit, []⟩]) 1
      (by simp [localThenSession])).2 _ _ ⟨.transaction .commit, []⟩ _ _
        ⟨localThenSession, [], rfl, rfl, rfl⟩ rfl rfl

end PgMimic

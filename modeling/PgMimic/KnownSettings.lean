import Mathlib.Data.Finset.Dedup
import Mathlib.Data.Finset.Lattice.Lemmas
import PgMimic.ParameterCache

/-!
# Which settings exist

A name exists when the connection has an answer of its own for it, when the catalogue
has it, or when it was written once. The last is a set that no frame holds a copy of:
only a write adds to it, only the undo of that write takes the name out again.
-/

namespace PgMimic

variable {Value Stmt Port : Type}

/-- The names of some writes. -/
def writtenNames (ws : List (Write Value)) : Finset String := (ws.map Write.key).toFinset

theorem writtenNames_append (ws vs : List (Write Value)) :
    writtenNames (ws ++ vs) = writtenNames ws ∪ writtenNames vs := by
  rw [writtenNames, List.map_append, List.toFinset_append]
  rfl

/-- Between the two worlds exactly the names of these writes became known. -/
def Learns (w w' : World Value Stmt Port) (ws : List (Write Value)) : Prop :=
  w'.state.knownSettings = w.state.knownSettings ∪ writtenNames ws

namespace Learns

variable {u v w w' : World Value Stmt Port}

theorem nothing (known : w'.state.knownSettings = w.state.knownSettings) :
    Learns w w' ([] : List (Write Value)) :=
  known.trans (Finset.union_empty _).symm

theorem refl (w : World Value Stmt Port) : Learns w w [] := nothing rfl

theorem trans {ws vs : List (Write Value)} (h : Learns u v ws) (h' : Learns v w vs) :
    Learns u w (ws ++ vs) := by
  rw [Learns, writtenNames_append, ← Finset.union_assoc, ← h]
  exact h'

variable (cat : Catalogue Value)

theorem known_reportSetting (w : World Value Stmt Port) (key : String) :
    (reportSetting cat w key).state.knownSettings = w.state.knownSettings := by
  obtain ⟨owed, h⟩ := reportSetting_eq cat w key
  rw [h, World.state_withParameterStatus]

theorem settingWritten (w : World Value Stmt Port) (key : String) (stored : Option Value)
    (isLocal : Bool) :
    Learns w (settingWritten cat w key stored isLocal) [⟨key, stored, isLocal⟩] := by
  rw [Learns, PgMimic.settingWritten, known_reportSetting, World.state_withState]
  exact Finset.insert_eq key w.state.knownSettings |>.trans (Finset.union_comm _ _)

/-- What the write added, its undo takes out. -/
theorem settingUndone (w : World Value Stmt Port) (key : String) (stored : Option Value)
    (isLocal : Bool) : Learns w (settingUndone cat w key stored isLocal) [] := by
  apply nothing
  have written : (PgMimic.settingWritten cat w key stored isLocal).state.knownSettings =
      insert key w.state.knownSettings := known_reportSetting cat _ key
  rw [PgMimic.settingUndone, known_reportSetting, World.state_withState]
  simp only [recordSetting, written]
  by_cases known : key ∈ w.state.knownSettings
  · rw [if_pos known, Finset.insert_eq_of_mem known]
  · rw [if_neg known, Finset.erase_insert known]

theorem applySetConfig (w : World Value Stmt Port) (key : String) (value : Option String)
    (isLocal : Bool) (answer : Answer) :
    Learns w (applySetConfig cat w key value isLocal answer).1
      (standing cat key value isLocal answer) := by
  cases applied cat w key value isLocal answer with
  | unsettable e settable result =>
    simpa only [result, standing, settable] using refl w
  | unparsed e settable parsed result =>
    simpa only [result, standing, settable, parsed] using refl w
  | kept stored settable parsed stands result =>
    rw [result, standing_of_kept settable parsed stands]
    exact settingWritten cat w key stored isLocal
  | undone stored settable parsed falls result =>
    have refused : settingOutcome cat key value answer ≠ none := by
      simpa only [settingOutcome, settable, parsed] using falls.1
    rw [result, standing_of_refused falls.2 refused]
    exact settingUndone cat w key stored isLocal

theorem applyAll (isLocal : Bool) (assignments : List (String × Option String))
    (answers : List Answer) (w : World Value Stmt Port) :
    Learns w (applyAll cat isLocal assignments answers w).1
      (standingAll cat isLocal assignments answers) :=
  applyAll_grades cat refl trans
    (fun w key value answer => applySetConfig cat w key value isLocal answer) assignments answers w

theorem notifyListeners (w : World Value Stmt Port) (channel payload : String) :
    Learns w (w.notifyListeners channel payload) [] := by
  rw [World.notifyListeners]
  split
  · exact nothing rfl
  · split
    · exact refl w
    · exact nothing rfl

theorem foldl (raised : List (String × String)) (w : World Value Stmt Port) :
    Learns w (raised.foldl (fun w entry => w.notifyListeners entry.1 entry.2) w) [] :=
  Outcomes.foldl_relates (R := fun _ w w' => Learns w w' []) refl
    (fun entry w => notifyListeners w entry.1 entry.2) trans raised w

theorem runAll (effects : List Effect) (answers : List Answer) (w : World Value Stmt Port) :
    Learns w (World.runAll cat effects answers w).1 (effectWrites cat effects answers) :=
  runAll_grades cat refl trans notifyListeners
    (fun w key value answer => applySetConfig cat w key value false answer) effects answers w

theorem assignmentStatement (w : World Value Stmt Port)
    (assignments : List (String × Option String)) (isLocal : Bool) (answers : List Answer)
    (passes : ¬(w.txStatus = .E ∧
      (Statement.assignment assignments isLocal).allowedInFailedTransaction = false)) :
    Learns w (World.assignmentStatement cat w assignments isLocal answers).1
      (writesBy cat w ⟨.assignment assignments isLocal, answers⟩) := by
  rw [writesBy, if_neg passes]
  rcases assignmentStatement_cases cat w assignments isLocal answers with
    ⟨outside, result⟩ | ⟨inside, unsettable, result⟩ | ⟨inside, settable, result⟩
  · rw [result]
    simp only [if_pos outside]
    exact nothing rfl
  · rw [result]
    simp only [if_neg inside, if_pos unsettable]
    exact refl w
  · rw [result]
    simp only [if_neg inside, settable, Bool.false_eq_true, if_false]
    exact applyAll cat isLocal assignments answers w

/-- DISCARD ALL drops every value and forgets no name. -/
theorem discardStatement (w : World Value Stmt Port) (kind : DiscardKind) (answers : List Answer)
    (passes : ¬(w.txStatus = .E ∧ (Statement.discard kind).allowedInFailedTransaction = false)) :
    Learns w (World.discardStatement cat w kind answers).1
      (writesBy cat w ⟨.discard kind, answers⟩) := by
  have reset := applyAll cat false
    (w.state.sessionVars.keys.map fun name => (name, none)) answers.tail w
  rw [writesBy, if_neg passes]
  cases discarded cat w kind answers with
  | nothing failed narrow result =>
    rw [result]
    cases kind with
    | plans => exact refl w
    | sequences => exact refl w
    | temp => exact refl w
    | all =>
      rcases narrow with other | opened | told
      · exact absurd rfl other
      · simpa only [if_pos opened] using refl w
      · obtain ⟨failure, told⟩ := Option.isSome_iff_exists.mp told
        simpa only [told, ite_self] using refl w
  | stopped all idle told w' failure stopped result =>
    rw [resetAll] at stopped
    rw [stopped] at reset
    rw [result, all]
    simpa only [idle, told, resetWrites, ne_eq, not_true_eq_false, if_false] using reset
  | all all idle told w' done result =>
    rw [resetAll] at done
    rw [done] at reset
    rw [result, all]
    simp only [idle, told, ne_eq, not_true_eq_false, if_false]
    exact reset

variable [DecidableEq Value]

/-- Of the statements that edit frames none writes a setting, and no frame has a copy of
the names. -/
theorem transactionStatement (w : World Value Stmt Port) (tag : TransactionTag)
    (allowed : tag = .begin → w.txStatus ≠ .E) :
    Learns w (World.transactionStatement cat w tag) [] := by
  apply nothing
  by_cases begins : tag = .begin
  · subst begins
    cases status : w.txStatus with
    | I => rw [World.transactionStatement_begin cat w status]; rfl
    | T => rw [World.transactionStatement_redundant cat w status]; rfl
    | E => exact False.elim (allowed rfl status)
  · by_cases idle : w.txStatus = .I
    · rw [World.transactionStatement_idle cat w begins idle]
      rfl
    · rw [World.transactionStatement_end cat w begins idle]
      by_cases commits : tag = .commit
      · rw [decide_eq_true commits, World.state_commit]
        rfl
      · rw [decide_eq_false commits, World.state_rollback]
        exact SessionState.knownSettings_restoreScope _ 0

theorem savepointStatement (w : World Value Stmt Port) (kind : SavepointKind) (name : String) :
    Learns w (World.savepointStatement cat w kind name).1 [] := by
  by_cases idle : w.txStatus = .I
  · simp only [World.savepointStatement, if_pos idle]
    exact refl w
  · simp only [World.savepointStatement, if_neg idle]
    cases kind with
    | savepoint => exact nothing rfl
    | release =>
      cases innermost w.state.savepoints name with
      | none => exact refl w
      | some index => exact nothing rfl
    | rollbackTo =>
      cases innermost w.state.savepoints name with
      | none => exact refl w
      | some index =>
        apply nothing
        change (World.rollbackTo cat w index).state.knownSettings = _
        rw [World.state_rollbackTo, SessionState.knownSettings_restoreScope]

theorem onExecute (w : World Value Stmt Port) (r : Request)
    (passes : ¬(w.txStatus = .E ∧ r.statement.allowedInFailedTransaction = false)) :
    Learns w (World.onExecute cat w r).1 (writesBy cat w r) := by
  obtain ⟨statement, answers⟩ := r
  cases statement with
  | assignment assignments isLocal =>
    exact assignmentStatement cat w assignments isLocal answers passes
  | discard kind => exact discardStatement cat w kind answers passes
  | transaction tag =>
    rw [writesBy, if_neg passes]
    refine transactionStatement cat w tag ?_
    rintro rfl failed
    exact passes ⟨failed, rfl⟩
  | savepoint kind name =>
    rw [writesBy, if_neg passes]
    exact savepointStatement cat w kind name
  | resetAll =>
    rw [writesBy, if_neg passes]
    exact applyAll cat false _ answers w
  | listen channel =>
    rw [writesBy, if_neg passes]
    apply nothing
    simp only [World.onExecute, World.listenStatement, World.state_syncOutside]
    rfl
  | unlisten channel =>
    rw [writesBy, if_neg passes]
    apply nothing
    simp only [World.onExecute, World.unlistenStatement, World.state_syncOutside]
    rfl
  | notify channel payload =>
    rw [writesBy, if_neg passes]
    exact notifyListeners w channel payload
  | select effects =>
    rw [writesBy, if_neg passes]
    exact runAll cat effects answers w
  | query raised =>
    rw [writesBy, if_neg passes]
    exact foldl raised w

/-- A statement makes known the names it writes. -/
theorem execute (w : World Value Stmt Port) (r : Request) :
    Learns w (World.execute cat w r).1 (writesBy cat w r) := by
  by_cases refused : w.txStatus = .E ∧ r.statement.allowedInFailedTransaction = false
  · rw [World.execute, if_pos refused, writesBy, if_pos refused]
    apply nothing
    rw [World.state_fail]
  · have made := onExecute cat w r refused
    rw [Learns] at made ⊢
    have state : (World.execute cat w r).1.state = (World.onExecute cat w r).1.state :=
      state_of_execute refused rfl
    rw [state]
    exact made

end Learns

/-- The names a connection has written so far. -/
def written (cat : Catalogue Value) : Keeping Value Stmt Port (Finset String) where
  opened := ∅
  add names w r _ := names ∪ writtenNames (writesBy cat w r)

section Reading

variable (cat : Catalogue Value)

/-- Of a state whose settings are all of known names. -/
theorem settingValue_eq_none_iff {w : World Value Stmt Port} (named : Named w.state)
    (name : String) :
    settingValue cat w name = none ↔ defaultSetting w.connection w.server name = none ∧
      cat.default name = none ∧ name ∉ w.state.knownSettings := by
  rw [settingValue_eq, reading_eq_none_iff]
  constructor
  · exact fun h => h.2
  · refine fun h => ⟨?_, h⟩
    by_contra held
    exact h.2.2 (named name (Or.inl held))

/-- With the defaults the same and no name forgotten, what read as something still does. -/
theorem settingValue_ne_none {w w' : World Value Stmt Port} (named : Named w.state)
    (environment : SameEnvironment w w') (known : w.state.knownSettings ⊆ w'.state.knownSettings)
    {name : String} (reads : settingValue cat w name ≠ none) : settingValue cat w' name ≠ none := by
  intro unread
  rw [settingValue_eq, reading_congr cat environment.username environment.startupParams
    environment.parameterStatus environment.port, reading_eq_none_iff] at unread
  obtain ⟨_, builtIn, catalogued, unknown⟩ := unread
  exact reads ((settingValue_eq_none_iff cat named name).mpr
    ⟨builtIn, catalogued, fun member => unknown (known member)⟩)

/-- A write that ends in a refusal, by a check or by the session, is as if it had not
been made. -/
theorem settingValue_of_refused (w : World Value Stmt Port) (key : String) (value : Option String)
    (isLocal : Bool) {answer : Answer} (uncancelled : answer ≠ some .cancelled)
    (refused : (applySetConfig cat w key value isLocal answer).2 ≠ none) (name : String) :
    settingValue cat (applySetConfig cat w key value isLocal answer).1 name =
      settingValue cat w name := by
  have none_stands : standing cat key value isLocal answer = ([] : List (Write Value)) := by
    rw [applySetConfig_outcome] at refused
    exact standing_of_refused uncancelled refused
  have visible := (Writes.applySetConfig cat w key value isLocal answer).visible
  have known := Learns.applySetConfig cat w key value isLocal answer
  have environment : SameEnvironment w (applySetConfig cat w key value isLocal answer).1 :=
    (Tracks.applySetConfig w key value isLocal answer).environment
  rw [none_stands] at visible known
  have same : (applySetConfig cat w key value isLocal answer).1.state.knownSettings =
      w.state.knownSettings ∪ writtenNames [] := known
  rw [settingValue_eq, settingValue_eq, reading_congr cat environment.username
    environment.startupParams environment.parameterStatus environment.port, visible]
  simp only [same, writtenNames, List.map_nil, List.toFinset_nil, Finset.union_empty]
  rfl

end Reading

section Results

variable [DecidableEq Value]

theorem known_of_visits {cat : Catalogue Value} {parameterStatus : Dict String String} {port : Nat}
    {events : List Event} {t : System Value Stmt Port × (Pid → Finset String)} {pid : Pid}
    {c : Client Value Stmt Port}
    (visited : Trace.Visits (System.recorded cat (written cat))
      (System.startRecorded (written cat) parameterStatus port) events t)
    (live : t.1.clients pid = some c) : c.connection.state.knownSettings = t.2 pid := by
  refine System.recorded_invariant (fun _ => True) (fun _ _ => trivial)
    (fun c names => c.connection.state.knownSettings = names) ?_ ?_ visited live
  · intro username startupParams
    rfl
  · intro sys c names r failed w _ _ _ h executed _
    have learnt := Learns.execute cat (c.world sys.server) r
    rw [executed] at learnt
    have known : w.state.knownSettings =
        c.connection.state.knownSettings ∪ writtenNames (writesBy cat (c.world sys.server) r) :=
      learnt
    exact known.trans (by rw [h]; rfl)

/-- In every state of every run a setting reads as nothing exactly when the connection has
no answer of its own for it, the catalogue does not have it, and no write of it has stood
so far. No statement makes what reads as something read as nothing, or forgets a name,
and a write that was refused leaves what read as nothing so. -/
theorem setting_exists_iff_written (cat : Catalogue Value)
    (parameterStatus : Dict String String) (port : Nat) (events : List Event)
    (t : System Value Stmt Port × (Pid → Finset String)) (pid : Pid) (c : Client Value Stmt Port)
    (visited : Trace.Visits (System.recorded cat (written cat))
      (System.startRecorded (written cat) parameterStatus port) events t)
    (live : t.1.clients pid = some c) :
    (∀ name, settingValue cat (c.world t.1.server) name = none ↔
      defaultSetting c.connection t.1.server name = none ∧ cat.default name = none ∧
        name ∉ t.2 pid) ∧
    (∀ r name, settingValue cat (c.world t.1.server) name ≠ none →
      settingValue cat (World.execute cat (c.world t.1.server) r).1 name ≠ none) ∧
    (∀ r, c.connection.state.knownSettings ⊆
      (World.execute cat (c.world t.1.server) r).1.state.knownSettings) ∧
    (∀ key value isLocal answer, answer ≠ some .cancelled →
      (applySetConfig cat (c.world t.1.server) key value isLocal answer).2 ≠ none →
      ∀ name, settingValue cat (c.world t.1.server) name = none →
        settingValue cat (applySetConfig cat (c.world t.1.server) key value isLocal answer).1 name =
          none) := by
  have named : Named (c.world t.1.server).state :=
    (remembered_of_visits visited.of_annotate live).vars
  have learns : ∀ r, (c.world t.1.server).state.knownSettings ⊆
      (World.execute cat (c.world t.1.server) r).1.state.knownSettings := by
    intro r
    rw [Learns.execute cat (c.world t.1.server) r]
    exact Finset.subset_union_left
  refine ⟨?_, ?_, learns, ?_⟩
  · intro name
    rw [settingValue_eq_none_iff cat named name, ← known_of_visits visited live]
    rfl
  · intro r name reads
    have environment : SameEnvironment (c.world t.1.server)
        (World.execute cat (c.world t.1.server) r).1 := (Tracks.execute _ r).environment
    exact settingValue_ne_none cat named environment (learns r) reads
  · intro key value isLocal answer uncancelled refused name unread
    rw [settingValue_of_refused cat _ key value isLocal uncancelled refused]
    exact unread

end Results

/-- A name of the client's own, written and dropped by a ROLLBACK. -/
def writtenThenRolledBack : List Event :=
  [.connect 1 "app" ∅, .request 1 ⟨.transaction .begin, []⟩,
    .request 1 ⟨.assignment [("app.user", some "7")] false, []⟩,
    .request 1 ⟨.transaction .rollback, []⟩]

theorem writtenThenRolledBack_known :
    ∃ (t : System String Unit Unit × (Pid → Finset String)) (c : Client String Unit Unit),
      Trace.run (System.recorded plainCatalogue (written plainCatalogue))
        (System.startRecorded (written plainCatalogue) ∅ 5432) writtenThenRolledBack = some t ∧
      t.1.clients 1 = some c ∧ c.connection.state.sessionVars.get? "app.user" = none ∧
      settingValue plainCatalogue (c.world t.1.server) "app.user" ≠ none ∧
      settingValue plainCatalogue (c.world t.1.server) "app.name" = none := by
  refine ⟨_, _, rfl, rfl, by decide, ?_⟩
  have settled := setting_exists_iff_written plainCatalogue ∅ 5432 writtenThenRolledBack
    (_ : System String Unit Unit × (Pid → Finset String)) 1 _ (Trace.visits_end rfl) rfl
  constructor
  · intro unread
    exact ((settled.1 "app.user").mp unread).2.2 (by decide)
  · exact (settled.1 "app.name").mpr (by decide)

end PgMimic

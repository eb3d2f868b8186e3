import PgMimic.KnownSettings
import PgMimic.Notifications
import PgMimic.SetPatterns

/-!
# Writes that fail

A write is made before the session is told of it, and undone when the session refuses it.
What it takes for a failure to leave no trace is told from the writes that stood: a
cancellation passes the undo by, and the effects of a statement that came before the one
that failed are not undone at all.
-/

namespace PgMimic

open Overlay (latest overwrite_eq_self_iff)

variable {Value Stmt Port : Type}

/-- Both dictionaries hold what they held, and the same names are known. -/
structure SameSettings (w w' : World Value Stmt Port) : Prop where
  sessionVars : w'.state.sessionVars.Same w.state.sessionVars
  committedVars : w'.state.committedVars.Same w.state.committedVars
  knownSettings : w'.state.knownSettings = w.state.knownSettings

/-- Every name the writes are of is known, and held already as the last of them leave it. -/
structure Redundant (s : SessionState Value Stmt Port) (ws : List (Write Value)) : Prop where
  known : ∀ write ∈ ws, write.key ∈ s.knownSettings
  visible : ∀ name stored, latest (visibleLog ws) name = some stored →
    s.sessionVars.get? name = stored
  session : ∀ name stored, latest (sessionLog ws) name = some stored →
    s.committedVars.get? name = stored

section Redundancy

theorem sameSettings_iff {w w' : World Value Stmt Port} {ws : List (Write Value)}
    (made : Writes w w' ws) (learnt : Learns w w' ws) :
    SameSettings w w' ↔ Redundant w.state ws := by
  have names : w'.state.knownSettings = w.state.knownSettings ↔
      ∀ write ∈ ws, write.key ∈ w.state.knownSettings := by
    rw [learnt, Finset.union_eq_left]
    constructor
    · intro within write member
      exact within (List.mem_toFinset.mpr (List.mem_map_of_mem member))
    · intro known name member
      obtain ⟨write, inside, rfl⟩ := List.mem_map.mp (List.mem_toFinset.mp member)
      exact known write inside
  have visible := overwrite_eq_self_iff w.state.sessionVars.get? (visibleLog ws)
  have session := overwrite_eq_self_iff w.state.committedVars.get? (sessionLog ws)
  rw [← made.visible] at visible
  rw [← made.session] at session
  constructor
  · intro same
    exact ⟨names.mp same.knownSettings, visible.mp (funext same.sessionVars),
      session.mp (funext same.committedVars)⟩
  · intro held
    exact ⟨congrFun (visible.mpr held.visible), congrFun (session.mpr held.session),
      names.mpr held.known⟩

theorem redundant_nil (s : SessionState Value Stmt Port) : Redundant s [] where
  known := fun write member => by cases member
  visible := fun name stored last => by cases last
  session := fun name stored last => by cases last

theorem redundant_singleton {s : SessionState Value Stmt Port} {key : String}
    {stored : Option Value} {isLocal : Bool} :
    Redundant s [⟨key, stored, isLocal⟩] ↔ key ∈ s.knownSettings ∧
      s.sessionVars.get? key = stored ∧ (isLocal = false → s.committedVars.get? key = stored) := by
  constructor
  · intro held
    refine ⟨held.known _ (List.mem_singleton_self _), ?_, ?_⟩
    · exact held.visible key stored (by simp [visibleLog, latest])
    · rintro rfl
      exact held.session key stored (by simp [sessionLog, latest])
  · rintro ⟨known, visible, session⟩
    refine ⟨?_, ?_, ?_⟩
    · intro write member
      obtain rfl := List.mem_singleton.mp member
      exact known
    · intro name b last
      simp only [visibleLog, List.map_cons, List.map_nil, latest, Option.ite_none_right_eq_some,
        Option.some.injEq] at last
      obtain ⟨rfl, rfl⟩ := last
      exact visible
    · intro name b last
      cases isLocal with
      | true => simp [sessionLog, latest] at last
      | false =>
        simp only [sessionLog, List.filter_cons, Bool.not_false, if_true, List.filter_nil,
          List.map_cons, List.map_nil, latest, Option.ite_none_right_eq_some,
          Option.some.injEq] at last
        obtain ⟨rfl, rfl⟩ := last
        exact session rfl

end Redundancy

section OneWrite

variable (cat : Catalogue Value)

/-- A write that did not complete has left everything as it was if and only if it was not
cancelled with its value stored, or what it stored was held under a known name already. -/
theorem failed_write_iff (w : World Value Stmt Port) (key : String) (value : Option String)
    (isLocal : Bool) (answer : Answer)
    (failed : (applySetConfig cat w key value isLocal answer).2 ≠ none) :
    SameSettings w (applySetConfig cat w key value isLocal answer).1 ↔
      (answer = some .cancelled → checkSettable cat key = none →
        ∀ stored, parseValue cat key value = .ok stored →
          key ∈ w.state.knownSettings ∧ w.state.sessionVars.get? key = stored ∧
            (isLocal = false → w.state.committedVars.get? key = stored)) := by
  rw [sameSettings_iff (Writes.applySetConfig cat w key value isLocal answer)
    (Learns.applySetConfig cat w key value isLocal answer)]
  by_cases cancelled : answer = some .cancelled
  · cases settable : checkSettable cat key with
    | some e =>
      simp only [standing, settable, reduceCtorEq, false_implies, implies_true, iff_true]
      exact redundant_nil w.state
    | none =>
      cases parsed : parseValue cat key value with
      | error e =>
        simp only [standing, settable, parsed, reduceCtorEq, false_implies, implies_true, iff_true]
        exact redundant_nil w.state
      | ok stored =>
        rw [standing_of_kept settable parsed (Or.inr cancelled), redundant_singleton]
        simp [cancelled]
  · rw [applySetConfig_outcome] at failed
    rw [standing_of_refused cancelled failed]
    simp only [cancelled, false_implies, iff_true]
    exact redundant_nil w.state

end OneWrite

/-- `SET search_path TO 'app'`, cancelled while the session is told of it. -/
theorem cancelled_write_stands :
    ∃ (t : System String Unit Unit) (c : Client String Unit Unit),
      Trace.run (System.step plainCatalogue) (System.start ∅ 5432) [.connect 1 "app" ∅] = some t ∧
      t.clients 1 = some c ∧
      (applySetConfig plainCatalogue (c.world t.server) "search_path" (some "app") false
        (some .cancelled)).2 = some .cancelled ∧
      ¬SameSettings (c.world t.server)
        (applySetConfig plainCatalogue (c.world t.server) "search_path" (some "app") false
          (some .cancelled)).1 := by
  refine ⟨_, _, rfl, rfl, rfl, fun same => ?_⟩
  have read := same.sessionVars "search_path"
  revert read
  decide

/-- The same write, refused. -/
theorem refused_write_undone :
    ∃ (t : System String Unit Unit) (c : Client String Unit Unit),
      Trace.run (System.step plainCatalogue) (System.start ∅ 5432) [.connect 1 "app" ∅] = some t ∧
      t.clients 1 = some c ∧
      SameSettings (c.world t.server)
        (applySetConfig plainCatalogue (c.world t.server) "search_path" (some "app") false
          (some (.error ⟨"22023", "no", []⟩))).1 := by
  refine ⟨_, _, rfl, rfl, ?_⟩
  refine (failed_write_iff plainCatalogue _ "search_path" (some "app") false _ (by decide)).mpr ?_
  intro cancelled
  cases cancelled

section Statements

variable [DecidableEq Value] {cat : Catalogue Value} {w : World Value Stmt Port}

/-- Outside a transaction a failure fails nothing more than the statement. -/
theorem execute_of_idle {r : Request} (idle : w.txStatus = .I)
    (kept : (World.onExecute cat w r).1.txStatus = w.txStatus) :
    (World.execute cat w r).1 = (World.onExecute cat w r).1 := by
  have running : ¬(w.txStatus = .E ∧ r.statement.allowedInFailedTransaction = false) := by
    simp [idle]
  rw [World.execute, if_neg running]
  cases h : World.onExecute cat w r with
  | mk w' failed =>
    rw [h] at kept
    cases failed with
    | none => rfl
    | some failure => exact if_pos (kept.trans idle)

variable (u : UnicodeTables) (t : Endpoint.TextTables)

/-- A statement of several effects: `SET SESSION CHARACTERISTICS`, or a SELECT that calls
`set_config` and `pg_notify`. -/
inductive Several : Statement → Prop where
  | characteristics (clause : Copy.Text) :
    Several (.assignment (SetPatterns.transactionCharacteristics u t clause) false)
  | calls (effects : List Effect) : Several (.select effects)

variable {u t} {s : Statement} {answers : List Answer}

theorem Several.execute_eq (several : Several u t s) (idle : w.txStatus = .I) :
    (World.execute cat w ⟨s, answers⟩).1 = (World.onExecute cat w ⟨s, answers⟩).1 ∧
      Writes w (World.onExecute cat w ⟨s, answers⟩).1 (writesBy cat w ⟨s, answers⟩) := by
  have passes : ¬(w.txStatus = .E ∧ s.allowedInFailedTransaction = false) := by simp [idle]
  have made : Writes w (World.onExecute cat w ⟨s, answers⟩).1 (writesBy cat w ⟨s, answers⟩) := by
    cases several with
    | characteristics clause => exact Writes.assignmentStatement cat w _ false answers passes
    | calls effects =>
      rw [writesBy, if_neg passes]
      exact Writes.runAll cat effects answers w
  exact ⟨execute_of_idle idle made.txStatus, made⟩

/-- Outside a transaction a statement of several effects leaves no trace if and only if
it has raised nothing by the time it ends, and each setting it has written by then was
known and held as it has left it. -/
theorem several_effects_iff (several : Several u t s) (idle : w.txStatus = .I) :
    SameSettings w (World.execute cat w ⟨s, answers⟩).1 ∧
        (World.execute cat w ⟨s, answers⟩).1.passed = w.passed ↔
      Redundant w.state (writesBy cat w ⟨s, answers⟩) ∧ raisedBy cat w ⟨s, answers⟩ = [] := by
  obtain ⟨executed, made⟩ :
      (World.execute cat w ⟨s, answers⟩).1 = (World.onExecute cat w ⟨s, answers⟩).1 ∧
        Writes w (World.onExecute cat w ⟨s, answers⟩).1 (writesBy cat w ⟨s, answers⟩) :=
    several.execute_eq idle
  have passes : ¬(w.txStatus = .E ∧ s.allowedInFailedTransaction = false) := by simp [idle]
  have frames : s.editsFrames = false := by cases several <;> rfl
  have learnt := Learns.onExecute cat w ⟨s, answers⟩ passes
  have raised := (Raises.onExecute cat w ⟨s, answers⟩ frames passes).outside idle
  rw [executed, sameSettings_iff made learnt, raised.1]
  refine and_congr_right fun _ => ?_
  constructor
  · exact List.self_eq_append_right.mp ∘ Eq.symm
  · exact fun none => by rw [none, List.append_nil]

end Statements

/-- A catalogue of the two settings the statement below assigns. -/
def transactionCatalogue : Catalogue String where
  context name :=
    if name ∈ ["default_transaction_isolation", "default_transaction_read_only"] then some "user"
    else none
  default name :=
    if name ∈ ["default_transaction_isolation", "default_transaction_read_only"] then some ""
    else none
  parse _ text := .ok text
  render _ value := value
  entry name := by
    by_cases h : name ∈ ["default_transaction_isolation", "default_transaction_read_only"] <;>
      simp only [h, if_true, if_false, Option.isSome_some, Option.isSome_none]

def serializableReadOnly : Copy.Text :=
  "SET SESSION CHARACTERISTICS AS TRANSACTION ISOLATION LEVEL serializable, READ ONLY".toList

/-- The session takes the isolation level and refuses `READ ONLY`. -/
theorem first_of_two_stands :
    ∃ (t : System String Unit Unit) (c : Client String Unit Unit) (s : Statement)
      (answers : List Answer),
      Trace.run (System.step transactionCatalogue) (System.start ∅ 5432)
        [.connect 1 "app" ∅] = some t ∧ t.clients 1 = some c ∧ c.connection.txStatus = .I ∧
      SetPatterns.setVariants smallTables Endpoint.asciiTables serializableReadOnly =
        some (.ok s) ∧
      (World.execute transactionCatalogue (c.world t.server) ⟨s, answers⟩).2 ≠ none ∧
      ¬SameSettings (c.world t.server)
        (World.execute transactionCatalogue (c.world t.server) ⟨s, answers⟩).1 := by
  refine ⟨_, _, .assignment [("default_transaction_isolation", some "serializable"),
    ("default_transaction_read_only", some "on")] false,
    [none, some (.error ⟨"22023", "no", []⟩)], rfl, rfl, rfl, rfl, by decide, fun same => ?_⟩
  have read := same.sessionVars "default_transaction_isolation"
  revert read
  decide

/-- The session refuses the isolation level. -/
theorem first_of_two_refused :
    ∃ (t : System String Unit Unit) (c : Client String Unit Unit) (clause : Copy.Text)
      (answers : List Answer),
      Trace.run (System.step transactionCatalogue) (System.start ∅ 5432)
        [.connect 1 "app" ∅] = some t ∧ t.clients 1 = some c ∧
      SetPatterns.setCharacteristics.capture serializableReadOnly = some clause ∧
      (World.execute transactionCatalogue (c.world t.server)
        ⟨.assignment (SetPatterns.transactionCharacteristics smallTables Endpoint.asciiTables clause)
          false, answers⟩).2 ≠ none ∧
      SameSettings (c.world t.server) (World.execute transactionCatalogue (c.world t.server)
        ⟨.assignment (SetPatterns.transactionCharacteristics smallTables Endpoint.asciiTables clause)
          false, answers⟩).1 := by
  refine ⟨_, _, "ISOLATION LEVEL serializable, READ ONLY".toList,
    [some (.error ⟨"22023", "no", []⟩)], rfl, rfl, by decide, by decide, ?_⟩
  refine ((several_effects_iff (.characteristics _) rfl).mpr ⟨?_, rfl⟩).1
  exact redundant_nil _

end PgMimic

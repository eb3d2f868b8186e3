import PgMimic.AtomicWrites

/-!
# RESET ALL

RESET ALL goes through the names that `session_vars` holds. A name whose value is
committed but was dropped by a `SET LOCAL name TO DEFAULT` is not among them, and the
next COMMIT brings its value back.
-/

namespace PgMimic

open Overlay (overwrite overwrite_all)

variable {Value Stmt Port : Type}

/-- `RESET name`, of each name. -/
def resets (names : List String) : List (String × Option String) :=
  names.map fun name => (name, none)

/-- Every setting is at its default: neither dictionary holds anything, every name reads so,
also after the next COMMIT, and it is what `RESET name` of every name held would come to. -/
structure ResetsEverything [DecidableEq Value] (cat : Catalogue Value)
    (w w' : World Value Stmt Port) : Prop where
  sessionVars : ∀ name, w'.state.sessionVars.get? name = none
  committedVars : ∀ name, w'.state.committedVars.get? name = none
  reads : ∀ name, settingValue cat w' name =
    reading cat w.connection w.server name none (name ∈ w.state.knownSettings)
  readsAfterCommit : ∀ name,
    settingValue cat (World.transactionStatement cat w' .commit) name =
      reading cat w.connection w.server name none (name ∈ w.state.knownSettings)
  oneByOne : ∀ names : List String,
    (∀ name, name ∈ names ↔ w.state.sessionVars.get? name ≠ none ∨
      w.state.committedVars.get? name ≠ none) →
    (applyAll cat false (resets names) [] w).2 = none ∧
      SameSettings w' (applyAll cat false (resets names) [] w).1

section Drops

variable {cat : Catalogue Value} {w : World Value Stmt Port} {names : List String}
  {answers : List Answer}

theorem mem_keys {ν : Type} {d : Dict String ν} {name : String} :
    name ∈ d.keys ↔ d.get? name ≠ none := by
  rw [ne_eq, Dict.get?, Dict.find_eq_none_iff, not_not]
  rfl

theorem settable_of_resets (done : (applyAll cat false (resets names) answers w).2 = none) :
    ∀ name ∈ names, checkSettable cat name = none := by
  induction names generalizing answers w with
  | nil => simp
  | cons name names ih =>
    have outcome := applySetConfig_outcome cat w name none false (answers.headD none)
    rw [resets, List.map_cons, applyAll] at done
    cases h : applySetConfig cat w name none false (answers.headD none) with
    | mk w' failed =>
      rw [h] at done outcome
      cases failed with
      | some failure => cases done
      | none =>
        refine List.forall_mem_cons.mpr ⟨?_, ih done⟩
        cases settable : checkSettable cat name with
        | none => rfl
        | some e => simp only [settingOutcome, settable, reduceCtorEq] at outcome

/-- Where every name may be set and the session refuses nothing. -/
theorem resets_complete (settable : ∀ name ∈ names, checkSettable cat name = none) :
    (applyAll cat false (resets names) [] w).2 = none := by
  induction names generalizing w with
  | nil => rfl
  | cons name names ih =>
    obtain ⟨first, later⟩ := List.forall_mem_cons.mp settable
    have outcome := applySetConfig_outcome cat w name none false none
    simp only [settingOutcome, first, parseValue] at outcome
    rw [resets, List.map_cons, applyAll, List.headD_nil]
    cases h : applySetConfig cat w name none false none with
    | mk w' failed =>
      rw [h] at outcome
      subst outcome
      exact ih later

/-- What each of some names that are dropped reads as in either dictionary. -/
theorem dropped (done : (applyAll cat false (resets names) answers w).2 = none) (name : String) :
    (applyAll cat false (resets names) answers w).1.state.sessionVars.get? name =
        (if name ∈ names then none else w.state.sessionVars.get? name) ∧
      (applyAll cat false (resets names) answers w).1.state.committedVars.get? name =
        (if name ∈ names then none else w.state.committedVars.get? name) ∧
      (applyAll cat false (resets names) answers w).1.state.knownSettings =
        w.state.knownSettings ∪ names.toFinset := by
  have made := Writes.applyAll cat false (resets names) answers w
  have learnt := Learns.applyAll cat false (resets names) answers w
  have log := standingAll_of_reset cat names answers w done
  rw [resets] at made learnt ⊢
  rw [log] at made learnt
  have session : sessionLog (names.map fun name => (⟨name, none, false⟩ : Write Value)) =
      names.map fun name => (name, none) := by
    rw [sessionLog, List.filter_eq_self.mpr (by simp), List.map_map]
    rfl
  have visible : visibleLog (names.map fun name => (⟨name, none, false⟩ : Write Value)) =
      names.map fun name => (name, none) := by
    rw [visibleLog, List.map_map]
    rfl
  refine ⟨?_, ?_, ?_⟩
  · rw [made.visible, visible, overwrite_all]
  · rw [made.session, session, overwrite_all]
  · rw [learnt, writtenNames, List.map_map]
    simp [Function.comp_def]

theorem resetAll_of_execute [DecidableEq Value]
    (completes : (World.execute cat w ⟨.resetAll, answers⟩).2 = none) :
    (resetAll cat answers w).2 = none ∧
      (World.execute cat w ⟨.resetAll, answers⟩).1 = (resetAll cat answers w).1 := by
  by_cases refused : w.txStatus = .E ∧ Statement.resetAll.allowedInFailedTransaction = false
  · rw [World.execute, if_pos refused] at completes
    cases completes
  · rw [World.execute, if_neg refused] at completes ⊢
    have dispatched : World.onExecute cat w ⟨.resetAll, answers⟩ = resetAll cat answers w := rfl
    rw [dispatched] at completes ⊢
    cases h : resetAll cat answers w with
    | mk w' failed =>
      rw [h] at completes
      cases failed with
      | none => exact ⟨rfl, rfl⟩
      | some failure => cases completes

/-- Nothing is left where every name with a value is dropped. -/
theorem none_of_dropped {d : Dict String Value}
    (every : ∀ name, d.get? name ≠ none → name ∈ names) (name : String) :
    (if name ∈ names then none else d.get? name) = none := by
  by_cases member : name ∈ names
  · rw [if_pos member]
  · rw [if_neg member]
    by_contra held
    exact member (every name held)

theorem known_of_resets {known : Finset String} (within : ∀ name ∈ names, name ∈ known) :
    known ∪ names.toFinset = known := by
  rw [Finset.union_eq_left]
  exact fun name member => within name (List.mem_toFinset.mp member)

/-- A RESET ALL that completes resets everything if and only if no name is held committed
alone. -/
theorem resetsEverything_iff [DecidableEq Value] (named : Named w.state)
    (done : (resetAll cat answers w).2 = none) :
    ResetsEverything cat w (resetAll cat answers w).1 ↔
      ∀ name, w.state.committedVars.get? name ≠ none → w.state.sessionVars.get? name ≠ none := by
  have visible : ∀ name, (resetAll cat answers w).1.state.sessionVars.get? name = none :=
    congrFun (resetAll_empties cat answers w done)
  have settable : ∀ name ∈ w.state.sessionVars.keys, checkSettable cat name = none :=
    settable_of_resets done
  have environment : SameEnvironment w (resetAll cat answers w).1 :=
    (Tracks.applyAll false _ answers w).environment
  have after : ∀ name, (resetAll cat answers w).1.state.sessionVars.get? name =
        (if name ∈ w.state.sessionVars.keys then none else w.state.sessionVars.get? name) ∧
      (resetAll cat answers w).1.state.committedVars.get? name =
        (if name ∈ w.state.sessionVars.keys then none else w.state.committedVars.get? name) ∧
      (resetAll cat answers w).1.state.knownSettings =
        w.state.knownSettings ∪ w.state.sessionVars.keys.toFinset := dropped done
  constructor
  · intro everything name committed visible
    have left := (after name).2.1
    rw [everything.committedVars name, if_neg fun held => mem_keys.mp held visible] at left
    exact committed left.symm
  · intro both
    have committed : ∀ name, (resetAll cat answers w).1.state.committedVars.get? name = none := by
      intro name
      rw [(after name).2.1]
      exact none_of_dropped (fun name held => mem_keys.mpr (both name held)) name
    have same : (resetAll cat answers w).1.state.knownSettings = w.state.knownSettings := by
      rw [(after "").2.2]
      exact known_of_resets fun name held => named name (Or.inl (mem_keys.mp held))
    refine ⟨visible, committed, fun name => ?_, fun name => ?_, fun names every => ?_⟩
    · rw [settingValue_eq, visible, reading_congr cat environment.username
        environment.startupParams environment.parameterStatus environment.port]
      simp only [same]
    · rw [settingValue_commit, visible, committed, ite_self, reading_congr cat environment.username
        environment.startupParams environment.parameterStatus environment.port]
      simp only [same]
    · have complete : (applyAll cat false (resets names) [] w).2 = none := by
        apply resets_complete
        intro name member
        rcases (every name).mp member with held | held
        · exact settable name (mem_keys.mpr held)
        · exact settable name (mem_keys.mpr (both name held))
      have one := dropped complete
      refine ⟨complete, fun name => ?_, fun name => ?_, ?_⟩
      · rw [(one name).1, visible]
        exact none_of_dropped (fun name held => (every name).mpr (Or.inl held)) name
      · rw [(one name).2.1, committed]
        exact none_of_dropped (fun name held => (every name).mpr (Or.inr held)) name
      · rw [(one "").2.2, same]
        exact known_of_resets fun name member => named name ((every name).mp member)

end Drops

/-- In every reachable state, a RESET ALL that completes resets everything if and only if
every name with a committed value has a visible one. -/
theorem reset_all_iff [DecidableEq Value] (cat : Catalogue Value)
    (parameterStatus : Dict String String) (port : Nat) (events : List Event)
    (t : System Value Stmt Port) (pid : Pid) (c : Client Value Stmt Port)
    (visited : Trace.Visits (System.step cat) (System.start parameterStatus port) events t)
    (live : t.clients pid = some c) (answers : List Answer)
    (completes : (World.execute cat (c.world t.server) ⟨.resetAll, answers⟩).2 = none) :
    ResetsEverything cat (c.world t.server)
        (World.execute cat (c.world t.server) ⟨.resetAll, answers⟩).1 ↔
      ∀ name, c.connection.state.committedVars.get? name ≠ none →
        c.connection.state.sessionVars.get? name ≠ none := by
  obtain ⟨done, executed⟩ := resetAll_of_execute completes
  rw [executed]
  exact resetsEverything_iff (remembered_of_visits visited live).vars done

/-- A value set, committed, and dropped for the length of a transaction. -/
def droppedLocally : List Event :=
  [.connect 1 "app" ∅, .request 1 ⟨.assignment [("search_path", some "app")] false, []⟩,
    .request 1 ⟨.transaction .begin, []⟩,
    .request 1 ⟨.assignment [("search_path", none)] true, []⟩]

theorem droppedLocally_comes_back :
    ∃ (t : System String Unit Unit) (c : Client String Unit Unit),
      Trace.run (System.step plainCatalogue) (System.start ∅ 5432) droppedLocally = some t ∧
      t.clients 1 = some c ∧
      (World.execute plainCatalogue (c.world t.server) ⟨.resetAll, []⟩).2 = none ∧
      ¬ResetsEverything plainCatalogue (c.world t.server)
        (World.execute plainCatalogue (c.world t.server) ⟨.resetAll, []⟩).1 ∧
      settingValue plainCatalogue (World.transactionStatement plainCatalogue
        (World.execute plainCatalogue (c.world t.server) ⟨.resetAll, []⟩).1 .commit)
        "search_path" = some "app" := by
  refine ⟨_, _, rfl, rfl, by decide, fun everything => ?_, by decide⟩
  have dropped := everything.committedVars "search_path"
  revert dropped
  decide

/-- A value set inside the transaction. -/
def setInside : List Event :=
  [.connect 1 "app" ∅, .request 1 ⟨.transaction .begin, []⟩,
    .request 1 ⟨.assignment [("search_path", some "app")] false, []⟩]

theorem setInside_reset :
    ∃ (t : System String Unit Unit) (c : Client String Unit Unit),
      Trace.run (System.step plainCatalogue) (System.start ∅ 5432) setInside = some t ∧
      t.clients 1 = some c ∧
      c.connection.state.committedVars.get? "search_path" = some "app" ∧
      ResetsEverything plainCatalogue (c.world t.server)
        (World.execute plainCatalogue (c.world t.server) ⟨.resetAll, []⟩).1 := by
  refine ⟨_, _, rfl, rfl, by decide, ?_⟩
  refine (reset_all_iff plainCatalogue ∅ 5432 setInside _ 1 _ (Trace.visits_end rfl) rfl []
    (by decide)).mpr ?_
  intro name committed
  exact committed

end PgMimic

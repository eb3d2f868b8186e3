import PgMimic.FailedTransactions
import PgMimic.SetText

/-!
# Writes that ask to be local

Of the four spellings of a local write only `SET LOCAL name TO value` hands its
locality on. The others write `committed_vars` like any SET, which shows at the
next COMMIT unless what they write was committed already.
-/

namespace PgMimic

variable {Value Stmt Port : Type}

section Remembered

/-- Every name a setting is held under, now or in a frame, is known. -/
structure Remembered (s : SessionState Value Stmt Port) : Prop where
  vars : Named s
  frames : ∀ scope ∈ s.scopes, ∀ key,
    scope.sessionVars.get? key ≠ none ∨ scope.committedVars.get? key ≠ none →
      key ∈ s.knownSettings

namespace Remembered

variable {s : SessionState Value Stmt Port}

theorem initial : Remembered (SessionState.initial : SessionState Value Stmt Port) where
  vars := fun key held => by simp [SessionState.initial] at held
  frames := fun scope member => by cases member

/-- The frames apart, everything that matters is the same. -/
theorem of_frames (h : Remembered s) {s' : SessionState Value Stmt Port}
    (sessionVars : s'.sessionVars = s.sessionVars)
    (committedVars : s'.committedVars = s.committedVars)
    (known : s'.knownSettings = s.knownSettings)
    (frames : ∀ scope ∈ s'.scopes, scope ∈ s.scopes ∨ scope = s.snapshot) : Remembered s' where
  vars := fun key held => by
    rw [known]
    rw [sessionVars, committedVars] at held
    exact h.vars key held
  frames := fun scope member key held => by
    rw [known]
    rcases frames scope member with old | rfl
    · exact h.frames scope old key held
    · exact h.vars key held

theorem restoreScope (h : Remembered s) (depth : Nat) : Remembered (s.restoreScope depth) := by
  cases frame : s.scopes[depth]? with
  | none => simpa only [SessionState.restoreScope, frame] using h
  | some scope =>
    have member : scope ∈ s.scopes := List.mem_of_getElem? frame
    simp only [SessionState.restoreScope, frame]
    exact ⟨fun key held => h.frames scope member key held,
      fun other kept => h.frames other (List.mem_of_mem_take kept)⟩

theorem of_quiet {w w' : World Value Stmt Port} (h : Remembered w.state) (quiet : Quiet w w') :
    Remembered w'.state where
  vars := quiet.named h.vars
  frames := fun scope member key held => by
    rw [quiet.scopes] at member
    exact quiet.known (h.frames scope member key held)

variable [DecidableEq Value] {cat : Catalogue Value} {w w' : World Value Stmt Port}

theorem transaction (h : Remembered w.state) {tag : TransactionTag}
    (allowed : tag = .begin → w.txStatus ≠ .E) :
    Remembered (World.transactionStatement cat w tag).state := by
  by_cases begins : tag = .begin
  · subst begins
    cases status : w.txStatus with
    | I =>
      rw [World.transactionStatement_begin cat w status]
      refine h.of_frames rfl rfl rfl (fun scope member => ?_)
      rcases List.mem_append.mp member with old | new
      · exact Or.inl old
      · exact Or.inr (List.mem_singleton.mp new)
    | T =>
      rw [World.transactionStatement_redundant cat w status]
      exact h
    | E => exact False.elim (allowed rfl status)
  · by_cases status : w.txStatus = .I
    · rw [World.transactionStatement_idle cat w begins status]
      exact h.of_frames rfl rfl rfl (fun scope member => Or.inl member)
    · cases tag with
      | begin => exact False.elim (begins rfl)
      | commit =>
        rw [state_of_commit cat status]
        exact ⟨fun key held => h.vars key (Or.inr (held.elim id id)),
          fun scope member => by cases member⟩
      | rollback =>
        rw [World.transactionStatement_end cat w begins status, decide_eq_false (by simp),
          World.state_rollback]
        have cleared : Remembered ({ w.state with savepoints := [] } :
            SessionState Value Stmt Port) :=
          h.of_frames rfl rfl rfl (fun scope member => Or.inl member)
        exact (cleared.restoreScope 0).of_frames rfl rfl rfl (fun scope member => by cases member)

theorem move {st : Statement} {failed : Option Failure} (h : Remembered w.state)
    (move : Move cat w st failed w') : Remembered w'.state := by
  cases move with
  | stopped quiet =>
    rw [World.state_fail]
    exact h.of_quiet quiet
  | quiet _ quiet => exact h.of_quiet quiet
  | subscribed _ listening =>
    rw [World.state_syncOutside]
    exact h.of_frames rfl rfl rfl (fun scope member => Or.inl member)
  | discarded _ quiet =>
    exact ⟨fun key held => by simp [SessionState.reset] at held,
      fun scope member => by cases member⟩
  | transaction allowed => exact h.transaction allowed
  | savepoint _ =>
    refine h.of_frames rfl rfl rfl (fun scope member => ?_)
    rcases List.mem_append.mp member with old | new
    · exact Or.inl old
    · exact Or.inr (List.mem_singleton.mp new)
  | release _ _ =>
    exact h.of_frames rfl rfl rfl (fun scope member => Or.inl (List.mem_of_mem_take member))
  | @rollbackTo name index _ _ =>
    rw [World.state_rollbackTo]
    have cut : Remembered ({ w.state with
        savepoints := w.state.savepoints.take (index + 1) } : SessionState Value Stmt Port) :=
      h.of_frames rfl rfl rfl (fun scope member => Or.inl member)
    exact cut.restoreScope (index + 1)

end Remembered

theorem remembered_of_visits [DecidableEq Value] {cat : Catalogue Value}
    {parameterStatus : Dict String String} {port : Nat} {events : List Event}
    {sys : System Value Stmt Port}
    (visited : Trace.Visits (System.step cat) (System.start parameterStatus port) events sys)
    {pid : Pid} {c : Client Value Stmt Port} (live : sys.clients pid = some c) :
    Remembered c.connection.state :=
  System.clients_invariant
    (fun c : Client Value Stmt Port => Remembered c.connection.state)
    (fun _ _ _ => Remembered.initial)
    (fun c server _ _ _ h move => Remembered.move (w := c.world server) h move) visited live

end Remembered

section Reading

variable (cat : Catalogue Value)

/-- What a name reads as, under a given override and given whether it is known. -/
def reading (c : Connection Value Stmt Port) (server : PgServer) (key : String)
    (held : Option Value) (known : Prop) [Decidable known] : Option String :=
  match held with
  | some value => some (cat.render key value)
  | none => match defaultSetting c server key with
    | some text => some text
    | none => match cat.default key with
      | some text => some text
      | none => if known then some "" else none

theorem settingValue_eq (w : World Value Stmt Port) (key : String) :
    settingValue cat w key = reading cat w.connection w.server key
      (w.state.sessionVars.get? key) (key ∈ w.state.knownSettings) := rfl

theorem reading_of_iff {c : Connection Value Stmt Port} {server : PgServer} {key : String}
    {held : Option Value} {known known' : Prop} [Decidable known] [Decidable known']
    (same : known ↔ known') :
    reading cat c server key held known = reading cat c server key held known' := by
  simp only [reading, same]

theorem reading_eq_none_iff {c : Connection Value Stmt Port} {server : PgServer} {key : String}
    {held : Option Value} {known : Prop} [Decidable known] :
    reading cat c server key held known = none ↔
      held = none ∧ defaultSetting c server key = none ∧ cat.default key = none ∧ ¬known := by
  cases held with
  | some value => simp [reading]
  | none =>
    cases builtIn : defaultSetting c server key with
    | some text => simp [reading, builtIn]
    | none =>
      cases catalogued : cat.default key with
      | some text => simp [reading, builtIn, catalogued]
      | none => simp [reading, builtIn, catalogued]

/-- A name that reads as something without being known reads the same once it is. -/
theorem reading_of_known {c : Connection Value Stmt Port} {server : PgServer} {key : String}
    {held : Option Value} {known : Prop} [Decidable known]
    (reads : reading cat c server key held known ≠ none) :
    reading cat c server key held True = reading cat c server key held known := by
  by_cases h : known
  · exact reading_of_iff cat (iff_of_true trivial h)
  · cases held with
    | some value => rfl
    | none =>
      cases builtIn : defaultSetting c server key with
      | some text => simp only [reading, builtIn]
      | none =>
        cases catalogued : cat.default key with
        | some text => simp only [reading, builtIn, catalogued]
        | none =>
          exact False.elim (reads ((reading_eq_none_iff cat).mpr ⟨rfl, builtIn, catalogued, h⟩))

theorem reading_ne_none_of_catalogued {c : Connection Value Stmt Port} {server : PgServer}
    {key : String} (catalogued : (cat.default key).isSome) (held : Option Value)
    (known : Prop) [Decidable known] : reading cat c server key held known ≠ none := by
  intro unread
  rw [(reading_eq_none_iff cat).mp unread |>.2.2.1] at catalogued
  cases catalogued

/-- The parts of a connection and a server a default is made of are the same. -/
theorem defaultSetting_congr {c c' : Connection Value Stmt Port} {server server' : PgServer}
    (username : c'.username = c.username) (startupParams : c'.startupParams = c.startupParams)
    (parameterStatus : server'.parameterStatus = server.parameterStatus)
    (port : server'.port = server.port) (key : String) :
    defaultSetting c' server' key = defaultSetting c server key := by
  rw [defaultSetting.eq_def, defaultSetting.eq_def, username, startupParams, parameterStatus,
    port]

theorem reading_congr {c c' : Connection Value Stmt Port} {server server' : PgServer}
    (username : c'.username = c.username) (startupParams : c'.startupParams = c.startupParams)
    (parameterStatus : server'.parameterStatus = server.parameterStatus)
    (port : server'.port = server.port) (key : String) (held : Option Value) (known : Prop)
    [Decidable known] :
    reading cat c' server' key held known = reading cat c server key held known := by
  have defaults := defaultSetting_congr username startupParams parameterStatus port key
  simp only [reading, defaults]

variable [DecidableEq Value]

/-- What a name reads as once the next COMMIT has executed. -/
theorem settingValue_commit (w : World Value Stmt Port) (key : String) :
    settingValue cat (World.transactionStatement cat w .commit) key =
      reading cat w.connection w.server key
        (if w.txStatus = .I then w.state.sessionVars.get? key else w.state.committedVars.get? key)
        (key ∈ w.state.knownSettings) := by
  rw [settingValue_eq]
  by_cases idle : w.txStatus = .I
  · rw [World.transactionStatement_idle cat w (by simp) idle, if_pos idle]
    exact reading_congr cat rfl rfl rfl rfl key _ _
  · have state := state_of_commit cat idle
    rw [if_neg idle]
    have held : (World.transactionStatement cat w .commit).state.sessionVars =
      w.state.committedVars := by rw [state]
    have known : (World.transactionStatement cat w .commit).state.knownSettings =
      w.state.knownSettings := by rw [state]
    simp only [held, known]
    rw [World.transactionStatement_end cat w (by simp) idle, decide_eq_true rfl]
    obtain ⟨owed, h⟩ := World.endTransaction_commit cat
      ((w.withTxStatus .I).withState { w.state with savepoints := [] })
    rw [h, World.flushPendingNotifies_eq]
    exact reading_congr cat rfl rfl rfl rfl key _ _

end Reading

/-- The write left no trace outside its transaction: the committed settings are what
they were, outside a transaction so are the visible ones, and after a COMMIT the name
reads as it would have. -/
structure StaysLocal [DecidableEq Value] (cat : Catalogue Value) (w w' : World Value Stmt Port)
    (key : String) : Prop where
  committedVars : w'.state.committedVars.Same w.state.committedVars
  outside : w.txStatus = .I → w'.state.sessionVars.Same w.state.sessionVars
  reads : settingValue cat (World.transactionStatement cat w' .commit) key =
    settingValue cat (World.transactionStatement cat w .commit) key

section Writes

variable [DecidableEq Value] {cat : Catalogue Value} {w : World Value Stmt Port} {key : String}
  {value : Option String} {stored : Option Value}

omit [DecidableEq Value] in
theorem applySetConfig_accepted (isLocal : Bool) (settable : checkSettable cat key = none)
    (accepted : parseValue cat key value = .ok stored) :
    ∃ owed, applySetConfig cat w key value isLocal none =
      ((w.withState (recordSetting w.state key stored isLocal).1).withParameterStatus owed,
        none) := by
  obtain ⟨owed, h⟩ := reportSetting_eq cat
    (w.withState (recordSetting w.state key stored isLocal).1) key
  refine ⟨owed, ?_⟩
  simp only [applySetConfig, settable, accepted, h]

/-- What two of the spellings and `set_config` come to. -/
theorem execute_of_write {s : Statement} {answers : List Answer}
    (spelled : s = .assignment [(key, value)] false ∨ s = .select [.setConfig key value])
    (settable : checkSettable cat key = none)
    (accepted : parseValue cat key value = .ok stored) (told : answers.headD none = none)
    (running : w.txStatus ≠ .E) :
    ∃ owed, World.execute cat w ⟨s, answers⟩ =
      ((w.withState (recordSetting w.state key stored false).1).withParameterStatus owed,
        none) := by
  obtain ⟨owed, h⟩ := applySetConfig_accepted false settable accepted (w := w)
  refine ⟨owed, ?_⟩
  rcases spelled with rfl | rfl
  · simp only [World.execute, running, false_and, if_false, World.onExecute,
      World.assignmentStatement, Bool.false_eq_true, List.findSome?_cons, settable,
      List.findSome?_nil, applyAll, told, h]
  · simp only [World.execute, running, false_and, if_false, World.onExecute, World.runAll, told, h]

/-- `SET LOCAL name TO value` inside a transaction. -/
theorem execute_of_local {answers : List Answer} (settable : checkSettable cat key = none)
    (accepted : parseValue cat key value = .ok stored) (told : answers.headD none = none)
    (inside : w.txStatus = .T) :
    ∃ owed, (World.execute cat w ⟨.assignment [(key, value)] true, answers⟩).1 =
      (w.withState (recordSetting w.state key stored true).1).withParameterStatus owed := by
  obtain ⟨owed, h⟩ := applySetConfig_accepted true settable accepted (w := w)
  refine ⟨owed, ?_⟩
  simp only [World.execute, inside, reduceCtorEq, false_and, if_false, World.onExecute,
    World.assignmentStatement, and_false, List.findSome?_cons, settable, List.findSome?_nil,
    applyAll, told, h]

/-- Outside one, nothing but the warning. -/
theorem execute_of_local_outside {answers : List Answer} (settable : checkSettable cat key = none)
    (idle : w.txStatus = .I) :
    (World.execute cat w ⟨.assignment [(key, value)] true, answers⟩).1 =
      w.notice setLocalOutside := by
  simp only [World.execute, idle, reduceCtorEq, false_and, if_false, World.onExecute,
    World.assignmentStatement, and_self, if_true, List.findSome?_cons, settable,
    List.findSome?_nil]

/-- What leaves the state alone leaves no trace. -/
theorem staysLocal_of_state {w' : World Value Stmt Port} (state : w'.state = w.state)
    (same : w'.txStatus = .I ↔ w.txStatus = .I) (server : w'.server = w.server)
    (username : w'.connection.username = w.connection.username)
    (startupParams : w'.connection.startupParams = w.connection.startupParams) :
    StaysLocal cat w w' key where
  committedVars := by
    rw [state]
    exact Dict.Same.refl _
  outside := fun _ => by
    rw [state]
    exact Dict.Same.refl _
  reads := by
    rw [settingValue_commit, settingValue_commit, server]
    simp only [state, same]
    exact reading_congr cat username startupParams rfl rfl key _ _

/-- After a write and a COMMIT the name is known, and held as the write left it committed. -/
theorem settingValue_commit_recorded (isLocal : Bool) (owed : Dict String String) :
    settingValue cat (World.transactionStatement cat ((w.withState
      (recordSetting w.state key stored isLocal).1).withParameterStatus owed) .commit) key =
    reading cat w.connection w.server key
      (if isLocal = true ∧ w.txStatus ≠ .I then w.state.committedVars.get? key else stored)
      True := by
  have known : key ∈ (recordSetting w.state key stored isLocal).1.knownSettings :=
    Finset.mem_insert_self key w.state.knownSettings
  have sessionVars :
      (recordSetting w.state key stored isLocal).1.sessionVars.get? key = stored := by
    change (assign w.state.sessionVars key stored).get? key = stored
    rw [get?_assign, if_pos rfl]
  have committedVars : (recordSetting w.state key stored isLocal).1.committedVars.get? key =
      if isLocal = true then w.state.committedVars.get? key else stored := by
    cases isLocal with
    | true => rfl
    | false =>
      change (assign w.state.committedVars key stored).get? key = stored
      rw [get?_assign, if_pos rfl]
  rw [settingValue_commit]
  simp only [World.state_withParameterStatus, World.state_withState,
    World.txStatus_withParameterStatus, World.txStatus_withState, sessionVars, committedVars]
  refine (reading_of_iff cat (iff_true_intro known)).trans ?_
  by_cases idle : w.txStatus = .I
  · simp only [idle, if_true, ne_eq, not_true_eq_false, and_false, if_false]
    exact reading_congr cat rfl rfl rfl rfl key _ True
  · simp only [idle, if_false, ne_eq, not_false_eq_true, and_true]
    exact reading_congr cat rfl rfl rfl rfl key _ True

/-- A local write of a name the catalogue has. -/
theorem staysLocal_of_recorded_local (owed : Dict String String) (opened : w.txStatus ≠ .I)
    (catalogued : (cat.default key).isSome) :
    StaysLocal cat w
      ((w.withState (recordSetting w.state key stored true).1).withParameterStatus owed) key where
  committedVars := Dict.Same.refl _
  outside := fun idle => False.elim (opened idle)
  reads := by
    rw [settingValue_commit_recorded, settingValue_commit, if_pos ⟨rfl, opened⟩, if_neg opened]
    exact reading_of_known cat (reading_ne_none_of_catalogued cat catalogued _ _)

/-- A write that lost its locality leaves no trace if and only if what it writes was
committed already, under a name that already reads as something. -/
theorem staysLocal_of_recorded_iff (owed : Dict String String) (named : Named w.state)
    (committed : w.txStatus = .I → w.state.sessionVars = w.state.committedVars) :
    StaysLocal cat w
      ((w.withState (recordSetting w.state key stored false).1).withParameterStatus owed) key ↔
    w.state.committedVars.get? key = stored ∧ settingValue cat w key ≠ none := by
  have held : (if w.txStatus = .I then w.state.sessionVars.get? key
      else w.state.committedVars.get? key) = w.state.committedVars.get? key := by
    by_cases idle : w.txStatus = .I
    · rw [if_pos idle, committed idle]
    · rw [if_neg idle]
  have after : settingValue cat (World.transactionStatement cat ((w.withState
      (recordSetting w.state key stored false).1).withParameterStatus owed) .commit) key =
      reading cat w.connection w.server key stored True :=
    settingValue_commit_recorded false owed
  have before := settingValue_commit cat w key
  rw [held] at before
  constructor
  · intro stays
    have same : w.state.committedVars.get? key = stored := by
      have written := stays.committedVars key
      change (assign w.state.committedVars key stored).get? key = _ at written
      rw [get?_assign, if_pos rfl] at written
      exact written.symm
    refine ⟨same, fun unread => ?_⟩
    obtain ⟨_, builtIn, catalogued, unknown⟩ :=
      (reading_eq_none_iff cat).mp ((settingValue_eq cat w key).symm.trans unread)
    -- The write makes a name known that nothing else would read as anything.
    have nothing : stored = none := by
      by_contra something
      exact unknown (named key (Or.inr (by rw [same]; exact something)))
    have reads := stays.reads
    rw [after, before, same, nothing,
      (reading_eq_none_iff cat).mpr ⟨rfl, builtIn, catalogued, unknown⟩] at reads
    exact ((reading_eq_none_iff cat).mp reads).2.2.2 trivial
  · rintro ⟨same, reads⟩
    have kept : assign w.state.committedVars key stored = w.state.committedVars :=
      assign_eq_self same
    refine ⟨?_, fun idle => ?_, ?_⟩
    · change (assign w.state.committedVars key stored).Same _
      rw [kept]
      exact Dict.Same.refl _
    · change (assign w.state.sessionVars key stored).Same _
      rw [committed idle, kept]
      exact Dict.Same.refl _
    · rw [after, before, same]
      refine reading_of_known cat (fun unread => ?_)
      obtain ⟨_, builtIn, catalogued, unknown⟩ := (reading_eq_none_iff cat).mp unread
      refine reads ((reading_eq_none_iff cat).mpr ⟨?_, builtIn, catalogued, unknown⟩)
      by_contra visible
      exact unknown (named key (Or.inl visible))

end Writes

/-- A name that may be set and has no full stop is in the catalogue. -/
theorem catalogued_of_settable {cat : Catalogue Value} {key : String}
    (settable : checkSettable cat key = none) (plain : '.' ∉ key.toList) :
    (cat.default key).isSome := by
  rw [← cat.entry key]
  cases context : cat.context key with
  | none => simp [checkSettable, plain, context] at settable
  | some _ => rfl

section Results

variable [DecidableEq Value]

/-- In every reachable state, an accepted local write of a settable name leaves no trace
outside its transaction exactly when it is spelled `SET LOCAL name TO value`, or is
refused in a failed transaction, or writes what is committed already under a name that
already reads as something. -/
theorem local_write_iff (cat : Catalogue Value) (u : UnicodeTables)
    (parameterStatus : Dict String String) (port : Nat) (events : List Event)
    (t : System Value Stmt Port) (pid : Pid) (c : Client Value Stmt Port)
    (visited : Trace.Visits (System.step cat) (System.start parameterStatus port) events t)
    (live : t.clients pid = some c) (write : LocalWrite) (s : Statement)
    (resolved : write.statement u = some (.ok s))
    (settable : checkSettable cat (write.key u) = none) (stored : Option Value)
    (accepted : parseValue cat (write.key u) (write.value u) = .ok stored)
    (answers : List Answer) (told : answers.headD none = none) :
    StaysLocal cat (c.world t.server) (World.execute cat (c.world t.server) ⟨s, answers⟩).1
        (write.key u) ↔
      (∃ name value, write = .setTo name value) ∨ c.connection.txStatus = .E ∨
        (c.connection.state.committedVars.get? (write.key u) = stored ∧
          settingValue cat (c.world t.server) (write.key u) ≠ none) := by
  have remembered := remembered_of_visits visited live
  have settled := settled_of_visits visited live t.server
  by_cases failed : (c.world t.server).txStatus = .E
  · have refused : (c.world t.server).txStatus = .E ∧ s.allowedInFailedTransaction = false := by
      refine ⟨failed, ?_⟩
      rcases LocalWrite.statement_eq u resolved with ⟨_, _, rfl⟩ | ⟨_, rfl | rfl⟩ <;> rfl
    refine iff_of_true ?_ (Or.inr (Or.inl failed))
    rw [World.execute, if_pos refused]
    have opened : (c.world t.server).txStatus ≠ .I := by simp [failed]
    rw [World.fail, if_neg opened]
    exact staysLocal_of_state rfl ⟨fun h => TxStatus.noConfusion h, fun h => False.elim (opened h)⟩
      rfl rfl rfl
  · rcases LocalWrite.statement_eq u resolved with ⟨spelled, plain, rfl⟩ | ⟨other, spelled⟩
    · refine iff_of_true ?_ (Or.inl spelled)
      cases status : (c.world t.server).txStatus with
      | I =>
        rw [execute_of_local_outside settable status]
        exact staysLocal_of_state rfl Iff.rfl rfl rfl rfl
      | T =>
        obtain ⟨owed, h⟩ := execute_of_local settable accepted told status
        rw [h]
        exact staysLocal_of_recorded_local owed (by simp [status])
          (catalogued_of_settable settable plain)
      | E => exact False.elim (failed status)
    · obtain ⟨owed, h⟩ := execute_of_write spelled settable accepted told failed
      rw [h]
      refine (staysLocal_of_recorded_iff (w := c.world t.server) owed remembered.vars
        (fun idle => (settled.idle idle).1)).trans ?_
      constructor
      · intro same
        exact Or.inr (Or.inr same)
      · rintro (generic | status | same)
        · exact False.elim (other generic)
        · exact False.elim (failed status)
        · exact same

end Results

/-- The tables as far as text without capitals goes. -/
def smallTables : UnicodeTables where
  lower s := s
  upper s := String.ofList (s.toList.map Char.toUpper)
  isDecimal := Char.isDigit
  lower_dot _ h := h
  lower_small _ _ := rfl

def searchPath : SettingName := ⟨"search_path", by decide⟩

def begun : List Event := [.connect 1 "app" ∅, .request 1 ⟨.transaction .begin, []⟩]

/-- The generic spelling, inside a transaction. -/
theorem set_local_to_stays_local :
    ∃ (t : System String Unit Unit) (c : Client String Unit Unit),
      Trace.run (System.step plainCatalogue) (System.start ∅ 5432) begun = some t ∧
      t.clients 1 = some c ∧
      StaysLocal plainCatalogue (c.world t.server)
        (World.execute plainCatalogue (c.world t.server)
          ⟨.assignment [("search_path", some "app")] true, []⟩).1 "search_path" := by
  refine ⟨_, _, rfl, rfl, ?_⟩
  exact (local_write_iff plainCatalogue smallTables ∅ 5432 begun _ 1 _
    (Trace.visits_end rfl) rfl (.setTo searchPath "'app'") _ rfl rfl _ rfl [] rfl).mpr
      (Or.inl ⟨searchPath, "'app'", rfl⟩)

/-- `SET LOCAL SCHEMA 'app'` inside a transaction is committed. -/
theorem set_local_schema_is_committed :
    ∃ (t : System String Unit Unit) (c : Client String Unit Unit) (s : Statement),
      Trace.run (System.step plainCatalogue) (System.start ∅ 5432) begun = some t ∧
      t.clients 1 = some c ∧ c.connection.txStatus = .T ∧
      LocalWrite.statement smallTables (.schema "'app'") = some (.ok s) ∧
      c.connection.state.committedVars.get? "search_path" = none ∧
      (World.execute plainCatalogue (c.world t.server)
        ⟨s, []⟩).1.state.committedVars.get? "search_path" = some "app" := by
  refine ⟨_, _, _, rfl, rfl, rfl, rfl, ?_⟩
  decide

end PgMimic

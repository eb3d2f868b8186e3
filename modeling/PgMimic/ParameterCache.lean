import PgMimic.SettingsStore
import PgMimic.LocalSettings

/-!
# The client's parameter cache

A client learns the reported parameters from ParameterStatus messages alone, and
keeps the last value it was sent. The connection writes none of them when a value
moves: it owes one, the last for each name, and pays what it owes just before
ReadyForQuery. The cache is right there if whatever moves a reported value leaves
the new one owed.
-/

namespace PgMimic

open Overlay (latest latest_append)

variable {Value Stmt Port : Type}

/-- `DEFAULT_PARAMETER_STATUS` with the version the server was given. -/
def parameterStatus (serverVersion : String) : Dict String String :=
  (⟨[("server_encoding", "UTF8"), ("client_encoding", "UTF8"), ("DateStyle", "ISO, MDY"),
      ("IntervalStyle", "postgres"), ("integer_datetimes", "on"),
      ("standard_conforming_strings", "on"), ("TimeZone", "UTC")], by decide⟩ :
    Dict String String).set "server_version" serverVersion

/-- The ParameterStatus messages of `_send_startup_completion`. -/
def startupBurst (server : PgServer) (startupParams : Dict String String) :
    List (String × String) :=
  server.parameterStatus.entries ++
    if (server.parameterStatus.get? "application_name").isSome then []
    else [("application_name", (startupParams.get? "application_name").getD "")]

/-- A connection and the ParameterStatus messages it has written. -/
structure Dialogue (Value Stmt Port : Type) where
  world : World Value Stmt Port
  sent : List (String × String)

namespace Dialogue

inductive Event where
  /-- A statement executes. -/
  | request (r : Request)
  /-- Another connection listens, or stops. -/
  | elsewhere (registry : Registry)
  /-- The end of a Query or a Sync. -/
  | readyForQuery

/-- After the startup burst and its ReadyForQuery. -/
def start (pid : Pid) (username : String) (startupParams : Dict String String)
    (server : PgServer) : Dialogue Value Stmt Port where
  world := ⟨Connection.fresh pid username startupParams, server, [], []⟩
  sent := startupBurst server startupParams

/-- `_flush_parameter_status`. -/
def flushParameterStatus (d : Dialogue Value Stmt Port) : Dialogue Value Stmt Port where
  world := d.world.withParameterStatus ∅
  sent := d.sent ++ d.world.connection.pendingParameterStatus.entries

def step [DecidableEq Value] (cat : Catalogue Value) (d : Dialogue Value Stmt Port) :
    Event → Option (Dialogue Value Stmt Port)
  | .request r => some { d with world := (World.execute cat d.world r).1 }
  | .elsewhere registry =>
    some { d with world := { d.world with server := { d.world.server with registry := registry } } }
  | .readyForQuery => some d.flushParameterStatus

end Dialogue

/-! ## What a statement leaves owed -/

section Reported

theorem mem_of_reported {key reported : String}
    (h : reportedSettings.lookup key = some reported) : (key, reported) ∈ reportedSettings := by
  obtain ⟨before, after, split, _⟩ := List.lookup_eq_some_iff.mp h
  rw [split]
  exact List.mem_append_right before (List.mem_cons_self ..)

/-- A reported name has an answer of the connection's own. -/
theorem builtIn_of_reported (c : Connection Value Stmt Port) (server : PgServer)
    {key reported : String}
    (h : reportedSettings.lookup key = some reported) : (defaultSetting c server key).isSome := by
  have member := mem_of_reported h
  simp only [reportedSettings, List.mem_cons, Prod.mk.injEq, List.not_mem_nil, or_false] at member
  rcases member with ⟨rfl, _⟩ | ⟨rfl, _⟩ | ⟨rfl, _⟩ | ⟨rfl, _⟩ | ⟨rfl, _⟩ | ⟨rfl, _⟩ | ⟨rfl, _⟩ |
    ⟨rfl, _⟩ | ⟨rfl, _⟩ <;> rfl

/-- No two names are reported under one spelling. -/
theorem reported_injective {key key' reported : String}
    (h : reportedSettings.lookup key = some reported)
    (h' : reportedSettings.lookup key' = some reported) : key = key' := by
  have distinct : ∀ p ∈ reportedSettings, ∀ q ∈ reportedSettings, p.2 = q.2 → p.1 = q.1 := by
    decide
  exact distinct _ (mem_of_reported h) _ (mem_of_reported h') rfl

theorem get?_parameterStatus (serverVersion name : String) :
    (parameterStatus serverVersion).get? name =
      if name = "server_version" then some serverVersion else
        Dict.find name [("server_encoding", "UTF8"), ("client_encoding", "UTF8"),
          ("DateStyle", "ISO, MDY"), ("IntervalStyle", "postgres"), ("integer_datetimes", "on"),
          ("standard_conforming_strings", "on"), ("TimeZone", "UTC")] :=
  Dict.get?_set _ "server_version" name serverVersion

/-- Three names of the burst are no reported setting. -/
theorem parameterStatus_cases {serverVersion name value : String}
    (h : (parameterStatus serverVersion).get? name = some value) :
    (name = "server_version" ∧ value = serverVersion) ∨
      (name = "server_encoding" ∧ value = "UTF8") ∨ (name = "integer_datetimes" ∧ value = "on") ∨
        ∃ key, reportedSettings.lookup key = some name := by
  rw [get?_parameterStatus] at h
  by_cases version : name = "server_version"
  · rw [if_pos version] at h
    exact Or.inl ⟨version, (Option.some.inj h).symm⟩
  rw [if_neg version] at h
  refine Or.inr ?_
  have member : (name, value) ∈ [("server_encoding", "UTF8"), ("client_encoding", "UTF8"),
      ("DateStyle", "ISO, MDY"), ("IntervalStyle", "postgres"), ("integer_datetimes", "on"),
      ("standard_conforming_strings", "on"), ("TimeZone", "UTC")] := Dict.mem_of_find h
  simp only [List.mem_cons, Prod.mk.injEq, List.not_mem_nil, or_false] at member
  rcases member with h | ⟨rfl, _⟩ | ⟨rfl, _⟩ | ⟨rfl, _⟩ | h | ⟨rfl, _⟩ | ⟨rfl, _⟩
  · exact Or.inl h
  · exact Or.inr (Or.inr ⟨"client_encoding", rfl⟩)
  · exact Or.inr (Or.inr ⟨"datestyle", rfl⟩)
  · exact Or.inr (Or.inr ⟨"intervalstyle", rfl⟩)
  · exact Or.inr (Or.inl h)
  · exact Or.inr (Or.inr ⟨"standard_conforming_strings", rfl⟩)
  · exact Or.inr (Or.inr ⟨"timezone", rfl⟩)

end Reported

/-- What the defaults are made of is the same. -/
structure SameEnvironment (w w' : World Value Stmt Port) : Prop where
  username : w'.connection.username = w.connection.username
  startupParams : w'.connection.startupParams = w.connection.startupParams
  parameterStatus : w'.server.parameterStatus = w.server.parameterStatus
  port : w'.server.port = w.server.port

/-- The value under `key` has not moved and the debt is the same, or the value it has
now is owed. -/
def Owes (cat : Catalogue Value) (w w' : World Value Stmt Port) (key reported : String) : Prop :=
  (w'.state.sessionVars.get? key = w.state.sessionVars.get? key ∧
    w'.connection.pendingParameterStatus.get? reported =
      w.connection.pendingParameterStatus.get? reported) ∨
  w'.connection.pendingParameterStatus.get? reported = settingValue cat w' key

/-- Every reported value that moved is owed, nothing else is, and no name a client may
not set was written. -/
structure Tracks (cat : Catalogue Value) (w w' : World Value Stmt Port) : Prop where
  environment : SameEnvironment w w'
  owes : ∀ key reported, reportedSettings.lookup key = some reported → Owes cat w w' key reported
  unreported : ∀ name, (∀ key, reportedSettings.lookup key ≠ some name) →
    w'.connection.pendingParameterStatus.get? name =
      w.connection.pendingParameterStatus.get? name
  known : ∀ key ∈ w'.state.knownSettings,
    key ∈ w.state.knownSettings ∨ checkSettable cat key = none

theorem settingValue_of_same {cat : Catalogue Value} {w w' : World Value Stmt Port}
    (environment : SameEnvironment w w') {key reported : String}
    (h : reportedSettings.lookup key = some reported)
    (same : w'.state.sessionVars.get? key = w.state.sessionVars.get? key) :
    settingValue cat w' key = settingValue cat w key := by
  have builtIn := builtIn_of_reported w.connection w.server h
  have defaults := defaultSetting_congr environment.username environment.startupParams
    environment.parameterStatus environment.port key
  obtain ⟨text, htext⟩ := Option.isSome_iff_exists.mp builtIn
  simp only [settingValue, same, defaults, htext]

theorem settingValue_isSome (cat : Catalogue Value) (w : World Value Stmt Port)
    {key reported : String} (h : reportedSettings.lookup key = some reported) :
    ∃ text, settingValue cat w key = some text := by
  obtain ⟨text, htext⟩ := Option.isSome_iff_exists.mp (builtIn_of_reported w.connection w.server h)
  cases held : w.state.sessionVars.get? key with
  | some value => exact ⟨cat.render key value, by simp only [settingValue, held]⟩
  | none => exact ⟨text, by simp only [settingValue, held, htext]⟩

namespace Tracks

variable {cat : Catalogue Value} {u v w w' : World Value Stmt Port}

/-- What neither moves a setting nor touches the debt. -/
theorem silent (environment : SameEnvironment w w')
    (sessionVars : w'.state.sessionVars = w.state.sessionVars)
    (owed : w'.connection.pendingParameterStatus = w.connection.pendingParameterStatus)
    (known : w'.state.knownSettings = w.state.knownSettings) : Tracks cat w w' where
  environment := environment
  owes := fun key reported _ => Or.inl ⟨by rw [sessionVars], by rw [owed]⟩
  unreported := fun name _ => by rw [owed]
  known := fun key member => Or.inl (known ▸ member)

theorem refl (w : World Value Stmt Port) : Tracks cat w w :=
  silent ⟨rfl, rfl, rfl, rfl⟩ rfl rfl rfl

theorem trans (h : Tracks cat u v) (h' : Tracks cat v w) : Tracks cat u w where
  environment := {
    username := h'.environment.username.trans h.environment.username
    startupParams := h'.environment.startupParams.trans h.environment.startupParams
    parameterStatus := h'.environment.parameterStatus.trans h.environment.parameterStatus
    port := h'.environment.port.trans h.environment.port }
  owes := by
    intro key reported is_reported
    rcases h'.owes key reported is_reported with ⟨same', owed'⟩ | paid
    · rcases h.owes key reported is_reported with ⟨same, owed⟩ | paid
      · exact Or.inl ⟨same'.trans same, owed'.trans owed⟩
      · refine Or.inr ?_
        rw [owed', paid, settingValue_of_same h'.environment is_reported same']
    · exact Or.inr paid
  unreported := fun name other => (h'.unreported name other).trans (h.unreported name other)
  known := by
    intro key member
    rcases h'.known key member with before | settable
    · exact h.known key before
    · exact Or.inr settable

/-- A report of the value the name has now. -/
theorem owed_reportSetting (w : World Value Stmt Port) {key reported : String}
    (h : reportedSettings.lookup key = some reported) (a : String) :
    (reportSetting cat w key).connection.pendingParameterStatus.get? a =
      if a = reported then settingValue cat w key
      else w.connection.pendingParameterStatus.get? a := by
  obtain ⟨text, htext⟩ := settingValue_isSome cat w h
  simp only [reportSetting, h, World.reportParameter, htext, Option.getD_some]
  exact Dict.get?_set _ reported a text

/-- A report owes nothing under a spelling nothing is reported under. -/
theorem unreported_reportSetting (w : World Value Stmt Port) (key : String) {name : String}
    (other : ∀ key, reportedSettings.lookup key ≠ some name) :
    (reportSetting cat w key).connection.pendingParameterStatus.get? name =
      w.connection.pendingParameterStatus.get? name := by
  cases h : reportedSettings.lookup key with
  | none => simp only [reportSetting, h]
  | some reported =>
    have apart : name ≠ reported := by
      rintro rfl
      exact other key h
    rw [owed_reportSetting w h, if_neg apart]

/-- Any change of one name, reported. -/
theorem reportSetting (environment : SameEnvironment u w) (key : String)
    (others : ∀ a, a ≠ key → w.state.sessionVars.get? a = u.state.sessionVars.get? a)
    (owed : w.connection.pendingParameterStatus = u.connection.pendingParameterStatus)
    (known : ∀ a ∈ w.state.knownSettings,
      a ∈ u.state.knownSettings ∨ checkSettable cat a = none) :
    Tracks cat u (reportSetting cat w key) := by
  obtain ⟨owed', heq⟩ := reportSetting_eq cat w key
  have same : SameEnvironment u (PgMimic.reportSetting cat w key) := by
    rw [heq]
    exact ⟨environment.username, environment.startupParams, environment.parameterStatus,
      environment.port⟩
  have state : (PgMimic.reportSetting cat w key).state = w.state := by
    rw [heq]
    rfl
  have reads (a : String) : settingValue cat (PgMimic.reportSetting cat w key) a =
      settingValue cat w a := by
    rw [heq]
    rfl
  refine ⟨same, fun a reported is_reported => ?_, fun name other => ?_, ?_⟩
  case refine_2 =>
    rw [unreported_reportSetting w key other, owed]
  case refine_3 =>
    rw [state]
    exact known
  by_cases mine : a = key
  · subst mine
    refine Or.inr ?_
    rw [owed_reportSetting w is_reported, if_pos rfl, reads]
  · refine Or.inl ⟨by rw [state]; exact others a mine, ?_⟩
    rw [← owed]
    cases h : reportedSettings.lookup key with
    | none => simp only [PgMimic.reportSetting, h]
    | some reported' =>
      have other : reported ≠ reported' := by
        rintro rfl
        exact mine (reported_injective is_reported h)
      rw [owed_reportSetting w h, if_neg other]

theorem applySetConfig (w : World Value Stmt Port) (key : String) (value : Option String)
    (isLocal : Bool) (answer : Answer) :
    Tracks cat w (applySetConfig cat w key value isLocal answer).1 := by
  have put (v : World Value Stmt Port) (s : SessionState Value Stmt Port)
      (stored : Option Value) (made : s.sessionVars = assign v.state.sessionVars key stored)
      (known : ∀ a ∈ s.knownSettings, a ∈ v.state.knownSettings ∨ checkSettable cat a = none) :
      Tracks cat v (PgMimic.reportSetting cat (v.withState s) key) := by
    have environment : SameEnvironment v (v.withState s) := ⟨rfl, rfl, rfl, rfl⟩
    refine reportSetting environment key ?_ rfl known
    intro a other
    rw [World.state_withState, made, get?_assign, if_neg other]
  have written (stored : Option Value) (settable : checkSettable cat key = none) :
      Tracks cat w (settingWritten cat w key stored isLocal) := by
    refine put w _ stored rfl (fun a member => ?_)
    rcases Finset.mem_insert.mp member with rfl | before
    · exact Or.inr settable
    · exact Or.inl before
  cases applied cat w key value isLocal answer with
  | unsettable e settable result => exact result ▸ refl w
  | unparsed e settable parsed result => exact result ▸ refl w
  | kept stored settable parsed stands result => exact result ▸ written stored settable
  | undone stored settable parsed falls result =>
    rw [result]
    refine (written stored settable).trans
      (put _ _ (w.state.sessionVars.get? key) rfl (fun a member => Or.inl ?_))
    simp only [recordSetting] at member
    split at member
    · exact member
    · exact Finset.mem_of_mem_erase member

theorem applyAll (isLocal : Bool) (assignments : List (String × Option String))
    (answers : List Answer) (w : World Value Stmt Port) :
    Tracks cat w (applyAll cat isLocal assignments answers w).1 :=
  applyAll_relates cat refl trans (fun w key value => applySetConfig w key value isLocal)
    assignments answers w

theorem notifyListeners (w : World Value Stmt Port) (channel payload : String) :
    Tracks cat w (w.notifyListeners channel payload) := by
  rw [World.notifyListeners]
  split
  · exact silent ⟨rfl, rfl, rfl, rfl⟩ rfl rfl rfl
  · split
    · exact refl w
    · exact silent ⟨rfl, rfl, rfl, rfl⟩ rfl rfl rfl

theorem foldl (raised : List (String × String)) (w : World Value Stmt Port) :
    Tracks cat w (raised.foldl (fun w entry => w.notifyListeners entry.1 entry.2) w) :=
  Outcomes.foldl_relates (R := fun _ => Tracks cat) refl
    (fun entry w => notifyListeners w entry.1 entry.2) trans raised w

theorem runAll (effects : List Effect) (answers : List Answer) (w : World Value Stmt Port) :
    Tracks cat w (World.runAll cat effects answers w).1 :=
  runAll_relates cat refl trans notifyListeners
    (fun w key value => applySetConfig w key value false) effects answers w

theorem syncListeners (w : World Value Stmt Port) : Tracks cat w w.syncListeners :=
  silent ⟨rfl, rfl, rfl, rfl⟩ rfl rfl rfl

theorem withTxStatus (w : World Value Stmt Port) (t : TxStatus) :
    Tracks cat w (w.withTxStatus t) := silent ⟨rfl, rfl, rfl, rfl⟩ rfl rfl rfl

theorem syncOutside (w : World Value Stmt Port) : Tracks cat w w.syncOutside := by
  rw [World.syncOutside]
  split
  · exact syncListeners w
  · exact refl w

theorem fail (w : World Value Stmt Port) : Tracks cat w w.fail := by
  rw [World.fail]
  split
  · exact refl w
  · exact withTxStatus w .E

/-- After a report of each of several names, what is owed under a spelling is the value
of the name reported under it, if that is one of them. -/
theorem owed_foldl_reportSetting (names : List String) (w : World Value Stmt Port)
    {key reported : String} (h : reportedSettings.lookup key = some reported) :
    (names.foldl (PgMimic.reportSetting cat) w).connection.pendingParameterStatus.get? reported =
      if key ∈ names then settingValue cat w key
      else w.connection.pendingParameterStatus.get? reported := by
  induction names generalizing w with
  | nil => simp
  | cons name names ih =>
    have reads : settingValue cat (PgMimic.reportSetting cat w name) key =
        settingValue cat w key := by
      obtain ⟨owed, heq⟩ := reportSetting_eq cat w name
      rw [heq]
      rfl
    rw [List.foldl_cons, ih, reads]
    by_cases later : key ∈ names
    · rw [if_pos later, if_pos (List.mem_cons_of_mem name later)]
    · rw [if_neg later]
      by_cases mine : key = name
      · subst mine
        rw [if_pos (List.mem_cons_self ..), owed_reportSetting w h, if_pos rfl]
      · have absent : key ∉ name :: names := by
          rw [List.mem_cons, not_or]
          exact ⟨mine, later⟩
        rw [if_neg absent]
        cases h' : reportedSettings.lookup name with
        | none => simp only [PgMimic.reportSetting, h']
        | some reported' =>
          have other : reported ≠ reported' := by
            rintro rfl
            exact mine (reported_injective h h')
          rw [owed_reportSetting w h', if_neg other]

theorem unreported_foldl_reportSetting (names : List String) (w : World Value Stmt Port)
    {name : String} (other : ∀ key, reportedSettings.lookup key ≠ some name) :
    (names.foldl (PgMimic.reportSetting cat) w).connection.pendingParameterStatus.get? name =
      w.connection.pendingParameterStatus.get? name := by
  induction names generalizing w with
  | nil => rfl
  | cons key names ih =>
    rw [List.foldl_cons, ih, unreported_reportSetting w key other]

/-- DISCARD ALL reports every name it drops before it forgets them all. -/
theorem discardStatement (w : World Value Stmt Port) (kind : DiscardKind)
    (answers : List Answer) : Tracks cat w (World.discardStatement cat w kind answers).1 := by
  have dropped : Tracks cat w (resetAll cat answers.tail w).1 := applyAll false _ _ w
  cases discarded cat w kind answers with
  | nothing failed _ result => exact result ▸ refl w
  | stopped all idle told w' failure stopped result =>
    rw [stopped] at dropped
    exact result ▸ dropped
  | all all idle told w' done result =>
    have empty := resetAll_empties cat answers.tail w (by rw [done])
    rw [done] at empty dropped
    have forgotten : Tracks cat w' (w'.withState w'.state.reset) := by
      refine ⟨⟨rfl, rfl, rfl, rfl⟩, fun key reported _ => Or.inl ⟨?_, rfl⟩,
        fun name _ => rfl, fun key member => Or.inl member⟩
      rw [empty]
      rfl
    rw [result]
    exact (dropped.trans forgotten).trans (syncListeners _)

theorem assignmentStatement (w : World Value Stmt Port)
    (assignments : List (String × Option String)) (isLocal : Bool) (answers : List Answer) :
    Tracks cat w (World.assignmentStatement cat w assignments isLocal answers).1 := by
  rcases assignmentStatement_cases cat w assignments isLocal answers with
    ⟨_, result⟩ | ⟨_, _, result⟩ | ⟨_, _, result⟩
  · rw [result]
    exact silent ⟨rfl, rfl, rfl, rfl⟩ rfl rfl rfl
  · rw [result]
    exact refl w
  · rw [result]
    exact applyAll isLocal assignments answers w

variable [DecidableEq Value]

/-- Any change of the settings, every difference reported. -/
theorem reportChanged (w : World Value Stmt Port) (s : SessionState Value Stmt Port)
    (known : s.knownSettings = w.state.knownSettings) :
    Tracks cat w (reportChanged cat w.state.sessionVars (w.withState s)) := by
  obtain ⟨owed, heq⟩ := reportChanged_eq cat w.state.sessionVars (w.withState s)
  have state : (PgMimic.reportChanged cat w.state.sessionVars (w.withState s)).state = s := by
    rw [heq]
    rfl
  have environment : SameEnvironment w
      (PgMimic.reportChanged cat w.state.sessionVars (w.withState s)) := by
    rw [heq]
    exact ⟨rfl, rfl, rfl, rfl⟩
  have reads (key : String) : settingValue cat
      (PgMimic.reportChanged cat w.state.sessionVars (w.withState s)) key =
        settingValue cat (w.withState s) key := by
    rw [heq]
    rfl
  have unreported (name : String) (other : ∀ key, reportedSettings.lookup key ≠ some name) :
      (PgMimic.reportChanged cat w.state.sessionVars
        (w.withState s)).connection.pendingParameterStatus.get? name =
          w.connection.pendingParameterStatus.get? name :=
    unreported_foldl_reportSetting _ (w.withState s) other
  have settable : ∀ key ∈ (PgMimic.reportChanged cat w.state.sessionVars
      (w.withState s)).state.knownSettings,
        key ∈ w.state.knownSettings ∨ checkSettable cat key = none := by
    rw [state, known]
    exact fun key member => Or.inl member
  refine ⟨environment, fun key reported is_reported => ?_, unreported, settable⟩
  have owes : (PgMimic.reportChanged cat w.state.sessionVars
      (w.withState s)).connection.pendingParameterStatus.get? reported =
        if key ∈ (w.state.sessionVars.keys ++ s.sessionVars.keys).filter fun name =>
          w.state.sessionVars.get? name ≠ s.sessionVars.get? name
        then settingValue cat (w.withState s) key
        else w.connection.pendingParameterStatus.get? reported :=
    owed_foldl_reportSetting _ (w.withState s) is_reported
  by_cases moved : w.state.sessionVars.get? key = s.sessionVars.get? key
  · refine Or.inl ⟨by rw [state, moved], ?_⟩
    rw [if_neg (by simp [moved])] at owes
    exact owes
  · refine Or.inr ?_
    have held : key ∈ w.state.sessionVars.keys ++ s.sessionVars.keys := by
      by_contra absent
      rw [List.mem_append, not_or] at absent
      apply moved
      rw [show w.state.sessionVars.get? key = none from Dict.find_eq_none_iff.mpr absent.1,
        show s.sessionVars.get? key = none from Dict.find_eq_none_iff.mpr absent.2]
    have member : key ∈ (w.state.sessionVars.keys ++ s.sessionVars.keys).filter fun name =>
        w.state.sessionVars.get? name ≠ s.sessionVars.get? name := by
      rw [List.mem_filter]
      exact ⟨held, by simpa using moved⟩
    rw [if_pos member] at owes
    rw [reads]
    exact owes

theorem endTransaction (w : World Value Stmt Port) (committed : Bool) :
    Tracks cat w (World.endTransaction cat w committed) := by
  cases committed with
  | false =>
    have known : w.state.endTransaction.knownSettings = w.state.knownSettings :=
      SessionState.knownSettings_restoreScope w.state 0
    exact (reportChanged w w.state.endTransaction known).trans (syncListeners _)
  | true =>
    refine ((reportChanged w w.state.commitTransaction rfl).trans ?_).trans (syncListeners _)
    rw [World.flushPendingNotifies_eq]
    exact silent ⟨rfl, rfl, rfl, rfl⟩ rfl rfl rfl

theorem transactionStatement (w : World Value Stmt Port) (tag : TransactionTag) :
    Tracks cat w (World.transactionStatement cat w tag) := by
  have cleared (v : World Value Stmt Port) :
      Tracks cat v (v.withState { v.state with savepoints := [] }) :=
    silent ⟨rfl, rfl, rfl, rfl⟩ rfl rfl rfl
  by_cases begins : tag = .begin
  · subst begins
    by_cases redundant : w.txStatus = .T
    · rw [World.transactionStatement_redundant cat w redundant]
      exact withTxStatus w .T
    · simp only [World.transactionStatement, redundant, and_false, if_false]
      exact silent ⟨rfl, rfl, rfl, rfl⟩ rfl rfl rfl
  · by_cases idle : w.txStatus = .I
    · rw [World.transactionStatement_idle cat w begins idle]
      exact (withTxStatus w .I).trans (cleared _)
    · rw [World.transactionStatement_end cat w begins idle]
      exact ((withTxStatus w .I).trans (cleared _)).trans (endTransaction _ _)

theorem savepointStatement (w : World Value Stmt Port) (kind : SavepointKind) (name : String) :
    Tracks cat w (World.savepointStatement cat w kind name).1 := by
  by_cases idle : w.txStatus = .I
  · simp only [World.savepointStatement, if_pos idle]
    exact refl w
  · simp only [World.savepointStatement, if_neg idle]
    cases kind with
    | savepoint => exact silent ⟨rfl, rfl, rfl, rfl⟩ rfl rfl rfl
    | release =>
      cases innermost w.state.savepoints name with
      | none => exact refl w
      | some index => exact silent ⟨rfl, rfl, rfl, rfl⟩ rfl rfl rfl
    | rollbackTo =>
      cases innermost w.state.savepoints name with
      | none => exact refl w
      | some index =>
        have known := SessionState.knownSettings_restoreScope ({ w.state with
          savepoints := w.state.savepoints.take (index + 1) } : SessionState Value Stmt Port)
          (index + 1)
        exact ((reportChanged w _ known).trans (syncListeners _)).trans (withTxStatus _ .T)

theorem onExecute (w : World Value Stmt Port) (r : Request) :
    Tracks cat w (World.onExecute cat w r).1 := by
  obtain ⟨statement, answers⟩ := r
  have heard (listening : Finset String) : Tracks cat w
      (w.withState { w.state with listening := listening }).syncOutside := by
    have asked : Tracks cat w (w.withState { w.state with listening := listening }) :=
      silent ⟨rfl, rfl, rfl, rfl⟩ rfl rfl rfl
    exact asked.trans (syncOutside _)
  cases statement with
  | transaction tag => exact transactionStatement w tag
  | savepoint kind name => exact savepointStatement w kind name
  | assignment assignments isLocal => exact assignmentStatement w assignments isLocal answers
  | resetAll => exact applyAll false _ answers w
  | discard kind => exact discardStatement w kind answers
  | listen channel => exact heard _
  | unlisten channel => exact heard _
  | notify channel payload => exact notifyListeners w channel payload
  | select effects => exact runAll effects answers w
  | query raised => exact foldl raised w

/-- Whatever the statement, and however it ends. -/
theorem execute (w : World Value Stmt Port) (r : Request) :
    Tracks cat w (World.execute cat w r).1 := by
  by_cases refused : w.txStatus = .E ∧ r.statement.allowedInFailedTransaction = false
  · rw [World.execute, if_pos refused]
    exact fail w
  · have made : Tracks cat w (World.onExecute cat w r).1 := onExecute w r
    rw [World.execute, if_neg refused]
    cases h : World.onExecute cat w r with
    | mk w' failed =>
      rw [h] at made
      cases failed with
      | none => exact made
      | some failure => exact made.trans (fail w')

end Tracks

/-! ## What the client has been told -/

theorem latest_entries (d : Dict String String) (name : String) :
    latest d.entries name = d.get? name := by
  have lists (l : List (String × String)) (distinct : (l.map Prod.fst).Nodup) :
      latest l name = Dict.find name l := by
    induction l with
    | nil => rfl
    | cons p rest ih =>
      rw [List.map_cons, List.nodup_cons] at distinct
      rw [latest, ih distinct.2, Dict.find]
      by_cases here : p.1 = name
      · have absent : Dict.find name rest = none :=
          Dict.find_eq_none_iff.mpr (here ▸ distinct.1)
        simp only [absent, if_pos here]
      · simp only [if_neg here]
        cases Dict.find name rest <;> rfl
  exact lists d.entries d.distinct

/-- The names only the startup burst reports. No session may set them. -/
def burstSettings : List (String × String) :=
  [("server_version", "server_version"), ("server_encoding", "server_encoding"),
    ("integer_datetimes", "integer_datetimes")]

/-- What `pg_settings.json` says of them. -/
structure Catalogue.FixesBurst (cat : Catalogue Value) : Prop where
  context : ∀ p ∈ burstSettings, cat.context p.1 = some "internal"
  integerDatetimes : cat.default "integer_datetimes" = some "on"

/-- Of every reported name the client has heard of, it has the value or is owed it. Of
any other it has what the burst said, and the name has never been set. -/
structure Coherent (cat : Catalogue Value) (serverVersion : String)
    (d : Dialogue Value Stmt Port) : Prop where
  server : d.world.server.parameterStatus = parameterStatus serverVersion
  reported : ∀ key reported, reportedSettings.lookup key = some reported →
    match d.world.connection.pendingParameterStatus.get? reported with
    | some value => settingValue cat d.world key = some value
    | none => ∀ value, latest d.sent reported = some value →
      settingValue cat d.world key = some value
  unowed : ∀ name, (∀ key, reportedSettings.lookup key ≠ some name) →
    d.world.connection.pendingParameterStatus.get? name = none
  burst : ∀ name, (∀ key, reportedSettings.lookup key ≠ some name) →
    latest d.sent name = (parameterStatus serverVersion).get? name
  remembered : Remembered d.world.state
  settable : ∀ key ∈ d.world.state.knownSettings, checkSettable cat key = none

namespace Coherent

variable {cat : Catalogue Value} {serverVersion : String} {d : Dialogue Value Stmt Port}

theorem tracks (h : Coherent cat serverVersion d) {w : World Value Stmt Port}
    (moved : Tracks cat d.world w) (remembered : Remembered w.state) :
    Coherent cat serverVersion { d with world := w } where
  server := moved.environment.parameterStatus.trans h.server
  reported := by
    intro key reported is_reported
    have before := h.reported key reported is_reported
    rcases moved.owes key reported is_reported with ⟨same, owed⟩ | paid
    · have reads : settingValue cat w key = settingValue cat d.world key :=
        settingValue_of_same moved.environment is_reported same
      simp only [owed, reads]
      exact before
    · obtain ⟨text, htext⟩ := settingValue_isSome cat w is_reported
      simp only [paid, htext]
  unowed := fun name other => (moved.unreported name other).trans (h.unowed name other)
  burst := h.burst
  remembered := remembered
  settable := by
    intro key member
    rcases moved.known key member with before | settable
    · exact h.settable key before
    · exact settable

/-- Paid, the debt is gone and the client up to date. -/
theorem flush (h : Coherent cat serverVersion d) :
    Coherent cat serverVersion d.flushParameterStatus where
  server := h.server
  reported := by
    intro key reported is_reported
    have before := h.reported key reported is_reported
    change ∀ value, latest (d.sent ++ d.world.connection.pendingParameterStatus.entries) reported =
      some value → settingValue cat d.flushParameterStatus.world key = some value
    intro value told
    rw [latest_append, latest_entries] at told
    have reads : settingValue cat d.flushParameterStatus.world key =
        settingValue cat d.world key := rfl
    rw [reads]
    cases owed : d.world.connection.pendingParameterStatus.get? reported with
    | some text =>
      simp only [owed] at before told
      rw [before]
      exact told
    | none =>
      simp only [owed] at before told
      exact before value told
  unowed := fun name _ => rfl
  burst := by
    intro name other
    have unowed := h.unowed name other
    have paid : latest d.flushParameterStatus.sent name = latest d.sent name := by
      simp only [Dialogue.flushParameterStatus, latest_append, latest_entries, unowed,
        Option.none_or]
    exact paid.trans (h.burst name other)
  remembered := h.remembered
  settable := h.settable

/-- A name no client may set is never held. -/
theorem unset (h : Coherent cat serverVersion d) {key : String}
    (refused : checkSettable cat key ≠ none) : d.world.state.sessionVars.get? key = none := by
  by_contra held
  exact refused (h.settable key (h.remembered.vars key (Or.inl held)))

/-- With nothing owed, whatever the client was told last holds. -/
theorem told (h : Coherent cat serverVersion d) (fixed : cat.FixesBurst)
    (paid : d.world.connection.pendingParameterStatus = ∅) {name value : String}
    (told : latest d.sent name = some value) :
    ∃ key, (reportedSettings ++ burstSettings).lookup key = some name ∧
      settingValue cat d.world key = some value := by
  by_cases is_reported : ∃ key, reportedSettings.lookup key = some name
  · obtain ⟨key, is_reported⟩ := is_reported
    refine ⟨key, by rw [List.lookup_append, is_reported]; rfl, ?_⟩
    have owed := h.reported key name is_reported
    simp only [paid, Dict.get?_empty] at owed
    exact owed value told
  · have other : ∀ key, reportedSettings.lookup key ≠ some name :=
      fun key is_reported' => is_reported ⟨key, is_reported'⟩
    rw [h.burst name other] at told
    have refused (p : String × String) (member : p ∈ burstSettings)
        (undotted : '.' ∉ p.1.toList) : checkSettable cat p.1 ≠ none := by
      rw [checkSettable, if_neg undotted, fixed.context p member]
      simp
    rcases parameterStatus_cases told with
      ⟨rfl, rfl⟩ | ⟨rfl, rfl⟩ | ⟨rfl, rfl⟩ | ⟨key, is_reported'⟩
    · have unset := h.unset (refused ("server_version", "server_version") (by decide) (by decide))
      have shown : defaultSetting d.world.connection d.world.server "server_version" =
          some ((d.world.server.parameterStatus.get? "server_version").getD "") := rfl
      refine ⟨"server_version", rfl, ?_⟩
      simp only [settingValue, unset, shown, h.server, told, Option.getD_some]
    · have unset := h.unset (refused ("server_encoding", "server_encoding") (by decide) (by decide))
      have shown : defaultSetting d.world.connection d.world.server "server_encoding" =
          some ((d.world.server.parameterStatus.get? "server_encoding").getD "UTF8") := rfl
      refine ⟨"server_encoding", rfl, ?_⟩
      simp only [settingValue, unset, shown, h.server, told, Option.getD_some]
    · have unset := h.unset
        (refused ("integer_datetimes", "integer_datetimes") (by decide) (by decide))
      have silent : defaultSetting d.world.connection d.world.server "integer_datetimes" = none :=
        rfl
      refine ⟨"integer_datetimes", rfl, ?_⟩
      simp only [settingValue, unset, silent, fixed.integerDatetimes]
    · exact False.elim (is_reported ⟨key, is_reported'⟩)

end Coherent

namespace Dialogue

/-- The startup burst tells the defaults: of the reported names it has those the server
answers for, and the `application_name` of this client. -/
theorem start_coherent (cat : Catalogue Value) (pid : Pid) (username : String)
    (startupParams : Dict String String) (registry : Registry) (serverVersion : String)
    (port : Nat) : Coherent cat serverVersion (start pid username startupParams
      ⟨registry, parameterStatus serverVersion, port⟩ : Dialogue Value Stmt Port) := by
  have absent : ((parameterStatus serverVersion).get? "application_name").isSome = false := by
    rw [get?_parameterStatus, if_neg (by decide)]
    decide
  have sent (name : String) : latest (startupBurst
      ⟨registry, parameterStatus serverVersion, port⟩ startupParams) name =
        if "application_name" = name then some ((startupParams.get? "application_name").getD "")
        else (parameterStatus serverVersion).get? name := by
    simp only [startupBurst, absent, Bool.false_eq_true, if_false, latest_append, latest_entries,
      latest]
    by_cases mine : "application_name" = name
    · simp only [if_pos mine, Option.some_or]
    · simp only [if_neg mine, Option.none_or]
  refine ⟨rfl, ?_, fun name _ => rfl, ?_, Remembered.initial, fun key member => ?_⟩
  · intro key reported is_reported
    have member := mem_of_reported is_reported
    change ∀ value, latest (startupBurst _ startupParams) reported = some value → _
    intro value told
    rw [sent, get?_parameterStatus] at told
    simp only [reportedSettings, List.mem_cons, Prod.mk.injEq, List.not_mem_nil, or_false] at member
    rcases member with ⟨rfl, rfl⟩ | ⟨rfl, rfl⟩ | ⟨rfl, rfl⟩ | ⟨rfl, rfl⟩ | ⟨rfl, rfl⟩ | ⟨rfl, rfl⟩ |
      ⟨rfl, rfl⟩ | ⟨rfl, rfl⟩ | ⟨rfl, rfl⟩ <;>
    simp [Dict.find] at told <;>
    subst told <;>
    rfl
  · intro name other
    have apart : "application_name" ≠ name := by
      rintro rfl
      exact other "application_name" (by decide)
    exact (sent name).trans (if_neg apart)
  · exact absurd member (Finset.notMem_empty key)

theorem step_coherent [DecidableEq Value] {cat : Catalogue Value} {serverVersion : String}
    {d v : Dialogue Value Stmt Port} {e : Event} (h : Coherent cat serverVersion d)
    (stepped : step cat d e = some v) : Coherent cat serverVersion v := by
  cases e with
  | request r =>
    obtain rfl := Option.some.inj stepped
    exact h.tracks (Tracks.execute d.world r) (h.remembered.move (execute_move cat d.world r))
  | elsewhere registry =>
    obtain rfl := Option.some.inj stepped
    exact h.tracks (Tracks.silent ⟨rfl, rfl, rfl, rfl⟩ rfl rfl rfl) h.remembered
  | readyForQuery =>
    obtain rfl := Option.some.inj stepped
    exact h.flush

/-- At every ReadyForQuery of every run, and at the one that ends the startup, whatever
parameter the client was ever sent, the last value it was sent is the one the parameter
has. -/
theorem parameter_cache_coherent [DecidableEq Value] (cat : Catalogue Value)
    (fixed : cat.FixesBurst) (pid : Pid) (username : String) (startupParams : Dict String String)
    (registry : Registry) (serverVersion : String) (port : Nat) (events : List Event)
    (d : Dialogue Value Stmt Port)
    (ran : Trace.run (step cat)
      (start pid username startupParams ⟨registry, parameterStatus serverVersion, port⟩)
      events = some d)
    (ready : events = [] ∨ ∃ earlier, events = earlier ++ [.readyForQuery])
    (name value : String) (told : latest d.sent name = some value) :
    ∃ key, (reportedSettings ++ burstSettings).lookup key = some name ∧
      settingValue cat d.world key = some value := by
  have coherent : Coherent cat serverVersion d := Trace.run_invariant
    (Coherent cat serverVersion)
    (start_coherent cat pid username startupParams registry serverVersion port)
    (fun _ _ _ h stepped => step_coherent h stepped) ran
  have paid : d.world.connection.pendingParameterStatus = ∅ := by
    rcases ready with rfl | ⟨earlier, rfl⟩
    · obtain rfl := Option.some.inj ran
      rfl
    · rw [Trace.run_append] at ran
      obtain ⟨u, _, last⟩ := Option.bind_eq_some_iff.mp ran
      obtain rfl := Option.some.inj last
      rfl
  exact coherent.told fixed paid told

/-- The catalogue of `search_path` and the names of the burst. -/
def burstCatalogue : Catalogue String where
  context name :=
    if name = "search_path" then some "user"
    else if name ∈ burstSettings.map Prod.fst then some "internal" else none
  default name :=
    if name = "search_path" then some "\"$user\", public"
    else if name ∈ burstSettings.map Prod.fst then some "on" else none
  parse _ text := .ok text
  render _ value := value
  entry name := by
    by_cases path : name = "search_path"
    · simp [path]
    · by_cases burst : name ∈ burstSettings.map Prod.fst <;> simp [path, burst]

/-- A name set, set back by a rollback, and set for the transaction only. -/
def setAndRolledBack : List Event :=
  [.request ⟨.transaction .begin, []⟩,
    .request ⟨.assignment [("search_path", some "app")] false, []⟩, .readyForQuery,
    .request ⟨.transaction .rollback, []⟩, .readyForQuery]

theorem setAndRolledBack_coherent :
    ∃ d : Dialogue String Unit Unit,
      Trace.run (step burstCatalogue)
        (start 1 "app" ∅ ⟨fun _ => none, parameterStatus "16.0", 5432⟩) setAndRolledBack = some d ∧
      latest d.sent "search_path" = some "\"$user\", public" ∧
      ∃ key, (reportedSettings ++ burstSettings).lookup key = some "search_path" ∧
        settingValue burstCatalogue d.world key = some "\"$user\", public" := by
  have fixed : burstCatalogue.FixesBurst := ⟨by decide, by decide⟩
  refine ⟨_, rfl, by decide, ?_⟩
  exact parameter_cache_coherent burstCatalogue fixed 1 "app" ∅ (fun _ => none) "16.0" 5432
    setAndRolledBack _ rfl (Or.inr ⟨setAndRolledBack.take 4, rfl⟩) "search_path" _ (by decide)

end Dialogue

end PgMimic

import PgMimic.PreparedStatements

/-!
# Where the two protocols agree

Both come to the execution of one portal, from worlds that differ in the unnamed entries
only. What is left to compare is what each looks at before it, and what each makes of the
rows and of what is raised.
-/

namespace PgMimic.Protocols

open PgMimic.Copy (Text)
open PgMimic.Endpoint (TextTables asciiTables)
open PgMimic.StatementText

variable {Value Stmt Portal Cell : Type}

/-! ## When they agree -/

section Agreement

variable (t : TextTables) (s : Session Value Stmt Portal Cell)

/-- What is raised first by two calls. -/
def firstRaised {α β : Type} : Except Failure α → Except Failure β → Option Failure
  | .error failure, _ => some failure
  | .ok _, .error failure => some failure
  | .ok _, .ok _ => none

/-- The rows of a portal, sent up to where something is raised, or how many there were. -/
def drain (w : W Value Stmt Portal) (columns : Columns) (portal : Portal) :
    W Value Stmt Portal × List Reply × Except Raised Nat :=
  match executePortal s w portal 0 with
  | (w', .error failure) => (w', [], .error (.other failure))
  | (w', .ok (rows, _)) =>
    (w', (sendRows s columns rows).1,
      match (sendRows s columns rows).2 with
      | none => .ok rows.length
      | some raised => .error raised)

/-- A failure with this SQLSTATE that leaves the connection as a refusal does. -/
structure LikeRefusal (w w' : W Value Stmt Portal) (failure : Failure) (state : String) : Prop where
  sqlstate : sqlstate failure = state
  state : ApartState w.state w'.state
  txStatus : w'.fail.txStatus = w.fail.txStatus

/-- The rows end before the first in what a refusal would have been. -/
def RefusesItself (w : W Value Stmt Portal) (columns : Columns) (portal : Portal) : Prop :=
  ∃ w' failure, drain s w columns portal = (w', [], .error (.other failure)) ∧
    LikeRefusal w w' failure "25P02"

/-- What the execution of a statement that has been bound must meet. -/
structure AgreedRun (w : W Value Stmt Portal) (sql : Text) (statement : Stmt) (columns : Columns)
    (portal : Portal) : Prop where
  /-- The raw text is refused, and the statement's own is not. -/
  raw : refused t w sql = true → refused t w (s.sql statement) = false →
    (∀ copied, s.copyOf portal = some copied → ∃ w' failure,
      s.copy w copied = (w', .error failure) ∧ LikeRefusal w w' failure "25P02") ∧
    (s.copyOf portal = none → RefusesItself s w columns portal)
  /-- The statement's own text is refused, and the raw text is not. -/
  own : refused t w sql = false → refused t w (s.sql statement) = true →
    RefusesItself s w columns portal
  /-- A COPY fails as its portal would, had it been executed. -/
  copied : refused t w sql = false → refused t w (s.sql statement) = false →
    ∀ copied, s.copyOf portal = some copied → ∃ w' failure,
      s.copy w copied = (w', .error failure) ∧ LikeRefusal w w' failure "XX000"
  /-- The encoder raises no ValueError. -/
  encoded : refused t w sql = false → refused t w (s.sql statement) = false →
    s.copyOf portal = none → ∀ text, (drain s w columns portal).2.2 ≠ .error (.valueError text)
  /-- A statement without a text has the tag of the raw text. -/
  tagged : refused t w sql = false → refused t w (s.sql statement) = false →
    s.copyOf portal = none → s.sql statement = [] →
    ∀ n, (drain s w columns portal).2.2 = .ok n → commandTag t sql n = commandTag t [] n

/-- What the two protocols agree under. -/
structure Agreed (w : W Value Stmt Portal) (sql : Text) : Prop where
  unprepared : ∀ failure, s.prepare w sql = .error failure → refused t w sql = true →
    sqlstate failure = "25P02"
  unbound : ∀ statement f g, s.prepare w sql = .ok statement →
    firstRaised (s.describe w statement) (s.bind w statement) = some f →
    firstRaised (s.bind w statement) (s.describe w statement) = some g →
    sqlstate g = if refused t w sql then "25P02" else sqlstate f
  run : ∀ statement columns portal, s.prepare w sql = .ok statement →
    s.describe w statement = .ok columns → s.bind w statement = .ok portal →
    AgreedRun t s w sql statement columns portal

end Agreement

/-! ## What each run comes to -/

section Runs

theorem observed_append (front later : List Reply) : observed (front ++ later) =
    ⟨(observed front).rows ++ (observed later).rows, (observed front).tags ++ (observed later).tags,
      (observed front).errors ++ (observed later).errors⟩ := by
  simp only [observed, List.filterMap_append]

theorem observed_ready (replies : List Reply) (status : TxStatus) :
    observed (replies ++ [.readyForQuery status]) = observed replies := by
  rw [observed_append]
  simp [observed, rowOf, tagOf, errorOf]

/-- The world after a handler, and what the client has seen of it. -/
def settled : Handled Value Stmt Portal → W Value Stmt Portal × Observed
  | (w, written, none) => (w, observed written)
  | (w, written, some failure) => (w.fail, observed (written ++ [.errorResponse (sqlstate failure)]))

/-- Where a run ends and what it has sent. -/
def seen (c : Loop Value Stmt Portal) : W Value Stmt Portal × Observed := (c.world, observed c.replies)

variable (t : TextTables) (s : Session Value Stmt Portal Cell)
  (tokenize : Text → Option (List Semicolon))

theorem splitStatements_of_one {sql : Text} (one : OneStatement tokenize sql) :
    splitStatements tokenize sql = [sql] := by
  have single := one.single
  rw [splitStatements] at single ⊢
  cases found : tokenize sql with
  | none => rfl
  | some tokens =>
    simp only [found] at single ⊢
    by_cases several :
        1 < ((pieces sql 0 tokens).filter fun piece => Endpoint.strip piece ≠ []).length
    · rw [if_pos several] at single
      omega
    · rw [if_neg several]

theorem executeAll_one (w : W Value Stmt Portal) (sql : Text) :
    executeAll t s w [sql] = executeOneSimpleStatement t s w sql := by
  rw [executeAll]
  cases run : executeOneSimpleStatement t s w sql with
  | mk w' rest =>
    obtain ⟨written, failure⟩ := rest
    cases failure with
    | none => simp only [executeAll, List.append_nil]
    | some failure => rfl

theorem seen_report (w : W Value Stmt Portal) (handled : Handled Value Stmt Portal) :
    seen (report (ready w) handled) = settled handled := by
  obtain ⟨w', written, failure⟩ := handled
  cases failure with
  | none => rfl
  | some failure => rfl

theorem seen_viaQuery {sql : Text} (one : OneStatement tokenize sql) (w : W Value Stmt Portal) :
    seen (viaQuery t s tokenize w sql) = settled (executeOneSimpleStatement t s w sql) := by
  have whole : handle t s tokenize w (.query sql) = executeOneSimpleStatement t s w sql := by
    rw [handle, handleSimpleQuery, if_neg one.nonempty, splitStatements_of_one tokenize one,
      executeAll_one]
  rw [← seen_report w, ← whole]
  exact Prod.ext rfl (observed_ready _ _)

/-- What the extended protocol has stored when it gets to Execute. -/
def stored (w : W Value Stmt Portal) (statement : Stmt) (entry : PortalEntry Portal) :
    W Value Stmt Portal :=
  let parsed := w.withState { w.state with statements := w.state.statements.set "" statement }
  parsed.withState { parsed.state with portals := parsed.state.portals.set "" entry }

theorem apart_stored (w : W Value Stmt Portal) (statement : Stmt) (entry : PortalEntry Portal) :
    Apart w (stored w statement entry) :=
  (apart_statement w statement).trans (apart_portal _ entry)

theorem get?_stored (w : W Value Stmt Portal) (statement : Stmt) (entry : PortalEntry Portal) :
    (stored w statement entry).state.portals.get? "" = some entry := by
  simp only [stored, World.state_withState, Dict.get?_set, if_true]

variable {t s} {w : W Value Stmt Portal} {sql : Text}

theorem seen_unprepared {failure : Failure} (prepared : s.prepare w sql = .error failure) :
    seen (viaExtended t s tokenize w sql) = settled (w, [], some failure) := by
  have parse : dispatch t s tokenize (ready w) (.parse "" sql) =
      report (ready w) (w, [], some failure) := by
    simp only [dispatch, ready, handle, handleParse, prepared, Bool.false_eq_true, if_false]
  simp only [viaExtended, List.foldl_cons, List.foldl_nil, parse]
  exact Prod.ext rfl (observed_ready _ _)

/-- The connection after Parse. -/
theorem dispatch_parse {statement : Stmt} (prepared : s.prepare w sql = .ok statement) :
    dispatch t s tokenize (ready w) (.parse "" sql) =
      ⟨w.withState { w.state with statements := w.state.statements.set "" statement }, false,
        [.parseComplete]⟩ := by
  simp only [dispatch, ready, handle, handleParse, prepared, report, Bool.false_eq_true, if_false,
    List.nil_append]

theorem seen_unbound (contract : s.Contract) {statement : Stmt} {failure : Failure}
    (prepared : s.prepare w sql = .ok statement)
    (unbound : firstRaised (s.bind w statement) (s.describe w statement) = some failure) :
    ∃ v, Apart w v ∧ seen (viaExtended t s tokenize w sql) = settled (v, [], some failure) := by
  have apart := apart_statement w statement
  refine ⟨_, apart, ?_⟩
  have bind : handleBind s (w.withState
      { w.state with statements := w.state.statements.set "" statement }) "" "" =
      (w.withState { w.state with statements := w.state.statements.set "" statement }, [],
        some failure) := by
    simp only [handleBind, World.state_withState, Dict.get?_set, if_true]
    rw [contract.bind statement apart, contract.describe statement apart]
    cases bound : s.bind w statement with
    | error f =>
      rw [bound, firstRaised, Option.some.injEq] at unbound
      rw [unbound]
    | ok portal =>
      cases described : s.describe w statement with
      | error f =>
        rw [bound, described, firstRaised, Option.some.injEq] at unbound
        simp only [unbound]
      | ok columns =>
        rw [bound, described, firstRaised] at unbound
        cases unbound
  simp only [viaExtended, List.foldl_cons, List.foldl_nil, dispatch_parse tokenize prepared]
  simp only [dispatch, handle, bind, report, Bool.false_eq_true, if_false, if_true]
  refine Prod.ext rfl ((observed_ready _ _).trans ?_)
  rw [List.append_nil, observed_append]
  simp [settled, observed, rowOf, tagOf, errorOf]

theorem seen_bound (contract : s.Contract) {statement : Stmt} {columns : Columns} {portal : Portal}
    (prepared : s.prepare w sql = .ok statement) (described : s.describe w statement = .ok columns)
    (bound : s.bind w statement = .ok portal) :
    seen (viaExtended t s tokenize w sql) = settled
      (handleExecute t s (stored w statement ⟨portal, columns, s.sql statement, 0⟩) "" 0) := by
  have apart := apart_statement w statement
  have bind : handleBind s (w.withState
      { w.state with statements := w.state.statements.set "" statement }) "" "" =
      (stored w statement ⟨portal, columns, s.sql statement, 0⟩, [.bindComplete], none) := by
    simp only [handleBind, World.state_withState, Dict.get?_set, if_true]
    rw [contract.bind statement apart, contract.describe statement apart, described, bound]
    rfl
  simp only [viaExtended, List.foldl_cons, List.foldl_nil, dispatch_parse tokenize prepared]
  simp only [dispatch, handle, bind, report, Bool.false_eq_true, if_false]
  obtain ⟨w', written, failure⟩ :=
    handleExecute t s (stored w statement ⟨portal, columns, s.sql statement, 0⟩) "" 0
  cases failure with
  | none => exact Prod.ext rfl ((observed_ready _ _).trans rfl)
  | some failure => exact Prod.ext rfl ((observed_ready _ _).trans rfl)

end Runs

/-! ## What is left to compare -/

section Comparison

/-- Two runs that end alike, by where they end and what has been seen. -/
structure Same (a b : W Value Stmt Portal × Observed) : Prop where
  state : ApartState a.1.state b.1.state
  txStatus : a.1.txStatus = b.1.txStatus
  observed : a.2 = b.2

theorem alike_iff (a b : Loop Value Stmt Portal) : Alike a b ↔ Same (seen a) (seen b) :=
  ⟨fun h => ⟨h.state, h.txStatus, h.observed⟩, fun h => ⟨h.state, h.txStatus, h.observed⟩⟩

theorem Same.symm {a b : W Value Stmt Portal × Observed} (h : Same a b) : Same b a :=
  ⟨h.state.symm, h.txStatus.symm, h.observed.symm⟩

theorem same_comm (a b : W Value Stmt Portal × Observed) : Same a b ↔ Same b a :=
  ⟨Same.symm, Same.symm⟩

/-- Nothing that is compared. -/
def Unseen (written : List Reply) : Prop := observed written = ⟨[], [], []⟩

variable {v v' w w' : W Value Stmt Portal} {f : Failure} {code : String}

theorem LikeRefusal.of_apart (apart : Apart w v) (apart' : Apart w' v')
    (h : LikeRefusal w w' f code) : LikeRefusal v v' f code where
  sqlstate := h.sqlstate
  state := (apart.state.symm.trans h.state).trans apart'.state
  txStatus := by rw [apart'.fail_txStatus, h.txStatus, apart.fail_txStatus]

theorem Apart.symm (h : Apart w v) : Apart v w where
  state := h.state.symm
  others := by rw [h.others]; rfl

theorem observed_error (written : List Reply) (code : String) :
    observed (written ++ [.errorResponse code]) = ⟨(observed written).rows, (observed written).tags,
      (observed written).errors ++ [code]⟩ := by
  rw [observed_append]
  simp [observed, rowOf, tagOf, errorOf]

/-- A run that is refused is alike with one that fails so by itself. -/
theorem same_failed {written : List Reply} (quiet : (observed written).errors = [])
    (raised : Option Failure) :
    Same (settled (w, [], some f)) (settled (w', written, raised)) ↔
      ∃ g, raised = some g ∧ Unseen written ∧ LikeRefusal w w' g (sqlstate f) := by
  have refusal : (settled (w, [], some f)).2 = ⟨[], [], [sqlstate f]⟩ := rfl
  cases raised with
  | none =>
    constructor
    · intro same
      have errors : [sqlstate f] = (observed written).errors :=
        congrArg Observed.errors (refusal.symm.trans same.observed)
      rw [quiet] at errors
      cases errors
    · rintro ⟨g, impossible, -⟩
      cases impossible
  | some g =>
    have own : (settled (w', written, some g)).2 =
        ⟨(observed written).rows, (observed written).tags, [sqlstate g]⟩ := by
      rw [settled, observed_error, quiet, List.nil_append]
    constructor
    · intro same
      have both := same.observed
      rw [refusal, own, Observed.mk.injEq] at both
      obtain ⟨rows, tags, errors⟩ := both
      have code : sqlstate g = sqlstate f := (List.cons.inj errors).1.symm
      refine ⟨g, rfl, ?_, code, ?_, same.txStatus.symm⟩
      · rw [Unseen, ← quiet, rows, tags]
      · simpa only [settled, World.state_fail] using same.state
    · rintro ⟨g', raised, unseen, like⟩
      cases raised
      constructor
      · simpa only [settled, World.state_fail] using like.state
      · exact like.txStatus.symm
      · rw [refusal, own, unseen, like.sqlstate]

end Comparison

/-! ## The portal both execute -/

section Draining

/-- Nothing but rows. -/
def OnlyRows (written : List Reply) : Prop := ∀ reply ∈ written, ∃ values, reply = .dataRow values

theorem OnlyRows.tags {written : List Reply} (only : OnlyRows written) :
    (observed written).tags = [] := by
  refine List.filterMap_eq_nil_iff.mpr fun reply sent => ?_
  obtain ⟨values, rfl⟩ := only reply sent
  rfl

theorem OnlyRows.errors {written : List Reply} (only : OnlyRows written) :
    (observed written).errors = [] := by
  refine List.filterMap_eq_nil_iff.mpr fun reply sent => ?_
  obtain ⟨values, rfl⟩ := only reply sent
  rfl

theorem OnlyRows.nil_of_unseen {written : List Reply} (only : OnlyRows written)
    (unseen : Unseen written) : written = [] := by
  cases written with
  | nil => rfl
  | cons reply later =>
    obtain ⟨values, rfl⟩ := only reply (List.mem_cons_self ..)
    cases congrArg Observed.rows unseen

variable (t : TextTables) (s : Session Value Stmt Portal Cell)

theorem encodeRows_onlyRows (columns : List ResultColumn) (rows : List (List (Option Cell))) :
    OnlyRows (encodeRows s columns rows).1 := by
  induction rows with
  | nil =>
    intro reply sent
    cases sent
  | cons row rows ih =>
    intro reply sent
    rw [encodeRows] at sent
    cases encoded : encodeRow s row columns with
    | error raised =>
      rw [encoded] at sent
      cases sent
    | ok values =>
      rw [encoded] at sent
      rcases List.mem_cons.mp sent with rfl | later
      · exact ⟨values, rfl⟩
      · exact ih reply later

theorem sendRows_onlyRows (columns : Columns) (rows : List (List (Option Cell))) :
    OnlyRows (sendRows s columns rows).1 := by
  cases columns with
  | none =>
    intro reply sent
    cases sent
  | some columns => exact encodeRows_onlyRows s columns rows

theorem drain_onlyRows (w : W Value Stmt Portal) (columns : Columns) (portal : Portal) :
    OnlyRows (drain s w columns portal).2.1 := by
  rw [drain]
  rcases executePortal s w portal 0 with ⟨w', failure | ⟨rows, suspended⟩⟩
  · intro reply sent
    cases sent
  · exact sendRows_onlyRows s columns rows

variable {s}

theorem executePortal_apart (contract : s.Contract) {v w : W Value Stmt Portal} (apart : Apart w v)
    (portal : Portal) (maxRows : Nat) :
    (executePortal s v portal maxRows).2 = (executePortal s w portal maxRows).2 ∧
      Apart (executePortal s w portal maxRows).1 (executePortal s v portal maxRows).1 := by
  rw [executePortal, executePortal]
  cases s.copyOf portal with
  | some copied => exact ⟨rfl, apart⟩
  | none => exact contract.execute portal maxRows apart

/-- A drained portal as the end of a statement. -/
def conclude (raise : Raised → Failure) (tag : Nat → Text) :
    W Value Stmt Portal × List Reply × Except Raised Nat → Handled Value Stmt Portal
  | (w, written, .ok n) => (w, written ++ [.commandComplete (tag n)], none)
  | (w, written, .error raised) => (w, written, some (raise raised))

/-- What `_execute_one_simple_statement` reads the tag off. -/
def simpleTag (s : Session Value Stmt Portal Cell) (sql : Text) (statement : Stmt) : Nat → Text :=
  commandTag t (if s.sql statement = [] then sql else s.sql statement)

/-- A RowDescription is not compared. -/
theorem settled_described (w : W Value Stmt Portal) (columns : Columns) (written : List Reply)
    (raised : Option Failure) :
    settled (w, describeRows columns ++ written, raised) = settled (w, written, raised) := by
  cases columns with
  | none => rfl
  | some columns =>
    cases raised with
    | none => rfl
    | some failure => rfl

theorem settled_runStatement {w : W Value Stmt Portal} {sql : Text} {statement : Stmt}
    {columns : Columns} {portal : Portal} (described : s.describe w statement = .ok columns)
    (bound : s.bind w statement = .ok portal) :
    settled (runStatement t s w sql statement) =
      settled (conclude Raised.uncaught (simpleTag t s sql statement)
        (drain s w columns portal)) := by
  simp only [runStatement, described, bound, drain]
  rcases executePortal s w portal 0 with ⟨w', failure | ⟨rows, suspended⟩⟩
  · rfl
  · cases sent : sendRows s columns rows with
    | mk written raised =>
      cases raised with
      | none =>
        simp only [sent, conclude, List.append_assoc]
        exact settled_described w' columns _ none
      | some raised =>
        simp only [sent, conclude]
        exact settled_described w' columns written (some raised.uncaught)

theorem refused_apart {v w : W Value Stmt Portal} (apart : Apart w v) (sql : Text) :
    refused t v sql = refused t w sql := by
  rw [refused, refused, apart.txStatus]

/-- An execution of the unnamed portal that is neither refused nor a COPY. -/
theorem settled_handleExecute (contract : s.Contract) {w : W Value Stmt Portal} {statement : Stmt}
    {portal : Portal} (columns : Columns) (ordinary : s.copyOf portal = none)
    (allowed : refused t w (s.sql statement) = false) :
    ∃ v', Apart (drain s w columns portal).1 v' ∧
      settled (handleExecute t s (stored w statement ⟨portal, columns, s.sql statement, 0⟩) "" 0) =
        settled (conclude Raised.caught (commandTag t (s.sql statement))
          (v', (drain s w columns portal).2)) := by
  have apart := apart_stored w statement ⟨portal, columns, s.sql statement, 0⟩
  obtain ⟨same, apart'⟩ := executePortal_apart contract apart portal 0
  have unlimited : ∀ rows suspended, (executePortal s w portal 0).2 = .ok (rows, suspended) →
      suspended = false := by
    intro rows suspended executed
    rw [executePortal, ordinary] at executed
    exact contract.unlimited executed
  rw [handleExecute, get?_stored, drain]
  simp only [refused_apart t apart, allowed, ordinary, Bool.false_eq_true, if_false]
  generalize executePortal s w portal 0 = ran, executePortal s
    (stored w statement ⟨portal, columns, s.sql statement, 0⟩) portal 0 = ran'
    at same apart' unlimited ⊢
  obtain ⟨w', result⟩ := ran
  obtain ⟨v', result'⟩ := ran'
  obtain rfl : result' = result := same
  rcases result' with failure | ⟨rows, suspended⟩
  · exact ⟨v', apart', rfl⟩
  · obtain rfl : suspended = false := unlimited rows suspended rfl
    refine ⟨countRows v' "" rows.length, apart'.trans (apart_countRows v' rows.length), ?_⟩
    cases sent : sendRows s columns rows with
    | mk written raised =>
      cases raised with
      | none => simp only [sent, conclude, Nat.zero_add, Bool.false_eq_true, if_false]
      | some raised => simp only [sent, conclude]

end Draining

/-! ## The four verdicts -/

section Verdicts

variable (t : TextTables) {s : Session Value Stmt Portal Cell} {v w w' : W Value Stmt Portal}
  {f : Failure} {sql : Text} {statement : Stmt} {columns : Columns} {portal : Portal}

/-- A refusal against a portal that is drained. -/
theorem same_conclude {raise : Raised → Failure} {tag : Nat → Text} {written : List Reply}
    (only : OnlyRows written) (result : Except Raised Nat) :
    Same (settled (w, [], some f)) (settled (conclude raise tag (w', written, result))) ↔
      ∃ raised, result = .error raised ∧ written = [] ∧
        LikeRefusal w w' (raise raised) (sqlstate f) := by
  cases result with
  | error raised =>
    rw [conclude, same_failed only.errors]
    constructor
    · rintro ⟨g, same, unseen, like⟩
      cases same
      exact ⟨raised, rfl, only.nil_of_unseen unseen, like⟩
    · rintro ⟨raised', same, rfl, like⟩
      cases same
      exact ⟨_, rfl, rfl, like⟩
  | ok n =>
    have quiet : (observed (written ++ [.commandComplete (tag n)])).errors = [] := by
      rw [observed_append, only.errors]
      rfl
    rw [conclude, same_failed quiet]
    constructor
    · rintro ⟨g, impossible, -⟩
      cases impossible
    · rintro ⟨raised, impossible, -⟩
      cases impossible

/-- A refusal against a COPY. -/
theorem same_runCopy (contract : s.Contract) (apart : Apart w v) (copied : Stmt) :
    Same (settled (w, [], some f)) (settled (runCopy t s v copied)) ↔
      ∃ w' g, s.copy w copied = (w', .error g) ∧ LikeRefusal w w' g (sqlstate f) := by
  obtain ⟨same, apart'⟩ := contract.copy copied apart
  rw [runCopy]
  generalize s.copy w copied = ran, s.copy v copied = ran' at same apart' ⊢
  obtain ⟨w', result⟩ := ran
  obtain ⟨v', result'⟩ := ran'
  obtain rfl : result' = result := same
  cases result' with
  | error g =>
    rw [same_failed rfl]
    constructor
    · rintro ⟨g', raised, -, like⟩
      cases raised
      exact ⟨w', g, rfl, like.of_apart (Apart.refl w) apart'.symm⟩
    · rintro ⟨w'', g', ran, like⟩
      cases ran
      exact ⟨g, rfl, rfl, like.of_apart (Apart.refl w) apart'⟩
  | ok n =>
    rw [same_failed rfl]
    constructor
    · rintro ⟨g, impossible, -⟩
      cases impossible
    · rintro ⟨w'', g, impossible, -⟩
      cases impossible

theorem handleExecute_refused (own : refused t w (s.sql statement) = true) (columns : Columns)
    (portal : Portal) :
    handleExecute t s (stored w statement ⟨portal, columns, s.sql statement, 0⟩) "" 0 =
      (stored w statement ⟨portal, columns, s.sql statement, 0⟩, [],
        some (.error abortedTransaction)) := by
  simp only [handleExecute, get?_stored, refused_apart t (apart_stored w statement _), own, if_true]

theorem handleExecute_copy {copied : Stmt} (own : refused t w (s.sql statement) = false)
    (copies : s.copyOf portal = some copied) (columns : Columns) :
    handleExecute t s (stored w statement ⟨portal, columns, s.sql statement, 0⟩) "" 0 =
      runCopy t s (stored w statement ⟨portal, columns, s.sql statement, 0⟩) copied := by
  simp only [handleExecute, get?_stored, refused_apart t (apart_stored w statement _), own, copies,
    Bool.false_eq_true, if_false]

/-- A drained portal of a COPY. -/
theorem drain_copy {copied : Stmt} (copies : s.copyOf portal = some copied) :
    drain s w columns portal = (w, [], .error (.other (.error copyPortalExecuted))) := by
  simp only [drain, executePortal, copies]

/-- Whatever becomes of the encoder's failures, none of theirs is a refusal. -/
theorem refusesItself_iff {raise : Raised → Failure}
    (other : ∀ failure, raise (.other failure) = failure)
    (value : ∀ text, sqlstate (raise (.valueError text)) ≠ "25P02")
    (w : W Value Stmt Portal) (columns : Columns) (portal : Portal) :
    (∃ raised, (drain s w columns portal).2.2 = .error raised ∧ (drain s w columns portal).2.1 = [] ∧
      LikeRefusal w (drain s w columns portal).1 (raise raised) "25P02") ↔
      RefusesItself s w columns portal := by
  rw [RefusesItself]
  constructor
  · rintro ⟨raised, failed, nothing, like⟩
    cases raised with
    | valueError text => exact absurd like.sqlstate (value text)
    | other failure =>
      rw [other] at like
      refine ⟨(drain s w columns portal).1, failure, ?_, like⟩
      rw [← failed, ← nothing]
  · rintro ⟨w', failure, drained, like⟩
    rw [drained]
    refine ⟨.other failure, rfl, rfl, ?_⟩
    rw [other]
    exact like

theorem caught_ne (text : String) : sqlstate (Raised.valueError text).caught ≠ "25P02" :=
  show "0A000" ≠ "25P02" by decide

theorem uncaught_ne (text : String) : sqlstate (Raised.valueError text).uncaught ≠ "25P02" :=
  show "XX000" ≠ "25P02" by decide

/-- The raw text is refused, and the statement's own is not. -/
theorem same_raw_refused (contract : s.Contract) (own : refused t w (s.sql statement) = false)
    (columns : Columns) (portal : Portal) :
    Same (settled (w, [], some (.error abortedTransaction))) (settled
      (handleExecute t s (stored w statement ⟨portal, columns, s.sql statement, 0⟩) "" 0)) ↔
      (∀ copied, s.copyOf portal = some copied → ∃ w' failure,
        s.copy w copied = (w', .error failure) ∧ LikeRefusal w w' failure "25P02") ∧
      (s.copyOf portal = none → RefusesItself s w columns portal) := by
  cases copies : s.copyOf portal with
  | some copied =>
    rw [handleExecute_copy t own copies columns,
      same_runCopy t contract (apart_stored w statement _) copied]
    constructor
    · intro fails
      refine ⟨fun copied' same => ?_, fun impossible => ?_⟩
      · cases same
        exact fails
      · cases impossible
    · intro fails
      exact fails.1 copied rfl
  | none =>
    obtain ⟨v', apart', executed⟩ := settled_handleExecute t contract columns copies own
    rw [executed, same_conclude (drain_onlyRows s w columns portal),
      ← refusesItself_iff (fun _ => rfl) caught_ne w columns portal]
    constructor
    · rintro ⟨raised, failed, nothing, like⟩
      refine ⟨fun copied impossible => ?_, fun _ => ⟨raised, failed, nothing, ?_⟩⟩
      · cases impossible
      · exact like.of_apart (Apart.refl w) apart'.symm
    · rintro ⟨-, refusal⟩
      obtain ⟨raised, failed, nothing, like⟩ := refusal rfl
      exact ⟨raised, failed, nothing, like.of_apart (Apart.refl w) apart'⟩

/-- The statement's own text is refused, and the raw text is not. -/
theorem same_own_refused (own : refused t w (s.sql statement) = true) (columns : Columns)
    (portal : Portal) (tag : Nat → Text) :
    Same (settled (conclude Raised.uncaught tag (drain s w columns portal))) (settled
      (handleExecute t s (stored w statement ⟨portal, columns, s.sql statement, 0⟩) "" 0)) ↔
      RefusesItself s w columns portal := by
  have apart := apart_stored w statement ⟨portal, columns, s.sql statement, 0⟩
  rw [handleExecute_refused t own, same_comm, same_conclude (drain_onlyRows s w columns portal),
    ← refusesItself_iff (fun _ => rfl) uncaught_ne w columns portal]
  constructor
  · rintro ⟨raised, failed, nothing, like⟩
    exact ⟨raised, failed, nothing, like.of_apart apart.symm (Apart.refl _)⟩
  · rintro ⟨raised, failed, nothing, like⟩
    exact ⟨raised, failed, nothing, like.of_apart apart (Apart.refl _)⟩

/-- Neither text is refused, and the portal is that of a COPY. -/
theorem same_copy (contract : s.Contract) (own : refused t w (s.sql statement) = false)
    {copied : Stmt} (copies : s.copyOf portal = some copied) (columns : Columns)
    (tag : Nat → Text) :
    Same (settled (conclude Raised.uncaught tag (drain s w columns portal))) (settled
      (handleExecute t s (stored w statement ⟨portal, columns, s.sql statement, 0⟩) "" 0)) ↔
      ∃ w' failure, s.copy w copied = (w', .error failure) ∧
        LikeRefusal w w' failure "XX000" := by
  rw [drain_copy copies, handleExecute_copy t own copies columns]
  exact same_runCopy t contract (apart_stored w statement _) copied

/-- Where both drain the portal, they differ in what a ValueError becomes and in the tag. -/
theorem same_drained {tag tag' : Nat → Text} (apart : Apart w w') {written : List Reply}
    (only : OnlyRows written) (result : Except Raised Nat) :
    Same (settled (conclude Raised.uncaught tag (w, written, result)))
      (settled (conclude Raised.caught tag' (w', written, result))) ↔
      (∀ text, result ≠ .error (.valueError text)) ∧ ∀ n, result = .ok n → tag n = tag' n := by
  have failed : ∀ failure, Same (settled (w, written, some failure))
      (settled (w', written, some failure)) := by
    intro failure
    constructor
    · simpa only [settled, World.state_fail] using apart.state
    · exact apart.fail_txStatus.symm
    · rfl
  rcases result with (text | failure) | n
  · constructor
    · intro same
      have errors := congrArg Observed.errors same.observed
      rw [conclude, conclude, settled, settled, observed_error, observed_error,
        only.errors] at errors
      have codes : "XX000" = "0A000" := (List.cons.inj errors).1
      exact absurd codes (by decide)
    · intro agree
      exact absurd rfl (agree.1 text)
  · constructor
    · intro
      constructor
      · intro text impossible
        cases impossible
      · intro n impossible
        cases impossible
    · intro
      exact failed failure
  · constructor
    · intro same
      have tags := congrArg Observed.tags same.observed
      rw [conclude, conclude, settled, settled, observed_append, observed_append, only.tags] at tags
      refine ⟨fun text impossible => ?_, fun m counted => ?_⟩
      · cases impossible
      · cases counted
        exact (List.cons.inj tags).1
    · intro agree
      rw [conclude, conclude, agree.2 n rfl]
      exact ⟨apart.state, apart.txStatus.symm, rfl⟩

end Verdicts

/-! ## The two protocols -/

section Agreement

theorem firstRaised_comm {α β : Type} {x : Except Failure α} {y : Except Failure β} {g : Failure}
    (raises : firstRaised x y = some g) : ∃ f, firstRaised y x = some f := by
  cases x with
  | error e =>
    cases y with
    | error e' => exact ⟨e', rfl⟩
    | ok b => exact ⟨e, rfl⟩
  | ok a =>
    cases y with
    | error e' => exact ⟨e', rfl⟩
    | ok b => cases raises

theorem ok_of_firstRaised {α β : Type} {x : Except Failure α} {y : Except Failure β}
    (raises : firstRaised x y = none) : ∃ a b, x = .ok a ∧ y = .ok b := by
  cases x with
  | error e => cases raises
  | ok a =>
    cases y with
    | error e' => cases raises
    | ok b => exact ⟨a, b, rfl, rfl⟩

variable (t : TextTables) {s : Session Value Stmt Portal Cell}
  {tokenize : Text → Option (List Semicolon)} {w : W Value Stmt Portal} {sql : Text}

/-- A statement that could not be prepared. -/
theorem same_unprepared {failure : Failure} (prepared : s.prepare w sql = .error failure)
    (nonempty : Endpoint.strip sql ≠ []) :
    Same (settled (executeOneSimpleStatement t s w sql)) (settled (w, [], some failure)) ↔
      (refused t w sql = true → sqlstate failure = "25P02") := by
  rw [executeOneSimpleStatement]
  cases raw : refused t w sql with
  | true =>
    rw [if_pos rfl, same_failed rfl]
    constructor
    · rintro ⟨g, same, -, like⟩ -
      cases same
      exact like.sqlstate
    · intro refusal
      exact ⟨failure, rfl, rfl, refusal rfl, ApartState.refl _, rfl⟩
  | false =>
    rw [if_neg Bool.false_ne_true, if_neg nonempty, prepared]
    constructor
    · intro _ impossible
      cases impossible
    · intro _
      exact ⟨ApartState.refl _, rfl, rfl⟩

/-- A statement that could not be described and bound. -/
theorem same_unbound {v : W Value Stmt Portal} (apart : Apart w v) {statement : Stmt}
    {f g : Failure}
    (prepared : s.prepare w sql = .ok statement) (copies : s.isCopy statement = false)
    (nonempty : Endpoint.strip sql ≠ [])
    (simple : firstRaised (s.describe w statement) (s.bind w statement) = some f) :
    Same (settled (executeOneSimpleStatement t s w sql)) (settled (v, [], some g)) ↔
      sqlstate g = if refused t w sql then "25P02" else sqlstate f := by
  have first : ∀ e, Same (settled (w, [], some e)) (settled (v, [], some g)) ↔
      sqlstate g = sqlstate e := by
    intro e
    rw [same_failed rfl]
    constructor
    · rintro ⟨g', same, -, like⟩
      cases same
      exact like.sqlstate
    · intro codes
      exact ⟨g, rfl, rfl, codes, apart.state, apart.fail_txStatus⟩
  rw [executeOneSimpleStatement]
  cases raw : refused t w sql with
  | true => exact first (.error abortedTransaction)
  | false =>
    rw [if_neg Bool.false_ne_true, if_neg nonempty, prepared]
    simp only [copies, Bool.false_eq_true, if_false]
    rw [← first, runStatement]
    cases described : s.describe w statement with
    | error e =>
      rw [described, firstRaised, Option.some.injEq] at simple
      rw [simple]
    | ok columns =>
      cases bound : s.bind w statement with
      | error e =>
        rw [described, bound, firstRaised, Option.some.injEq] at simple
        rw [simple]
      | ok portal =>
        rw [described, bound, firstRaised] at simple
        cases simple

section Run

variable {statement : Stmt} {columns : Columns} {portal : Portal}

theorem agreedRun_of_raw (raw : refused t w sql = true) :
    AgreedRun t s w sql statement columns portal ↔ (refused t w (s.sql statement) = false →
      (∀ copied, s.copyOf portal = some copied → ∃ w' failure,
        s.copy w copied = (w', .error failure) ∧ LikeRefusal w w' failure "25P02") ∧
      (s.copyOf portal = none → RefusesItself s w columns portal)) := by
  constructor
  · intro run
    exact run.raw raw
  · intro agree
    constructor
    · exact fun _ => agree
    all_goals
      intro allowed
      rw [raw] at allowed
      cases allowed

theorem agreedRun_of_own (raw : refused t w sql = false)
    (own : refused t w (s.sql statement) = true) :
    AgreedRun t s w sql statement columns portal ↔ RefusesItself s w columns portal := by
  constructor
  · intro run
    exact run.own raw own
  · intro refuses
    constructor
    · intro refusal
      rw [raw] at refusal
      cases refusal
    · exact fun _ _ => refuses
    all_goals
      intro _ allowed
      rw [own] at allowed
      cases allowed

theorem agreedRun_of_copy (raw : refused t w sql = false)
    (own : refused t w (s.sql statement) = false) {copied : Stmt}
    (copies : s.copyOf portal = some copied) :
    AgreedRun t s w sql statement columns portal ↔ ∃ w' failure,
      s.copy w copied = (w', .error failure) ∧ LikeRefusal w w' failure "XX000" := by
  constructor
  · intro run
    exact run.copied raw own copied copies
  · intro fails
    constructor
    · intro refusal
      rw [raw] at refusal
      cases refusal
    · intro _ refusal
      rw [own] at refusal
      cases refusal
    · intro _ _ copied' same
      cases copies.symm.trans same
      exact fails
    all_goals
      intro _ _ ordinary
      cases copies.symm.trans ordinary

theorem agreedRun_of_drained (raw : refused t w sql = false)
    (own : refused t w (s.sql statement) = false) (ordinary : s.copyOf portal = none) :
    AgreedRun t s w sql statement columns portal ↔
      (∀ text, (drain s w columns portal).2.2 ≠ .error (.valueError text)) ∧
      ∀ n, (drain s w columns portal).2.2 = .ok n →
        simpleTag t s sql statement n = commandTag t (s.sql statement) n := by
  constructor
  · intro run
    refine ⟨run.encoded raw own ordinary, fun n drained => ?_⟩
    by_cases empty : s.sql statement = []
    · rw [simpleTag, if_pos empty, empty]
      exact run.tagged raw own ordinary empty n drained
    · rw [simpleTag, if_neg empty]
  · rintro ⟨encoded, tags⟩
    constructor
    · intro refusal
      rw [raw] at refusal
      cases refusal
    · intro _ refusal
      rw [own] at refusal
      cases refusal
    · intro _ _ copied copies
      cases ordinary.symm.trans copies
    · exact fun _ _ _ => encoded
    · intro _ _ _ empty n drained
      have tagged := tags n drained
      rw [simpleTag, if_pos empty, empty] at tagged
      exact tagged

/-- A statement that has been bound. -/
theorem same_bound (contract : s.Contract) (prepared : s.prepare w sql = .ok statement)
    (noCopy : s.isCopy statement = false) (nonempty : Endpoint.strip sql ≠ [])
    (described : s.describe w statement = .ok columns) (bound : s.bind w statement = .ok portal) :
    Same (settled (executeOneSimpleStatement t s w sql)) (settled
      (handleExecute t s (stored w statement ⟨portal, columns, s.sql statement, 0⟩) "" 0)) ↔
      AgreedRun t s w sql statement columns portal := by
  have apart := apart_stored w statement ⟨portal, columns, s.sql statement, 0⟩
  cases raw : refused t w sql with
  | true =>
    rw [agreedRun_of_raw t raw, executeOneSimpleStatement, if_pos raw]
    cases own : refused t w (s.sql statement) with
    | true =>
      rw [handleExecute_refused t own, same_failed rfl]
      constructor
      · intro _ impossible
        cases impossible
      · intro _
        exact ⟨_, rfl, rfl, rfl, apart.state, apart.fail_txStatus⟩
    | false =>
      rw [same_raw_refused t contract own]
      exact ⟨fun agree _ => agree, fun agree => agree rfl⟩
  | false =>
    have simple : executeOneSimpleStatement t s w sql = runStatement t s w sql statement := by
      simp only [executeOneSimpleStatement, raw, nonempty, prepared, noCopy, Bool.false_eq_true,
        if_false]
    rw [simple, settled_runStatement t described bound]
    cases own : refused t w (s.sql statement) with
    | true => rw [same_own_refused t own, agreedRun_of_own t raw own]
    | false =>
      cases copies : s.copyOf portal with
      | some copied => rw [same_copy t contract own copies, agreedRun_of_copy t raw own copies]
      | none =>
        obtain ⟨v', apart', executed⟩ := settled_handleExecute t contract columns copies own
        rw [executed, agreedRun_of_drained t raw own copies]
        exact same_drained apart' (drain_onlyRows s w columns portal) _

end Run

/-- The two protocols run a statement alike exactly where nothing shows that they look at
different texts and treat a COPY and the encoder's failures differently. -/
theorem protocols_alike_iff (contract : s.Contract) (one : OneStatement tokenize sql)
    (noCopy : ∀ statement, s.prepare w sql = .ok statement → s.isCopy statement = false) :
    Alike (viaQuery t s tokenize w sql) (viaExtended t s tokenize w sql) ↔ Agreed t s w sql := by
  rw [alike_iff, seen_viaQuery t s tokenize one]
  cases prepared : s.prepare w sql with
  | error failure =>
    rw [seen_unprepared tokenize prepared, same_unprepared t prepared one.nonempty]
    constructor
    · intro codes
      refine ⟨fun failure' same => ?_, fun _ _ _ impossible => ?_, fun _ _ _ impossible => ?_⟩
      · cases prepared.symm.trans same
        exact codes
      · cases prepared.symm.trans impossible
      · cases prepared.symm.trans impossible
    · intro agreed
      exact agreed.unprepared failure prepared
  | ok statement =>
    cases raises : firstRaised (s.bind w statement) (s.describe w statement) with
    | some g =>
      obtain ⟨f, simple⟩ := firstRaised_comm raises
      obtain ⟨v, apart, ended⟩ := seen_unbound (t := t) tokenize contract prepared raises
      rw [ended, same_unbound t apart prepared (noCopy statement prepared) one.nonempty simple]
      constructor
      · intro codes
        refine ⟨fun failure impossible => ?_, fun statement' f' g' same simple' raises' => ?_,
          fun statement' columns portal same described bound => ?_⟩
        · cases prepared.symm.trans impossible
        · cases prepared.symm.trans same
          cases simple.symm.trans simple'
          cases raises.symm.trans raises'
          exact codes
        · cases prepared.symm.trans same
          rw [described, bound, firstRaised] at raises
          cases raises
      · intro agreed
        exact agreed.unbound statement f g prepared simple raises
    | none =>
      obtain ⟨portal, columns, bound, described⟩ := ok_of_firstRaised raises
      rw [seen_bound tokenize contract prepared described bound,
        same_bound t contract prepared (noCopy statement prepared) one.nonempty described bound]
      constructor
      · intro run
        refine ⟨fun failure impossible => ?_, fun statement' f g same _ raises' => ?_,
          fun statement' columns' portal' same described' bound' => ?_⟩
        · cases prepared.symm.trans impossible
        · cases prepared.symm.trans same
          cases raises.symm.trans raises'
        · cases prepared.symm.trans same
          cases described.symm.trans described'
          cases bound.symm.trans bound'
          exact run
      · intro agreed
        exact agreed.run statement columns portal prepared described bound

end Agreement

/-! ## A session without statements of its own -/

section Plain

def plainMethods : Methods String Unit where
  describe _ _ _ := .ok none
  query _ _ _ := ([], .ok [])
  copy _ _ := ([], .ok 0)
  answers _ _ := []
  encodeValue _ _ := .ok []

/-- None of the links that are left open answers. -/
def noLinks : Links String Unit where
  first _ _ _ := none
  second _ _ _ := none
  third _ _ _ := none
  tokenize text := some [.word text]
  declaredOid _ := 25

def plainSession : Session String (Prepared String Unit) (Bound String Unit) Unit :=
  middlewareSession plainCatalogue plainMethods asciiTables noLinks

/-- A text without semicolons. -/
def unseparated (_ : Text) : Option (List Semicolon) := some []

def connected : Stored String Unit :=
  ⟨Connection.fresh 1 "reader" ∅, ⟨fun _ => none, ∅, 5432⟩, [], []⟩

/-- A ROLLBACK is prepared, and a transaction begun that fails. -/
def failedAfterPrepare : Stored String Unit :=
  ["PREPARE p AS ROLLBACK", "BEGIN", "RELEASE s"].foldl (fun w sql =>
    (viaQuery asciiTables plainSession unseparated w sql.toList).world) connected

theorem begin_agreed : Agreed asciiTables plainSession connected "BEGIN".toList := by
  have prepared : plainSession.prepare connected "BEGIN".toList =
      .ok (transactionStatement "BEGIN" .begin) := rfl
  have allowed : refused asciiTables connected "BEGIN".toList = false := rfl
  refine ⟨fun failure impossible => ?_, fun statement f g same raises => ?_,
    fun statement columns portal same described bound => ?_⟩
  · cases prepared.symm.trans impossible
  · cases prepared.symm.trans same
    cases raises
  · cases prepared.symm.trans same
    cases described
    cases bound
    refine ⟨fun refusal => ?_, fun _ refusal => ?_, fun _ _ copied impossible => ?_,
      fun _ _ _ text impossible => ?_, fun _ _ _ empty => ?_⟩
    · cases allowed.symm.trans refusal
    · cases allowed.symm.trans refusal
    · cases impossible
    · cases impossible
    · cases empty

theorem begin_alike : Alike (viaQuery asciiTables plainSession unseparated connected "BEGIN".toList)
    (viaExtended asciiTables plainSession unseparated connected "BEGIN".toList) := by
  refine (protocols_alike_iff asciiTables (middleware_contract plainCatalogue plainMethods asciiTables
    noLinks) ⟨rfl, by decide⟩ fun statement prepared => ?_).mpr begin_agreed
  cases prepared
  rfl

/-- EXECUTE of a prepared ROLLBACK in a failed transaction: its own text is refused, and the
text it stands for is not. -/
theorem executedRollback_unlike :
    OneStatement unseparated "EXECUTE p".toList ∧
      (∀ statement, plainSession.prepare failedAfterPrepare "EXECUTE p".toList = .ok statement →
        plainSession.isCopy statement = false) ∧
      ¬ Alike (viaQuery asciiTables plainSession unseparated failedAfterPrepare "EXECUTE p".toList)
        (viaExtended asciiTables plainSession unseparated failedAfterPrepare "EXECUTE p".toList) := by
  refine ⟨⟨rfl, by decide⟩, fun statement prepared => ?_, fun alike => ?_⟩
  · cases prepared
    rfl
  · have simple : (viaQuery asciiTables plainSession unseparated failedAfterPrepare
        "EXECUTE p".toList).world.txStatus = .E := by decide
    have extended : (viaExtended asciiTables plainSession unseparated failedAfterPrepare
        "EXECUTE p".toList).world.txStatus = .I := by decide
    cases simple.symm.trans (alike.txStatus.trans extended)

end Plain

end PgMimic.Protocols

import PgMimic.Protocols
import PgMimic.StoredEntries

/-!
# What a text is prepared as

`Session.prepare` walks the middleware and falls back to the session's own `describe` and
`query`. The links answer with statements of four kinds. A fifth is EXECUTE's, which
stands for the statement it names: its text, its columns and its portals are that one's.
-/

namespace PgMimic.Protocols

open PgMimic.Copy (Text)
open PgMimic.Endpoint (TextTables)
open PgMimic.StatementText

variable {Value Stmt Portal Cell : Type}

/-- The connection without the statements and portals stored on it. -/
abbrev Bare (Value : Type) := World Value Unit Unit

def bare (w : World Value Stmt Portal) : Bare Value where
  connection :=
    { pid := w.connection.pid
      username := w.connection.username
      startupParams := w.connection.startupParams
      txStatus := w.connection.txStatus
      pendingParameterStatus := w.connection.pendingParameterStatus
      registeredChannels := w.connection.registeredChannels
      state :=
        { sessionVars := w.state.sessionVars
          committedVars := w.state.committedVars
          knownSettings := w.state.knownSettings
          listening := w.state.listening
          pendingNotifies := w.state.pendingNotifies
          scopes := w.state.scopes
          statements := ∅
          portals := ∅
          savepoints := w.state.savepoints } }
  server := w.server
  notified := w.notified
  notices := w.notices

abbrev Row (Cell : Type) := List (Option Cell)

/-- What a `StaticStatement` does at Execute, and the rows it reads afterwards. -/
inductive StaticEffect (Value Stmt Cell : Type) where
  | run (statement : Statement) (rows : Bare Value → List (Row Cell))
  | store (name : String) (prepared : Stmt)
  /-- Without a name every statement goes. -/
  | deallocate (name : Option { name : String // name ≠ "" })

inductive Prepared (Value Cell : Type) where
  | static (sql : Text) (columns : Columns) (effect : StaticEffect Value (Prepared Value Cell) Cell)
  | callback (sql : Text) (paramOids : List (Option Nat))
  | copy (sql : Text)
  /-- `_PreparedExecution`. -/
  | execution (prepared : Prepared Value Cell) (arguments : List (Option Text))

inductive Bound (Value Cell : Type) where
  | static (effect : StaticEffect Value (Prepared Value Cell) Cell)
  | callback (sql : Text) (params : List (Option Text))
  | copy (sql : Text)

/-- The methods of a `Session` that are its author's. -/
structure Methods (Value Cell : Type) where
  describe : Bare Value → Text → List (Option Nat) → Except Failure Columns
  /-- The events raised on the way, and the rows. -/
  query : Bare Value → Text → List (Option Text) →
    List (String × String) × Except Failure (List (Row Cell))
  /-- The exchange that a COPY is, and how many rows it moved. -/
  copy : Bare Value → Text → List (String × String) × Except Failure Nat
  /-- What `set_parameter` and `discard` answer. -/
  answers : Bare Value → Statement → List Answer
  encodeValue : Nat → Cell → Except Raised Text

namespace Prepared

def sql : Prepared Value Cell → Text
  | .static sql _ _ => sql
  | .callback sql _ => sql
  | .copy sql => sql
  | .execution prepared _ => prepared.sql

def isCopy : Prepared Value Cell → Bool
  | .copy _ => true
  | _ => false

def describe (methods : Methods Value Cell) (b : Bare Value) :
    Prepared Value Cell → Except Failure Columns
  | .static _ columns _ => .ok columns
  | .callback sql paramOids => methods.describe b sql paramOids
  | .copy _ => .ok none
  | .execution prepared _ => prepared.describe methods b

/-- An EXECUTE binds the arguments of its own text. -/
def bind : Prepared Value Cell → List (Option Text) → Bound Value Cell
  | .static _ _ effect, _ => .static effect
  | .callback sql _, params => .callback sql params
  | .copy sql, _ => .copy sql
  | .execution prepared arguments, _ => prepared.bind arguments

end Prepared

/-! ## The links -/

section Links

variable (t : TextTables)

/-- `_identifier`. -/
def identifier (raw : Text) : String :=
  let raw := Endpoint.strip raw
  if raw.head? = some '"' ∧ raw.getLast? = some '"' ∧ 2 ≤ raw.length then
    String.ofList raw.tail.dropLast
  else String.ofList (t.lower raw)

/-- A token of an argument list: the comma, or a text. -/
inductive ArgumentToken where
  | comma
  | word (text : Text)
deriving DecidableEq

def ArgumentToken.content : ArgumentToken → Text
  | .comma => []
  | .word text => text

/-- `_argument_value`. -/
def argumentValue (tokens : List ArgumentToken) : Option Text :=
  let text := Endpoint.strip ([' '].intercalate (tokens.map ArgumentToken.content))
  if t.upper text = "NULL".toList then none else some text

def unreadableArguments (text : Text) : PgError :=
  ⟨"42601", "could not read the argument list " ++ String.ofList (t.repr text), []⟩

/-- `_split_arguments`, by the tokens of the text where it has any. -/
def splitArguments (tokenize : Text → Option (List ArgumentToken)) (text : Text) :
    Except Failure (List (Option Text)) :=
  if Endpoint.strip text = [] then .ok []
  else match tokenize text with
    | none => .error (.error (unreadableArguments t text))
    | some tokens => .ok ((tokens.splitOnP (· = .comma)).map (argumentValue t))

/-- `(.+?)\s*;?\s*$`. -/
def upToEnd (text : Text) : Option Text :=
  ((List.range text.length).find? fun n => ends (text.drop (n + 1))).map fun n => text.take (n + 1)

/-- The three groups of `_PREPARE_RE`. -/
def readPrepare (text : Text) : Option (Text × Text × Text) :=
  (spaced "PREPARE".toList (text.dropWhile isSpace)).bind fun rest =>
    (ident t rest).bind fun (name, rest) =>
      let group : Option (Text × Text) := match rest.dropWhile isSpace with
        | '(' :: body => match body.dropWhile (· ≠ ')') with
          | _ :: later => some (body.takeWhile (· ≠ ')'), later)
          | [] => none
        | _ => some ([], rest)
      group.bind fun (types, rest) =>
        (((spaces rest).bind (spaced "AS".toList)).bind upToEnd).map fun inner =>
          (name, types, inner)

/-- The two groups of `_EXECUTE_RE`. Of the parentheses that could close, it is the last. -/
def readExecute (text : Text) : Option (Text × Text) :=
  (spaced "EXECUTE".toList (text.dropWhile isSpace)).bind fun rest =>
    (ident t rest).bind fun (name, rest) =>
      match rest.dropWhile isSpace with
      | '(' :: body =>
        ((List.range body.length).reverse.find? fun n =>
          decide (body[n]? = some ')') && ends (body.drop (n + 1))).map fun n => (name, body.take n)
      | after => if ends after then some (name, []) else none

/-- `_SAVEPOINT_RE`. -/
def readSavepoint (text : Text) : Option Text :=
  (spaced "SAVEPOINT".toList (text.dropWhile isSpace)).bind (lastIdent t)

/-- `_RELEASE_RE`. -/
def readRelease (text : Text) : Option Text :=
  (spaced "RELEASE".toList (text.dropWhile isSpace)).bind fun rest =>
    [spaced "SAVEPOINT".toList rest, some rest].findSome? fun rest => rest.bind (lastIdent t)

/-- `_BEGIN_RE`. -/
def begins (text : Text) : Bool :=
  leads t ["BEGIN".toList] text ||
    match (spaced "START".toList (text.dropWhile isSpace)).bind (keyword "TRANSACTION".toList) with
    | some rest => bounded t rest
    | none => false

def savepointStatement (sql : Text) (kind : SavepointKind) (name : Text) : Prepared Value Cell :=
  .static sql none (.run (.savepoint kind (identifier t name)) fun _ => [])

def transactionStatement (tag : String) (kind : TransactionTag) : Prepared Value Cell :=
  .static tag.toList none (.run (.transaction kind) fun _ => [])

/-- `transaction_control`. -/
def transactionControl (sql : Text) : Option (Prepared Value Cell) :=
  match rollbackTo t sql, readSavepoint t sql, readRelease t sql with
  | some name, _, _ => some (savepointStatement t sql .rollbackTo name)
  | none, some name, _ => some (savepointStatement t sql .savepoint name)
  | none, none, some name => some (savepointStatement t sql .release name)
  | none, none, none =>
    if begins t sql then some (transactionStatement "BEGIN" .begin)
    else if leads t ["COMMIT".toList, "END".toList] sql then
      some (transactionStatement "COMMIT" .commit)
    else if leads t ["ROLLBACK".toList] sql then some (transactionStatement "ROLLBACK" .rollback)
    else none

abbrev Prepares (Value Cell : Type) :=
  W Value (Prepared Value Cell) (Bound Value Cell) → Text → List (Option Nat) →
    Option (Except Failure (Prepared Value Cell))

/-- The rest of the middleware, and what its links take from elsewhere. -/
structure Links (Value Cell : Type) where
  /-- `copy_stdio`. -/
  first : Prepares Value Cell
  /-- `set_show`, `session_reset` and `listen_notify`. -/
  second : Prepares Value Cell
  /-- From `session_functions` on. -/
  third : Prepares Value Cell
  tokenize : Text → Option (List ArgumentToken)
  /-- `oid_for_declared_type`. -/
  declaredOid : Option Text → Nat

/-- `_execute_statement`. -/
def executeStatement (links : Links Value Cell)
    (w : W Value (Prepared Value Cell) (Bound Value Cell)) (name arguments : Text) :
    Except Failure (Prepared Value Cell) :=
  match w.state.statements.get? (identifier t name) with
  | none => .error (.error (noStatement (identifier t name)))
  | some prepared => (splitArguments t links.tokenize arguments).map (.execution prepared)

/-- `Session.prepare`. The statement inside a PREPARE is prepared in the same way, and is
shorter. -/
def prepareWithin (links : Links Value Cell)
    (w : W Value (Prepared Value Cell) (Bound Value Cell)) :
    Nat → Text → List (Option Nat) → Except Failure (Prepared Value Cell)
  | 0, sql, paramOids => .ok (.callback sql paramOids)
  | fuel + 1, sql, paramOids =>
    let stripped := Endpoint.strip sql
    if stripped = [] then .ok (.callback sql paramOids)
    else
      ((links.first w stripped paramOids).orElse fun _ =>
        ((transactionControl t stripped).map .ok).orElse fun _ =>
        (links.second w stripped paramOids).orElse fun _ =>
        ((readPrepare t stripped).map fun (name, types, inner) => do
          let declared ← splitArguments t links.tokenize types
          let prepared ← prepareWithin links w fuel inner
            (declared.map fun part => some (links.declaredOid part))
          .ok (.static stripped none (.store (identifier t name) prepared))).orElse fun _ =>
        ((readExecute t stripped).map fun (name, arguments) =>
          executeStatement t links w name arguments).orElse fun _ =>
        links.third w stripped paramOids).getD (.ok (.callback sql paramOids))

end Links

/-! ## The session -/

/-- `drain_rows`, of rows that are all there. -/
def drainRows (rows : List (Row Cell)) (maxRows : Nat) : List (Row Cell) × Bool :=
  if maxRows = 0 then (rows, false) else (rows.take maxRows, decide (maxRows ≤ rows.length))

section Execution

variable [DecidableEq Value] (cat : Catalogue Value) (methods : Methods Value Cell)

abbrev Stored (Value Cell : Type) := W Value (Prepared Value Cell) (Bound Value Cell)

/-- `on_execute`, and then the rows. -/
def executeStatic (w : Stored Value Cell) :
    StaticEffect Value (Prepared Value Cell) Cell → Stored Value Cell × Except Failure (List (Row Cell))
  | .run statement rows =>
    match World.onExecute cat w ⟨statement, methods.answers (bare w) statement⟩ with
    | (w', some failure) => (w', .error failure)
    | (w', none) => (w', .ok (rows (bare w')))
  | .store name prepared =>
    (w.withState { w.state with statements := w.state.statements.set name prepared }, .ok [])
  | .deallocate none => (w.withState { w.state with statements := ∅ }, .ok [])
  | .deallocate (some name) =>
    match w.state.statements.get? name with
    | none => (w, .error (.error (noStatement name)))
    | some _ => (w.withState { w.state with statements := w.state.statements.erase name }, .ok [])

/-- The events a session raises, through `Connection.notify_listeners`. -/
def raiseEvents (w : Stored Value Cell) (events : List (String × String)) : Stored Value Cell :=
  events.foldl (fun w entry => w.notifyListeners entry.1 entry.2) w

/-- The first `Portal.execute` of a portal. -/
def executeBound (w : Stored Value Cell) (maxRows : Nat) :
    Bound Value Cell → Stored Value Cell × Except Failure (List (Row Cell) × Bool)
  | .static effect =>
    let (w', result) := executeStatic cat methods w effect
    (w', result.map (drainRows · maxRows))
  | .callback sql params =>
    let (events, result) := methods.query (bare w) sql params
    (raiseEvents w events, result.map (drainRows · maxRows))
  | .copy _ => (w, .error (.error copyPortalExecuted))

def copyStatement (w : Stored Value Cell) (statement : Prepared Value Cell) :
    Stored Value Cell × Except Failure Nat :=
  let (events, result) := methods.copy (bare w) statement.sql
  (raiseEvents w events, result)

/-- A `Session` behind the middleware. -/
def middlewareSession (t : TextTables) (links : Links Value Cell) :
    Session Value (Prepared Value Cell) (Bound Value Cell) Cell where
  prepare w sql := prepareWithin t links w (sql.length + 1) sql []
  sql := Prepared.sql
  isCopy := Prepared.isCopy
  describe w statement := statement.describe methods (bare w)
  bind _ statement := .ok (statement.bind [])
  copyOf
    | .copy sql => some (.copy sql)
    | _ => none
  execute w portal maxRows := executeBound cat methods w maxRows portal
  copy w statement := copyStatement methods w statement
  encodeValue := methods.encodeValue

end Execution

/-! ## It meets the contract -/

section Contract

variable {v w : W Value Stmt Portal}

theorem Apart.eq_graft (h : Apart w v) : v = w.graft v.state.statements v.state.portals := by
  have others := h.others
  obtain ⟨sessionVars, committedVars, knownSettings, listening, pendingNotifies, scopes, savepoints,
    -, -⟩ := h.state
  simp only [World.graft, ← sessionVars, ← committedVars, ← knownSettings, ← listening,
    ← pendingNotifies, ← scopes, ← savepoints]
  exact others

theorem apart_graft {statements : Dict String Stmt} {portals : Dict String (PortalEntry Portal)}
    (sameStatements : SameNamed w.state.statements statements)
    (samePortals : SameNamed w.state.portals portals) : Apart w (w.graft statements portals) where
  state := { ApartState.refl w.state with statements := sameStatements, portals := samePortals }
  others := rfl

theorem bare_graft (statements : Dict String Stmt) (portals : Dict String (PortalEntry Portal)) :
    bare (w.graft statements portals) = bare w := rfl

theorem bare_apart (h : Apart w v) : bare v = bare w := by
  rw [h.eq_graft, bare_graft]

/-- What keeps the entries of every world takes worlds that are apart to such worlds. -/
theorem apart_of_keeps {f : W Value Stmt Portal → W Value Stmt Portal × Option Failure}
    (keeps : ∀ statements portals,
      f (w.graft statements portals) = World.graftBoth (f w) statements portals)
    (h : Apart w v) : (f v).2 = (f w).2 ∧ Apart (f w).1 (f v).1 := by
  obtain ⟨statements, portals⟩ := World.stored_of_graft w keeps
  rw [h.eq_graft, keeps]
  refine ⟨rfl, apart_graft ?_ ?_⟩
  · rw [statements]
    exact h.state.statements
  · rw [portals]
    exact h.state.portals

theorem apart_onExecute [DecidableEq Value] (cat : Catalogue Value) (r : Request) (h : Apart w v) :
    (World.onExecute cat v r).2 = (World.onExecute cat w r).2 ∧
      Apart (World.onExecute cat w r).1 (World.onExecute cat v r).1 := by
  rcases World.graft_onExecute cat w r with keeps | drops
  · exact apart_of_keeps (f := fun w => World.onExecute cat w r) keeps h
  · rw [h.eq_graft, drops]
    exact ⟨rfl, Apart.refl _⟩

theorem SameNamed.set_both {ν : Type} {d e : Dict String ν} (same : SameNamed d e) (key : String)
    (value : ν) : SameNamed (d.set key value) (e.set key value) := by
  intro name named
  rw [Dict.get?_set, Dict.get?_set, same name named]

theorem SameNamed.erase_both {ν : Type} {d e : Dict String ν} (same : SameNamed d e)
    (key : String) : SameNamed (d.erase key) (e.erase key) := by
  intro name named
  rw [Dict.get?_erase, Dict.get?_erase, same name named]

/-- Other statements in place of the stored ones. -/
theorem Apart.withStatements (h : Apart w v) {d e : Dict String Stmt} (same : SameNamed d e) :
    Apart (w.withState { w.state with statements := d })
      (v.withState { v.state with statements := e }) where
  state := { h.state with statements := same }
  others := by rw [h.others]; rfl

end Contract

section Contract

variable [DecidableEq Value] (cat : Catalogue Value) (methods : Methods Value Cell)
  {v w : Stored Value Cell}

omit [DecidableEq Value] in
theorem apart_raiseEvents (h : Apart w v) (events : List (String × String)) :
    Apart (raiseEvents w events) (raiseEvents v events) :=
  (apart_of_keeps (f := fun w => (raiseEvents w events, none)) (fun statements portals =>
    congrArg (·, none) (World.graft_foldl statements portals w _
      (fun w entry => World.graft_notifyListeners statements portals w entry.1 entry.2) events))
    h).2

theorem apart_executeStatic (h : Apart w v)
    (effect : StaticEffect Value (Prepared Value Cell) Cell) :
    (executeStatic cat methods v effect).2 = (executeStatic cat methods w effect).2 ∧
      Apart (executeStatic cat methods w effect).1 (executeStatic cat methods v effect).1 := by
  cases effect with
  | run statement rows =>
    rw [executeStatic, executeStatic, bare_apart h]
    obtain ⟨same, apart⟩ := apart_onExecute cat ⟨statement, methods.answers (bare w) statement⟩ h
    generalize World.onExecute cat w _ = ran, World.onExecute cat v _ = ran' at same apart ⊢
    obtain ⟨w', raised⟩ := ran
    obtain ⟨v', raised'⟩ := ran'
    obtain rfl : raised' = raised := same
    cases raised' with
    | some failure => exact ⟨rfl, apart⟩
    | none => exact ⟨congrArg (fun b => Except.ok (rows b)) (bare_apart apart), apart⟩
  | store name prepared => exact ⟨rfl, h.withStatements (h.state.statements.set_both name prepared)⟩
  | deallocate name =>
    cases name with
    | none => exact ⟨rfl, h.withStatements (SameNamed.refl _)⟩
    | some name =>
      rw [executeStatic, executeStatic, ← h.state.statements name name.2]
      cases w.state.statements.get? name with
      | none => exact ⟨rfl, h⟩
      | some _ => exact ⟨rfl, h.withStatements (h.state.statements.erase_both name)⟩

theorem apart_executeBound (h : Apart w v) (maxRows : Nat) (portal : Bound Value Cell) :
    (executeBound cat methods v maxRows portal).2 = (executeBound cat methods w maxRows portal).2 ∧
      Apart (executeBound cat methods w maxRows portal).1
        (executeBound cat methods v maxRows portal).1 := by
  cases portal with
  | static effect =>
    obtain ⟨same, apart⟩ := apart_executeStatic cat methods h effect
    exact ⟨congrArg (fun result => result.map (drainRows · maxRows)) same, apart⟩
  | callback sql params =>
    rw [executeBound, executeBound, bare_apart h]
    exact ⟨rfl, apart_raiseEvents h _⟩
  | copy sql => exact ⟨rfl, h⟩

omit [DecidableEq Value] in
theorem apart_copyStatement (h : Apart w v) (statement : Prepared Value Cell) :
    (copyStatement methods v statement).2 = (copyStatement methods w statement).2 ∧
      Apart (copyStatement methods w statement).1 (copyStatement methods v statement).1 := by
  rw [copyStatement, copyStatement, bare_apart h]
  exact ⟨rfl, apart_raiseEvents h _⟩

theorem unlimited_drainRows {result : Except Failure (List (Row Cell))} {rows : List (Row Cell)}
    {suspended : Bool} (drained : result.map (drainRows · 0) = .ok (rows, suspended)) :
    suspended = false := by
  cases result with
  | error failure => cases drained
  | ok all =>
    cases drained
    rfl

/-- Nothing the middleware answers with looks at the unnamed entries. -/
theorem middleware_contract (t : TextTables) (links : Links Value Cell) :
    (middlewareSession cat methods t links).Contract where
  describe statement h :=
    congrArg (fun b => Prepared.describe methods b statement) (bare_apart h)
  bind _ _ := rfl
  execute portal maxRows h := apart_executeBound cat methods h maxRows portal
  copy statement h := apart_copyStatement methods h statement
  unlimited := by
    intro w portal rows suspended executed
    cases portal with
    | static effect => exact unlimited_drainRows executed
    | callback sql params => exact unlimited_drainRows executed
    | copy sql => cases executed

end Contract

/-! ## The fuel -/

section Fuel

variable (t : TextTables)

theorem length_dropWhile_le (p : Char → Bool) (text : Text) :
    (text.dropWhile p).length ≤ text.length :=
  (List.dropWhile_sublist p).length_le

theorem length_keyword {word text rest : Text} (found : keyword word text = some rest) :
    rest.length + word.length = text.length := by
  rw [keyword] at found
  split at found
  · next same =>
    cases found
    have taken := congrArg List.length same
    rw [List.length_map, List.length_take] at taken
    rw [List.length_drop]
    omega
  · cases found

theorem length_spaces {text rest : Text} (found : spaces text = some rest) :
    rest.length ≤ text.length := by
  cases text with
  | nil => cases found
  | cons c later =>
    simp only [spaces] at found
    split at found
    · cases found
      have shorter := length_dropWhile_le isSpace later
      simp only [List.length_cons]
      omega
    · cases found

theorem length_spaced {word text rest : Text} (found : spaced word text = some rest) :
    rest.length + word.length ≤ text.length := by
  obtain ⟨after, matched, spacing⟩ := Option.bind_eq_some_iff.mp found
  have whole := length_keyword matched
  have shorter := length_spaces spacing
  omega

theorem length_quotedIdent {text name rest : Text} (found : quotedIdent text = some (name, rest)) :
    rest.length ≤ text.length := by
  unfold quotedIdent at found
  split at found
  · next later =>
    simp only at found
    have shorter := length_dropWhile_le (· ≠ '"') later
    split at found
    · next c after split' =>
      rw [split'] at shorter
      split at found
      · cases found
      · cases found
        simp only [List.length_cons] at shorter ⊢
        omega
    · cases found
  · cases found

theorem length_ident {text name rest : Text} (found : ident t text = some (name, rest)) :
    rest.length ≤ text.length := by
  rw [ident] at found
  cases quoted : quotedIdent text with
  | some both =>
    rw [quoted] at found
    cases found
    exact length_quotedIdent quoted
  | none =>
    simp only [quoted, Option.orElse_none] at found
    split at found
    · cases found
    · cases found
      exact length_dropWhile_le t.isWord text

theorem length_upToEnd {text inner : Text} (found : upToEnd text = some inner) :
    inner.length ≤ text.length := by
  obtain ⟨n, -, rfl⟩ := Option.map_eq_some_iff.mp found
  rw [List.length_take]
  exact Nat.min_le_right ..

theorem length_readPrepare {text name types inner : Text}
    (found : readPrepare t text = some (name, types, inner)) : inner.length < text.length := by
  obtain ⟨rest, begun, found⟩ := Option.bind_eq_some_iff.mp found
  obtain ⟨⟨raw, after⟩, named, found⟩ := Option.bind_eq_some_iff.mp found
  obtain ⟨⟨group, later⟩, typed, found⟩ := Option.bind_eq_some_iff.mp found
  obtain ⟨body, bodied, same⟩ := Option.map_eq_some_iff.mp found
  cases same
  obtain ⟨start, led, ended⟩ := Option.bind_eq_some_iff.mp bodied
  obtain ⟨spaced', apart, as⟩ := Option.bind_eq_some_iff.mp led
  have first := length_spaced begun
  have second := length_ident t named
  have third : later.length ≤ after.length := by
    have shorter := length_dropWhile_le isSpace after
    split at typed
    · next body skipped =>
      have closed := length_dropWhile_le (· ≠ ')') body
      rw [skipped, List.length_cons] at shorter
      split at typed
      · next c tail dropped =>
        cases typed
        rw [dropped, List.length_cons] at closed
        omega
      · cases typed
    · cases typed
      exact Nat.le_refl _
  have fourth := length_spaces apart
  have fifth := length_spaced as
  have last := length_upToEnd ended
  have skipped := length_dropWhile_le isSpace text
  have word : "PREPARE".toList.length = 7 := rfl
  omega

theorem length_strip_le (text : Text) : (Endpoint.strip text).length ≤ text.length := by
  have inner := length_dropWhile_le isSpace (text.dropWhile isSpace).reverse
  have outer := length_dropWhile_le isSpace text
  rw [Endpoint.strip]
  simp only [List.length_reverse] at inner ⊢
  omega

/-- More fuel than the text is long changes nothing. -/
theorem prepareWithin_enough (links : Links Value Cell) (w : Stored Value Cell) {n m : Nat}
    {sql : Text} (paramOids : List (Option Nat)) (enough : sql.length < n)
    (enough' : sql.length < m) :
    prepareWithin t links w n sql paramOids = prepareWithin t links w m sql paramOids := by
  induction n generalizing m sql paramOids with
  | zero => omega
  | succ n ih =>
    cases m with
    | zero => omega
    | succ m =>
      have inside : ∀ name types inner,
          readPrepare t (Endpoint.strip sql) = some (name, types, inner) → ∀ declared,
          prepareWithin t links w n inner declared = prepareWithin t links w m inner declared := by
        intro name types inner found declared
        have shorter := length_readPrepare t found
        have stripped := length_strip_le sql
        exact ih declared (by omega) (by omega)
      rw [prepareWithin, prepareWithin]
      cases found : readPrepare t (Endpoint.strip sql) with
      | none => rfl
      | some groups =>
        obtain ⟨name, types, inner⟩ := groups
        simp only [Option.map_some, inside name types inner found]

end Fuel

end PgMimic.Protocols

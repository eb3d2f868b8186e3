import PgMimic.Dispatch

/-!
# The answers, as a client reads them

A client may send any number of messages before it reads an answer. It keeps what it has sent
and not yet seen answered, and every message of the server either belongs to the first of
these, or is pushed. An error stands for the answer of all of them up to the next Sync or
Query. Such a client is never sent what it cannot place, whatever the session does and
wherever a command is cancelled.
-/

namespace PgMimic.Dispatch

open PgMimic.Copy (Text CopyOptions)
open PgMimic.Messages (Backend Bytes)
open PgMimic.Protocols (Columns ResultColumn Raised)
open PgMimic.Stream (Tag Message)

variable {σ Value Stmt Portal Cell Param α β : Type}

/-! ## The client -/

/-- What is owed for a message sent. -/
inductive Awaited where
  | query
  | parse
  | bind
  | describeStatement
  | describePortal
  | execute
  | close
  | sync
  /-- Flush, and what is left of a COPY. -/
  | nothing
  /-- A type of message that the server does not know. -/
  | error
deriving DecidableEq

def Awaited.ofMessage (m : Message) : Awaited :=
  if m.tag = Tag.QUERY then .query
  else if m.tag = Tag.PARSE then .parse
  else if m.tag = Tag.BIND then .bind
  else if m.tag = Tag.DESCRIBE then
    if m.payload.head? = some TARGET_STATEMENT then .describeStatement else .describePortal
  else if m.tag = Tag.EXECUTE then .execute
  else if m.tag = Tag.CLOSE then .close
  else if m.tag = Tag.SYNC then .sync
  else if m.tag = Tag.FLUSH ∨ m.tag = Tag.COPY_DATA ∨ m.tag = Tag.COPY_DONE ∨ m.tag = Tag.COPY_FAIL
    then .nothing
  else .error

/-- A ReadyForQuery ends the answer. -/
def Awaited.closes (a : Awaited) : Bool := a = .query || a = .sync

/-- How far the answer to the first message has come. -/
inductive Stage where
  /-- At its start, or between two statements of a Query. -/
  | start
  /-- Behind a ParameterDescription. -/
  | described
  /-- Behind a RowDescription, or a DataRow. -/
  | rows
  | copyingIn
  | copyingOut
  | copied
  | failed
deriving DecidableEq

/-- What comes of a message of the server: more of the answer is to come, or that was all. -/
inductive Placed where
  | more (stage : Stage)
  | done
deriving DecidableEq

/-- A COPY in the place of a statement; `last` is what its CommandComplete is. -/
def placeCopy (last : Placed) : Stage → Backend → Option Placed
  | .start, .copyInResponse _ => some (.more .copyingIn)
  | .copyingIn, .commandComplete _ => some last
  | .start, .copyOutResponse _ => some (.more .copyingOut)
  | .copyingOut, .copyData _ => some (.more .copyingOut)
  | .copyingOut, .copyDone => some (.more .copied)
  | .copied, .commandComplete _ => some last
  | _, _ => none

/-- A statement of a Query. -/
def placeStatement : Stage → Backend → Option Placed
  | .start, .readyForQuery _ => some .done
  | .start, .emptyQueryResponse => some (.more .start)
  | .start, .rowDescription _ => some (.more .rows)
  | .start, .commandComplete _ => some (.more .start)
  | .rows, .dataRow _ => some (.more .rows)
  | .rows, .commandComplete _ => some (.more .start)
  | stage, b => placeCopy (.more .start) stage b

def placeExecute : Stage → Backend → Option Placed
  | .start, .dataRow _ => some (.more .rows)
  | .rows, .dataRow _ => some (.more .rows)
  | .start, .commandComplete _ => some .done
  | .rows, .commandComplete _ => some .done
  | .start, .portalSuspended => some .done
  | .rows, .portalSuspended => some .done
  | stage, b => placeCopy .done stage b

/-- The answer in good order to a message. -/
def place : Awaited → Stage → Backend → Option Placed
  | .query, stage, b => placeStatement stage b
  | .execute, stage, b => placeExecute stage b
  | .parse, .start, .parseComplete => some .done
  | .bind, .start, .bindComplete => some .done
  | .close, .start, .closeComplete => some .done
  | .sync, .start, .readyForQuery _ => some .done
  | .describeStatement, .start, .parameterDescription _ => some (.more .described)
  | .describeStatement, .described, .noData => some .done
  | .describeStatement, .described, .rowDescription _ => some .done
  | .describePortal, .start, .noData => some .done
  | .describePortal, .start, .rowDescription _ => some .done
  | _, _, _ => none

@[ext]
structure Client where
  pending : List Awaited
  stage : Stage
deriving DecidableEq

namespace Client

/-- What is behind the first Query or Sync. -/
def afterReady : List Awaited → Option (List Awaited)
  | [] => none
  | a :: later => if a.closes then some later else afterReady later

/-- Messages that are owed nothing are passed over. -/
def unanswered (pending : List Awaited) : List Awaited := pending.dropWhile (· = .nothing)

def answered (stage : Stage) (b : Backend) : List Awaited → Option Client
  | [] => none
  | a :: later =>
    match place a stage b with
    | none => none
    | some (.more stage) => some ⟨a :: later, stage⟩
    | some .done => some ⟨later, .start⟩

def isError : Backend → Bool
  | .errorResponse _ => true
  | _ => false

def isReady : Backend → Bool
  | .readyForQuery _ => true
  | _ => false

/-- One message of the server, which a client that cannot place it gives up at. -/
def next (c : Client) (w : Written) : Option Client :=
  if w.1.isAsync then some c
  else if isError w.1 then if c.pending = [] then none else some { c with stage := .failed }
  else if c.stage = .failed then
    if isReady w.1 then (afterReady c.pending).map fun later => ⟨later, .start⟩ else none
  else answered c.stage w.1 (unanswered c.pending)

end Client

/-- What the client has sent, or a frame that is none. -/
def Awaited.ofRead : Option Message → Awaited
  | some m => .ofMessage m
  | none => .error

/-- What a client has sent is owed an answer; where the batch has not failed, all but what is
yet to be read has got it. -/
def Owed (later : List Awaited) (c : Conn σ Value Stmt Portal) (k : Client) : Prop :=
  ∃ before, k.pending = before ++ later ∧
    if c.ignoreUntilSync then k.stage = .failed ∧ ∀ a ∈ before, a.closes = false
    else k.stage = .start ∧ ∀ a ∈ before, a = .nothing

/-! ## One message of the server -/

/-- What is placed is no error and not pushed, and is a ReadyForQuery exactly if the answer to a
Query or a Sync is at its end. -/
structure Fits (closes : Bool) (stage : Stage) (b : Backend) (p : Placed) : Prop where
  pushed : b.isAsync = false
  error : Client.isError b = false
  stage : stage ≠ .failed
  ready : Client.isReady b = (closes && decide (p = .done))
  goesOn : p ≠ .more .failed

theorem fits_copy {closes : Bool} {last p : Placed} {stage : Stage} {b : Backend}
    (placed : placeCopy last stage b = some p) (inside : (closes && decide (last = .done)) = false)
    (goesOn : last ≠ .more .failed) : Fits closes stage b p := by
  have more (stage' : Stage) : false = (closes && decide (Placed.more stage' = .done)) :=
    (Bool.and_false closes).symm
  rw [placeCopy.eq_def] at placed
  split at placed <;> cases placed
  · exact ⟨rfl, rfl, by decide, more _, by decide⟩
  · exact ⟨rfl, rfl, by decide, inside.symm, goesOn⟩
  · exact ⟨rfl, rfl, by decide, more _, by decide⟩
  · exact ⟨rfl, rfl, by decide, more _, by decide⟩
  · exact ⟨rfl, rfl, by decide, more _, by decide⟩
  · exact ⟨rfl, rfl, by decide, inside.symm, goesOn⟩

theorem fits_statement {p : Placed} {stage : Stage} {b : Backend}
    (placed : placeStatement stage b = some p) : Fits true stage b p := by
  rw [placeStatement.eq_def] at placed
  split at placed
  case h_7 => exact fits_copy placed rfl (by decide)
  all_goals
    cases placed
    exact ⟨rfl, rfl, by decide, rfl, by decide⟩

theorem fits_execute {p : Placed} {stage : Stage} {b : Backend}
    (placed : placeExecute stage b = some p) : Fits false stage b p := by
  rw [placeExecute.eq_def] at placed
  split at placed
  case h_7 => exact fits_copy placed rfl (by decide)
  all_goals
    cases placed
    exact ⟨rfl, rfl, by decide, rfl, by decide⟩

theorem fits_place {a : Awaited} {stage : Stage} {b : Backend} {p : Placed}
    (placed : place a stage b = some p) : Fits a.closes stage b p := by
  rw [place.eq_def] at placed
  split at placed
  case h_1 => exact fits_statement placed
  case h_2 => exact fits_execute placed
  case h_12 => cases placed
  all_goals
    cases placed
    exact ⟨rfl, rfl, by decide, rfl, by decide⟩

theorem ne_nothing_of_place {a : Awaited} {stage : Stage} {b : Backend} {p : Placed}
    (placed : place a stage b = some p) : a ≠ .nothing := by
  rintro rfl
  rw [place.eq_def] at placed
  split at placed <;> simp_all only [reduceCtorEq]

/-- The client once a message has been placed. -/
def Placed.client (a : Awaited) (later : List Awaited) : Placed → Client
  | .more stage => ⟨a :: later, stage⟩
  | .done => ⟨later, .start⟩

theorem unanswered_append {before : List Awaited} (bare : ∀ x ∈ before, x = .nothing) {a : Awaited}
    (owed : a ≠ .nothing) (later : List Awaited) :
    Client.unanswered (before ++ a :: later) = a :: later := by
  have passed : ∀ x ∈ before, decide (x = Awaited.nothing) = true := fun x inside =>
    decide_eq_true (bare x inside)
  rw [Client.unanswered, List.dropWhile_append_of_pos passed]
  exact List.dropWhile_cons_of_neg (by simpa using owed)

theorem next_placed {a : Awaited} {before later : List Awaited} {stage : Stage} {w : Written}
    {p : Placed} (bare : ∀ x ∈ before, x = .nothing) (placed : place a stage w.1 = some p) :
    Client.next ⟨before ++ a :: later, stage⟩ w = some (p.client a later) := by
  have fits := fits_place placed
  rw [Client.next, fits.pushed, if_neg Bool.false_ne_true, fits.error, if_neg Bool.false_ne_true,
    if_neg fits.stage, unanswered_append bare (ne_nothing_of_place placed), Client.answered, placed]
  cases p with
  | more stage => rfl
  | done => rfl

theorem next_pushed (k : Client) (p : Pushed) : Client.next k p.1 = some k := by
  rw [Client.next, p.2, if_pos rfl]

theorem run_pushed (k : Client) {ws : List Written} (pushed : ∀ w ∈ ws, w.1.isAsync = true) :
    Trace.run Client.next k ws = some k := by
  induction ws with
  | nil => rfl
  | cons w ws ih =>
    obtain ⟨first, others⟩ := List.forall_mem_cons.mp pushed
    rw [Trace.run_cons, Client.next, if_pos first, Option.bind_some]
    exact ih others

theorem next_error {k : Client} {w : Written} (error : Client.isError w.1 = true)
    (owed : k.pending ≠ []) : Client.next k w = some { k with stage := .failed } := by
  have own : w.1.isAsync = false := by
    revert error
    cases w.1 <;> simp [Client.isError, Backend.isAsync]
  rw [Client.next, own, if_neg Bool.false_ne_true, if_pos error, if_neg owed]

theorem afterReady_append {before : List Awaited} (open_ : ∀ x ∈ before, x.closes = false)
    {a : Awaited} (closes : a.closes = true) (later : List Awaited) :
    Client.afterReady (before ++ a :: later) = some later := by
  induction before with
  | nil => rw [List.nil_append, Client.afterReady, if_pos closes]
  | cons x before ih =>
    obtain ⟨first, others⟩ := List.forall_mem_cons.mp open_
    rw [List.cons_append, Client.afterReady, first, if_neg Bool.false_ne_true]
    exact ih others

/-! ## What a command leads the client to -/

/-- The client waits for the rest of the answer to the first of these. -/
def At (pending : List Awaited) (stage : Stage) (c : Conn σ Value Stmt Portal) (k : Client) :
    Prop :=
  c.ignoreUntilSync = false ∧ stage ≠ .failed ∧
    ∃ before, (∀ x ∈ before, x = .nothing) ∧ k = ⟨before ++ pending, stage⟩

/-- Something has been raised with no error written for it. -/
def Broken (pending : List Awaited) (_ : Thrown) (c : Conn σ Value Stmt Portal) (k : Client) :
    Prop :=
  ∃ stage, At pending stage c k

def Placed.At (a : Awaited) (later : List Awaited) :
    Placed → Conn σ Value Stmt Portal → Client → Prop
  | .more stage => Dispatch.At (a :: later) stage
  | .done => Dispatch.At later .start

/-- The command leads the client from one place to another, and where it raises nowhere else. -/
abbrev Leads (pending : List Awaited) (P : Conn σ Value Stmt Portal → Client → Prop)
    (m : Cmd σ Value Stmt Portal α) (R : Conn σ Value Stmt Portal → Client → Prop) : Prop :=
  Command.Triple Client.next P m (fun _ => R) (Broken pending)

section Leads

variable {rt : Runtime} {ty : Types Cell Param} {s : Session σ Value Stmt Portal Cell Param}
  {pending later : List Awaited} {a : Awaited} {stage : Stage} {b : Backend} {p : Placed}
  {P R S : Conn σ Value Stmt Portal → Client → Prop}
  {E : Thrown → Conn σ Value Stmt Portal → Client → Prop}

theorem Leads.andThen {m : Cmd σ Value Stmt Portal α} {f : α → Cmd σ Value Stmt Portal β}
    (first : Leads pending P m R) (rest : ∀ x, Leads pending R (f x) S) :
    Leads pending P (m >>= f) S :=
  Command.Triple.bind first rest

theorem leads_pure (x : α) (h : ∀ c k, P c k → R c k) :
    Leads pending P (pure x : Cmd σ Value Stmt Portal α) R :=
  Command.Triple.pure h

theorem leads_raise (e : Thrown) :
    Leads pending (At pending stage) (Command.raise e : Cmd σ Value Stmt Portal α) R :=
  Command.Triple.raise fun _ _ start => ⟨stage, start⟩

theorem leads_settle (r : Except Thrown α) :
    Leads pending (At pending stage) (Command.settle r : Cmd σ Value Stmt Portal α)
      (At pending stage) := by
  apply Command.Triple.settle
  intro c k start
  cases r with
  | ok x => exact start
  | error e => exact ⟨stage, start⟩

theorem leads_getWorld :
    Leads pending (At pending stage) (getWorld : Cmd σ Value Stmt Portal _) (At pending stage) :=
  Command.Triple.read_bind fun _ => leads_pure _ fun _ _ start => start.2

theorem leads_setState (f : SessionState Value Stmt (PortalEntry Portal) →
    SessionState Value Stmt (PortalEntry Portal)) :
    Leads pending (At pending stage) (setState f : Cmd σ Value Stmt Portal Unit)
      (At pending stage) :=
  Command.Triple.change fun _ _ start => start

/-- What the session pushes moves the client nowhere. -/
theorem leads_call (hook : Hook σ Value Stmt Portal α) :
    Leads pending (At pending stage) (call hook) (At pending stage) := by
  intro c k start
  refine ⟨k, ?_, ?_⟩
  · apply run_pushed
    intro w inside
    obtain ⟨pushed, -, rfl⟩ := List.mem_map.mp inside
    exact pushed.2
  · rw [call]
    cases (hook (c.own, c.world)).2.2 with
    | ok x => exact start
    | error e => exact ⟨stage, start⟩

theorem leads_send (placed : place a stage b = some p) :
    Leads (a :: later) (At (a :: later) stage) (send rt b : Cmd σ Value Stmt Portal Unit)
      (p.At a later) := by
  rw [send]
  split
  · apply Command.Triple.write
    rintro c k ⟨attends, -, before, bare, rfl⟩
    refine ⟨_, next_placed bare placed, ?_⟩
    have fits := fits_place placed
    cases p with
    | more stage' =>
      exact ⟨attends, fun failed => fits.goesOn (congrArg Placed.more failed), [], by simp, rfl⟩
    | done => exact ⟨attends, by decide, [], by simp, rfl⟩
  · exact leads_raise _

/-! ## COPY -/

theorem leads_drainAt (rowCount : Nat) :
    Leads pending (At pending stage) (drainAt s rowCount) (At pending stage) := by
  rw [drainAt]
  split
  · exact leads_call _
  · exact leads_pure _ fun _ _ start => start

theorem leads_copyRows (o : CopyOptions) (atEnd : Hook σ Value Stmt Portal Unit) (rowCount : Nat)
    (placed : ∀ data, place a .copyingOut (.copyData data) = some (.more .copyingOut))
    (rows : List (Hook σ Value Stmt Portal (List (Option Cell)))) :
    Leads (a :: later) (At (a :: later) .copyingOut) (copyRows rt ty s o atEnd rowCount rows)
      (At (a :: later) .copyingOut) := by
  induction rows generalizing rowCount with
  | nil => exact (leads_call atEnd).andThen fun _ => leads_pure _ fun _ _ start => start
  | cons pull rows ih =>
    refine (leads_call pull).andThen fun row => ?_
    refine (leads_settle _).andThen fun data => ?_
    refine Leads.andThen (leads_send (placed data)) fun _ => ?_
    exact (leads_drainAt (rowCount + 1)).andThen fun _ => ih (rowCount + 1)

theorem leads_firstRow (source : RowSource σ Value Stmt Portal Cell) :
    Leads pending (At pending stage) (firstRow source) (At pending stage) := by
  rw [firstRow]
  split
  · exact (leads_call source.atEnd).andThen fun _ => leads_pure _ fun _ _ start => start
  · exact (leads_call _).andThen fun _ => leads_pure _ fun _ _ start => start

theorem leads_headerOf (statement : Stmt) (o : CopyOptions) :
    Leads pending (At pending stage) (headerOf s statement o) (At pending stage) := by
  rw [headerOf]
  split
  · exact (leads_call _).andThen fun _ => leads_pure _ fun _ _ start => start
  · exact leads_pure _ fun _ _ start => start

theorem leads_sendHeader (o : CopyOptions)
    (placed : ∀ data, place a .copyingOut (.copyData data) = some (.more .copyingOut))
    (header : Option (List Text)) :
    Leads (a :: later) (At (a :: later) .copyingOut)
      (sendHeader rt o header : Cmd σ Value Stmt Portal Unit) (At (a :: later) .copyingOut) := by
  cases header with
  | none => exact leads_pure _ fun _ _ start => start
  | some names => exact leads_send (placed _)

theorem leads_sendFirst (o : CopyOptions)
    (placed : ∀ data, place a .copyingOut (.copyData data) = some (.more .copyingOut))
    (row : Option (List (Option Cell))) :
    Leads (a :: later) (At (a :: later) .copyingOut)
      (sendFirst rt ty o row : Cmd σ Value Stmt Portal Nat) (At (a :: later) .copyingOut) := by
  cases row with
  | none => exact leads_pure _ fun _ _ start => start
  | some row =>
    refine (leads_settle _).andThen fun data => ?_
    exact Leads.andThen (leads_send (placed data)) fun _ => leads_pure _ fun _ _ start => start

/-- Where a COPY may stand for the message, it answers it. -/
theorem leads_runCopy (statement : Stmt) (copy : CopyStatement)
    (places : ∀ stage b q, placeCopy p stage b = some q → place a stage b = some q) :
    Leads (a :: later) (At (a :: later) .start) (runCopy rt ty s statement copy)
      (p.At a later) := by
  have data (bytes : Bytes) := places .copyingOut (.copyData bytes) _ rfl
  rw [runCopy]
  split
  · refine Leads.andThen (R := At (a :: later) .copyingIn) ?_ fun count =>
      leads_send (places .copyingIn (.commandComplete _) p rfl)
    refine Leads.andThen (leads_send (places .start (.copyInResponse _) _ rfl)) fun _ => ?_
    exact (leads_call _).andThen fun _ => leads_call _
  · refine Leads.andThen (R := At (a :: later) .copied) ?_ fun count =>
      leads_send (places .copied (.commandComplete _) p rfl)
    refine (leads_headerOf statement copy.options).andThen fun header => ?_
    refine (leads_call _).andThen fun source => ?_
    refine (leads_firstRow source).andThen fun first => ?_
    refine Leads.andThen (leads_send (places .start (.copyOutResponse _) _ rfl)) fun _ => ?_
    refine Leads.andThen (leads_sendHeader copy.options data header) fun _ => ?_
    refine Leads.andThen (leads_sendFirst copy.options data first) fun sent => ?_
    refine Leads.andThen (leads_copyRows _ source.atEnd sent data source.rows.tail) fun _ => ?_
    refine Leads.andThen (leads_send (places .copyingOut .copyDone _ rfl)) fun _ => ?_
    exact leads_pure _ fun _ _ start => start

/-! ## Rows -/

theorem leads_sendRows (encode : List (Option Cell) → Except Thrown (List (Option Bytes)))
    (placed : ∀ values, place a .rows (.dataRow values) = some (.more .rows))
    (rows : List (List (Option Cell))) :
    Leads (a :: later) (At (a :: later) .rows)
      (sendRows rt encode rows : Cmd σ Value Stmt Portal Unit) (At (a :: later) .rows) := by
  induction rows with
  | nil => exact leads_pure _ fun _ _ start => start
  | cons row rows ih =>
    refine (leads_settle _).andThen fun values => ?_
    exact Leads.andThen (leads_send (placed values)) fun _ => ih

/-- The first row of a portal stands at the start of the answer. -/
theorem leads_portalRows (encode : List (Option Cell) → Except Thrown (List (Option Bytes)))
    (rows : List (List (Option Cell))) :
    Leads (.execute :: later) (At (.execute :: later) .start)
      (sendRows rt encode rows : Cmd σ Value Stmt Portal Unit)
      (At (.execute :: later) (if rows = [] then .start else .rows)) := by
  cases rows with
  | nil => exact leads_pure _ fun _ _ start => start
  | cons row rows =>
    refine (leads_settle _).andThen fun values => ?_
    refine Leads.andThen (leads_send (p := .more .rows) rfl) fun _ => ?_
    exact leads_sendRows encode (fun _ => rfl) rows

theorem leads_sendDescription (codes : List Int) (columns : List ResultColumn)
    (placed : ∀ specs, place a stage (.rowDescription specs) = some p) :
    Leads (a :: later) (At (a :: later) stage)
      (sendDescription rt codes columns : Cmd σ Value Stmt Portal Unit) (p.At a later) :=
  (leads_settle _).andThen fun specs => leads_send (placed specs)

/-! ## The simple protocol -/

theorem leads_sendResult (columns : Columns) (rows : List (List (Option Cell))) :
    Leads (.query :: later) (At (.query :: later) .start)
      (sendResult rt ty columns rows : Cmd σ Value Stmt Portal Unit)
      (At (.query :: later) (if columns = none then .start else .rows)) := by
  cases columns with
  | none => exact leads_pure _ fun _ _ start => start
  | some columns =>
    refine Leads.andThen (leads_sendDescription [] columns (p := .more .rows) fun _ => rfl)
      fun _ => ?_
    exact leads_sendRows _ (fun _ => rfl) rows

theorem leads_runStatement (sql : Text) (statement : Stmt) :
    Leads (.query :: later) (At (.query :: later) .start) (runStatement rt ty s sql statement)
      (At (.query :: later) .start) := by
  refine (leads_call _).andThen fun columns => ?_
  refine (leads_call _).andThen fun portal => ?_
  refine (leads_call _).andThen fun executed => ?_
  obtain ⟨rows, -⟩ := executed
  refine Leads.andThen (leads_sendResult columns rows) fun _ => ?_
  cases columns with
  | none => exact leads_send (p := .more .start) rfl
  | some columns => exact leads_send (p := .more .start) rfl

theorem leads_executeOne (sql : Text) :
    Leads (.query :: later) (At (.query :: later) .start) (executeOneSimpleStatement rt ty s sql)
      (At (.query :: later) .start) := by
  refine leads_getWorld.andThen fun w => ?_
  split
  · exact leads_raise _
  · split
    · exact leads_send (p := .more .start) rfl
    · refine (leads_call _).andThen fun statement => ?_
      split
      · exact leads_runCopy statement _ (p := .more .start) fun stage b q placed => by
          cases stage <;> cases b <;> first | exact placed | cases placed
      · exact leads_runStatement sql statement

theorem leads_executeAll (statements : List Text) :
    Leads (.query :: later) (At (.query :: later) .start) (executeAll rt ty s statements)
      (At (.query :: later) .start) := by
  induction statements with
  | nil => exact leads_pure _ fun _ _ start => start
  | cons sql statements ih => exact (leads_executeOne sql).andThen fun _ => ih

theorem leads_handleSimpleQuery (sql : Text) :
    Leads (.query :: later) (At (.query :: later) .start) (handleSimpleQuery rt ty s sql)
      (At (.query :: later) .start) := by
  rw [handleSimpleQuery]
  split
  · exact leads_send (p := .more .start) rfl
  · exact leads_executeAll _

/-! ## The extended protocol -/

theorem leads_getStatement (name : String) :
    Leads pending (At pending stage) (getStatement name : Cmd σ Value Stmt Portal Stmt)
      (At pending stage) := by
  refine leads_getWorld.andThen fun w => ?_
  split
  · exact leads_raise _
  · exact leads_pure _ fun _ _ start => start

theorem leads_getPortal (name : String) :
    Leads pending (At pending stage) (getPortal name : Cmd σ Value Stmt Portal _)
      (At pending stage) := by
  refine leads_getWorld.andThen fun w => ?_
  split
  · exact leads_raise _
  · exact leads_pure _ fun _ _ start => start

theorem leads_handleParse (m : Wire.ParsedParse) :
    Leads (.parse :: later) (At (.parse :: later) .start) (handleParse rt s m) (At later .start) :=
  (leads_call _).andThen fun _ => (leads_setState _).andThen fun _ => leads_send (p := .done) rfl

theorem leads_handleBind (m : Wire.ParsedBind) :
    Leads (.bind :: later) (At (.bind :: later) .start) (handleBind rt ty s m)
      (At later .start) := by
  refine (leads_getStatement _).andThen fun statement => ?_
  refine (leads_settle _).andThen fun params => ?_
  refine (leads_call _).andThen fun portal => ?_
  refine (leads_call _).andThen fun columns => ?_
  exact (leads_setState _).andThen fun _ => leads_send (p := .done) rfl

theorem leads_describeColumns (codes : List Int) (columns : Columns)
    (bare : place a stage .noData = some .done)
    (placed : ∀ specs, place a stage (.rowDescription specs) = some .done) :
    Leads (a :: later) (At (a :: later) stage)
      (describeColumns rt codes columns : Cmd σ Value Stmt Portal Unit) (At later .start) := by
  cases columns with
  | none => exact leads_send bare
  | some columns => exact leads_sendDescription codes columns placed

/-- What a Describe is owed goes by its first byte. -/
theorem leads_handleDescribe (kind : UInt8) (name : Text)
    (owed : a = if kind = TARGET_STATEMENT then .describeStatement else .describePortal) :
    Leads (a :: later) (At (a :: later) .start) (handleDescribe rt s kind name)
      (At later .start) := by
  subst owed
  rw [handleDescribe]
  split
  · refine (leads_getStatement _).andThen fun statement => ?_
    refine Leads.andThen (leads_send (p := .more .described) rfl) fun _ => ?_
    refine (leads_call _).andThen fun columns => ?_
    exact leads_describeColumns [] columns rfl fun _ => rfl
  · refine (leads_getPortal _).andThen fun entry => ?_
    exact leads_describeColumns _ entry.columns rfl fun _ => rfl

theorem leads_sendPortalRows (entry : PortalEntry Portal) (rows : List (List (Option Cell))) :
    Leads (.execute :: later) (At (.execute :: later) .start)
      (sendPortalRows rt ty entry rows : Cmd σ Value Stmt Portal Unit)
      (At (.execute :: later) (if entry.columns = none ∨ rows = [] then .start else .rows)) := by
  rw [sendPortalRows]
  cases entry.columns with
  | none => exact leads_pure _ fun _ _ start => start
  | some columns => simpa only [reduceCtorEq, false_or] using leads_portalRows _ rows

/-- A row may or may not have been sent. -/
theorem leads_endOfExecute {behind : Prop} [Decidable behind]
    (ends : ∀ stage, stage = .start ∨ stage = .rows → place .execute stage b = some .done) :
    Leads (.execute :: later) (At (.execute :: later) (if behind then .start else .rows))
      (send rt b : Cmd σ Value Stmt Portal Unit) (At later .start) := by
  split
  · exact leads_send (ends .start (.inl rfl))
  · exact leads_send (ends .rows (.inr rfl))

theorem leads_handleExecute (name : Text) (maxRows : Int) :
    Leads (.execute :: later) (At (.execute :: later) .start)
      (handleExecute rt ty s name maxRows) (At later .start) := by
  refine (leads_getPortal _).andThen fun entry => ?_
  refine leads_getWorld.andThen fun w => ?_
  split
  · exact leads_raise _
  · split
    · exact leads_runCopy _ _ (p := .done) fun stage b q placed => by
        cases stage <;> cases b <;> first | exact placed | cases placed
    · refine (leads_call _).andThen fun executed => ?_
      obtain ⟨rows, suspended⟩ := executed
      refine (leads_setState _).andThen fun _ => ?_
      refine Leads.andThen (leads_sendPortalRows entry rows) fun _ => ?_
      cases suspended with
      | true => exact leads_endOfExecute fun stage at_ => by rcases at_ with rfl | rfl <;> rfl
      | false => exact leads_endOfExecute fun stage at_ => by rcases at_ with rfl | rfl <;> rfl

theorem leads_handleClose (kind : UInt8) (name : Text) :
    Leads (.close :: later) (At (.close :: later) .start)
      (handleClose rt kind name : Cmd σ Value Stmt Portal Unit) (At later .start) :=
  (leads_setState _).andThen fun _ => leads_send (p := .done) rfl

theorem leads_parsed {m : Message} (result : Option α) :
    Leads pending (At pending stage) (parsed rt m result : Cmd σ Value Stmt Portal α)
      (At pending stage) := by
  cases result with
  | none => exact leads_raise _
  | some value => exact leads_pure _ fun _ _ start => start

/-! ## A message -/

/-- What is still to be answered behind the handler of a message. -/
def Awaited.left (later : List Awaited) : Awaited → List Awaited
  | .query => .query :: later
  | .sync => .sync :: later
  | .nothing => .nothing :: later
  | _ => later

theorem head_of_parseDescribe {payload : Bytes} {target : UInt8 × Text}
    (read : parseDescribe payload = some target) : payload.head? = some target.1 := by
  simp only [parseDescribe, Option.bind_eq_bind, Option.bind_eq_some_iff] at read
  obtain ⟨kind, first, name, -, done⟩ := read
  rw [first, ← Option.some.inj done]

theorem leads_handle (m : Message) (owed : Awaited.ofMessage m = a) :
    Leads (a :: later) (At (a :: later) .start) (handle rt ty s m) (At (a.left later) .start) := by
  rw [Awaited.ofMessage] at owed
  rw [handle]
  by_cases query : m.tag = Tag.QUERY
  · rw [if_pos query] at owed ⊢
    subst owed
    exact (leads_parsed _).andThen fun sql => leads_handleSimpleQuery sql
  rw [if_neg query] at owed ⊢
  by_cases parse : m.tag = Tag.PARSE
  · rw [if_pos parse] at owed ⊢
    subst owed
    exact (leads_parsed _).andThen fun parsed => leads_handleParse parsed
  rw [if_neg parse] at owed ⊢
  by_cases bind : m.tag = Tag.BIND
  · rw [if_pos bind] at owed ⊢
    subst owed
    exact (leads_parsed _).andThen fun parsed => leads_handleBind parsed
  rw [if_neg bind] at owed ⊢
  by_cases describe : m.tag = Tag.DESCRIBE
  · rw [if_pos describe] at owed ⊢
    have answered : a.left later = later := by
      subst owed
      split <;> rfl
    rw [answered]
    cases read : parseDescribe m.payload with
    | none => exact leads_raise _
    | some target =>
      simp only [head_of_parseDescribe read, Option.some.injEq] at owed
      exact leads_handleDescribe target.1 target.2 owed.symm
  rw [if_neg describe] at owed ⊢
  by_cases execute : m.tag = Tag.EXECUTE
  · rw [if_pos execute] at owed ⊢
    subst owed
    exact (leads_parsed _).andThen fun parsed => leads_handleExecute parsed.1 parsed.2
  rw [if_neg execute] at owed ⊢
  by_cases close : m.tag = Tag.CLOSE
  · rw [if_pos close] at owed ⊢
    subst owed
    exact (leads_parsed _).andThen fun parsed => leads_handleClose parsed.1 parsed.2
  rw [if_neg close] at owed ⊢
  by_cases sync : m.tag = Tag.SYNC
  · rw [if_pos sync] at owed ⊢
    subst owed
    exact leads_pure _ fun _ _ start => start
  rw [if_neg sync] at owed ⊢
  by_cases flush : m.tag = Tag.FLUSH
  · rw [if_pos flush]
    rw [if_pos (.inl flush)] at owed
    subst owed
    exact leads_call _
  · rw [if_neg flush]
    exact leads_raise _

end Leads

end PgMimic.Dispatch

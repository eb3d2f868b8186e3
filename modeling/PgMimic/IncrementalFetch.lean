import Mathlib.Algebra.Group.Nat.Defs
import PgMimic.PreparedStatements

/-!
# A portal over several Executes

The rows of a `StaticStatement` are read at the first Execute of its portal, after the
effect, and each Execute takes the next of them from what the one before has left. The
count for the tag is kept beside the portal. Between two Executes other messages may
change the connection, but not what is left of the rows. The effect is applied to the
connection once, at that first Execute; the others leave the connection as they find it,
but for the failed transaction behind an error.
-/

namespace PgMimic.IncrementalFetch

open PgMimic.Copy (Text)
open PgMimic.Endpoint (TextTables asciiTables)
open PgMimic.Protocols (ResultColumn Columns Raised Row Bare sqlstate abortedTransaction)
open PgMimic.StatementText

variable {Value Cell Bytes : Type}

/-! ## The portal -/

structure StaticStatement (Value Cell : Type) where
  sql : Text
  columns : Columns
  rows : Bare Value → List (Row Cell)
  onExecute : Option (Bare Value → Bare Value)

structure StaticPortal (Value Cell : Type) where
  rows : Bare Value → List (Row Cell)
  onExecute : Option (Bare Value → Bare Value)
  /-- What is left of the rows, from the first Execute on. -/
  rowSource : Option (List (Row Cell))

def StaticStatement.bind (s : StaticStatement Value Cell) : StaticPortal Value Cell :=
  ⟨s.rows, s.onExecute, none⟩

/-- The loop of `drain_rows` after `count` rows: the rows, whether the limit was hit, and
what is left of the source. -/
def drainFrom (maxRows : Int) (count : Nat) (source : List (Row Cell)) :
    List (Row Cell) × Bool × List (Row Cell) :=
  if maxRows ≤ 0 ∨ count < maxRows then
    match source with
    | [] => ([], false, [])
    | row :: source =>
      let (rows, suspended, left) := drainFrom maxRows (count + 1) source
      (row :: rows, suspended, left)
  else ([], decide (0 < maxRows), source)

def drainRows (source : List (Row Cell)) (maxRows : Int) :
    List (Row Cell) × Bool × List (Row Cell) :=
  drainFrom maxRows 0 source

/-- What happens at an Execute, in the order it happens. -/
inductive Event (Bytes : Type) where
  | effect
  | dataRow (values : List (Option Bytes))
  | portalSuspended
  | commandComplete (tag : Text)
  | errorResponse (sqlstate : String)
deriving DecidableEq

/-- The connection after the effect. -/
def afterEffect (onExecute : Option (Bare Value → Bare Value)) (w : Bare Value) : Bare Value :=
  match onExecute with
  | none => w
  | some effect => effect w

def effects (onExecute : Option (Bare Value → Bare Value)) : List (Event Bytes) :=
  match onExecute with
  | none => []
  | some _ => [.effect]

/-- The rows that an Execute reads from, the connection after it, and the effect if this is
the first. -/
def StaticPortal.source (p : StaticPortal Value Cell) (w : Bare Value) :
    List (Row Cell) × Bare Value × List (Event Bytes) :=
  match p.rowSource with
  | some source => (source, w, [])
  | none =>
    let w' := afterEffect p.onExecute w
    (p.rows w', w', effects p.onExecute)

/-! ## The rows on the wire -/

/-- `format_code_for`. -/
def formatCodeFor : List Int → Nat → Except Raised Int
  | [], _ => .ok 0
  | [code], _ => .ok code
  | codes, index =>
    match codes[index]? with
    | none => .error (.other (.exception "list index out of range"))
    | some code => .ok code

/-- `encode_value` in UTF-8, and `encode_value_binary`. -/
structure Encoders (Cell Bytes : Type) where
  encodeValue : Nat → Cell → Except Raised Bytes
  encodeValueBinary : Nat → Cell → Except Raised Bytes

section Encoding

variable (enc : Encoders Cell Bytes) (columns : List ResultColumn) (codes : List Int)

/-- The loop of `encode_row`, at a column. -/
def encodeFrom (index : Nat) : Row Cell → Except Raised (List (Option Bytes))
  | [] => .ok []
  | none :: row => do .ok (none :: (← encodeFrom (index + 1) row))
  | some value :: row => do
    let code ← formatCodeFor codes index
    match columns[index]? with
    | none => .error (.other (.exception "list index out of range"))
    | some column =>
      let bytes ← if code = 0 then enc.encodeValue column.oid value
        else enc.encodeValueBinary column.oid value
      .ok (some bytes :: (← encodeFrom (index + 1) row))

/-- `encode_row`. -/
def encodeRow (row : Row Cell) : Except Raised (List (Option Bytes)) :=
  encodeFrom enc columns codes 0 row

/-- The DataRows up to the first row that cannot be encoded, and what it raises. -/
def encodeRows : List (Row Cell) → List (Event Bytes) × Option Raised
  | [] => ([], none)
  | row :: rows =>
    match encodeRow enc columns codes row with
    | .error raised => ([], some raised)
    | .ok values =>
      let (written, raised) := encodeRows rows
      (.dataRow values :: written, raised)

end Encoding

/-! ## Execute -/

structure PortalEntry (Value Cell : Type) where
  portal : StaticPortal Value Cell
  columns : Columns
  sql : Text
  resultFormatCodes : List Int
  rowsReturned : Nat

/-- What `_handle_bind` stores. -/
def StaticStatement.entry (s : StaticStatement Value Cell) (codes : List Int) :
    PortalEntry Value Cell :=
  ⟨s.bind, s.columns, s.sql, codes, 0⟩

/-- A statement without columns sends none of its rows. -/
def sendRows (enc : Encoders Cell Bytes) (entry : PortalEntry Value Cell)
    (rows : List (Row Cell)) : List (Event Bytes) × Option Raised :=
  match entry.columns with
  | none => ([], none)
  | some columns => encodeRows enc columns entry.resultFormatCodes rows

/-- What a failed transaction refuses. -/
def refused (t : TextTables) (sql : Text) (w : Bare Value) : Bool :=
  decide (w.txStatus = .E) && !allowedInFailedTransaction t sql

/-- The entry behind some rows, with what is left behind them. -/
def PortalEntry.past (entry : PortalEntry Value Cell) (rows left : List (Row Cell)) :
    PortalEntry Value Cell :=
  { entry with
    portal := { entry.portal with rowSource := some left }
    rowsReturned := entry.rowsReturned + rows.length }

/-- The rest of `_handle_execute` once the rows are there, and the report of what it raises:
the entry and the connection after it, and what happened. -/
def fetch (t : TextTables) (enc : Encoders Cell Bytes) (entry : PortalEntry Value Cell)
    (source : List (Row Cell)) (w : Bare Value) (maxRows : Int) :
    PortalEntry Value Cell × Bare Value × List (Event Bytes) :=
  let (rows, suspended, left) := drainRows source maxRows
  let entry' := entry.past rows left
  let (written, raised) := sendRows enc entry rows
  match raised with
  | some raised => (entry', w.fail, written ++ [.errorResponse (sqlstate raised.caught)])
  | none =>
    (entry', w, written ++ [if suspended then .portalSuspended
      else .commandComplete (commandTag t entry.sql entry'.rowsReturned)])

/-- `_handle_execute`. -/
def handleExecute (t : TextTables) (enc : Encoders Cell Bytes) (entry : PortalEntry Value Cell)
    (w : Bare Value) (maxRows : Int) :
    PortalEntry Value Cell × Bare Value × List (Event Bytes) :=
  if refused t entry.sql w then
    (entry, w.fail, [.errorResponse (sqlstate (.error abortedTransaction))])
  else
    let (source, w', effects) := entry.portal.source w
    let (entry', w'', events) := fetch t enc entry source w' maxRows
    (entry', w'', effects ++ events)

/-- An Execute, behind what other messages have made of the connection. -/
structure Request (Value : Type) where
  before : Bare Value → Bare Value
  maxRows : Int

/-- An Execute that has been handled: the connection it found, what happened, and the connection
it left. -/
structure Answered (Value Bytes : Type) where
  world : Bare Value
  maxRows : Int
  events : List (Event Bytes)
  left : Bare Value

/-- The Executes of one portal, one after another. -/
def executes (t : TextTables) (enc : Encoders Cell Bytes) (entry : PortalEntry Value Cell)
    (w : Bare Value) : List (Request Value) → List (Answered Value Bytes)
  | [] => []
  | request :: later =>
    let found := request.before w
    let (entry', w', events) := handleExecute t enc entry found request.maxRows
    ⟨found, request.maxRows, events, w'⟩ :: executes t enc entry' w' later

/-! ## What a client is owed -/

namespace Event

def isEffect : Event Bytes → Bool
  | .effect => true
  | _ => false

def row? : Event Bytes → Option (List (Option Bytes))
  | .dataRow values => some values
  | _ => none

end Event

namespace Answered

def rows (a : Answered Value Bytes) : List (List (Option Bytes)) := a.events.filterMap Event.row?

def Failed (a : Answered Value Bytes) : Prop := ∃ sqlstate, .errorResponse sqlstate ∈ a.events

/-- The connection behind the Execute is this one, or its failed transaction after an error. -/
def Leaves (a : Answered Value Bytes) (w : Bare Value) : Prop :=
  (a.Failed → a.left = w.fail) ∧ (¬a.Failed → a.left = w)

end Answered

def happened (answers : List (Answered Value Bytes)) : List (Event Bytes) :=
  answers.flatMap Answered.events

def sent (answers : List (Answered Value Bytes)) : List (List (Option Bytes)) :=
  answers.flatMap Answered.rows

/-- What the rows are as DataRows. -/
def onWire (enc : Encoders Cell Bytes) (columns : Columns) (codes : List Int)
    (rows : List (Row Cell)) : List (Except Raised (List (Option Bytes))) :=
  match columns with
  | none => []
  | some columns => rows.map (encodeRow enc columns codes)

/-- The rows of a statement are what it has after the effect of the first Execute that is not
refused. -/
def StaticStatement.rowsRead (t : TextTables) (s : StaticStatement Value Cell)
    (answers : List (Answered Value Bytes)) : List (Row Cell) :=
  match answers.find? fun a => !refused t s.sql a.world with
  | none => []
  | some first => s.rows (afterEffect s.onExecute first.world)

structure FetchedInTurn (t : TextTables) (enc : Encoders Cell Bytes)
    (s : StaticStatement Value Cell) (codes : List Int) (answers : List (Answered Value Bytes)) :
    Prop where
  effect_once : (happened answers).countP Event.isEffect =
    if s.onExecute.isSome ∧ ∃ a ∈ answers, refused t s.sql a.world = false then 1 else 0
  effect_first : ∀ before values after,
    happened answers = before ++ .dataRow values :: after → .effect ∉ after
  rows_in_order :
    ((sent answers).map Except.ok).Sublist (onWire enc s.columns codes (s.rowsRead t answers))
  rows_prefix : ∀ earlier a later, answers = earlier ++ a :: later → (∀ b ∈ earlier, ¬b.Failed) →
    (sent (earlier ++ [a])).map Except.ok <+: onWire enc s.columns codes (s.rowsRead t answers)
  suspended_full : ∀ a ∈ answers, .portalSuspended ∈ a.events → (a.rows.length : Int) = a.maxRows
  completed_all : ∀ earlier a later tag, answers = earlier ++ a :: later →
    .commandComplete tag ∈ a.events →
    tag = commandTag t s.sql (s.rowsRead t answers).length ∧
    ((∀ b ∈ earlier, ¬b.Failed) →
      (sent (earlier ++ [a])).map Except.ok = onWire enc s.columns codes (s.rowsRead t answers))

/-- Each Execute finds the connection that the one before has left, behind what other messages
have made of it. -/
def Chained (w : Bare Value) : List (Request Value) → List (Answered Value Bytes) → Prop
  | [], [] => True
  | request :: requests, a :: answers =>
    a.world = request.before w ∧ a.maxRows = request.maxRows ∧ Chained a.left requests answers
  | _, _ => False

/-- What the Executes do to the connection: the first that is not refused applies the effect to
it, and no other does. -/
structure AppliedOnce (t : TextTables) (s : StaticStatement Value Cell) (w : Bare Value)
    (requests : List (Request Value)) (answers : List (Answered Value Bytes)) : Prop where
  chained : Chained w requests answers
  applied : ∀ earlier a later, answers = earlier ++ a :: later →
    (∀ b ∈ earlier, refused t s.sql b.world = true) → refused t s.sql a.world = false →
    a.Leaves (afterEffect s.onExecute a.world)
  untouched : ∀ earlier a later, answers = earlier ++ a :: later →
    (∃ b ∈ earlier, refused t s.sql b.world = false) ∨ refused t s.sql a.world = true →
    a.Leaves a.world

/-! ## One Execute -/

/-- The limit is only hit by as many rows as it says. -/
theorem drainFrom_spec (maxRows : Int) (count : Nat) (source : List (Row Cell))
    {rows left : List (Row Cell)} {suspended : Bool}
    (drained : drainFrom maxRows count source = (rows, suspended, left)) :
    rows ++ left = source ∧
    (suspended = true →
      0 < maxRows ∧ ((count : Int) ≤ maxRows → (count + rows.length : Int) = maxRows)) ∧
    (suspended = false → left = []) := by
  induction source generalizing count rows with
  | nil =>
    unfold drainFrom at drained
    split at drained
    · cases drained
      exact ⟨rfl, nofun, fun _ => rfl⟩
    · rename_i limit
      cases drained
      refine ⟨rfl, fun _ => ⟨by omega, fun within => ?_⟩, fun _ => rfl⟩
      simp only [List.length_nil]
      omega
  | cons row source ih =>
    unfold drainFrom at drained
    split at drained
    · rename_i running
      obtain ⟨rows', suspended', left', rest⟩ : ∃ rows' suspended' left',
        drainFrom maxRows (count + 1) source = (rows', suspended', left') := ⟨_, _, _, rfl⟩
      simp only [rest] at drained
      cases drained
      obtain ⟨whole, full, ended⟩ := ih (count + 1) rest
      refine ⟨by rw [List.cons_append, whole], fun held => ⟨(full held).1, fun within => ?_⟩, ended⟩
      obtain ⟨positive, exactly⟩ := full held
      have := exactly (by omega)
      simp only [List.length_cons]
      omega
    · rename_i limit
      cases drained
      refine ⟨rfl, fun _ => ⟨by omega, fun within => ?_⟩, fun unlimited => ?_⟩
      · simp only [List.length_nil]
        omega
      · simp only [decide_eq_false_iff_not] at unlimited
        omega

theorem drainRows_spec {source : List (Row Cell)} {maxRows : Int} {rows left : List (Row Cell)}
    {suspended : Bool} (drained : drainRows source maxRows = (rows, suspended, left)) :
    rows ++ left = source ∧ (suspended = true → (rows.length : Int) = maxRows) ∧
    (suspended = false → left = []) := by
  obtain ⟨whole, full, ended⟩ := drainFrom_spec maxRows 0 source drained
  refine ⟨whole, fun held => ?_, ended⟩
  obtain ⟨positive, exactly⟩ := full held
  have := exactly (by omega)
  omega

section Encoding

variable (enc : Encoders Cell Bytes)

/-- What is written of some rows: DataRows of the first of them, of all where nothing is raised. -/
theorem encodeRows_spec (columns : List ResultColumn) (codes : List Int) (rows : List (Row Cell)) :
    (∀ e ∈ (encodeRows enc columns codes rows).1, ∃ values, e = .dataRow values) ∧
    ((encodeRows enc columns codes rows).1.filterMap Event.row?).map Except.ok <+:
      rows.map (encodeRow enc columns codes) ∧
    ((encodeRows enc columns codes rows).2 = none →
      ((encodeRows enc columns codes rows).1.filterMap Event.row?).map Except.ok =
        rows.map (encodeRow enc columns codes)) := by
  induction rows with
  | nil => exact ⟨nofun, List.nil_prefix, fun _ => rfl⟩
  | cons row rows ih =>
    obtain ⟨only, some, all⟩ := ih
    unfold encodeRows
    cases encoded : encodeRow enc columns codes row with
    | error raised => exact ⟨nofun, List.nil_prefix, nofun⟩
    | ok values =>
      have head : (Event.dataRow values :: (encodeRows enc columns codes rows).1).filterMap
          Event.row? = values :: (encodeRows enc columns codes rows).1.filterMap Event.row? := rfl
      refine ⟨?_, ?_, fun quiet => ?_⟩
      · intro e member
        cases member with
        | head => exact ⟨values, rfl⟩
        | tail _ later => exact only e later
      · rw [head, List.map_cons, List.map_cons, encoded]
        exact List.cons_prefix_cons.mpr ⟨rfl, some⟩
      · rw [head, List.map_cons, List.map_cons, encoded, all quiet]

theorem sendRows_spec (entry : PortalEntry Value Cell) (rows : List (Row Cell)) :
    (∀ e ∈ (sendRows enc entry rows).1, ∃ values, e = .dataRow values) ∧
    ((sendRows enc entry rows).1.filterMap Event.row?).map Except.ok <+:
      onWire enc entry.columns entry.resultFormatCodes rows ∧
    ((sendRows enc entry rows).2 = none →
      ((sendRows enc entry rows).1.filterMap Event.row?).map Except.ok =
        onWire enc entry.columns entry.resultFormatCodes rows) := by
  unfold sendRows onWire
  cases entry.columns with
  | none => exact ⟨nofun, List.nil_prefix, fun _ => rfl⟩
  | some columns => exact encodeRows_spec enc columns entry.resultFormatCodes rows

end Encoding

/-- What an Execute does with the rows that are left, `n` of them having been returned. -/
structure Fetched (t : TextTables) (enc : Encoders Cell Bytes) (entry : PortalEntry Value Cell)
    (source : List (Row Cell)) (maxRows : Int) (entry' : PortalEntry Value Cell)
    (rows left : List (Row Cell)) (events : List (Event Bytes)) : Prop where
  whole : rows ++ left = source
  entry_eq : entry' = entry.past rows left
  no_effect : .effect ∉ events
  rows_prefix : (events.filterMap Event.row?).map Except.ok <+:
    onWire enc entry.columns entry.resultFormatCodes rows
  rows_all : (¬∃ sqlstate, .errorResponse sqlstate ∈ events) →
    (events.filterMap Event.row?).map Except.ok =
      onWire enc entry.columns entry.resultFormatCodes rows
  suspended : .portalSuspended ∈ events →
    (rows.length : Int) = maxRows ∧ ¬∃ sqlstate, .errorResponse sqlstate ∈ events
  completed : ∀ tag, .commandComplete tag ∈ events →
    left = [] ∧ tag = commandTag t entry.sql (entry.rowsReturned + rows.length) ∧
    ¬∃ sqlstate, .errorResponse sqlstate ∈ events

theorem filterMap_row_append (written : List (Event Bytes)) {last : Event Bytes}
    (none : last.row? = none) :
    (written ++ [last]).filterMap Event.row? = written.filterMap Event.row? := by
  rw [List.filterMap_append, List.filterMap_cons_none none, List.filterMap_nil, List.append_nil]

theorem not_mem_written {written : List (Event Bytes)} {last e : Event Bytes}
    (only : ∀ e ∈ written, ∃ values, e = .dataRow values) (row : e.row? = none) (ne : e ≠ last) :
    e ∉ written ++ [last] := by
  intro member
  rcases List.mem_append.mp member with member | member
  · obtain ⟨values, rfl⟩ := only e member
    cases row
  · exact ne (List.mem_singleton.mp member)

theorem fetch_spec (t : TextTables) (enc : Encoders Cell Bytes) (entry : PortalEntry Value Cell)
    (source : List (Row Cell)) (w : Bare Value) (maxRows : Int) :
    ∃ rows left, Fetched t enc entry source maxRows (fetch t enc entry source w maxRows).1
      rows left (fetch t enc entry source w maxRows).2.2 := by
  obtain ⟨rows, suspended, left, drained⟩ : ∃ rows suspended left,
    drainRows source maxRows = (rows, suspended, left) := ⟨_, _, _, rfl⟩
  obtain ⟨whole, full, ended⟩ := drainRows_spec drained
  obtain ⟨only, some', all⟩ := sendRows_spec enc entry rows
  refine ⟨rows, left, ?_⟩
  have absent {last : Event Bytes} (e : Event Bytes) (row : e.row? = none) (ne : e ≠ last) :
      e ∉ (sendRows enc entry rows).1 ++ [last] := not_mem_written only row ne
  have quiet {last : Event Bytes} (ne : ∀ sqlstate, .errorResponse sqlstate ≠ last) :
      ¬∃ sqlstate, .errorResponse sqlstate ∈ (sendRows enc entry rows).1 ++ [last] :=
    fun ⟨sqlstate, member⟩ => absent _ rfl (ne sqlstate) member
  have some_sent {last : Event Bytes} (row : last.row? = none) :
      (((sendRows enc entry rows).1 ++ [last]).filterMap Event.row?).map Except.ok <+:
        onWire enc entry.columns entry.resultFormatCodes rows := by
    rw [filterMap_row_append _ row]
    exact some'
  have all_sent {last : Event Bytes} (row : last.row? = none)
      (raised : (sendRows enc entry rows).2 = none) :
      (((sendRows enc entry rows).1 ++ [last]).filterMap Event.row?).map Except.ok =
        onWire enc entry.columns entry.resultFormatCodes rows := by
    rw [filterMap_row_append _ row]
    exact all raised
  cases raised : (sendRows enc entry rows).2 with
  | some raise =>
    have fetched : fetch t enc entry source w maxRows = (entry.past rows left, w.fail,
        (sendRows enc entry rows).1 ++ [.errorResponse (sqlstate raise.caught)]) := by
      simp only [fetch, drained, raised]
    simp only [fetched]
    refine ⟨whole, rfl, absent _ rfl (by simp), some_sent rfl,
      fun quiet => (quiet ⟨sqlstate raise.caught, ?_⟩).elim,
      fun member => (absent _ rfl (by simp) member).elim,
      fun tag member => (absent _ rfl (by simp) member).elim⟩
    exact List.mem_append_right _ (List.mem_singleton.mpr rfl)
  | none =>
    cases suspended with
    | true =>
      have fetched : fetch t enc entry source w maxRows = (entry.past rows left, w,
          (sendRows enc entry rows).1 ++ [.portalSuspended]) := by
        simp only [fetch, drained, raised, if_true]
      simp only [fetched]
      exact ⟨whole, rfl, absent _ rfl (by simp), some_sent rfl, fun _ => all_sent rfl raised,
        fun _ => ⟨full rfl, quiet (by simp)⟩,
        fun tag member => (absent _ rfl (by simp) member).elim⟩
    | false =>
      have fetched : fetch t enc entry source w maxRows = (entry.past rows left, w,
          (sendRows enc entry rows).1 ++
            [.commandComplete (commandTag t entry.sql (entry.past rows left).rowsReturned)]) := by
        simp only [fetch, drained, raised, Bool.false_eq_true, if_false]
      simp only [fetched]
      refine ⟨whole, rfl, absent _ rfl (by simp), some_sent rfl, fun _ => all_sent rfl raised,
        fun member => (absent _ rfl (by simp) member).elim, fun tag member => ?_⟩
      refine ⟨ended rfl, ?_, quiet (by simp)⟩
      rcases List.mem_append.mp member with member | member
      · obtain ⟨values, same⟩ := only _ member
        cases same
      · exact Event.commandComplete.inj (List.mem_singleton.mp member)

/-! ## The Executes behind the first -/

/-- What the Executes do with the rows that are left, `n` of them having been returned. -/
structure Streamed (t : TextTables) (enc : Encoders Cell Bytes) (sql : Text) (columns : Columns)
    (codes : List Int) (n : Nat) (source : List (Row Cell))
    (answers : List (Answered Value Bytes)) : Prop where
  no_effect : .effect ∉ happened answers
  rows_in_order : ((sent answers).map Except.ok).Sublist (onWire enc columns codes source)
  rows_prefix : ∀ earlier a later, answers = earlier ++ a :: later → (∀ b ∈ earlier, ¬b.Failed) →
    (sent (earlier ++ [a])).map Except.ok <+: onWire enc columns codes source
  suspended_full : ∀ a ∈ answers, .portalSuspended ∈ a.events → (a.rows.length : Int) = a.maxRows
  completed_all : ∀ earlier a later tag, answers = earlier ++ a :: later →
    .commandComplete tag ∈ a.events →
    tag = commandTag t sql (n + source.length) ∧
    ((∀ b ∈ earlier, ¬b.Failed) →
      (sent (earlier ++ [a])).map Except.ok = onWire enc columns codes source)

theorem onWire_append (enc : Encoders Cell Bytes) (columns : Columns) (codes : List Int)
    (rows left : List (Row Cell)) :
    onWire enc columns codes (rows ++ left) =
      onWire enc columns codes rows ++ onWire enc columns codes left := by
  cases columns with
  | none => rfl
  | some columns => exact List.map_append

theorem sent_cons (a : Answered Value Bytes) (answers : List (Answered Value Bytes)) :
    sent (a :: answers) = a.rows ++ sent answers :=
  List.flatMap_cons

theorem sent_single (a : Answered Value Bytes) : sent [a] = a.rows :=
  List.append_nil _

theorem happened_cons (a : Answered Value Bytes) (answers : List (Answered Value Bytes)) :
    happened (a :: answers) = a.events ++ happened answers :=
  List.flatMap_cons

section Streamed

variable {t : TextTables} {enc : Encoders Cell Bytes}

theorem Streamed.nil {sql : Text} {columns : Columns} {codes : List Int} {n : Nat}
    {source : List (Row Cell)} :
    Streamed t enc sql columns codes n source ([] : List (Answered Value Bytes)) where
  no_effect := List.not_mem_nil
  rows_in_order := List.nil_sublist _
  rows_prefix earlier _ _ split :=
    (List.append_ne_nil_of_right_ne_nil earlier (List.cons_ne_nil _ _) split.symm).elim
  suspended_full _ member := (List.not_mem_nil member).elim
  completed_all earlier _ _ _ split :=
    (List.append_ne_nil_of_right_ne_nil earlier (List.cons_ne_nil _ _) split.symm).elim

/-- An Execute that is suspended has sent as many rows as it was limited to. -/
theorem Fetched.full {entry entry' : PortalEntry Value Cell} {source rows left : List (Row Cell)}
    {maxRows : Int} {events : List (Event Bytes)}
    (head : Fetched t enc entry source maxRows entry' rows left events)
    (shown : entry.columns = none → rows = []) (held : .portalSuspended ∈ events) :
    ((events.filterMap Event.row?).length : Int) = maxRows := by
  obtain ⟨full, quiet⟩ := head.suspended held
  have all := congrArg List.length (head.rows_all quiet)
  have width : (onWire enc entry.columns entry.resultFormatCodes rows).length = rows.length := by
    cases columns : entry.columns with
    | none =>
      rw [shown columns]
      rfl
    | some _ => exact List.length_map _
  rw [List.length_map, width] at all
  rw [← full, ← all]

/-- One Execute in front of others that go on where it has left off. -/
theorem Streamed.cons (entry : PortalEntry Value Cell) {entry' : PortalEntry Value Cell}
    {source rows left : List (Row Cell)} {a : Answered Value Bytes}
    {answers : List (Answered Value Bytes)}
    (shown : entry.columns = none → source = [])
    (head : Fetched t enc entry source a.maxRows entry' rows left a.events)
    (tail : Streamed t enc entry.sql entry.columns entry.resultFormatCodes
      (entry.rowsReturned + rows.length) left answers) :
    Streamed t enc entry.sql entry.columns entry.resultFormatCodes entry.rowsReturned source
      (a :: answers) := by
  have whole := head.whole
  subst whole
  have count : entry.rowsReturned + rows.length + left.length =
      entry.rowsReturned + (rows ++ left).length := by
    rw [List.length_append]
    omega
  have rows_sub : (a.rows.map Except.ok).Sublist
      (onWire enc entry.columns entry.resultFormatCodes rows) := head.rows_prefix.sublist
  have head_all : ¬a.Failed →
      a.rows.map Except.ok = onWire enc entry.columns entry.resultFormatCodes rows := head.rows_all
  constructor
  · rw [happened_cons]
    exact fun member => (List.mem_append.mp member).elim head.no_effect tail.no_effect
  · rw [sent_cons, List.map_append, onWire_append]
    exact rows_sub.append tail.rows_in_order
  · intro earlier b later split quiet
    rw [onWire_append]
    cases earlier with
    | nil =>
      obtain ⟨rfl, rfl⟩ := List.cons.inj split
      rw [List.nil_append, sent_single]
      exact head.rows_prefix.trans (List.prefix_append _ _)
    | cons first earlier =>
      obtain ⟨rfl, rest⟩ := List.cons.inj split
      rw [List.cons_append, sent_cons, List.map_append, head_all (quiet a List.mem_cons_self)]
      exact (List.prefix_append_right_inj _).mpr (tail.rows_prefix earlier b later rest
        fun c member => quiet c (List.mem_cons_of_mem _ member))
  · intro b member held
    rcases List.mem_cons.mp member with rfl | member
    · exact head.full (fun none => (List.append_eq_nil_iff.mp (shown none)).1) held
    · exact tail.suspended_full b member held
  · intro earlier b later tag split done
    cases earlier with
    | nil =>
      obtain ⟨rfl, rfl⟩ := List.cons.inj split
      obtain ⟨rfl, tagged, quiet⟩ := head.completed tag done
      refine ⟨by rw [tagged, List.append_nil], fun _ => ?_⟩
      rw [List.nil_append, sent_single, List.append_nil]
      exact head_all quiet
    | cons first earlier =>
      obtain ⟨rfl, rest⟩ := List.cons.inj split
      obtain ⟨tagged, all⟩ := tail.completed_all earlier b later tag rest done
      refine ⟨by rw [tagged, count], fun quiet => ?_⟩
      rw [List.cons_append, sent_cons, List.map_append, onWire_append,
        head_all (quiet a List.mem_cons_self),
        all fun c member => quiet c (List.mem_cons_of_mem _ member)]

theorem fetched_refusal {entry : PortalEntry Value Cell} {source : List (Row Cell)} {maxRows : Int}
    {sqlstate : String} (started : entry.portal.rowSource = some source) :
    Fetched t enc entry source maxRows entry [] source [.errorResponse sqlstate] where
  whole := rfl
  entry_eq := by
    unfold PortalEntry.past
    rw [← started]
    rfl
  no_effect := by simp
  rows_prefix := List.nil_prefix
  rows_all quiet := (quiet ⟨sqlstate, List.mem_singleton.mpr rfl⟩).elim
  suspended member := by simp at member
  completed _ member := by simp at member

/-- An Execute of a portal that has been started. -/
theorem handleExecute_started (t : TextTables) (enc : Encoders Cell Bytes)
    {entry : PortalEntry Value Cell} {source : List (Row Cell)}
    (started : entry.portal.rowSource = some source) (w : Bare Value) (maxRows : Int) :
    ∃ rows left, Fetched t enc entry source maxRows (handleExecute t enc entry w maxRows).1
      rows left (handleExecute t enc entry w maxRows).2.2 := by
  unfold handleExecute
  split
  · exact ⟨[], source, fetched_refusal started⟩
  · have read : entry.portal.source w = (source, w, ([] : List (Event Bytes))) := by
      unfold StaticPortal.source
      rw [started]
    rw [read]
    exact fetch_spec t enc entry source w maxRows

theorem executes_cons (entry : PortalEntry Value Cell) (w : Bare Value) (request : Request Value)
    (later : List (Request Value)) :
    executes t enc entry w (request :: later) =
      ⟨request.before w, request.maxRows,
        (handleExecute t enc entry (request.before w) request.maxRows).2.2,
        (handleExecute t enc entry (request.before w) request.maxRows).2.1⟩ ::
      executes t enc (handleExecute t enc entry (request.before w) request.maxRows).1
        (handleExecute t enc entry (request.before w) request.maxRows).2.1 later := rfl

theorem executes_started (entry : PortalEntry Value Cell) {source : List (Row Cell)}
    (started : entry.portal.rowSource = some source) (shown : entry.columns = none → source = [])
    (w : Bare Value) (requests : List (Request Value)) :
    Streamed t enc entry.sql entry.columns entry.resultFormatCodes entry.rowsReturned source
      (executes t enc entry w requests) := by
  induction requests generalizing entry source w with
  | nil => exact Streamed.nil
  | cons request later ih =>
    obtain ⟨rows, left, head⟩ :=
      handleExecute_started t enc started (request.before w) request.maxRows
    have next := head.entry_eq
    have shown' : entry.columns = none → left = [] := fun none =>
      (List.append_eq_nil_iff.mp (head.whole.trans (shown none))).2
    rw [executes_cons]
    refine Streamed.cons entry shown head ?_
    have tail := @ih (handleExecute t enc entry (request.before w) request.maxRows).1 left
      (by rw [next]; rfl) (by rw [next]; exact shown')
      (handleExecute t enc entry (request.before w) request.maxRows).2.1
    rw [next] at tail ⊢
    exact tail

end Streamed

/-! ## Every Execute -/

section FetchedInTurn

variable {t : TextTables} {enc : Encoders Cell Bytes} {s : StaticStatement Value Cell}
  {codes : List Int}

theorem fetchedInTurn_nil : FetchedInTurn t enc s codes ([] : List (Answered Value Bytes)) where
  effect_once := by
    rw [if_neg fun ⟨_, a, member, _⟩ => List.not_mem_nil member]
    rfl
  effect_first before values after split := by
    have := congrArg List.length split
    simp only [happened, List.flatMap_nil, List.length_append, List.length_cons,
      List.length_nil] at this
    omega
  rows_in_order := List.nil_sublist _
  rows_prefix earlier _ _ split :=
    (List.append_ne_nil_of_right_ne_nil earlier (List.cons_ne_nil _ _) split.symm).elim
  suspended_full _ member := (List.not_mem_nil member).elim
  completed_all earlier _ _ _ split :=
    (List.append_ne_nil_of_right_ne_nil earlier (List.cons_ne_nil _ _) split.symm).elim

/-- A refused Execute changes nothing for those behind it. -/
theorem fetchedInTurn_refused {a : Answered Value Bytes} {answers : List (Answered Value Bytes)}
    {sqlstate : String} (isRefused : refused t s.sql a.world = true)
    (only : a.events = [.errorResponse sqlstate]) (tail : FetchedInTurn t enc s codes answers) :
    FetchedInTurn t enc s codes (a :: answers) := by
  have rowless : a.rows = [] := by
    unfold Answered.rows
    rw [only]
    rfl
  have sent_same : ∀ later : List (Answered Value Bytes), sent (a :: later) = sent later := by
    intro later
    rw [sent_cons, rowless, List.nil_append]
  have read_same : s.rowsRead t (a :: answers) = s.rowsRead t answers := by
    unfold StaticStatement.rowsRead
    rw [List.find?_cons_of_neg (by simp [isRefused])]
  constructor
  · have any_same : (∃ b ∈ a :: answers, refused t s.sql b.world = false) ↔
        ∃ b ∈ answers, refused t s.sql b.world = false := by
      simp [isRefused]
    rw [happened_cons, only, List.countP_append, tail.effect_once]
    simp only [any_same]
    exact Nat.zero_add _
  · intro before values after split
    rw [happened_cons, only] at split
    cases before with
    | nil => cases split
    | cons first before => exact tail.effect_first before values after (List.cons.inj split).2
  · rw [sent_same, read_same]
    exact tail.rows_in_order
  · intro earlier b later split quiet
    rw [read_same]
    cases earlier with
    | nil =>
      obtain ⟨rfl, -⟩ := List.cons.inj split
      rw [List.nil_append, sent_single, rowless]
      exact List.nil_prefix
    | cons first earlier =>
      obtain ⟨rfl, rest⟩ := List.cons.inj split
      rw [List.cons_append, sent_same]
      exact tail.rows_prefix earlier b later rest
        fun c member => quiet c (List.mem_cons_of_mem _ member)
  · intro b member held
    rcases List.mem_cons.mp member with rfl | member
    · rw [only] at held
      cases List.mem_singleton.mp held
    · exact tail.suspended_full b member held
  · intro earlier b later tag split done
    cases earlier with
    | nil =>
      obtain ⟨rfl, -⟩ := List.cons.inj split
      rw [only] at done
      cases List.mem_singleton.mp done
    | cons first earlier =>
      obtain ⟨rfl, rest⟩ := List.cons.inj split
      obtain ⟨tagged, all⟩ := tail.completed_all earlier b later tag rest done
      rw [read_same, List.cons_append, sent_same]
      exact ⟨tagged, fun quiet => all fun c member => quiet c (List.mem_cons_of_mem _ member)⟩

/-! The first Execute that is not refused has the effect in front. -/

theorem mem_effects {onExecute : Option (Bare Value → Bare Value)} {e : Event Bytes}
    (member : e ∈ (effects onExecute : List (Event Bytes))) : e = .effect := by
  cases onExecute with
  | none => cases member
  | some effect => exact List.mem_singleton.mp member

theorem mem_of_mem_effects_append {onExecute : Option (Bare Value → Bare Value)}
    {e : Event Bytes} {events : List (Event Bytes)} (ne : e ≠ .effect)
    (member : e ∈ effects onExecute ++ events) : e ∈ events :=
  (List.mem_append.mp member).elim (fun early => (ne (mem_effects early)).elim) id

/-- Where no effect comes later, none comes behind a row. -/
theorem no_effect_behind_row {onExecute : Option (Bare Value → Bare Value)}
    {events before after : List (Event Bytes)} {values : List (Option Bytes)}
    (no_effect : .effect ∉ events)
    (split : effects onExecute ++ events = before ++ .dataRow values :: after) :
    .effect ∉ after := by
  rcases List.append_eq_append_iff.mp split with ⟨middle, _, rest⟩ | ⟨middle, front, rest⟩
  · intro member
    apply no_effect
    rw [rest]
    exact List.mem_append_right _ (List.mem_cons_of_mem _ member)
  · intro member
    cases middle with
    | nil =>
      apply no_effect
      rw [List.nil_append] at rest
      rw [← rest]
      exact List.mem_cons_of_mem _ member
    | cons first middle =>
      have isEffect := mem_effects (front ▸ List.mem_append_right _ List.mem_cons_self)
      rw [isEffect] at rest
      cases rest

section First

variable {w left : Bare Value} {maxRows : Int} {events : List (Event Bytes)}

theorem rows_effects :
    (⟨w, maxRows, effects s.onExecute ++ events, left⟩ : Answered Value Bytes).rows =
      (⟨w, maxRows, events, left⟩ : Answered Value Bytes).rows := by
  unfold Answered.rows effects
  cases s.onExecute with
  | none => rfl
  | some effect => rfl

theorem sent_effects (later : List (Answered Value Bytes)) :
    sent (⟨w, maxRows, effects s.onExecute ++ events, left⟩ :: later) =
      sent (⟨w, maxRows, events, left⟩ :: later) := by
  rw [sent_cons, sent_cons, rows_effects]

theorem not_failed_effects {earlier : List (Answered Value Bytes)}
    (quiet : ∀ b ∈ (⟨w, maxRows, effects s.onExecute ++ events, left⟩ :: earlier :
      List (Answered Value Bytes)), ¬b.Failed) :
    ∀ b ∈ (⟨w, maxRows, events, left⟩ :: earlier : List (Answered Value Bytes)), ¬b.Failed := by
  intro b member
  rcases List.mem_cons.mp member with rfl | member
  · rintro ⟨sqlstate, failed⟩
    exact quiet _ List.mem_cons_self ⟨sqlstate, List.mem_append_right _ failed⟩
  · exact quiet b (List.mem_cons_of_mem _ member)

theorem rowsRead_first (accepted : refused t s.sql w = false)
    (answers : List (Answered Value Bytes)) :
    s.rowsRead t ((⟨w, maxRows, events, left⟩ : Answered Value Bytes) :: answers) =
      s.rows (afterEffect s.onExecute w) := by
  unfold StaticStatement.rowsRead
  rw [List.find?_cons_of_pos (by simp [accepted])]

/-- The first Execute that is not refused, with the rows it reads and the Executes behind it. -/
theorem fetchedInTurn_first {answers : List (Answered Value Bytes)}
    (accepted : refused t s.sql w = false)
    (tail : Streamed t enc s.sql s.columns codes 0 (s.rows (afterEffect s.onExecute w))
      (⟨w, maxRows, events, left⟩ :: answers)) :
    FetchedInTurn t enc s codes (⟨w, maxRows, effects s.onExecute ++ events, left⟩ :: answers) := by
  have happened_eq : happened (⟨w, maxRows, effects s.onExecute ++ events, left⟩ :: answers) =
      effects s.onExecute ++ happened (⟨w, maxRows, events, left⟩ :: answers) := by
    rw [happened_cons, happened_cons, List.append_assoc]
  have none_later :
      (happened (⟨w, maxRows, events, left⟩ :: answers)).countP Event.isEffect = 0 := by
    refine List.countP_eq_zero.mpr fun e member isEffect => ?_
    cases e with
    | effect => exact tail.no_effect member
    | _ => cases isEffect
  constructor
  · rw [happened_eq, List.countP_append, none_later]
    have some_accepted : ∃ a ∈ (⟨w, maxRows, effects s.onExecute ++ events, left⟩ :: answers :
        List (Answered Value Bytes)), refused t s.sql a.world = false :=
      ⟨_, List.mem_cons_self, accepted⟩
    cases onExecute : s.onExecute with
    | none => rw [if_neg (fun both => nomatch both.1)]; rfl
    | some effect =>
      rw [onExecute] at some_accepted
      rw [if_pos ⟨rfl, some_accepted⟩]
      rfl
  · intro before values after split
    rw [happened_eq] at split
    exact no_effect_behind_row tail.no_effect split
  · rw [rowsRead_first accepted, sent_effects]
    exact tail.rows_in_order
  · intro earlier b later split quiet
    rw [rowsRead_first accepted]
    cases earlier with
    | nil =>
      obtain ⟨rfl, rfl⟩ := List.cons.inj split
      rw [List.nil_append, sent_effects]
      exact tail.rows_prefix [] _ _ rfl nofun
    | cons first earlier =>
      obtain ⟨rfl, rest⟩ := List.cons.inj split
      rw [List.cons_append, sent_effects]
      exact tail.rows_prefix (⟨w, maxRows, events, left⟩ :: earlier) b later (by rw [rest]; rfl)
        (not_failed_effects quiet)
  · intro b member held
    rcases List.mem_cons.mp member with rfl | member
    · rw [rows_effects]
      exact tail.suspended_full _ List.mem_cons_self (mem_of_mem_effects_append nofun held)
    · exact tail.suspended_full b (List.mem_cons_of_mem _ member) held
  · intro earlier b later tag split done
    rw [rowsRead_first accepted]
    cases earlier with
    | nil =>
      obtain ⟨rfl, rfl⟩ := List.cons.inj split
      obtain ⟨tagged, all⟩ :=
        tail.completed_all [] _ _ tag rfl (mem_of_mem_effects_append nofun done)
      refine ⟨by rw [tagged, Nat.zero_add], fun _ => ?_⟩
      rw [List.nil_append, sent_effects]
      exact all nofun
    | cons first earlier =>
      obtain ⟨rfl, rest⟩ := List.cons.inj split
      obtain ⟨tagged, all⟩ :=
        tail.completed_all (⟨w, maxRows, events, left⟩ :: earlier) b later tag (by rw [rest]; rfl)
          done
      refine ⟨by rw [tagged, Nat.zero_add], fun quiet => ?_⟩
      rw [List.cons_append, sent_effects]
      exact all (not_failed_effects quiet)

end First

end FetchedInTurn

/-! ## The connection -/

section Connection

variable {t : TextTables} {enc : Encoders Cell Bytes} {s : StaticStatement Value Cell}
  {w found : Bare Value} {maxRows : Int}

theorem handleExecute_refused {entry : PortalEntry Value Cell}
    (isRefused : refused t entry.sql w = true) :
    handleExecute t enc entry w maxRows =
      (entry, w.fail, [.errorResponse (sqlstate (.error abortedTransaction))]) := if_pos isRefused

theorem handleExecute_entry_refused (codes : List Int) (isRefused : refused t s.sql w = true) :
    handleExecute t enc (s.entry codes) w maxRows =
      (s.entry codes, w.fail, [.errorResponse (sqlstate (.error abortedTransaction))]) :=
  handleExecute_refused isRefused

theorem handleExecute_first (codes : List Int) (accepted : refused t s.sql w = false) :
    let w' := afterEffect s.onExecute w
    let after := fetch t enc (s.entry codes) (s.rows w') w' maxRows
    handleExecute t enc (s.entry codes) w maxRows =
      (after.1, after.2.1, effects s.onExecute ++ after.2.2) :=
  if_neg (Bool.eq_false_iff.mp accepted)

theorem leaves_of_error {sqlstate : String} :
    (⟨found, maxRows, [.errorResponse sqlstate], w.fail⟩ : Answered Value Bytes).Leaves w := by
  constructor
  · exact fun _ => rfl
  · exact fun quiet => (quiet ⟨sqlstate, List.mem_singleton.mpr rfl⟩).elim

/-- Sending rows does nothing to the connection but what an error does. -/
theorem fetch_leaves {front : List (Event Bytes)} (harmless : ∀ e ∈ front, e = .effect)
    (entry : PortalEntry Value Cell) (source : List (Row Cell)) :
    (⟨found, maxRows, front ++ (fetch t enc entry source w maxRows).2.2,
      (fetch t enc entry source w maxRows).2.1⟩ : Answered Value Bytes).Leaves w := by
  obtain ⟨rows, suspended, left, drained⟩ : ∃ rows suspended left,
    drainRows source maxRows = (rows, suspended, left) := ⟨_, _, _, rfl⟩
  obtain ⟨only, _, _⟩ := sendRows_spec enc entry rows
  cases raised : (sendRows enc entry rows).2 with
  | some raise =>
    have fetched : fetch t enc entry source w maxRows = (entry.past rows left, w.fail,
        (sendRows enc entry rows).1 ++ [.errorResponse (sqlstate raise.caught)]) := by
      simp only [fetch, drained, raised]
    rw [fetched]
    constructor
    · exact fun _ => rfl
    · intro quiet
      refine (quiet ⟨sqlstate raise.caught, ?_⟩).elim
      apply List.mem_append_right
      exact List.mem_append_right _ (List.mem_singleton.mpr rfl)
  | none =>
    obtain ⟨last, row, fetched⟩ : ∃ last : Event Bytes,
        (∀ sqlstate, .errorResponse sqlstate ≠ last) ∧ fetch t enc entry source w maxRows =
          (entry.past rows left, w, (sendRows enc entry rows).1 ++ [last]) := by
      refine ⟨_, ?_, by simp only [fetch, drained, raised]; rfl⟩
      intro sqlstate
      split <;> simp
    rw [fetched]
    constructor
    · rintro ⟨sqlstate, member⟩
      rcases List.mem_append.mp member with early | late
      · cases harmless _ early
      · exact (not_mem_written only rfl (row sqlstate) late).elim
    · exact fun _ => rfl

/-- An Execute of a portal that has been started does not apply the effect. -/
theorem handleExecute_leaves {entry : PortalEntry Value Cell} {source : List (Row Cell)}
    (started : entry.portal.rowSource = some source) :
    (⟨found, maxRows, (handleExecute t enc entry w maxRows).2.2,
      (handleExecute t enc entry w maxRows).2.1⟩ : Answered Value Bytes).Leaves w := by
  by_cases isRefused : refused t entry.sql w = true
  · rw [handleExecute_refused isRefused]
    exact leaves_of_error
  · have read : entry.portal.source w = (source, w, ([] : List (Event Bytes))) := by
      unfold StaticPortal.source
      rw [started]
    rw [handleExecute, if_neg isRefused, read]
    exact fetch_leaves (fun _ member => (List.not_mem_nil member).elim) entry source

theorem rowSource_started (enc : Encoders Cell Bytes) {entry : PortalEntry Value Cell}
    {source : List (Row Cell)} (started : entry.portal.rowSource = some source) :
    ∃ left, (handleExecute t enc entry w maxRows).1.portal.rowSource = some left := by
  obtain ⟨rows, left, head⟩ := handleExecute_started t enc started w maxRows
  exact ⟨left, by rw [head.entry_eq]; rfl⟩

theorem executes_leaves {entry : PortalEntry Value Cell} {source : List (Row Cell)}
    (started : entry.portal.rowSource = some source) (requests : List (Request Value)) :
    ∀ a ∈ executes t enc entry w requests, a.Leaves a.world := by
  induction requests generalizing entry source w with
  | nil => exact fun _ member => (List.not_mem_nil member).elim
  | cons request later ih =>
    intro a member
    rw [executes_cons] at member
    rcases List.mem_cons.mp member with rfl | member
    · exact handleExecute_leaves started
    · obtain ⟨left, next⟩ := rowSource_started (t := t) (w := request.before w) enc started
      exact ih next a member

theorem executes_chained (entry : PortalEntry Value Cell) (w : Bare Value)
    (requests : List (Request Value)) : Chained w requests (executes t enc entry w requests) := by
  induction requests generalizing entry w with
  | nil => trivial
  | cons request later ih => exact ⟨rfl, rfl, ih _ _⟩

/-- A refused Execute leaves the effect to those behind it. -/
theorem appliedOnce_refused {request : Request Value} {requests : List (Request Value)}
    {a : Answered Value Bytes} {answers : List (Answered Value Bytes)}
    (world : a.world = request.before w) (limit : a.maxRows = request.maxRows)
    (isRefused : refused t s.sql a.world = true) (leaves : a.Leaves a.world)
    (tail : AppliedOnce t s a.left requests answers) :
    AppliedOnce t s w (request :: requests) (a :: answers) := by
  refine ⟨⟨world, limit, tail.chained⟩, ?_, ?_⟩
  · intro earlier b later split before accepted
    cases earlier with
    | nil =>
      obtain ⟨rfl, -⟩ := List.cons.inj split
      rw [isRefused] at accepted
      cases accepted
    | cons first earlier =>
      exact tail.applied earlier b later (List.cons.inj split).2
        (fun c member => before c (List.mem_cons_of_mem first member)) accepted
  · intro earlier b later split cause
    cases earlier with
    | nil =>
      obtain ⟨rfl, -⟩ := List.cons.inj split
      exact leaves
    | cons first earlier =>
      obtain ⟨rfl, rest⟩ := List.cons.inj split
      apply tail.untouched earlier b later rest
      rcases cause with ⟨c, member, accepted⟩ | refusal
      · rcases List.mem_cons.mp member with rfl | member
        · rw [isRefused] at accepted
          cases accepted
        · exact Or.inl ⟨c, member, accepted⟩
      · exact Or.inr refusal

/-- Behind the first Execute that is not refused none applies the effect. -/
theorem appliedOnce_first {request : Request Value} {requests : List (Request Value)}
    {a : Answered Value Bytes} {answers : List (Answered Value Bytes)}
    (world : a.world = request.before w) (limit : a.maxRows = request.maxRows)
    (accepted : refused t s.sql a.world = false)
    (leaves : a.Leaves (afterEffect s.onExecute a.world))
    (chained : Chained a.left requests answers)
    (tail : ∀ b ∈ answers, b.Leaves b.world) :
    AppliedOnce t s w (request :: requests) (a :: answers) := by
  refine ⟨⟨world, limit, chained⟩, ?_, ?_⟩
  · intro earlier b later split before _
    cases earlier with
    | nil =>
      obtain ⟨rfl, -⟩ := List.cons.inj split
      exact leaves
    | cons first earlier =>
      obtain ⟨rfl, -⟩ := List.cons.inj split
      have isRefused := before a List.mem_cons_self
      rw [accepted] at isRefused
      cases isRefused
  · intro earlier b later split cause
    cases earlier with
    | nil =>
      obtain ⟨rfl, -⟩ := List.cons.inj split
      rcases cause with ⟨c, member, _⟩ | isRefused
      · cases member
      · rw [accepted] at isRefused
        cases isRefused
    | cons first earlier =>
      obtain ⟨rfl, rest⟩ := List.cons.inj split
      apply tail
      rw [rest]
      exact List.mem_append_right earlier List.mem_cons_self

/-- The effect is applied by the first Execute that is not refused, and by no other. -/
theorem executes_applied (codes : List Int) (w : Bare Value) (requests : List (Request Value)) :
    AppliedOnce t s w requests (executes t enc (s.entry codes) w requests) := by
  induction requests generalizing w with
  | nil =>
    have nowhere (earlier later : List (Answered Value Bytes)) (a : Answered Value Bytes) :
        [] ≠ earlier ++ a :: later :=
      (List.append_ne_nil_of_right_ne_nil earlier (List.cons_ne_nil a later)).symm
    constructor
    · trivial
    · exact fun earlier a later split => absurd split (nowhere earlier later a)
    · exact fun earlier a later split => absurd split (nowhere earlier later a)
  | cons request later ih =>
    rw [executes_cons]
    cases isRefused : refused t s.sql (request.before w) with
    | true =>
      rw [handleExecute_entry_refused codes isRefused]
      exact appliedOnce_refused rfl rfl isRefused leaves_of_error (ih _)
    | false =>
      rw [handleExecute_first codes isRefused]
      obtain ⟨rows, left, head⟩ := fetch_spec t enc (s.entry codes)
        (s.rows (afterEffect s.onExecute (request.before w)))
        (afterEffect s.onExecute (request.before w)) request.maxRows
      refine appliedOnce_first rfl rfl isRefused (fetch_leaves (fun _ => mem_effects) _ _)
        (executes_chained _ _ later) ?_
      rw [head.entry_eq]
      have started : ((s.entry codes).past rows left).portal.rowSource = some left := rfl
      exact executes_leaves started later

end Connection

section FetchedInTurn

variable (t : TextTables) (enc : Encoders Cell Bytes) (s : StaticStatement Value Cell)
  (codes : List Int)

theorem executes_in_turn (shown : s.columns = none → ∀ w, s.rows w = [])
    (w : Bare Value) (requests : List (Request Value)) :
    FetchedInTurn t enc s codes (executes t enc (s.entry codes) w requests) := by
  induction requests generalizing w with
  | nil => exact fetchedInTurn_nil
  | cons request later ih =>
    rw [executes_cons]
    cases isRefused : refused t s.sql (request.before w) with
    | true =>
      rw [handleExecute_entry_refused codes isRefused]
      exact fetchedInTurn_refused isRefused rfl (ih _)
    | false =>
      rw [handleExecute_first codes isRefused]
      have shown' := fun none => shown none (afterEffect s.onExecute (request.before w))
      obtain ⟨rows, left, head⟩ := fetch_spec t enc (s.entry codes)
        (s.rows (afterEffect s.onExecute (request.before w)))
        (afterEffect s.onExecute (request.before w)) request.maxRows
      refine fetchedInTurn_first isRefused (Streamed.cons (s.entry codes) shown' head ?_)
      rw [head.entry_eq]
      exact executes_started ((s.entry codes).past rows left) rfl
        (fun none => (List.append_eq_nil_iff.mp (head.whole.trans (shown' none))).2) _ later

/-- Any Executes of a portal, of a statement with columns or without rows: what they send, and
what they do to the connection. -/
theorem executes_fetched_in_turn (shown : s.columns = none → ∀ w, s.rows w = [])
    (w : Bare Value) (requests : List (Request Value)) :
    FetchedInTurn t enc s codes (executes t enc (s.entry codes) w requests) ∧
      AppliedOnce t s w requests (executes t enc (s.entry codes) w requests) := by
  constructor
  · exact executes_in_turn t enc s codes shown w requests
  · exact executes_applied codes w requests

end FetchedInTurn

/-! ## Times in binary format -/

/-- Microseconds since midnight, or a text that is no time. -/
abbrev TimeCell := Nat ⊕ String

/-- The last digits of a number, in ASCII. -/
def asciiDigits (width n : Nat) : List Nat :=
  (List.range width).map fun place => 48 + n / 10 ^ (width - 1 - place) % 10

/-- The text of a `time`, and what it is packed into. What is no time is refused there. -/
def timeEncoders : Encoders TimeCell (List Nat) where
  encodeValue _
    | .inl micros => .ok (asciiDigits 2 (micros / 3600000000) ++ 58 ::
        asciiDigits 2 (micros / 60000000 % 60) ++ 58 :: asciiDigits 2 (micros / 1000000 % 60) ++
        if micros % 1000000 = 0 then [] else 46 :: asciiDigits 6 micros)
    | .inr text => .ok (text.toUTF8.toList.map UInt8.toNat)
  encodeValueBinary _
    | .inl micros => .ok ((List.range 8).map fun place => micros / 256 ^ (7 - place) % 256)
    | .inr _ => .error (.valueError "expected a time, got str")

def idle : Bare String := ⟨Connection.fresh 1 "reader" ∅, ⟨fun _ => none, ∅, 5432⟩, [], []⟩

/-- A statement with two times for rows, which leaves a notice. -/
def twoTimes : StaticStatement String TimeCell where
  sql := "SELECT opens".toList
  columns := some [⟨"opens".toList, 1083⟩]
  rows _ := [[some (.inl 0)], [some (.inl 256)]]
  onExecute := some fun w => { w with notices := ⟨"NOTICE", "00000", "opened"⟩ :: w.notices }

theorem twoTimes_fetched_in_turn :
    FetchedInTurn asciiTables timeEncoders twoTimes [1]
      (executes asciiTables timeEncoders (twoTimes.entry [1]) idle [⟨id, 2⟩, ⟨id, -1⟩]) ∧
    AppliedOnce asciiTables twoTimes idle [⟨id, 2⟩, ⟨id, -1⟩]
      (executes asciiTables timeEncoders (twoTimes.entry [1]) idle [⟨id, 2⟩, ⟨id, -1⟩]) :=
  executes_fetched_in_turn asciiTables timeEncoders twoTimes [1] nofun idle _

/-- The first of two rows is no time. -/
def notATime : StaticStatement String TimeCell where
  sql := "SELECT opens".toList
  columns := some [⟨"opens".toList, 1083⟩]
  rows _ := [[some (.inr "noon")], [some (.inl 256)]]
  onExecute := none

/-- A row without columns. -/
def withoutColumns : StaticStatement String TimeCell where
  sql := "SELECT opens".toList
  columns := none
  rows _ := [[some (.inl 256)]]
  onExecute := none

/-- The row that cannot be sent is skipped by the Execute behind the error, whose tag counts it.
Of a statement without columns the tag counts what is never sent. -/
theorem unsent_rows_counted :
    (executes asciiTables timeEncoders (notATime.entry [1]) idle [⟨id, 1⟩, ⟨id, 1⟩, ⟨id, 1⟩]).map
        Answered.events =
      [[.errorResponse "0A000"], [.dataRow [some [0, 0, 0, 0, 0, 0, 1, 0]], .portalSuspended],
        [.commandComplete "SELECT 2".toList]] ∧
    ¬[.ok [some [0, 0, 0, 0, 0, 0, 1, 0]]] <+:
      onWire timeEncoders notATime.columns [1] (notATime.rows idle) ∧
    (executes asciiTables timeEncoders (withoutColumns.entry []) idle [⟨id, 0⟩]).map
        Answered.events =
      [[.commandComplete "SELECT 1".toList]] := by
  refine ⟨rfl, fun started => ?_, rfl⟩
  obtain ⟨later, same⟩ := started
  cases List.head_eq_of_cons_eq same

end PgMimic.IncrementalFetch

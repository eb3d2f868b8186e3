import PgMimic.Connection
import PgMimic.Stream
import PgMimic.Lib.Trace

/-!
# The command loop and the asynchronous messages

A connection writes its own command's messages and messages nobody asked for to
one stream. `_at_ready_for_query` says whether the stream stands between a
ReadyForQuery and the next command; an async message goes straight out there,
and waits in `_pending_async` everywhere else. The flag is false from the moment
a command has been read, and the queue is emptied before the flag is set, so
what is written directly never overtakes what was queued.

The events are the steps between two awaits of the loop, of the command it
dispatches, and of the rest of the server. What a handler computes is left
open: it writes any messages of its own, fails anywhere, and may be cancelled
at any of its awaits.
-/

namespace PgMimic.CommandLoop

open PgMimic.Stream (Tag Message)

/-- An async message: a NotificationResponse, or a notice raised outside the command. -/
inductive Async where
  | notification (pid : Pid) (channel payload : String)
  | notice (n : Notice)
deriving DecidableEq

/-- A message of the backend, by what wrote it. -/
inductive Output where
  | command (m : Message)
  | error (e : PgError)
  | parameterStatus (name value : String)
  | async (m : Async)
  | readyForQuery (status : TxStatus)
deriving DecidableEq

inductive Phase where
  /-- Waiting for the next command, the drain before it included. -/
  | reading
  | dispatching (tag : Tag)
  /-- The dispatching task is over and the loop has not been woken. -/
  | dispatched (tag : Tag) (cancelled : Bool)
  | ended
deriving DecidableEq

/-- What the loop keeps between two awaits, what it has written, and every async
message handed to `_deliver_async` so far. -/
structure Loop where
  phase : Phase
  atReadyForQuery : Bool
  pendingAsync : List Async
  ignoreUntilSync : Bool
  txStatus : TxStatus
  pendingParameterStatus : Dict String String
  registeredChannels : Finset String
  out : List Output
  delivered : List Async

inductive Event where
  /-- `read_message` returns to the loop. -/
  | receive (tag : Tag)
  /-- The command writes a message of its own. -/
  | write (m : Message)
  | setTxStatus (status : TxStatus)
  | reportParameter (name value : String)
  | syncListeners (listening : Finset String)
  /-- The command raises, an exception that is no `PgError` as an internal error. -/
  | raise (e : PgError)
  /-- The command returns. -/
  | finish
  /-- A CancelRequest; the session may swallow the cancellation. -/
  | cancel (swallowed : Bool)
  /-- The loop is woken by the end of the command. -/
  | resume
  /-- `PgServer.notify`, called by whatever connection just committed. -/
  | notify (channel payload : String) (pid : Pid)
  /-- `Connection.notice`, called by something that is not this connection's command. -/
  | notice (n : Notice)

def queryCanceled : PgError := ⟨"57014", "canceling statement due to user request", []⟩

namespace Loop

/-- The loop as `run` enters it: the startup burst ended with a ReadyForQuery. -/
def start (reports : Dict String String) (keyData : Message) : Loop where
  phase := .reading
  atReadyForQuery := true
  pendingAsync := []
  ignoreUntilSync := false
  txStatus := .I
  pendingParameterStatus := ∅
  registeredChannels := ∅
  out := reports.entries.map (fun p => .parameterStatus p.1 p.2) ++
    [.command keyData, .readyForQuery .I]
  delivered := []

def write (l : Loop) (x : Output) : Loop := { l with out := l.out ++ [x] }

def deliverAsync (l : Loop) (m : Async) : Loop :=
  if l.atReadyForQuery then
    { l with out := l.out ++ [.async m], delivered := l.delivered ++ [m] }
  else
    { l with pendingAsync := l.pendingAsync ++ [m], delivered := l.delivered ++ [m] }

/-- The fanout reaches the connections registered for the channel. -/
def notify (l : Loop) (channel payload : String) (pid : Pid) : Loop :=
  if channel ∈ l.registeredChannels then l.deliverAsync (.notification pid channel payload) else l

def flushParameterStatus (l : Loop) : Loop :=
  { l with
    out := l.out ++ l.pendingParameterStatus.entries.map fun p => .parameterStatus p.1 p.2
    pendingParameterStatus := ∅ }

def flushAsync (l : Loop) : Loop :=
  { l with out := l.out ++ l.pendingAsync.map .async, pendingAsync := [] }

/-- An error leaves a transaction failed, and the rest of the batch is skipped. -/
def fail (l : Loop) (e : PgError) : Loop :=
  { l.write (.error e) with
    txStatus := if l.txStatus = .I then .I else .E
    ignoreUntilSync := true }

/-- The end of a round of the loop for Query and Sync. -/
def readyForQuery (l : Loop) : Loop :=
  { l.flushParameterStatus.flushAsync.write (.readyForQuery l.txStatus) with
    phase := .reading
    ignoreUntilSync := false
    atReadyForQuery := true }

/-- `_dispatch` returns at once: the batch has failed, or a COPY is over and the client
has not noticed yet. -/
def skips (l : Loop) (tag : Tag) : Bool :=
  (l.ignoreUntilSync && !(tag == Tag.SYNC || tag == Tag.TERMINATE)) ||
    (tag == Tag.COPY_DATA || tag == Tag.COPY_DONE || tag == Tag.COPY_FAIL)

/-- The commands with a handler of their own. -/
def handled (tag : Tag) : Bool :=
  tag == Tag.QUERY || tag == Tag.PARSE || tag == Tag.BIND || tag == Tag.DESCRIBE ||
    tag == Tag.EXECUTE || tag == Tag.CLOSE

/-- Sync passes and Flush drains. -/
def passes (tag : Tag) : Bool := tag == Tag.SYNC || tag == Tag.FLUSH

def receive (l : Loop) (tag : Tag) : Loop :=
  if tag = Tag.TERMINATE then
    { l with atReadyForQuery := false, phase := .ended, registeredChannels := ∅ }
  else { l with atReadyForQuery := false, phase := .dispatching tag }

/-- The loop after `await self._current_task`. -/
def resume (l : Loop) (tag : Tag) (cancelled : Bool) : Loop :=
  let l := if cancelled then l.fail queryCanceled else l
  if tag = Tag.QUERY ∨ tag = Tag.SYNC then l.readyForQuery else { l with phase := .reading }

def step (l : Loop) : Event → Option Loop
  | .receive tag => if l.phase = .reading then some (l.receive tag) else none
  | .write m =>
    match l.phase with
    | .dispatching tag =>
      if handled tag && !l.skips tag then some (l.write (.command m)) else none
    | _ => none
  | .setTxStatus status =>
    match l.phase with
    | .dispatching tag =>
      if handled tag && !l.skips tag then some { l with txStatus := status } else none
    | _ => none
  | .syncListeners listening =>
    match l.phase with
    | .dispatching tag =>
      if handled tag && !l.skips tag then some { l with registeredChannels := listening } else none
    | _ => none
  | .raise e =>
    match l.phase with
    | .dispatching tag =>
      if !passes tag && !l.skips tag then some { l.fail e with phase := .dispatched tag false }
      else none
    | _ => none
  | .finish =>
    match l.phase with
    | .dispatching tag =>
      if handled tag || passes tag || l.skips tag then
        some { l with phase := .dispatched tag false }
      else none
    | _ => none
  | .cancel swallowed =>
    match l.phase with
    | .dispatching tag =>
      if swallowed then some l else some { l with phase := .dispatched tag true }
    | _ => some l
  | .resume =>
    match l.phase with
    | .dispatched tag cancelled => some (l.resume tag cancelled)
    | _ => none
  | .reportParameter name value =>
    some { l with pendingParameterStatus := l.pendingParameterStatus.set name value }
  | .notify channel payload pid => some (l.notify channel payload pid)
  | .notice n => some (l.deliverAsync (.notice n))

end Loop

/-! ## Where an async message may stand -/

/-- The async messages of an output, in its order. -/
def asyncs (out : List Output) : List Async :=
  out.filterMap fun
    | .async m => some m
    | _ => none

/-- Only async messages since the last ReadyForQuery. -/
def AfterReady (out : List Output) : Prop :=
  ∃ (earlier : List Output) (status : TxStatus) (ms : List Async),
    out = earlier ++ .readyForQuery status :: ms.map .async

/-- Only async messages before the next ReadyForQuery. -/
def BeforeReady (out : List Output) : Prop :=
  ∃ (ms : List Async) (status : TxStatus) (later : List Output),
    out = ms.map .async ++ .readyForQuery status :: later

/-- Every async message stands directly before a ReadyForQuery, or between one and the
first output of the next command. -/
def Placed (out : List Output) : Prop :=
  ∀ before m after, out = before ++ .async m :: after → BeforeReady after ∨ AfterReady before

/-- One message among two outputs is in the first or in the second. -/
theorem append_eq_split {α : Type} {out written before after : List α} {x : α}
    (h : out ++ written = before ++ x :: after) :
    (∃ between, out = before ++ x :: between ∧ after = between ++ written) ∨
      ∃ between, before = out ++ between ∧ written = between ++ x :: after := by
  rcases List.append_eq_append_iff.mp h with ⟨between, hbefore, hwritten⟩ | ⟨between, hout, hafter⟩
  · exact Or.inr ⟨between, hbefore, hwritten⟩
  · cases between with
    | nil =>
      refine Or.inr ⟨[], ?_, ?_⟩
      · simpa using hout.symm
      · simpa using hafter.symm
    | cons y between =>
      rw [List.cons_append, List.cons.injEq] at hafter
      exact Or.inl ⟨between, by rw [hout, hafter.1], hafter.2⟩

theorem BeforeReady.append {out : List Output} (h : BeforeReady out) (written : List Output) :
    BeforeReady (out ++ written) := by
  obtain ⟨ms, status, later, rfl⟩ := h
  exact ⟨ms, status, later ++ written, by simp⟩

/-- What is already placed stays placed whatever follows; only new messages are to be seen to. -/
theorem Placed.append {out written : List Output} (h : Placed out)
    (new : ∀ between m after, written = between ++ .async m :: after →
      BeforeReady after ∨ AfterReady (out ++ between)) : Placed (out ++ written) := by
  intro before m after hsplit
  rcases append_eq_split hsplit with ⟨between, hout, rfl⟩ | ⟨between, rfl, hwritten⟩
  · exact (h before m between hout).imp_left fun ready => ready.append written
  · exact new between m after hwritten

theorem Placed.append_silent {out written : List Output} (h : Placed out)
    (silent : ∀ m, Output.async m ∉ written) : Placed (out ++ written) := by
  refine h.append fun between m after hwritten => ?_
  refine False.elim (silent m ?_)
  rw [hwritten]
  exact List.mem_append_right _ (List.mem_cons_self ..)

/-- The queue written out just before a ReadyForQuery. -/
theorem Placed.append_ready {out : List Output} (h : Placed out) (ms : List Async)
    (status : TxStatus) : Placed (out ++ (ms.map .async ++ [.readyForQuery status])) := by
  refine h.append fun between m after hwritten => Or.inl ?_
  rcases append_eq_split hwritten with ⟨rest, hms, rfl⟩ | ⟨rest, _, hlast⟩
  · obtain ⟨first, last, _, _, hlast⟩ := List.map_eq_append_iff.mp hms
    obtain ⟨_, later, _, _, hlater⟩ := List.map_eq_cons_iff.mp hlast
    exact ⟨later, status, [], by rw [hlater]⟩
  · cases rest with
    | nil => cases hlast
    | cons y rest =>
      rw [List.cons_append, List.cons.injEq] at hlast
      exact False.elim (List.append_ne_nil_of_right_ne_nil rest (List.cons_ne_nil _ _)
        hlast.2.symm)

/-- A message written directly where the stream stands after a ReadyForQuery. -/
theorem Placed.append_async {out : List Output} (h : Placed out) (ready : AfterReady out)
    (m : Async) : Placed (out ++ [.async m]) := by
  refine h.append fun between m' after hwritten => Or.inr ?_
  cases between with
  | nil => simpa using ready
  | cons y between =>
    rw [List.cons_append, List.cons.injEq] at hwritten
    exact False.elim (List.append_ne_nil_of_right_ne_nil between (List.cons_ne_nil _ _)
      hwritten.2.symm)

theorem AfterReady.append_async {out : List Output} (h : AfterReady out) (m : Async) :
    AfterReady (out ++ [.async m]) := by
  obtain ⟨earlier, status, ms, rfl⟩ := h
  exact ⟨earlier, status, ms ++ [m], by simp⟩

theorem asyncs_append (out written : List Output) :
    asyncs (out ++ written) = asyncs out ++ asyncs written :=
  List.filterMap_append

theorem asyncs_map_async (ms : List Async) : asyncs (ms.map .async) = ms := by
  induction ms with
  | nil => rfl
  | cons m ms ih => exact congrArg (m :: ·) ih

theorem asyncs_silent {out : List Output} (silent : ∀ m, Output.async m ∉ out) :
    asyncs out = [] := by
  refine List.filterMap_eq_nil_iff.mpr fun x hx => ?_
  cases x with
  | async m => exact False.elim (silent m hx)
  | _ => rfl

/-- The reports of a flush are no async messages. -/
theorem reports_silent (reports : List (String × String)) (m : Async) :
    Output.async m ∉ reports.map fun p => Output.parameterStatus p.1 p.2 := by
  simp

/-! ## What every step keeps -/

/-- The invariant: nothing is queued while messages may go straight out. -/
structure Loop.Orderly (l : Loop) : Prop where
  conserved : asyncs l.out ++ l.pendingAsync = l.delivered
  placed : Placed l.out
  ready : l.atReadyForQuery = true →
    l.phase = .reading ∧ l.pendingAsync = [] ∧ AfterReady l.out

namespace Loop.Orderly

variable {l : Loop}

/-- A step that touches neither stream nor queue and does not set the flag. -/
theorem unwritten {l' : Loop} (h : l.Orderly) (out : l'.out = l.out)
    (pending : l'.pendingAsync = l.pendingAsync) (delivered : l'.delivered = l.delivered)
    (flag : l'.atReadyForQuery = true → l.atReadyForQuery = true ∧ l'.phase = l.phase) :
    l'.Orderly where
  conserved := by rw [out, pending, delivered, h.conserved]
  placed := by rw [out]; exact h.placed
  ready := by
    intro set
    obtain ⟨was, phase⟩ := flag set
    rw [out, pending, phase]
    exact h.ready was

theorem flag_of_phase (h : l.Orderly) (busy : l.phase ≠ .reading) : l.atReadyForQuery = false := by
  cases flag : l.atReadyForQuery with
  | false => rfl
  | true => exact False.elim (busy (h.ready flag).1)

/-- The command writes only where the flag is down. -/
theorem write (h : l.Orderly) (busy : l.phase ≠ .reading) {x : Output}
    (silent : ∀ m, x ≠ .async m) : (l.write x).Orderly := by
  have silent' : ∀ m, Output.async m ∉ [x] := fun m hm =>
    silent m (List.mem_singleton.mp hm).symm
  have flag : (l.write x).atReadyForQuery = false := h.flag_of_phase busy
  constructor
  · change asyncs (l.out ++ [x]) ++ l.pendingAsync = l.delivered
    rw [asyncs_append, asyncs_silent silent', List.append_nil, h.conserved]
  · exact h.placed.append_silent silent'
  · intro set
    rw [flag] at set
    cases set

theorem fail (h : l.Orderly) (busy : l.phase ≠ .reading) (e : PgError) : (l.fail e).Orderly :=
  (h.write busy fun m => by simp).unwritten rfl rfl rfl fun set => ⟨set, rfl⟩

theorem deliverAsync (h : l.Orderly) (m : Async) : (l.deliverAsync m).Orderly := by
  cases flag : l.atReadyForQuery with
  | true =>
    obtain ⟨reading, empty, after⟩ := h.ready flag
    have conserved := h.conserved
    rw [empty, List.append_nil] at conserved
    simp only [Loop.deliverAsync, if_pos flag]
    constructor
    · change asyncs (l.out ++ [.async m]) ++ l.pendingAsync = l.delivered ++ [m]
      rw [asyncs_append, empty, conserved, List.append_nil]
      rfl
    · exact h.placed.append_async after m
    · exact fun _ => ⟨reading, empty, after.append_async m⟩
  | false =>
    have down : ¬ l.atReadyForQuery = true := by rw [flag]; exact Bool.false_ne_true
    simp only [Loop.deliverAsync, if_neg down]
    constructor
    · change asyncs l.out ++ (l.pendingAsync ++ [m]) = l.delivered ++ [m]
      rw [← List.append_assoc, h.conserved]
    · exact h.placed
    · exact fun set => False.elim (down set)

theorem notify (h : l.Orderly) (channel payload : String) (pid : Pid) :
    (l.notify channel payload pid).Orderly := by
  by_cases registered : channel ∈ l.registeredChannels
  · simpa only [Loop.notify, if_pos registered] using
      h.deliverAsync (.notification pid channel payload)
  · simpa only [Loop.notify, if_neg registered] using h

theorem readyForQuery (h : l.Orderly) : l.readyForQuery.Orderly := by
  have out : l.readyForQuery.out =
      l.out ++ l.pendingParameterStatus.entries.map (fun p => .parameterStatus p.1 p.2) ++
        (l.pendingAsync.map .async ++ [.readyForQuery l.txStatus]) := by
    simp only [Loop.readyForQuery, Loop.write, Loop.flushAsync, Loop.flushParameterStatus,
      List.append_assoc]
  constructor
  · have last : asyncs [Output.readyForQuery l.txStatus] = [] := rfl
    rw [out, asyncs_append, asyncs_append, asyncs_append, asyncs_map_async, last,
      asyncs_silent (reports_silent _), List.append_nil, List.append_nil]
    change asyncs l.out ++ l.pendingAsync ++ [] = l.delivered
    rw [List.append_nil, h.conserved]
  · rw [out]
    exact (h.placed.append_silent (reports_silent _)).append_ready l.pendingAsync l.txStatus
  · intro _
    refine ⟨rfl, rfl, ?_⟩
    rw [out]
    exact ⟨l.out ++ l.pendingParameterStatus.entries.map (fun p => .parameterStatus p.1 p.2) ++
      l.pendingAsync.map .async, l.txStatus, [], by simp⟩

theorem receive (h : l.Orderly) (tag : Tag) : (l.receive tag).Orderly := by
  by_cases terminate : tag = Tag.TERMINATE
  · simp only [Loop.receive, if_pos terminate]
    exact h.unwritten rfl rfl rfl fun set => by cases set
  · simp only [Loop.receive, if_neg terminate]
    exact h.unwritten rfl rfl rfl fun set => by cases set

theorem resume (h : l.Orderly) (busy : l.phase ≠ .reading) (tag : Tag) (cancelled : Bool) :
    (l.resume tag cancelled).Orderly := by
  have reported : (if cancelled then l.fail queryCanceled else l).Orderly := by
    cases cancelled with
    | false => exact h
    | true => exact h.fail busy queryCanceled
  have flag : (if cancelled then l.fail queryCanceled else l).atReadyForQuery = false := by
    cases cancelled with
    | false => exact h.flag_of_phase busy
    | true => exact h.flag_of_phase busy
  simp only [Loop.resume]
  split
  · exact reported.readyForQuery
  · refine reported.unwritten rfl rfl rfl fun set => ?_
    change (if cancelled then l.fail queryCanceled else l).atReadyForQuery = true at set
    rw [flag] at set
    cases set

/-- A step of a busy connection that leaves stream, queue and flag alone. -/
theorem busy_unwritten {l' : Loop} (h : l.Orderly) (busy : l.phase ≠ .reading)
    (out : l'.out = l.out) (pending : l'.pendingAsync = l.pendingAsync)
    (delivered : l'.delivered = l.delivered) (flag : l'.atReadyForQuery = l.atReadyForQuery) :
    l'.Orderly := by
  refine h.unwritten out pending delivered fun set => ?_
  rw [flag, h.flag_of_phase busy] at set
  cases set

end Loop.Orderly

namespace Loop

theorem start_orderly (reports : Dict String String) (keyData : Message) :
    (start reports keyData).Orderly := by
  have silent : ∀ m, Output.async m ∉ (start reports keyData).out := by
    intro m
    simp [start]
  constructor
  · rw [asyncs_silent silent]
    rfl
  · have nothing : Placed [] := fun before m after h => by simp at h
    simpa using nothing.append_silent silent
  · intro _
    exact ⟨rfl, rfl, reports.entries.map (fun p => .parameterStatus p.1 p.2) ++
      [.command keyData], .I, [], by simp [start]⟩

/-- A step of the command is possible only while it is dispatched, and only on its terms. -/
theorem of_dispatching {l l' : Loop} {may : Tag → Bool} {next : Tag → Loop}
    (h : (match l.phase with
      | .dispatching tag => if may tag then some (next tag) else none
      | _ => none) = some l') :
    ∃ tag, l.phase = .dispatching tag ∧ may tag = true ∧ l' = next tag := by
  split at h
  · rename_i tag phase
    simp only [Option.ite_none_right_eq_some, Option.some.injEq] at h
    exact ⟨tag, phase, h.1, h.2.symm⟩
  · cases h

theorem busy_of_dispatching {l : Loop} {tag : Tag} (phase : l.phase = .dispatching tag) :
    l.phase ≠ .reading := by
  rw [phase]
  exact fun same => by cases same

/-- Every step of the loop, of its command and of the server keeps the invariant. -/
theorem step_orderly {l l' : Loop} {e : Event} (h : l.Orderly) (hstep : l.step e = some l') :
    l'.Orderly := by
  cases e with
  | receive tag =>
    simp only [step, Option.ite_none_right_eq_some, Option.some.injEq] at hstep
    obtain ⟨_, rfl⟩ := hstep
    exact h.receive tag
  | write m =>
    obtain ⟨tag, phase, _, rfl⟩ := of_dispatching hstep
    have busy := busy_of_dispatching phase
    exact h.write busy fun m => by simp
  | setTxStatus status =>
    obtain ⟨tag, phase, _, rfl⟩ := of_dispatching hstep
    have busy := busy_of_dispatching phase
    exact h.busy_unwritten busy rfl rfl rfl rfl
  | syncListeners listening =>
    obtain ⟨tag, phase, _, rfl⟩ := of_dispatching hstep
    have busy := busy_of_dispatching phase
    exact h.busy_unwritten busy rfl rfl rfl rfl
  | raise e =>
    obtain ⟨tag, phase, _, rfl⟩ := of_dispatching hstep
    have busy := busy_of_dispatching phase
    exact (h.fail busy e).busy_unwritten busy rfl rfl rfl rfl
  | finish =>
    obtain ⟨tag, phase, _, rfl⟩ := of_dispatching hstep
    have busy := busy_of_dispatching phase
    exact h.busy_unwritten busy rfl rfl rfl rfl
  | cancel swallowed =>
    simp only [step] at hstep
    split at hstep
    · rename_i tag hphase
      split at hstep
      · cases hstep
        exact h
      · cases hstep
        exact h.busy_unwritten (busy_of_dispatching hphase) rfl rfl rfl rfl
    · cases hstep
      exact h
  | resume =>
    simp only [step] at hstep
    split at hstep
    · rename_i tag cancelled hphase
      cases hstep
      exact h.resume (by rw [hphase]; simp) tag cancelled
    · cases hstep
  | reportParameter name value =>
    cases hstep
    exact h.unwritten rfl rfl rfl fun set => ⟨set, rfl⟩
  | notify channel payload pid =>
    cases hstep
    exact h.notify channel payload pid
  | notice n =>
    cases hstep
    exact h.deliverAsync (.notice n)

end Loop

/-- In every state of every run the async messages written are those delivered less
those still queued, in the order they were raised, and each stands where it may. -/
theorem async_messages_in_place {reports : Dict String String} {keyData : Message}
    {events : List Event} {l : Loop}
    (run : Trace.run Loop.step (Loop.start reports keyData) events = some l) :
    asyncs l.out ++ l.pendingAsync = l.delivered ∧ Placed l.out := by
  have orderly : l.Orderly := Trace.run_invariant Loop.Orderly
    (Loop.start_orderly reports keyData) (fun _ _ _ h hstep => Loop.step_orderly h hstep) run
  exact ⟨orderly.conserved, orderly.placed⟩

/-- A portal drained twice between Flushes, with a notification raised in between. -/
def suspendedPortal : List Event :=
  [.receive Tag.QUERY, .syncListeners {"chan"}, .finish, .resume,
    .receive Tag.EXECUTE, .write ⟨0x44, []⟩, .write ⟨0x73, []⟩, .finish, .resume,
    .receive Tag.FLUSH, .finish, .resume, .notify "chan" "mid-portal" 7,
    .receive Tag.EXECUTE, .write ⟨0x44, []⟩, .write ⟨0x73, []⟩, .finish, .resume,
    .receive Tag.SYNC, .finish, .resume, .notify "chan" "idle" 7]

theorem suspendedPortal_in_place :
    ∃ l, Trace.run Loop.step (Loop.start ∅ ⟨0x4B, []⟩) suspendedPortal = some l ∧
      l.out.drop 2 = [.readyForQuery .I, .command ⟨0x44, []⟩, .command ⟨0x73, []⟩,
        .command ⟨0x44, []⟩, .command ⟨0x73, []⟩,
        .async (.notification 7 "chan" "mid-portal"), .readyForQuery .I,
        .async (.notification 7 "chan" "idle")] ∧
      asyncs l.out ++ l.pendingAsync = l.delivered ∧ Placed l.out := by
  have run : Trace.run Loop.step (Loop.start ∅ ⟨0x4B, []⟩) suspendedPortal = some _ := rfl
  exact ⟨_, run, by decide, async_messages_in_place run⟩

end PgMimic.CommandLoop

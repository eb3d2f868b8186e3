import PgMimic.Responses

/-!
# Rounds and runs

A round takes one message in, and leaves the client where all that was read has been answered,
or where a batch has failed and waits for its Sync. So a connection may be followed from its
start as far as it goes, with commands cancelled and messages pushed at any time. What was
read is what the command loop has read: the messages that a copy-in takes off the stream
are none of it.
-/

namespace PgMimic.Dispatch

open PgMimic.Copy (Text)
open PgMimic.Messages (Backend)
open PgMimic.Stream (Tag Message)

variable {σ Value Stmt Portal Cell Param α β : Type}

section Leads

variable {rt : Runtime} {ty : Types Cell Param} {s : Session σ Value Stmt Portal Cell Param}
  {pending later : List Awaited} {a : Awaited} {stage : Stage} {b : Backend}
  {P : Conn σ Value Stmt Portal → Client → Prop}
  {E : Thrown → Conn σ Value Stmt Portal → Client → Prop}

/-! ## A round -/

/-- Before the first of these nothing is owed that another message than the next ReadyForQuery
answers, or nothing at all. -/
def Standing (pending : List Awaited) (c : Conn σ Value Stmt Portal) (k : Client) : Prop :=
  ∃ before, k.pending = before ++ pending ∧
    if c.ignoreUntilSync then k.stage = .failed ∧ ∀ x ∈ before, x.closes = false
    else ∀ x ∈ before, x = .nothing

theorem closes_nothing {before : List Awaited} (bare : ∀ x ∈ before, x = .nothing) :
    ∀ x ∈ before, x.closes = false := by
  intro x inside
  rw [bare x inside]
  decide

theorem Standing.open {c : Conn σ Value Stmt Portal} {k : Client} (h : Standing pending c k) :
    ∃ before, k.pending = before ++ pending ∧ ∀ x ∈ before, x.closes = false := by
  obtain ⟨before, split, rest⟩ := h
  refine ⟨before, split, ?_⟩
  cases failed : c.ignoreUntilSync with
  | true =>
    rw [failed, if_pos rfl] at rest
    exact rest.2
  | false =>
    rw [failed, if_neg Bool.false_ne_true] at rest
    exact closes_nothing rest

theorem Standing.some {c : Conn σ Value Stmt Portal} {k : Client}
    (h : Standing (a :: later) c k) : k.pending ≠ [] := by
  obtain ⟨before, split, -⟩ := h
  rw [split]
  exact List.append_ne_nil_of_right_ne_nil _ (List.cons_ne_nil _ _)

theorem At.standing {c : Conn σ Value Stmt Portal} {k : Client} (h : At pending stage c k) :
    Standing pending c k := by
  obtain ⟨attends, -, before, bare, rfl⟩ := h
  refine ⟨before, rfl, ?_⟩
  rw [attends, if_neg Bool.false_ne_true]
  exact bare

theorem At.owed {c : Conn σ Value Stmt Portal} {k : Client} (h : At pending .start c k) :
    Owed pending c k := by
  obtain ⟨attends, -, before, bare, rfl⟩ := h
  refine ⟨before, rfl, ?_⟩
  rw [attends, if_neg Bool.false_ne_true]
  exact ⟨rfl, bare⟩

theorem Owed.standing {c : Conn σ Value Stmt Portal} {k : Client} (h : Owed pending c k) :
    Standing pending c k := by
  obtain ⟨before, split, rest⟩ := h
  refine ⟨before, split, ?_⟩
  cases failed : c.ignoreUntilSync with
  | true =>
    rw [failed, if_pos rfl] at rest
    exact rest
  | false =>
    rw [failed, if_neg Bool.false_ne_true] at rest
    exact rest.2

theorem Owed.at {c : Conn σ Value Stmt Portal} {k : Client} (h : Owed pending c k)
    (attends : c.ignoreUntilSync = false) : At pending .start c k := by
  obtain ⟨before, split, rest⟩ := h
  rw [attends, if_neg Bool.false_ne_true] at rest
  obtain ⟨bare, nothing⟩ := rest
  exact ⟨attends, by decide, before, nothing, Client.ext split bare⟩

/-- A message that is never answered by its own handler goes by. -/
theorem Owed.pass {c : Conn σ Value Stmt Portal} {k : Client} (h : Owed (a :: later) c k)
    (goes : c.ignoreUntilSync = true ∧ a.closes = false ∨ a = .nothing) : Owed later c k := by
  obtain ⟨before, split, rest⟩ := h
  refine ⟨before ++ [a], by rw [split, List.append_cons], ?_⟩
  cases failed : c.ignoreUntilSync with
  | true =>
    rw [failed, if_pos rfl] at rest
    refine ⟨rest.1, ?_⟩
    have own : a.closes = false := by
      rcases goes with ⟨-, own⟩ | rfl
      · exact own
      · rfl
    simpa only [List.forall_mem_append, List.forall_mem_singleton] using ⟨rest.2, own⟩
  | false =>
    rw [failed, if_neg Bool.false_ne_true] at rest
    have own : a = .nothing := goes.resolve_left fun skipped => by
      rw [failed] at skipped
      cases skipped.1
    refine ⟨rest.1, ?_⟩
    simpa only [List.forall_mem_append, List.forall_mem_singleton] using ⟨rest.2, own⟩

/-- What is owed when a message has been dispatched. -/
def behind (later : List Awaited) (a : Awaited) : List Awaited :=
  if a.closes then a :: later else later

theorem Owed.behind {c : Conn σ Value Stmt Portal} {k : Client} (h : Owed (a :: later) c k)
    (failed : c.ignoreUntilSync = true) : Owed (behind later a) c k := by
  rw [Dispatch.behind]
  split
  · exact h
  · exact h.pass (.inl ⟨failed, Bool.eq_false_iff.mpr ‹_›⟩)

theorem At.behind {c : Conn σ Value Stmt Portal} {k : Client}
    (h : At (a.left later) .start c k) : Owed (behind later a) c k := by
  cases a with
  | nothing => exact Owed.pass h.owed (.inr rfl)
  | query => exact h.owed
  | sync => exact h.owed
  | _ => exact h.owed

/-- An error is written, and the batch has failed. -/
theorem leads_answerError (error : Client.isError b = true) :
    Command.Triple Client.next (Standing (a :: later))
      (send rt b >>= fun _ => failBatch : Cmd σ Value Stmt Portal Unit)
      (fun _ => Owed (behind later a)) (fun _ => Standing (a :: later)) := by
  refine Command.Triple.bind (R := fun _ _ k => k.stage = .failed ∧
    ∃ before, k.pending = before ++ a :: later ∧ ∀ x ∈ before, x.closes = false) ?_ fun _ => ?_
  · rw [send]
    split
    · apply Command.Triple.write
      intro c k start
      obtain ⟨before, split, open_⟩ := start.open
      exact ⟨_, next_error error start.some, rfl, before, split, open_⟩
    · exact Command.Triple.raise fun _ _ start => start
  · apply Command.Triple.change
    rintro c k ⟨failed, before, apart, open_⟩
    exact Owed.behind ⟨before, apart, failed, open_⟩ rfl

theorem leads_report (thrown : Thrown) :
    Command.Triple Client.next (Standing (a :: later))
      (report rt thrown : Cmd σ Value Stmt Portal Unit)
      (fun _ => Owed (behind later a)) (fun _ => Standing (a :: later)) := by
  rw [report.eq_def]
  split
  · exact leads_answerError rfl
  · exact leads_answerError rfl
  · exact Command.Triple.raise fun _ _ start => start

theorem leads_reportCancelled (thrown : Thrown) :
    Command.Triple Client.next (Standing (a :: later))
      (reportCancelled rt thrown : Cmd σ Value Stmt Portal Unit)
      (fun _ => Owed (behind later a)) (fun _ => Standing (a :: later)) := by
  rw [reportCancelled.eq_def]
  split
  · exact leads_answerError rfl
  · exact Command.Triple.raise fun _ _ start => start

theorem nothing_of_copy {m : Message}
    (copy : m.tag = Tag.COPY_DATA ∨ m.tag = Tag.COPY_DONE ∨ m.tag = Tag.COPY_FAIL) :
    Awaited.ofMessage m = .nothing := by
  rcases copy with tag | tag | tag
  all_goals
    rw [Awaited.ofMessage, tag]
    rfl

theorem closes_iff (m : Message) :
    (Awaited.ofMessage m).closes = true ↔ m.tag = Tag.QUERY ∨ m.tag = Tag.SYNC := by
  rw [Awaited.ofMessage]
  by_cases query : m.tag = Tag.QUERY
  · rw [if_pos query]
    exact iff_of_true rfl (.inl query)
  by_cases sync : m.tag = Tag.SYNC
  · rw [sync]
    exact iff_of_true rfl (.inr rfl)
  refine iff_of_false ?_ (not_or.mpr ⟨query, sync⟩)
  rw [if_neg query]
  simp only [if_neg sync]
  repeat' split
  all_goals decide

/-- A message that is skipped, or comes in the middle of no COPY. -/
theorem behind_of_skips {c : Conn σ Value Stmt Portal} {k : Client} {m : Message}
    (start : Owed (Awaited.ofMessage m :: later) c k)
    (skipped : CopyIn.skips c.ignoreUntilSync m.tag = true) :
    Owed (behind later (Awaited.ofMessage m)) c k := by
  rw [behind]
  split
  · exact start
  · apply start.pass
    simp only [CopyIn.skips, Bool.or_eq_true, Bool.and_eq_true, beq_iff_eq] at skipped
    rcases skipped with ⟨failed, -⟩ | copy
    · exact .inl ⟨failed, Bool.eq_false_iff.mpr ‹_›⟩
    · exact .inr (nothing_of_copy (or_assoc.mp copy))

/-- What a failed batch does not skip is a Sync. -/
theorem sync_of_attended {m : Message} (goesOn : m.tag ≠ Tag.TERMINATE)
    (attended : CopyIn.skips true m.tag ≠ true) : m.tag = Tag.SYNC := by
  by_contra other
  apply attended
  simp [CopyIn.skips, other, goesOn]

theorem handle_sync {m : Message} (sync : m.tag = Tag.SYNC) : handle rt ty s m = pure () := by
  rw [handle, sync]
  rfl

theorem leads_dispatch (m : Message) (goesOn : m.tag ≠ Tag.TERMINATE) :
    Command.Triple Client.next (Owed (Awaited.ofMessage m :: later)) (dispatch rt ty s m)
      (fun _ => Owed (behind later (Awaited.ofMessage m)))
      (fun _ => Standing (Awaited.ofMessage m :: later)) := by
  refine Command.Triple.read_bind fun c₀ => ?_
  split
  case isTrue skipped =>
    apply Command.Triple.pure
    rintro c k ⟨rfl, start⟩
    exact behind_of_skips start skipped
  case isFalse attended =>
    refine Command.Triple.handle (F := fun _ => Standing (Awaited.ofMessage m :: later)) ?_
      fun thrown => ?_
    · cases failed : c₀.ignoreUntilSync with
      | true =>
        rw [failed] at attended
        have sync := sync_of_attended goesOn attended
        rw [handle_sync sync]
        apply Command.Triple.pure
        rintro c k ⟨-, start⟩
        rwa [behind, if_pos ((closes_iff m).mpr (.inr sync))]
      | false =>
        have led : Leads (Awaited.ofMessage m :: later) _ (handle rt ty s m) _ :=
          leads_handle m rfl
        refine (led.of_imp ?_).imp (fun _ c k => At.behind) ?_
        · rintro c k ⟨rfl, start⟩
          exact start.at failed
        · rintro thrown c k ⟨stage, at_⟩
          exact at_.standing
    · exact leads_report thrown

theorem leads_command (m : Message) (cancelled : Bool) (goesOn : m.tag ≠ Tag.TERMINATE) :
    Command.Triple Client.next (Owed (Awaited.ofMessage m :: later)) (command rt ty s m cancelled)
      (fun _ => Owed (behind later (Awaited.ofMessage m)))
      (fun _ => Standing (Awaited.ofMessage m :: later)) := by
  refine Command.Triple.handle (F := fun _ => Standing (Awaited.ofMessage m :: later)) ?_
    leads_reportCancelled
  split
  · exact Command.Triple.raise fun _ _ start => start.standing
  · exact leads_dispatch m goesOn

/-! ## The end of a round -/

/-- What may be written anywhere. -/
theorem leads_push (async : b.isAsync = true) (stays : ∀ e c k, P c k → E e c k) :
    Command.Triple Client.next P (send rt b : Cmd σ Value Stmt Portal Unit) (fun _ => P) E := by
  rw [send]
  split
  · exact Command.Triple.write fun c k start => ⟨k, next_pushed k ⟨_, async⟩, start⟩
  · exact Command.Triple.raise (stays _)

theorem leads_sendReports (reports : List (String × String)) (stays : ∀ e c k, P c k → E e c k) :
    Command.Triple Client.next P (sendReports rt reports : Cmd σ Value Stmt Portal Unit)
      (fun _ => P) E := by
  induction reports with
  | nil => exact Command.Triple.pure fun _ _ start => start
  | cons report reports ih =>
    exact Command.Triple.bind (leads_push rfl stays) fun _ => ih

theorem leads_writeAll (pushed : List Pushed) :
    Command.Triple Client.next P (writeAll (pushed.map Subtype.val) : Cmd σ Value Stmt Portal Unit)
      (fun _ => P) E := by
  induction pushed with
  | nil => exact Command.Triple.pure fun _ _ start => start
  | cons p pushed ih =>
    refine Command.Triple.bind ?_ fun _ => ih
    exact Command.Triple.write fun c k start => ⟨k, next_pushed k p, start⟩

theorem leads_flushParameterStatus :
    Command.Triple Client.next (Owed pending)
      (flushParameterStatus rt : Cmd σ Value Stmt Portal Unit) (fun _ => Owed pending)
      (fun _ => Standing pending) := by
  refine Command.Triple.bind (R := fun _ => Owed pending) ?_ fun w => ?_
  · exact Command.Triple.read_bind fun _ => Command.Triple.pure fun _ _ start => start.2
  · refine Command.Triple.bind (leads_sendReports _ fun _ _ _ => Owed.standing) fun _ => ?_
    exact Command.Triple.change fun _ _ start => start

theorem leads_flushAsync :
    Command.Triple Client.next (Owed pending) (flushAsync : Cmd σ Value Stmt Portal Unit)
      (fun _ => Owed pending) (fun _ => Standing pending) := by
  refine Command.Triple.read_bind fun c₀ => ?_
  refine Command.Triple.bind (R := fun _ => Owed pending) ?_ fun _ => ?_
  · exact (leads_writeAll c₀.pendingAsync).of_imp fun _ _ start => start.2
  · exact Command.Triple.change fun _ _ start => start

theorem place_ready (closes : a.closes = true) (status : TxStatus) :
    place a .start (.readyForQuery status) = some .done := by
  cases a with
  | query => rfl
  | sync => rfl
  | _ => cases closes

/-- In good order or not, a ReadyForQuery answers all that was sent up to the Query or Sync. -/
theorem next_ready {c : Conn σ Value Stmt Portal} {k : Client} {w : Written} {status : TxStatus}
    (start : Owed (a :: later) c k) (closes : a.closes = true)
    (ready : w.1 = .readyForQuery status) :
    Client.next k w = some ⟨later, .start⟩ := by
  obtain ⟨before, split, rest⟩ := start
  cases failed : c.ignoreUntilSync with
  | true =>
    rw [failed, if_pos rfl] at rest
    obtain ⟨stage, open_⟩ := rest
    have pushed : w.1.isAsync = false := by rw [ready]; rfl
    have error : Client.isError w.1 = false := by rw [ready]; rfl
    have ends : Client.isReady w.1 = true := by rw [ready]; rfl
    rw [Client.next, pushed, if_neg Bool.false_ne_true, error, if_neg Bool.false_ne_true,
      if_pos stage, if_pos ends, split, afterReady_append open_ closes, Option.map_some]
  | false =>
    rw [failed, if_neg Bool.false_ne_true] at rest
    obtain ⟨stage, bare⟩ := rest
    rw [Client.ext (y := ⟨before ++ a :: later, .start⟩) split stage]
    exact next_placed bare (ready ▸ place_ready closes status)

theorem leads_readyForQuery (closes : a.closes = true) :
    Command.Triple Client.next (Owed (a :: later)) (readyForQuery rt : Cmd σ Value Stmt Portal Unit)
      (fun _ => Owed later) (fun _ => Standing (a :: later)) := by
  refine Command.Triple.bind leads_flushParameterStatus fun _ => ?_
  refine Command.Triple.bind leads_flushAsync fun _ => ?_
  refine Command.Triple.bind (R := fun _ => Owed (a :: later)) ?_ fun w => ?_
  · exact Command.Triple.read_bind fun _ => Command.Triple.pure fun _ _ start => start.2
  refine Command.Triple.bind (R := fun _ _ k => k = ⟨later, .start⟩) ?_ fun _ => ?_
  · rw [send]
    split
    · exact Command.Triple.write fun c k start => ⟨_, next_ready start closes rfl, rfl⟩
    · exact Command.Triple.raise fun _ _ start => start.standing
  · apply Command.Triple.change
    rintro c k rfl
    exact ⟨[], rfl, rfl, by simp⟩

theorem leads_lastDrain :
    Command.Triple Client.next (Owed pending) (drain s) (fun _ => Owed pending)
      (fun e _ k => (∃ f, e = .failure f) ∨ k.pending ≠ []) := by
  intro c k start
  rw [drain, call]
  generalize s.drain (c.own, c.world) = drained
  obtain ⟨⟨own, world⟩, pushed, result⟩ := drained
  refine ⟨k, ?_, ?_⟩
  · apply run_pushed
    intro w inside
    obtain ⟨push, -, rfl⟩ := List.mem_map.mp inside
    exact push.2
  · cases result with
    | ok x => exact start
    | error f => exact .inl ⟨f, rfl⟩

/-- A round leaves nothing behind of its message, unless it raises. -/
theorem leads_round (m : Message) (cancelled : Bool) (arrived : List Pushed)
    (goesOn : m.tag ≠ Tag.TERMINATE) :
    Command.Triple Client.next (Owed (Awaited.ofMessage m :: later))
      (round rt ty s m cancelled arrived) (fun _ => Owed later)
      (fun e _ k => (∃ f, e = .failure f) ∨ k.pending ≠ []) := by
  have broken (e : Thrown) (c : Conn σ Value Stmt Portal) (k : Client)
      (h : Standing (Awaited.ofMessage m :: later) c k) :
      (∃ f, e = .failure f) ∨ k.pending ≠ [] := .inr h.some
  refine Command.Triple.bind (R := fun _ => Owed (Awaited.ofMessage m :: later)) ?_ fun _ => ?_
  · exact Command.Triple.change fun _ _ start => start
  refine Command.Triple.bind ((leads_command m cancelled goesOn).imp (fun _ _ _ h => h) broken)
    fun _ => ?_
  refine Command.Triple.bind (R := fun _ => Owed later) ?_ fun _ => ?_
  · rw [closing, behind]
    by_cases closes : m.tag = Tag.QUERY ∨ m.tag = Tag.SYNC
    · have ends := (closes_iff m).mpr closes
      rw [if_pos closes, if_pos ends]
      exact (leads_readyForQuery ends).imp (fun _ _ _ h => h) broken
    · rw [if_neg closes, if_neg (mt (closes_iff m).mp closes)]
      exact Command.Triple.pure fun _ _ start => start
  · exact leads_lastDrain

/-! ## Runs -/

/-- The client that has sent, beside what the server has read, some more that it has not read
yet, is where it is. -/
def Follows (r : Run σ Value Stmt Portal) : Prop :=
  ∀ later, ∃ k, Trace.run Client.next ⟨r.read.map Awaited.ofRead ++ later, .start⟩ r.out = some k ∧
    (r.ended = false → Owed later r.conn k)

theorem follows_start (own : σ) (world : W Value Stmt Portal) : Follows (Run.start own world) :=
  fun later => ⟨⟨later, .start⟩, rfl, fun _ => ⟨[], rfl, rfl, by simp⟩⟩

theorem Follows.hangUp {r : Run σ Value Stmt Portal} (h : Follows r)
    (conn : Conn σ Value Stmt Portal) : Follows { r with conn := conn, ended := true } := by
  intro later
  obtain ⟨k, ran, -⟩ := h later
  exact ⟨k, ran, fun over_ => by cases over_⟩

/-- The report of a framing error is an error like others. -/
theorem follows_lastWords {k : Client} {e : Thrown}
    (fits : (∃ f, e = .failure f) ∨ k.pending ≠ []) :
    ∃ k', Trace.run Client.next k (lastWords e) = some k' := by
  rw [lastWords.eq_def]
  split
  case h_1 violation =>
    have owed : k.pending ≠ [] := fits.resolve_left fun ⟨f, same⟩ => by cases same
    split
    · exact ⟨_, by rw [Trace.run_cons, next_error rfl owed, Option.bind_some, Trace.run_nil]⟩
    · exact ⟨k, rfl⟩
  case h_2 => exact ⟨k, rfl⟩

theorem follows_receive {r : Run σ Value Stmt Portal} (h : Follows r) (going : r.ended = false)
    (m : Message) (cancelled : Bool) (arrived : List Pushed) (goesOn : m.tag ≠ Tag.TERMINATE) :
    Follows (r.receive rt ty s m cancelled arrived) := by
  intro later
  obtain ⟨k, ran, owed⟩ := h (Awaited.ofMessage m :: later)
  have led : Command.Triple Client.next (Owed (Awaited.ofMessage m :: later))
      (round rt ty s m cancelled arrived) (fun _ => Owed later) _ :=
    leads_round m cancelled arrived goesOn
  obtain ⟨k', follows, ends⟩ := led r.conn k (owed going)
  have sofar : Trace.run Client.next ⟨(r.read ++ [some m]).map Awaited.ofRead ++ later, .start⟩
      (r.out ++ (round rt ty s m cancelled arrived r.conn).2.1) = some k' := by
    rw [List.map_append, List.append_assoc]
    exact Command.Triple.run_append_of ran follows
  rw [Run.receive]
  generalize round rt ty s m cancelled arrived r.conn = done at sofar ends
  obtain ⟨conn, log, result⟩ := done
  cases result with
  | ok _ => exact ⟨k', sofar, fun _ => ends⟩
  | error thrown =>
    obtain ⟨k'', last⟩ := follows_lastWords ends
    exact ⟨k'', Command.Triple.run_append_of sofar last, fun over_ => by cases over_⟩

theorem follows_deliver {r : Run σ Value Stmt Portal} (h : Follows r) (p : Pushed) :
    Follows (r.deliver p) := by
  intro later
  obtain ⟨k, ran, owed⟩ := h later
  rw [Run.deliver]
  split
  · refine ⟨k, Command.Triple.run_append_of ran ?_, owed⟩
    rw [Trace.run_cons, next_pushed, Option.bind_some, Trace.run_nil]
  · exact ⟨k, ran, owed⟩

theorem follows_step {r r' : Run σ Value Stmt Portal} {e : Event} (h : Follows r)
    (stepped : step rt ty s r e = some r') : Follows r' := by
  cases going : r.ended with
  | true => cases e <;> simp [step, going] at stepped
  | false =>
    cases e with
    | push p =>
      rw [step, going, if_neg Bool.false_ne_true, Option.some.injEq] at stepped
      exact stepped ▸ follows_deliver h p
    | receive m cancelled arrived =>
      rw [step, going, if_neg Bool.false_ne_true] at stepped
      split at stepped
      · rw [← Option.some.inj stepped]
        exact h.hangUp _
      · rw [← Option.some.inj stepped]
        exact follows_receive h going m cancelled arrived ‹_›
    | badFrame e =>
      rw [step, going, if_neg Bool.false_ne_true] at stepped
      rw [← Option.some.inj stepped]
      intro later
      obtain ⟨k, ran, owed⟩ := h (.error :: later)
      obtain ⟨k', last⟩ := follows_lastWords (e := .protocolViolation e)
        (.inr (owed going).standing.some)
      refine ⟨k', ?_, fun over_ => by cases over_⟩
      rw [List.map_append, List.append_assoc]
      exact Command.Triple.run_append_of ran last
    | lost =>
      rw [step, going, if_neg Bool.false_ne_true] at stepped
      rw [← Option.some.inj stepped]
      exact h.hangUp _

end Leads

/-! ## A batch that fails -/

/-- A session of one column, which answers a statement with its text. -/
def echo : Session Unit Unit Text Text Text Text where
  prepare := fun sql _ reached => (reached, [], .ok sql)
  sql := id
  paramOids := fun _ => []
  copyStatement := fun _ => none
  describe := fun _ reached => (reached, [], .ok (some [⟨['?'], 25⟩]))
  bind := fun sql _ reached => (reached, [], .ok sql)
  copyOf := fun _ => none
  execute := fun sql _ reached => (reached, [], .ok ([[some sql]], false))
  copyIn := fun _ reached => (reached, [], .ok 0)
  headerNames := fun _ reached => (reached, [], .ok [])
  copyOut := fun _ reached => (reached, [], .ok ⟨[], fun reached => (reached, [], .ok ())⟩)
  drain := fun reached => (reached, [], .ok ())

def asText : Types Text Text where
  encoders := ⟨fun _ cell => .ok (Utf8.encode cell), fun _ cell => .ok (Utf8.encode cell)⟩
  copyText := .ok
  str := id
  decodeTextParam := fun _ text => .ok text
  decodeBinaryParam := fun _ _ => .error (.valueError "unsupported")

def plain : Runtime where
  tables := Endpoint.asciiTables
  tokenize := fun _ => none
  malformed := fun _ => "unpack requires a buffer of 4 bytes"
  notUtf8 := fun _ => "invalid start byte"
  structError := fun _ => "argument out of range"

def idle : W Unit Text Text := ⟨Connection.fresh 1 "reader" ∅, ⟨fun _ => none, ∅, 5432⟩, [], []⟩

/-- Parse, a Bind that does not parse, Execute and Sync. -/
def batch : List Event :=
  [.receive ⟨Tag.PARSE, [0, 0x78, 0, 0, 0]⟩ false [], .receive ⟨Tag.BIND, []⟩ false [],
    .receive ⟨Tag.EXECUTE, [0, 0, 0, 0, 0]⟩ false [], .receive ⟨Tag.SYNC, []⟩ false []]

/-- What comes of it. -/
def answeredBatch : Run Unit Unit Text Text :=
  (Trace.run (step plain asText echo) (Run.start () idle) batch).get rfl

/-! ## The answers -/

/-- Whatever the command loop reads, the client is never sent what it cannot place. What it has
been answered goes as far as the loop has read, up to a failed batch. -/
theorem client_follows (rt : Runtime) (ty : Types Cell Param)
    (s : Session σ Value Stmt Portal Cell Param) (own : σ) (world : W Value Stmt Portal)
    (events : List Event) {r : Run σ Value Stmt Portal}
    (ran : Trace.run (step rt ty s) (Run.start own world) events = some r) (later : List Awaited) :
    ∃ k, Trace.run Client.next ⟨r.read.map Awaited.ofRead ++ later, .start⟩ r.out = some k ∧
      (r.ended = false → Owed later r.conn k) :=
  Trace.run_invariant Follows (follows_start own world) (fun _ _ _ => follows_step) ran later

theorem batch_followed :
    ∃ k, Trace.run Client.next ⟨answeredBatch.read.map Awaited.ofRead ++ [.query], .start⟩
        answeredBatch.out = some k ∧
      (answeredBatch.ended = false → Owed [.query] answeredBatch.conn k) :=
  client_follows plain asText echo () idle batch (Option.some_get _).symm [.query]

/-! ## ReadyForQuery -/

def readies (out : List Written) : Nat := out.countP fun w => Client.isReady w.1

def closings (pending : List Awaited) : Nat := pending.countP Awaited.closes

theorem closings_open {before : List Awaited} (open_ : ∀ x ∈ before, x.closes = false)
    (later : List Awaited) : closings (before ++ later) = closings later := by
  have none_ : closings before = 0 :=
    List.countP_eq_zero.mpr fun x inside => by simp [open_ x inside]
  have both : closings (before ++ later) = closings before + closings later := List.countP_append
  omega

theorem closings_unanswered (pending : List Awaited) :
    closings (Client.unanswered pending) = closings pending := by
  have passed : ∀ x ∈ pending.takeWhile (· = .nothing), x = Awaited.nothing := fun x inside => by
    simpa using List.mem_takeWhile_imp inside
  have split := List.takeWhile_append_dropWhile (p := (· = Awaited.nothing)) (l := pending)
  conv_rhs => rw [← split, closings_open (closes_nothing passed)]
  rfl

theorem closings_afterReady {pending later : List Awaited}
    (h : Client.afterReady pending = some later) : closings pending = closings later + 1 := by
  induction pending with
  | nil => cases h
  | cons a pending ih =>
    rw [Client.afterReady] at h
    split at h
    case isTrue closes =>
      rw [← Option.some.inj h, closings, List.countP_cons_of_pos closes]
      rfl
    case isFalse open_ =>
      rw [closings, List.countP_cons_of_neg open_]
      exact ih h

theorem closings_answered {stage : Stage} {b : Backend} {pending : List Awaited} {k' : Client}
    (moved : Client.answered stage b pending = some k') :
    closings pending = closings k'.pending + if Client.isReady b then 1 else 0 := by
  cases pending with
  | nil => cases moved
  | cons a later =>
    rw [Client.answered] at moved
    split at moved
    case h_1 => cases moved
    case h_2 stage' placed =>
      rw [← Option.some.inj moved, (fits_place placed).ready]
      simp
    case h_3 placed =>
      rw [← Option.some.inj moved, (fits_place placed).ready]
      simp only [decide_true, Bool.and_true]
      exact List.countP_cons

/-- A ReadyForQuery answers one Query or Sync, and nothing else does. -/
theorem closings_next {k k' : Client} {w : Written} (moved : Client.next k w = some k') :
    closings k.pending = closings k'.pending + readies [w] := by
  have counted : readies [w] = if Client.isReady w.1 then 1 else 0 := List.countP_singleton ..
  rw [counted]
  rw [Client.next] at moved
  split at moved
  case isTrue pushed =>
    have other : Client.isReady w.1 = false := by
      revert pushed
      cases w.1 <;> simp [Client.isReady, Backend.isAsync]
    rw [← Option.some.inj moved, other, if_neg Bool.false_ne_true, Nat.add_zero]
  split at moved
  case isTrue error =>
    have other : Client.isReady w.1 = false := by
      revert error
      cases w.1 <;> simp [Client.isReady, Client.isError]
    split at moved
    · cases moved
    · rw [← Option.some.inj moved, other, if_neg Bool.false_ne_true, Nat.add_zero]
  split at moved
  · split at moved
    case isTrue ready =>
      obtain ⟨later, behind, rfl⟩ := Option.map_eq_some_iff.mp moved
      rw [if_pos ready]
      exact closings_afterReady behind
    · cases moved
  · rw [← closings_unanswered]
    exact closings_answered moved

theorem closings_run {k k' : Client} {out : List Written}
    (ran : Trace.run Client.next k out = some k') :
    closings k.pending = closings k'.pending + readies out := by
  induction out generalizing k with
  | nil =>
    rw [← Option.some.inj ran]
    rfl
  | cons w out ih =>
    obtain ⟨k₁, moved, rest⟩ := Option.bind_eq_some_iff.mp ran
    have first := closings_next moved
    have others := ih rest
    have split : readies ([w] ++ out) = readies [w] + readies out := List.countP_append
    rw [List.singleton_append] at split
    omega

theorem closings_owed {c : Conn σ Value Stmt Portal} {k : Client} (h : Owed [] c k) :
    closings k.pending = 0 := by
  obtain ⟨before, split, open_⟩ := h.standing.open
  rw [split]
  exact closings_open open_ []

/-- On a connection still up there are as many ReadyForQuery as Query and Sync were read by the
command loop, whatever failed, was cancelled or was skipped in between. -/
theorem one_ready_each (rt : Runtime) (ty : Types Cell Param)
    (s : Session σ Value Stmt Portal Cell Param) (own : σ) (world : W Value Stmt Portal)
    (events : List Event) {r : Run σ Value Stmt Portal}
    (ran : Trace.run (step rt ty s) (Run.start own world) events = some r)
    (going : r.ended = false) : readies r.out = closings (r.read.map Awaited.ofRead) := by
  have follows : Follows r :=
    Trace.run_invariant Follows (follows_start own world) (fun _ _ _ => follows_step) ran
  obtain ⟨k, placed, owed⟩ := follows []
  have counted : closings (r.read.map Awaited.ofRead ++ []) = closings k.pending + readies r.out :=
    closings_run placed
  rw [closings_owed (owed going), List.append_nil, Nat.zero_add] at counted
  exact counted.symm

theorem batch_ready :
    readies answeredBatch.out = closings (answeredBatch.read.map Awaited.ofRead) :=
  one_ready_each plain asText echo () idle batch (Option.some_get _).symm rfl

end PgMimic.Dispatch

import PgMimic.Lib.Bus
import PgMimic.Notifications
import PgMimic.Subscriptions

/-!
# LISTEN and NOTIFY as a bus

Seen from outside, the connections of a server are members of a bus with transactions: LISTEN
and UNLISTEN subscribe, NOTIFY posts, and the statements that end a transaction end it. What
the server is made of, a registry, queues, frames and a fanout over the listeners found at
the time, delivers what the bus would.
-/

namespace PgMimic

variable {Value Stmt Port : Type}

/-- A NotificationResponse, by what it says. -/
abbrev Post := Pid × String × String

/-- One call of `PgServer.notify`, as the registry stands. -/
def PgServer.call (server : PgServer) (entry : String × String) : Notification :=
  ⟨entry.1, entry.2, server.registry.listeners entry.1⟩

/-- What the fanouts of one connection hand to another. -/
def fannedOut (receiver sender : Pid) (calls : List Notification) : List Post :=
  (calls.filter fun n => receiver ∈ n.recipients).map fun n => (sender, n.channel, n.payload)

/-- What a statement is on the bus. -/
def busAction (cat : Catalogue Value) (w : World Value Stmt Port) (r : Request) :
    Option Failure → Bus.Action String String
  | some _ => .post (raisedBy cat w r)
  | none =>
    match r.statement with
    | .transaction .begin => .begin
    | .transaction .commit => .commit
    | .transaction .rollback => .rollback
    | .listen channel => .subscribe channel
    | .unlisten (some channel) => .unsubscribe channel
    | .unlisten none | .discard .all => .unsubscribeAll
    | _ => .post (raisedBy cat w r)

/-- The run as the bus sees it, and what `notify` has been called with on each connection. -/
structure Traffic where
  events : List (Bus.Event Pid String String)
  received : Pid → List Post

namespace System

variable [DecidableEq Value] (cat : Catalogue Value)

def traffic (t : Traffic) (sys : System Value Stmt Port) : Event → Traffic
  | .connect pid _ _ => ⟨t.events ++ [.join pid], Function.update t.received pid []⟩
  | .request pid r =>
    match sys.clients pid with
    | none => t
    | some c =>
      let done := World.execute cat (c.world sys.server) r
      ⟨t.events ++ [.act pid (busAction cat (c.world sys.server) r done.2)],
        fun other => t.received other ++
          fannedOut other pid (done.1.notified.drop c.notified.length)⟩
  | .disconnect pid => ⟨t.events ++ [.leave pid], t.received⟩

/-- The server, its connections, and the traffic between them. -/
abbrev watched : System Value Stmt Port × Traffic → Event →
    Option (System Value Stmt Port × Traffic) :=
  Trace.annotate (step cat) (traffic cat)

def startWatched (parameterStatus : Dict String String) (port : Nat) :
    System Value Stmt Port × Traffic :=
  (start parameterStatus port, ⟨[], fun _ => []⟩)

end System

/-! ## What a statement calls `notify` with -/

/-- The registry is left alone, and every call of `notify` in between was made with it. -/
structure Calls (w w' : World Value Stmt Port) : Prop where
  server : w'.server = w.server
  calls : ∃ posts : List (String × String), w'.notified = w.notified ++ posts.map w.server.call

namespace Calls

variable {u v w w' : World Value Stmt Port}

theorem nothing (server : w'.server = w.server) (notified : w'.notified = w.notified) :
    Calls w w' :=
  ⟨server, [], by rw [notified, List.map_nil, List.append_nil]⟩

theorem refl (w : World Value Stmt Port) : Calls w w := nothing rfl rfl

theorem trans (h : Calls u v) (h' : Calls v w) : Calls u w := by
  obtain ⟨first, before⟩ := h.calls
  obtain ⟨later, after⟩ := h'.calls
  refine ⟨h'.server.trans h.server, first ++ later, ?_⟩
  rw [after, before, h.server, List.map_append, List.append_assoc]

theorem notifyListeners (w : World Value Stmt Port) (channel payload : String) :
    Calls w (w.notifyListeners channel payload) := by
  rw [World.notifyListeners]
  split
  · exact ⟨rfl, [(channel, payload)], rfl⟩
  · split
    · exact refl w
    · exact nothing rfl rfl

theorem foldl (raised : List (String × String)) (w : World Value Stmt Port) :
    Calls w (raised.foldl (fun w entry => w.notifyListeners entry.1 entry.2) w) := by
  induction raised generalizing w with
  | nil => exact refl w
  | cons entry raised ih => exact (notifyListeners w entry.1 entry.2).trans (ih _)

variable (cat : Catalogue Value)

theorem reportSetting (w : World Value Stmt Port) (key : String) :
    Calls w (reportSetting cat w key) := by
  obtain ⟨owed, h⟩ := reportSetting_eq cat w key
  rw [h]
  exact nothing rfl rfl

theorem applySetConfig (w : World Value Stmt Port) (key : String) (value : Option String)
    (isLocal : Bool) (answer : Answer) :
    Calls w (applySetConfig cat w key value isLocal answer).1 := by
  have put (v : World Value Stmt Port) (s : SessionState Value Stmt Port) :
      Calls v (PgMimic.reportSetting cat (v.withState s) key) :=
    (nothing rfl rfl : Calls v (v.withState s)).trans (reportSetting cat _ key)
  cases applied cat w key value isLocal answer with
  | unsettable e settable result => exact result ▸ refl w
  | unparsed e settable parsed result => exact result ▸ refl w
  | kept stored settable parsed stands result => exact result ▸ put w _
  | undone stored settable parsed falls result =>
    rw [result]
    exact (put w _).trans (put _ _)

theorem applyAll (isLocal : Bool) (assignments : List (String × Option String))
    (answers : List Answer) (w : World Value Stmt Port) :
    Calls w (applyAll cat isLocal assignments answers w).1 :=
  applyAll_relates cat refl trans
    (fun w key value answer => applySetConfig cat w key value isLocal answer) assignments answers w

theorem runAll (effects : List Effect) (answers : List Answer) (w : World Value Stmt Port) :
    Calls w (World.runAll cat effects answers w).1 :=
  runAll_relates cat refl trans notifyListeners
    (fun w key value answer => applySetConfig cat w key value false answer) effects answers w

theorem assignmentStatement (w : World Value Stmt Port)
    (assignments : List (String × Option String)) (isLocal : Bool) (answers : List Answer) :
    Calls w (World.assignmentStatement cat w assignments isLocal answers).1 := by
  rcases assignmentStatement_cases cat w assignments isLocal answers with
    ⟨_, result⟩ | ⟨_, _, result⟩ | ⟨_, _, result⟩
  · rw [result]
    exact nothing rfl rfl
  · rw [result]
    exact refl w
  · rw [result]
    exact applyAll cat isLocal assignments answers w

end Calls

/-! ## A connection as a member of the bus -/

structure Agrees (w : World Value Stmt Port) (l : Ledger Value Stmt Port)
    (m : Bus.Member String String) : Prop where
  inside : m.inside = true ↔ w.txStatus ≠ .I
  live : m.live = w.connection.registeredChannels
  asked : m.asked = w.state.listening
  pending : w.state.pendingNotifies = m.raised.eraseDups
  begun : w.txStatus ≠ .I → ∃ begun, l.begun = some begun ∧ begun.state.listening = m.live
  orderly : m.Orderly

namespace Agrees

variable {w w' : World Value Stmt Port} {l l' : Ledger Value Stmt Port}
  {m : Bus.Member String String}

theorem fresh (server : PgServer) (pid : Pid) (username : String)
    (startupParams : Dict String String) :
    Agrees ((Client.fresh pid username startupParams : Client Value Stmt Port).world server)
      ⟨none, []⟩ .fresh where
  inside := iff_of_false Bool.false_ne_true fun opened => opened rfl
  live := rfl
  asked := rfl
  pending := rfl
  begun := fun opened => absurd rfl opened
  orderly := .fresh

theorem outside (h : Agrees w l m) (idle : w.txStatus = .I) : m.inside = false :=
  Bool.eq_false_iff.mpr fun inside => h.inside.mp inside idle

/-- What the bus has no eye for. -/
theorem transfer (h : Agrees w l m) (same : w'.txStatus = .I ↔ w.txStatus = .I)
    (registered : w'.connection.registeredChannels = w.connection.registeredChannels)
    (listening : w'.state.listening = w.state.listening)
    (pending : w'.state.pendingNotifies = w.state.pendingNotifies) (begun : l'.begun = l.begun) :
    Agrees w' l' m where
  inside := h.inside.trans (not_congr same.symm)
  live := h.live.trans registered.symm
  asked := h.asked.trans listening.symm
  pending := pending.trans h.pending
  begun := fun opened => by
    rw [begun]
    exact h.begun fun idle => opened (same.mpr idle)
  orderly := h.orderly

theorem fail (h : Agrees w l m) : Agrees w.fail l m := by
  refine h.transfer (World.txStatus_fail_eq_I w) ?_ ?_ ?_ rfl
  · rw [World.fail]
    split
    · rfl
    · rfl
  · rw [World.state_fail]
  · rw [World.state_fail]

theorem notified_fail (w : World Value Stmt Port) : w.fail.notified = w.notified := by
  rw [World.fail]
  split
  · rfl
  · rfl

/-- Outside a transaction what is raised is what `notify` is called with. -/
theorem calls_of_raises {raised : List (String × String)} (raises : Raises w w' raised)
    (calls : Calls w w') (idle : w.txStatus = .I) :
    w'.notified = w.notified ++ raised.map w.server.call := by
  obtain ⟨posts, made⟩ := calls.calls
  have passed := (raises.outside idle).1
  rw [World.passed, made, List.map_append, List.map_map] at passed
  have same : posts.map (fun entry => entry) = raised := List.append_cancel_left passed
  rw [made, ← same, List.map_id']

/-- A statement that does nothing but raise notifications. -/
theorem publish {raised : List (String × String)} (h : Agrees w l m) (quiet : Quiet w w')
    (raises : Raises w w' raised) (calls : Calls w w') :
    Agrees w' l (m.step (.post raised)).1 ∧
      w'.notified = w.notified ++ (m.step (.post raised)).2.map w.server.call := by
  by_cases idle : w.txStatus = .I
  · have outside := h.outside idle
    obtain ⟨none, _⟩ := h.orderly outside
    have empty : w.state.pendingNotifies = [] := by
      rw [h.pending, none, List.eraseDups_nil]
    rw [Bus.Member.step, if_neg (by rw [outside]; exact Bool.false_ne_true)]
    refine ⟨h.transfer (by rw [quiet.txStatus]) quiet.registeredChannels quiet.listening ?_ rfl,
      calls_of_raises raises calls idle⟩
    rw [(raises.outside idle).2 empty, empty]
  · have inside := h.inside.mpr idle
    obtain ⟨sent, queued⟩ := raises.inside idle
    rw [Bus.Member.step, if_pos inside]
    refine ⟨⟨?_, ?_, ?_, ?_, ?_, ?_⟩, ?_⟩
    · rw [quiet.txStatus]
      exact h.inside
    · exact h.live.trans quiet.registeredChannels.symm
    · exact h.asked.trans quiet.listening.symm
    · rw [queued, h.pending, collect_eraseDups]
    · intro opened
      exact h.begun idle
    · intro outside
      cases inside.symm.trans outside
    · rw [quiet.notified idle, List.map_nil, List.append_nil]

/-- What a step of the bus says of a statement. -/
structure Follows (w w' : World Value Stmt Port) (l : Ledger Value Stmt Port)
    (m : Bus.Member String String) (a : Bus.Action String String) : Prop where
  agrees : Agrees w' l (m.step a).1
  notified : w'.notified = w.notified ++ (m.step a).2.map w.server.call

/-- A connection asks to be registered for other channels. -/
theorem ask (h : Agrees w l m) (listening : Finset String) :
    Agrees (w.withState { w.state with listening := listening }).syncOutside l
      (m.ask listening) := by
  by_cases idle : w.txStatus = .I
  · have live : (m.ask listening).live = listening := by
      rw [Bus.Member.ask, h.outside idle]
      rfl
    rw [World.syncOutside, if_pos (by simpa using idle)]
    refine ⟨h.inside, live, rfl, h.pending, fun opened => absurd idle opened, h.orderly.ask _⟩
  · have live : (m.ask listening).live = m.live := by
      rw [Bus.Member.ask, h.inside.mpr idle]
      rfl
    rw [World.syncOutside, if_neg (by simpa using idle)]
    refine ⟨h.inside, live.trans h.live, rfl, h.pending, fun opened => ?_, h.orderly.ask _⟩
    rw [live]
    exact h.begun idle

theorem notified_syncOutside (w : World Value Stmt Port) :
    w.syncOutside.notified = w.notified := by
  rw [World.syncOutside]
  split
  · rfl
  · rfl

theorem follows_ask (h : Agrees w l m) {listening : Finset String}
    {a : Bus.Action String String} (acts : m.step a = (m.ask listening, [])) :
    Follows w (w.withState { w.state with listening := listening }).syncOutside l m a := by
  refine ⟨?_, ?_⟩
  · rw [acts]
    exact h.ask listening
  · rw [acts, notified_syncOutside]
    exact (List.append_nil _).symm

/-- DISCARD ALL, once the settings are reset. -/
theorem follows_discard (h : Agrees w l m) (idle : w.txStatus = .I) (quiet : Quiet w w')
    (raises : Raises w w' []) (calls : Calls w w') :
    Follows w (w'.withState w'.state.reset).syncListeners l m .unsubscribeAll := by
  have outside := h.outside idle
  obtain ⟨none, _⟩ := h.orderly outside
  have live : (m.ask ∅).live = ∅ := by
    rw [Bus.Member.ask, outside]
    rfl
  have status : w'.txStatus = .I := quiet.txStatus.trans idle
  constructor
  · refine ⟨?_, live, rfl, ?_, fun opened => absurd status opened, h.orderly.ask ∅⟩
    · exact iff_of_false (by rw [Bus.Member.step, Bus.Member.ask, outside]; exact Bool.noConfusion)
        fun opened => opened status
    · rw [Bus.Member.step, Bus.Member.ask, none]
      rfl
  · have notified := calls_of_raises raises calls idle
    exact notified

variable [DecidableEq Value] {cat : Catalogue Value}

/-- BEGIN, where it is let through. -/
theorem follows_begin (h : Agrees w l m) (allowed : w.txStatus ≠ .E) :
    Follows w (World.transactionStatement cat w .begin) (l.record w (.transaction .begin) none) m
      .begin := by
  cases status : w.txStatus with
  | E => exact absurd status allowed
  | I =>
    obtain ⟨none, same⟩ := h.orderly (h.outside status)
    rw [World.transactionStatement_begin cat w status]
    refine ⟨⟨?_, h.live, h.asked, h.pending, fun _ => ⟨w, ?_, ?_⟩, ?_⟩, ?_⟩
    · exact iff_of_true rfl TxStatus.noConfusion
    · simp only [Ledger.record, status, if_true]
    · exact h.asked.symm.trans same.symm
    · exact h.orderly.step .begin
    · exact (List.append_nil _).symm
  | T =>
    have opened : w.txStatus ≠ .I := fun idle => TxStatus.noConfusion (status.symm.trans idle)
    have record : l.record w (.transaction .begin) none = l := by
      simp only [Ledger.record, status, reduceCtorEq, if_false]
    have same : (m.step .begin).1 = m := by
      rw [Bus.Member.step, ← h.inside.mpr opened]
    rw [World.transactionStatement_redundant cat w status, record]
    refine ⟨?_, (List.append_nil _).symm⟩
    rw [same]
    refine h.transfer (iff_of_false TxStatus.noConfusion opened) rfl rfl rfl rfl

/-- The end of an open transaction leaves the registry with what the connection asks for. -/
theorem registered_of_end {tag : TransactionTag} (ends : tag ≠ .begin) (opened : w.txStatus ≠ .I) :
    (World.transactionStatement cat w tag).connection.registeredChannels =
      (World.transactionStatement cat w tag).state.listening := by
  rw [World.transactionStatement_end cat w ends opened]
  cases decide (tag = .commit) with
  | true =>
    obtain ⟨owed, ended⟩ := World.endTransaction_commit cat
      ((w.withTxStatus .I).withState { w.state with savepoints := [] })
    rw [ended]
    rfl
  | false =>
    obtain ⟨owed, ended⟩ := World.endTransaction_rollback cat
      ((w.withTxStatus .I).withState { w.state with savepoints := [] })
    rw [ended]
    rfl

/-- The end of a transaction that is none. -/
theorem follows_idle (h : Agrees w l m) {tag : TransactionTag} (ends : tag ≠ .begin)
    (idle : w.txStatus = .I) {a : Bus.Action String String} (acts : m.step a = (m, [])) :
    Follows w (World.transactionStatement cat w tag) l m a := by
  rw [World.transactionStatement_idle cat w ends idle]
  refine ⟨?_, ?_⟩
  · rw [acts]
    exact h.transfer (iff_of_true rfl idle) rfl rfl rfl rfl
  · rw [acts]
    exact (List.append_nil _).symm

theorem follows_commit (h : Agrees w l m) :
    Follows w (World.transactionStatement cat w .commit) (l.record w (.transaction .commit) none) m
      .commit := by
  have ends : TransactionTag.commit ≠ .begin := nofun
  by_cases idle : w.txStatus = .I
  · have outside := h.outside idle
    obtain ⟨none, same⟩ := h.orderly outside
    have acts : m.step .commit = (m, []) := by
      rw [Bus.Member.step, none, List.eraseDups_nil]
      cases m
      cases outside
      cases none
      cases same
      rfl
    have follows : Follows w (World.transactionStatement cat w _) l m _ :=
      h.follows_idle ends idle acts
    refine ⟨?_, follows.notified⟩
    refine ⟨follows.agrees.inside, follows.agrees.live, follows.agrees.asked,
      follows.agrees.pending, fun opened => ?_, follows.agrees.orderly⟩
    exact absurd (txStatus_of_end cat ends) opened
  · have state := state_of_commit cat idle
    have ended : (World.transactionStatement cat w .commit).txStatus = .I :=
      txStatus_of_end cat ends
    refine ⟨⟨?_, ?_, ?_, ?_, fun opened => absurd ended opened, h.orderly.step .commit⟩, ?_⟩
    · exact iff_of_false Bool.false_ne_true fun opened => opened ended
    · rw [registered_of_end ends idle, state]
      exact h.asked
    · rw [state]
      exact h.asked
    · rw [state]
      rfl
    · rw [notified_of_commit cat idle, h.pending]
      rfl

theorem follows_rollback (h : Agrees w l m) (settled : Settled w l)
    (framed : Framed w.txStatus w.state l) :
    Follows w (World.transactionStatement cat w .rollback)
      (l.record w (.transaction .rollback) none) m .rollback := by
  have ends : TransactionTag.rollback ≠ .begin := nofun
  have ended : (World.transactionStatement cat w .rollback).txStatus = .I :=
    txStatus_of_end cat ends
  by_cases idle : w.txStatus = .I
  · have outside := h.outside idle
    obtain ⟨none, same⟩ := h.orderly outside
    have acts : m.step .rollback = (m, []) := by
      rw [Bus.Member.step]
      cases m
      cases outside
      cases none
      cases same
      rfl
    have follows : Follows w (World.transactionStatement cat w _) l m _ :=
      h.follows_idle ends idle acts
    refine ⟨?_, follows.notified⟩
    refine ⟨follows.agrees.inside, follows.agrees.live, follows.agrees.asked,
      follows.agrees.pending, fun opened => absurd ended opened, follows.agrees.orderly⟩
  · obtain ⟨begun, begins, heard⟩ := h.begun idle
    obtain ⟨begun', begins', _, empty, _⟩ := settled.opened idle
    obtain rfl : begun = begun' := Option.some.inj (begins.symm.trans begins')
    have undone := snapshot_of_rollback cat framed idle begins
    have listening : (World.transactionStatement cat w .rollback).state.listening = m.live :=
      (congrArg Scope.listening undone).trans heard
    refine ⟨⟨?_, ?_, listening.symm, ?_, fun opened => absurd ended opened,
      h.orderly.step .rollback⟩, ?_⟩
    · exact iff_of_false Bool.false_ne_true fun opened => opened ended
    · rw [registered_of_end ends idle]
      exact listening.symm
    · exact (congrArg Scope.pendingNotifies undone).trans empty
    · rw [notified_of_rollback cat idle]
      exact (List.append_nil _).symm

omit [DecidableEq Value] in
theorem Follows.fail {a : Bus.Action String String} (follows : Follows w w' l m a) :
    Follows w w'.fail l m a :=
  ⟨follows.agrees.fail, (notified_fail w').trans follows.notified⟩

/-- Taking a savepoint or releasing one, with or without success. -/
theorem follows_savepoint (h : Agrees w l m) (kind : SavepointKind) (name : String)
    (forward : kind ≠ .rollbackTo) :
    Follows w (World.savepointStatement cat w kind name).1 l m (.post []) := by
  obtain ⟨same, notified⟩ := h.publish (Quiet.refl w) (Raises.refl w) (Calls.refl w)
  have quiet {v : World Value Stmt Port} (status : v.txStatus = w.txStatus)
      (registered : v.connection.registeredChannels = w.connection.registeredChannels)
      (listening : v.state.listening = w.state.listening)
      (pending : v.state.pendingNotifies = w.state.pendingNotifies)
      (sent : v.notified = w.notified) : Follows w v l m (.post []) :=
    ⟨same.transfer (by rw [status]) registered listening pending rfl, sent.trans notified⟩
  by_cases idle : w.txStatus = .I
  · simp only [World.savepointStatement, if_pos idle]
    exact ⟨same, notified⟩
  · simp only [World.savepointStatement, if_neg idle]
    cases kind with
    | rollbackTo => exact absurd rfl forward
    | savepoint => exact quiet rfl rfl rfl rfl rfl
    | release =>
      cases innermost w.state.savepoints name with
      | none => exact ⟨same, notified⟩
      | some index => exact quiet rfl rfl rfl rfl rfl

/-- Where nothing but notifications are raised, the statement ends one way or the other. -/
theorem follows_post (h : Agrees w l m) {r : Request} {failed : Option Failure}
    (frames : r.statement.editsFrames = false)
    (passes : ¬(w.txStatus = .E ∧ r.statement.allowedInFailedTransaction = false))
    (quiet : Quiet w (World.onExecute cat w r).1) (calls : Calls w (World.onExecute cat w r).1)
    (post : busAction cat w r none = .post (raisedBy cat w r))
    (executed : World.execute cat w r = (w', failed)) :
    Follows w w' l m (busAction cat w r failed) := by
  obtain ⟨agrees, notified⟩ := h.publish quiet (Raises.onExecute cat w r frames passes) calls
  have made : Follows w _ l m _ := ⟨agrees, notified⟩
  rw [World.execute, if_neg passes] at executed
  cases ended : World.onExecute cat w r with
  | mk v outcome =>
    rw [ended] at made executed
    cases outcome with
    | none =>
      obtain ⟨rfl, rfl⟩ := Prod.mk.inj executed
      rw [post]
      exact made
    | some failure =>
      obtain ⟨rfl, rfl⟩ := Prod.mk.inj executed
      exact made.fail

theorem follows_discardStatement (h : Agrees w l m) (kind : DiscardKind) (answers : List Answer)
    {failed : Option Failure}
    (passes : ¬(w.txStatus = .E ∧ (Statement.discard kind).allowedInFailedTransaction = false))
    (executed : World.execute cat w ⟨.discard kind, answers⟩ = (w', failed)) :
    Follows w w' l m (busAction cat w ⟨.discard kind, answers⟩ failed) := by
  have reset : Calls w (resetAll cat answers.tail w).1 := Calls.applyAll cat false _ answers.tail w
  have raises : Raises w (resetAll cat answers.tail w).1 [] :=
    Raises.applyAll cat false _ answers.tail w
  have quiet := quiet_resetAll cat answers.tail w
  have raised : raisedBy cat w ⟨.discard kind, answers⟩ = [] := by
    rw [raisedBy]
    split
    · rfl
    · rfl
  have ran : World.onExecute cat w ⟨.discard kind, answers⟩ =
      World.discardStatement cat w kind answers := rfl
  rw [World.execute, if_neg passes, ran] at executed
  cases discarded cat w kind answers with
  | nothing outcome narrow result =>
    obtain ⟨agrees, notified⟩ := h.publish (Quiet.refl w) (Raises.refl w) (Calls.refl w)
    have made : Follows w w l m (.post []) := ⟨agrees, notified⟩
    rw [result] at executed
    cases outcome with
    | none =>
      obtain ⟨rfl, rfl⟩ := Prod.mk.inj executed
      have post : busAction cat w ⟨.discard kind, answers⟩ none = .post [] := by
        cases kind with
        | all => exact absurd rfl (narrow_of_nothing narrow result)
        | _ => exact congrArg Bus.Action.post raised
      rw [post]
      exact made
    | some failure =>
      obtain ⟨rfl, rfl⟩ := Prod.mk.inj executed
      rw [busAction, raised]
      exact made.fail
  | stopped all idle told v failure ended result =>
    rw [ended] at reset raises quiet
    obtain ⟨agrees, notified⟩ := h.publish quiet raises reset
    have made : Follows w v l m (.post []) := ⟨agrees, notified⟩
    rw [result] at executed
    obtain ⟨rfl, rfl⟩ := Prod.mk.inj executed
    rw [busAction, raised]
    exact made.fail
  | all all idle told v ended result =>
    rw [ended] at reset raises quiet
    rw [result] at executed
    obtain ⟨rfl, rfl⟩ := Prod.mk.inj executed
    rw [all]
    exact h.follows_discard idle quiet raises reset

omit [DecidableEq Value] in
theorem begun_record_savepoint (l : Ledger Value Stmt Port) (w : World Value Stmt Port)
    (kind : SavepointKind) (name : String) :
    (l.record w (.savepoint kind name) none).begun = l.begun := by
  cases kind with
  | savepoint => rfl
  | release | rollbackTo =>
    rw [Ledger.record]
    split
    · rfl
    · rfl

/-- Every statement but ROLLBACK TO is one step of the bus. -/
theorem follows_execute (h : Agrees w l m) (settled : Settled w l)
    (framed : Framed w.txStatus w.state l) {r : Request} {failed : Option Failure}
    (forward : ∀ name, r.statement ≠ .savepoint .rollbackTo name)
    (executed : World.execute cat w r = (w', failed)) :
    Follows w w' (l.record w r.statement failed) m (busAction cat w r failed) := by
  by_cases refused : w.txStatus = .E ∧ r.statement.allowedInFailedTransaction = false
  · rw [World.execute, if_pos refused] at executed
    obtain ⟨rfl, rfl⟩ := Prod.mk.inj executed
    obtain ⟨agrees, notified⟩ := h.publish (Quiet.refl w) (Raises.refl w) (Calls.refl w)
    have made : Follows w w l m (.post []) := ⟨agrees, notified⟩
    rw [busAction, raisedBy, if_pos refused]
    exact made.fail
  · obtain ⟨statement, answers⟩ := r
    have record (frames : statement.editsFrames = false) : l.record w statement failed = l :=
      Ledger.record_of_not_editsFrames l w frames failed
    cases statement with
    | transaction tag =>
      rw [World.execute, if_neg refused] at executed
      obtain ⟨rfl, rfl⟩ := Prod.mk.inj executed
      cases tag with
      | begin => exact h.follows_begin fun status => refused ⟨status, rfl⟩
      | commit => exact h.follows_commit
      | rollback => exact h.follows_rollback settled framed
    | savepoint kind name =>
      have silent : raisedBy cat w ⟨.savepoint kind name, answers⟩ = [] := by
        rw [raisedBy, if_neg refused]
      have made : Follows w (World.savepointStatement cat w kind name).1 l m (.post []) :=
        h.follows_savepoint kind name fun same =>
          forward name (congrArg (Statement.savepoint · name) same)
      have ran : World.onExecute cat w ⟨.savepoint kind name, answers⟩ =
          World.savepointStatement cat w kind name := rfl
      rw [World.execute, if_neg refused, ran] at executed
      cases ended : World.savepointStatement cat w kind name with
      | mk v outcome =>
        rw [ended] at made executed
        cases outcome with
        | none =>
          obtain ⟨rfl, rfl⟩ := Prod.mk.inj executed
          rw [busAction, silent]
          exact ⟨made.agrees.transfer Iff.rfl rfl rfl rfl (begun_record_savepoint l w kind name),
            made.notified⟩
        | some failure =>
          obtain ⟨rfl, rfl⟩ := Prod.mk.inj executed
          rw [busAction, silent]
          exact made.fail
    | assignment assignments isLocal =>
      rw [record rfl]
      exact h.follows_post rfl refused
        (World.quiet_assignmentStatement cat w assignments isLocal answers)
        (Calls.assignmentStatement cat w assignments isLocal answers) rfl executed
    | resetAll =>
      rw [record rfl]
      exact h.follows_post rfl refused (quiet_resetAll cat answers w)
        (Calls.applyAll cat false _ answers w) rfl executed
    | discard kind =>
      rw [record rfl]
      exact h.follows_discardStatement kind answers refused executed
    | listen channel =>
      rw [World.execute, if_neg refused] at executed
      obtain ⟨rfl, rfl⟩ := Prod.mk.inj executed
      refine h.follows_ask ?_
      rw [← h.asked]
      rfl
    | unlisten channel =>
      rw [World.execute, if_neg refused] at executed
      obtain ⟨rfl, rfl⟩ := Prod.mk.inj executed
      cases channel with
      | none => exact h.follows_ask rfl
      | some channel =>
        refine h.follows_ask ?_
        rw [← h.asked]
        rfl
    | notify channel payload =>
      rw [record rfl]
      exact h.follows_post rfl refused (quiet_notifyListeners w channel payload)
        (Calls.notifyListeners w channel payload) rfl executed
    | select effects =>
      rw [record rfl]
      exact h.follows_post rfl refused (World.quiet_runAll cat effects answers w)
        (Calls.runAll cat effects answers w) rfl executed
    | query raised =>
      rw [record rfl]
      have one (w : World Value Stmt Port) (entry : String × String) :
          Quiet w (w.notifyListeners entry.1 entry.2) := quiet_notifyListeners w entry.1 entry.2
      exact h.follows_post rfl refused (Quiet.foldl one raised w) (Calls.foldl raised w) rfl
        executed

end Agrees

/-! ## The run of the server is a run of the bus -/

/-- The bus has a member for each connection that is open, and they have been sent the same. -/
structure Mirrors (t : System Value Stmt Port × Traffic) (b : Bus.State Pid String String) :
    Prop where
  run : Trace.run Bus.step Bus.start t.2.events = some b
  absent : ∀ pid, t.1.clients pid = none → b.members pid = none
  live : ∀ pid c, t.1.clients pid = some c →
    ∃ m, b.members pid = some m ∧ ∀ server, Agrees (c.world server) c.ledger m
  received : ∀ pid, t.2.received pid = b.mail pid

namespace Mirrors

variable {t : System Value Stmt Port × Traffic} {b : Bus.State Pid String String}

theorem start (parameterStatus : Dict String String) (port : Nat) :
    Mirrors (System.startWatched parameterStatus port : System Value Stmt Port × Traffic)
      Bus.start where
  run := rfl
  absent := fun _ _ => rfl
  live := nofun
  received := fun _ => rfl

/-- Registered is who the bus would send to. -/
theorem mem_listeners (h : Mirrors t b) (sound : Sound t.1) {pid : Pid} {channel : String} :
    pid ∈ t.1.server.registry.listeners channel ↔
      ∃ m, b.members pid = some m ∧ channel ∈ m.live := by
  cases live : t.1.clients pid with
  | none =>
    refine iff_of_false (sound.absent pid channel live) ?_
    rintro ⟨m, found, _⟩
    cases (h.absent pid live).symm.trans found
  | some c =>
    obtain ⟨m, found, agrees⟩ := h.live pid c live
    have exact := sound.exact pid c live channel
    rw [show (c.world t.1.server).connection.pid = pid from sound.pid pid c live,
      show (c.world t.1.server).connection.registeredChannels = m.live from
        (agrees t.1.server).live.symm] at exact
    refine exact.trans ⟨fun member => ⟨m, found, member⟩, ?_⟩
    rintro ⟨m', found', member⟩
    obtain rfl := Option.some.inj (found.symm.trans found')
    exact member

/-- The fanouts of a statement are what the bus sends. -/
theorem fannedOut_calls (h : Mirrors t b) (sound : Sound t.1) (receiver sender : Pid)
    (posts : List (String × String)) :
    fannedOut receiver sender (posts.map t.1.server.call) = b.sent sender posts receiver := by
  have recipients (entry : String × String) : (t.1.server.call entry).recipients =
      t.1.server.registry.listeners entry.1 := rfl
  rw [fannedOut, Bus.State.sent, List.filter_map, List.map_map]
  cases found : b.members receiver with
  | none =>
    rw [List.filter_eq_nil_iff.mpr, List.map_nil]
    intro entry _
    simp only [Function.comp, decide_eq_true_eq, recipients, h.mem_listeners sound, found,
      reduceCtorEq, false_and, exists_false, not_false_eq_true]
  | some m =>
    have same (entry : String × String) :
        ((fun n : Notification => decide (receiver ∈ n.recipients)) ∘ t.1.server.call) entry =
          decide (entry.1 ∈ m.live) := by
      rw [Function.comp, decide_eq_decide, recipients, h.mem_listeners sound]
      constructor
      · rintro ⟨m', found', member⟩
        obtain rfl := Option.some.inj (found.symm.trans found')
        exact member
      · exact fun member => ⟨m, found, member⟩
    rw [funext same]
    rfl

theorem connect {sys : System Value Stmt Port} {traffic : Traffic}
    (h : Mirrors (sys, traffic) b) {pid : Pid} {username : String}
    {startupParams : Dict String String} (free : sys.clients pid = none) :
    ∃ b', Mirrors (sys.put sys.server pid (some (Client.fresh pid username startupParams)),
      ⟨traffic.events ++ [.join pid], Function.update traffic.received pid []⟩) b' := by
  have stepped : Bus.step b (.join pid) = some
      ⟨Function.update b.members pid (some .fresh), Function.update b.mail pid []⟩ := by
    rw [Bus.step, h.absent pid free]
  refine ⟨_, Trace.run_snoc h.run stepped, fun other gone => ?_, fun other c live => ?_,
    fun other => ?_⟩
  · by_cases same : other = pid
    · rw [same, System.clients_put_self] at gone
      cases gone
    · rw [System.clients_put_of_ne sys _ _ same] at gone
      exact (Function.update_of_ne same ..).trans (h.absent other gone)
  · rcases System.clients_put live with ⟨rfl, put⟩ | ⟨apart, old⟩
    · obtain rfl := Option.some.inj put
      exact ⟨.fresh, Function.update_self .., fun server => Agrees.fresh server other _ _⟩
    · obtain ⟨m, found, agrees⟩ := h.live other c old
      exact ⟨m, (Function.update_of_ne apart ..).trans found, agrees⟩
  · by_cases same : other = pid
    · rw [same]
      exact (Function.update_self ..).trans (Function.update_self pid [] b.mail).symm
    · exact (Function.update_of_ne same ..).trans
        ((h.received other).trans (Function.update_of_ne same ..).symm)

theorem disconnect {sys : System Value Stmt Port} {traffic : Traffic}
    (h : Mirrors (sys, traffic) b) {pid : Pid} {c : Client Value Stmt Port}
    (live : sys.clients pid = some c) (server : PgServer) :
    ∃ b', Mirrors (sys.put server pid none, ⟨traffic.events ++ [.leave pid], traffic.received⟩)
      b' := by
  obtain ⟨m, found, _⟩ := h.live pid c live
  have stepped : Bus.step b (.leave pid) = some
      { b with members := Function.update b.members pid none } := by
    rw [Bus.step, found]
    rfl
  refine ⟨_, Trace.run_snoc h.run stepped, fun other gone => ?_, fun other d still => ?_,
    h.received⟩
  · by_cases same : other = pid
    · rw [same]
      exact Function.update_self ..
    · rw [System.clients_put_of_ne sys _ _ same] at gone
      exact (Function.update_of_ne same ..).trans (h.absent other gone)
  · rcases System.clients_put still with ⟨_, put⟩ | ⟨apart, old⟩
    · cases put
    · obtain ⟨m', found', agrees⟩ := h.live other d old
      exact ⟨m', (Function.update_of_ne apart ..).trans found', agrees⟩

theorem request {sys : System Value Stmt Port} {traffic : Traffic}
    (h : Mirrors (sys, traffic) b) (sound : Sound sys) {pid : Pid} {c : Client Value Stmt Port}
    (live : sys.clients pid = some c) {s : Statement} {failed : Option Failure}
    {w : World Value Stmt Port} {a : Bus.Action String String}
    (follows : ∀ m, Agrees (c.world sys.server) c.ledger m →
      Agrees.Follows (c.world sys.server) w (c.ledger.record (c.world sys.server) s failed) m a) :
    ∃ b', Mirrors (sys.put w.server pid (some (c.settle sys.server s failed w)),
      ⟨traffic.events ++ [.act pid a], fun other => traffic.received other ++
        fannedOut other pid (w.notified.drop c.notified.length)⟩) b' := by
  obtain ⟨m, found, agrees⟩ := h.live pid c live
  obtain ⟨after, notified⟩ := follows m (agrees sys.server)
  have stepped : Bus.step b (.act pid a) = some
      ⟨Function.update b.members pid (some (m.step a).1),
        fun other => b.mail other ++ b.sent pid (m.step a).2 other⟩ := by
    rw [Bus.step, found]
    rfl
  refine ⟨_, Trace.run_snoc h.run stepped, fun other gone => ?_, fun other d put => ?_,
    fun other => ?_⟩
  · by_cases same : other = pid
    · rw [same, System.clients_put_self] at gone
      cases gone
    · rw [System.clients_put_of_ne sys _ _ same] at gone
      exact (Function.update_of_ne same ..).trans (h.absent other gone)
  · rcases System.clients_put put with ⟨rfl, settled⟩ | ⟨apart, old⟩
    · obtain rfl := Option.some.inj settled
      refine ⟨(m.step a).1, Function.update_self .., fun server => ?_⟩
      exact ⟨after.inside, after.live, after.asked, after.pending, after.begun, after.orderly⟩
    · obtain ⟨m', found', agrees'⟩ := h.live other d old
      exact ⟨m', (Function.update_of_ne apart ..).trans found', agrees'⟩
  · have calls : w.notified.drop c.notified.length = (m.step a).2.map sys.server.call := by
      rw [notified]
      exact List.drop_left
    change traffic.received other ++ _ = b.mail other ++ _
    rw [calls, h.fannedOut_calls sound, ← h.received other]

end Mirrors

section Results

variable [DecidableEq Value]

/-- Each event of a run is one of the bus. -/
theorem mirrored (cat : Catalogue Value) {parameterStatus : Dict String String} {port : Nat}
    {events : List Event}
    (forward : ∀ pid name answers,
      Event.request pid ⟨.savepoint .rollbackTo name, answers⟩ ∉ events)
    {u v : System Value Stmt Port × Traffic} {e : Event}
    (taken : Trace.Takes (System.watched cat) (System.startWatched parameterStatus port) events u e
      v) {b : Bus.State Pid String String} (h : Mirrors u b) : ∃ b', Mirrors v b' := by
  have member : e ∈ events := by
    obtain ⟨done, left, split, _⟩ := taken
    rw [split]
    exact List.mem_append_right done (List.mem_cons_self ..)
  have reached := taken.before.of_annotate
  obtain ⟨sys, traffic⟩ := u
  obtain ⟨stepped, noted⟩ := Trace.annotate_eq_some taken.possible
  obtain ⟨after, traffic'⟩ := v
  cases e with
  | connect pid username startupParams =>
    obtain ⟨free, rfl⟩ := System.step_connect stepped
    obtain rfl := noted
    exact h.connect free
  | request pid r =>
    obtain ⟨c, failed, w, live, executed, move, rfl⟩ := System.step_request stepped
    have traffic : traffic' = ⟨traffic.events ++
        [.act pid (busAction cat (c.world sys.server) r failed)], fun other =>
          traffic.received other ++ fannedOut other pid (w.notified.drop c.notified.length)⟩ := by
      rw [show traffic' = System.traffic cat traffic sys (.request pid r) from noted,
        System.traffic, live]
      simp only [executed]
    rw [traffic]
    refine h.request (Sound.of_visits reached) live fun m agrees => ?_
    refine agrees.follows_execute (settled_of_visits reached live sys.server)
      (framed_of_visits reached live) (fun name rolledBack => ?_) executed
    obtain ⟨statement, answers⟩ := r
    obtain rfl : statement = .savepoint .rollbackTo name := rolledBack
    exact forward pid name answers member
  | disconnect pid =>
    obtain ⟨c, live, rfl⟩ := System.step_disconnect stepped
    obtain rfl := noted
    exact h.disconnect live _

/-- The server and its connections are a bus with transactions. Whatever the connections do,
in whatever order, ROLLBACK TO aside: what the fanouts have handed to a connection is what the
bus has sent to its member, a connection is registered for what its member is sent, and asks
for what it asks for. -/
theorem server_is_bus (cat : Catalogue Value) (parameterStatus : Dict String String) (port : Nat)
    {events : List Event} {t : System Value Stmt Port × Traffic}
    (forward : ∀ pid name answers,
      Event.request pid ⟨.savepoint .rollbackTo name, answers⟩ ∉ events)
    (visited : Trace.Visits (System.watched cat) (System.startWatched parameterStatus port)
      events t) :
    ∃ b : Bus.State Pid String String, Trace.run Bus.step Bus.start t.2.events = some b ∧
      (∀ pid, t.2.received pid = b.mail pid) ∧
      ∀ pid, (t.1.clients pid).map (fun c => (c.connection.registeredChannels,
        c.connection.state.listening)) = (b.members pid).map fun m => (m.live, m.asked) := by
  obtain ⟨b, mirrors⟩ : ∃ b, Mirrors t b :=
    Trace.visits_induction (fun t => ∃ b, Mirrors t b) ⟨_, Mirrors.start parameterStatus port⟩
      (fun u e v taken ⟨_, before⟩ => mirrored cat forward taken before) visited
  refine ⟨b, mirrors.run, mirrors.received, fun pid => ?_⟩
  cases live : t.1.clients pid with
  | none =>
    rw [mirrors.absent pid live]
    rfl
  | some c =>
    obtain ⟨m, found, agrees⟩ := mirrors.live pid c live
    obtain ⟨_, registered, asked, _⟩ := agrees t.1.server
    rw [found, Option.map_some, Option.map_some, registered, asked]
    rfl

end Results

/-- A transaction that repeats itself, heard by somebody else. -/
def relayed : List Event :=
  [.connect 1 "app" ∅, .connect 2 "app" ∅, .request 2 ⟨.listen "jobs", []⟩,
    .request 1 ⟨.transaction .begin, []⟩, .request 1 ⟨.notify "jobs" "x", []⟩,
    .request 1 ⟨.notify "jobs" "y", []⟩, .request 1 ⟨.notify "jobs" "x", []⟩,
    .request 1 ⟨.notify "news" "z", []⟩, .request 1 ⟨.transaction .commit, []⟩]

theorem relayed_is_bus :
    ∃ (t : System String Unit Unit × Traffic) (b : Bus.State Pid String String),
      Trace.run (System.watched plainCatalogue) (System.startWatched ∅ 5432) relayed = some t ∧
      Trace.run Bus.step Bus.start t.2.events = some b ∧
      b.mail 2 = [(1, "jobs", "x"), (1, "jobs", "y")] := by
  have opening : ∃ t, Trace.run (System.watched plainCatalogue)
      (System.startWatched ∅ 5432 : System String Unit Unit × Traffic) relayed = some t ∧
      t.2.received 2 = [(1, "jobs", "x"), (1, "jobs", "y")] := ⟨_, rfl, rfl⟩
  obtain ⟨t, ran, heard⟩ := opening
  obtain ⟨b, mirrored, received, _⟩ :=
    server_is_bus plainCatalogue ∅ 5432 (by simp [relayed]) (Trace.visits_end ran)
  exact ⟨t, b, ran, mirrored, (received 2).symm.trans heard⟩

end PgMimic

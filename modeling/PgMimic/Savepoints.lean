import PgMimic.System
import Mathlib.Data.List.TakeWhile

/-!
# Savepoints and their frames

`_savepoint_statement` keeps two stacks in step, the names and the frames, and
addresses savepoint N as frame N + 1. ROLLBACK TO keeps the name it goes back to
but drops its frame, so from the first such name on the two are out of step.
What holds is that the frames of the names before it are all there, in order,
under the frame of the transaction itself.
-/

namespace PgMimic

variable {Value Stmt Port : Type}

/-- The marks before the first that has been rolled back to. -/
def intact (marks : List (Mark Value)) : List (Mark Value) :=
  marks.takeWhile fun m => !m.rolledBack

section Intact

theorem intact_eq_self {marks : List (Mark Value)} (h : ∀ m ∈ marks, m.rolledBack = false) :
    intact marks = marks := by
  rw [intact, List.takeWhile_eq_self_iff]
  intro m hm
  simp [h m hm]

theorem rolledBack_of_intact {marks : List (Mark Value)} (h : intact marks = marks) :
    ∀ m ∈ marks, m.rolledBack = false := by
  intro m hm
  have kept := List.takeWhile_eq_self_iff.mp h m hm
  simpa using kept

/-- A new mark is intact where every mark outside it is. -/
theorem intact_append_of_all {marks : List (Mark Value)} {m : Mark Value}
    (all : intact marks = marks) (fresh : m.rolledBack = false) :
    intact (marks ++ [m]) = marks ++ [m] := by
  apply intact_eq_self
  intro a ha
  rcases List.mem_append.mp ha with old | new
  · exact rolledBack_of_intact all a old
  · exact List.mem_singleton.mp new ▸ fresh

theorem intact_append_of_not {marks : List (Mark Value)} (m : Mark Value)
    (some_gone : intact marks ≠ marks) : intact (marks ++ [m]) = intact marks := by
  rw [intact, List.takeWhile_append]
  refine if_neg ?_
  intro all
  exact some_gone ((List.takeWhile_prefix _).eq_of_length all)

theorem intact_append_rolledBack (outer : List (Mark Value)) {m : Mark Value}
    (gone : m.rolledBack = true) : intact (outer ++ [m]) = intact outer := by
  rw [intact, List.takeWhile_append]
  split
  · rename_i all
    rw [List.takeWhile_cons_of_neg (by simp [gone]), List.append_nil]
    exact ((List.takeWhile_prefix _).eq_of_length all).symm
  · rfl

theorem intact_take (marks : List (Mark Value)) (n : Nat) :
    intact (marks.take n) = (intact marks).take n := by
  induction marks generalizing n with
  | nil => simp [intact]
  | cons m rest ih =>
    cases n with
    | zero => simp [intact]
    | succ n =>
      cases h : m.rolledBack with
      | true => simp [intact, h]
      | false => simpa [intact, h] using ih n

end Intact

/-- The two stacks of an open transaction, against its ledger. -/
structure Frames (scopes : List (Scope Value)) (savepoints : List String)
    (l : Ledger Value Stmt Port) : Prop where
  names : savepoints = l.marks.map Mark.name
  frames : ∃ begun beyond, l.begun = some begun ∧
    scopes = begun.state.snapshot :: ((intact l.marks).map Mark.taken ++ beyond) ∧
    (intact l.marks = l.marks → beyond = [])

namespace Frames

variable {scopes : List (Scope Value)} {savepoints : List String} {l : Ledger Value Stmt Port}

theorem length_eq (h : Frames scopes savepoints l) (fresh : ∀ m ∈ l.marks, m.rolledBack = false) :
    scopes.length = savepoints.length + 1 := by
  obtain ⟨begun, beyond, _, split, none_beyond⟩ := h.frames
  have all := intact_eq_self fresh
  rw [split, h.names, none_beyond all, all]
  simp

/-- The frame of a mark that is intact, with all the marks outside it. -/
theorem frame_of_intact (h : Frames scopes savepoints l) {name : String}
    {outer : List (Mark Value)} {m : Mark Value}
    (found : Ledger.find name l.marks = some (outer, m))
    (kept : m.rolledBack = false) (outside : ∀ a ∈ outer, a.rolledBack = false) :
    scopes[outer.length + 1]? = some m.taken := by
  obtain ⟨begun, beyond, _, split, _⟩ := h.frames
  obtain ⟨inner, marks, _, _⟩ := Ledger.find_eq_some found
  have prefixed : intact l.marks = outer ++ m :: intact inner := by
    rw [marks, intact, List.takeWhile_append_of_pos (fun a ha => by simp [outside a ha]),
      List.takeWhile_cons_of_pos (by simp [kept])]
    rfl
  rw [split, prefixed]
  simp

theorem begin (w : World Value Stmt Port) : Frames [w.state.snapshot] [] ⟨some w, []⟩ :=
  ⟨rfl, w, [], rfl, rfl, fun _ => rfl⟩

theorem savepoint (h : Frames scopes savepoints l) (name : String) (taken : Scope Value) :
    Frames (scopes ++ [taken]) (savepoints ++ [name])
      { l with marks := l.marks ++ [⟨name, taken, false⟩] } := by
  obtain ⟨begun, beyond, begins, split, none_beyond⟩ := h.frames
  refine ⟨by simp [h.names], ?_⟩
  by_cases all : intact l.marks = l.marks
  · refine ⟨begun, [], begins, ?_, fun _ => rfl⟩
    change scopes ++ [taken] =
      begun.state.snapshot :: ((intact (l.marks ++ [⟨name, taken, false⟩])).map Mark.taken ++ [])
    rw [intact_append_of_all all rfl, split, none_beyond all, all]
    simp
  · refine ⟨begun, beyond ++ [taken], begins, ?_, ?_⟩
    · change scopes ++ [taken] = begun.state.snapshot ::
        ((intact (l.marks ++ [⟨name, taken, false⟩])).map Mark.taken ++ (beyond ++ [taken]))
      rw [intact_append_of_not _ all, split]
      simp
    · intro longer
      change intact (l.marks ++ [⟨name, taken, false⟩]) =
        l.marks ++ [⟨name, taken, false⟩] at longer
      exact False.elim (all (intact_eq_self fun m hm =>
        rolledBack_of_intact longer m (List.mem_append_left _ hm)))

/-- The frames left by a cut that keeps as many names as there are marks outside. -/
theorem cut (h : Frames scopes savepoints l) {name : String} {outer : List (Mark Value)}
    {m : Mark Value} (found : Ledger.find name l.marks = some (outer, m)) :
    Frames (scopes.take (outer.length + 1)) (savepoints.take outer.length)
      { l with marks := outer } := by
  obtain ⟨begun, beyond, begins, split, none_beyond⟩ := h.frames
  obtain ⟨inner, marks, _, _⟩ := Ledger.find_eq_some found
  have outside : outer = l.marks.take outer.length := by simp [marks]
  have kept : intact outer = (intact l.marks).take outer.length :=
    (congrArg intact outside).trans (intact_take l.marks outer.length)
  refine ⟨?_, begun, beyond.take (outer.length - (intact l.marks).length), begins, ?_, ?_⟩
  · change savepoints.take outer.length = outer.map Mark.name
    rw [h.names, ← List.map_take, ← outside]
  · change scopes.take (outer.length + 1) = begun.state.snapshot :: ((intact outer).map Mark.taken ++
      beyond.take (outer.length - (intact l.marks).length))
    rw [split, List.take_succ_cons, List.take_append, ← List.map_take, ← kept, List.length_map]
  · intro all
    have long : outer.length ≤ (intact l.marks).length := by
      have lengths : ((intact l.marks).take outer.length).length = outer.length :=
        congrArg List.length (kept.symm.trans all)
      rw [List.length_take] at lengths
      omega
    rw [Nat.sub_eq_zero_of_le long, List.take_zero]

/-- Going back to a mark keeps its name and loses its frame. -/
theorem rollbackTo (h : Frames scopes savepoints l) {name : String} {outer : List (Mark Value)}
    {m : Mark Value} (found : Ledger.find name l.marks = some (outer, m)) :
    Frames (scopes.take (outer.length + 1)) (savepoints.take (outer.length + 1))
      { l with marks := outer ++ [{ m with rolledBack := true }] } := by
  obtain ⟨begun, beyond, begins, split, _⟩ := (h.cut found).frames
  obtain ⟨inner, marks, _, _⟩ := Ledger.find_eq_some found
  have gone : intact (outer ++ [{ m with rolledBack := true }]) = intact outer :=
    intact_append_rolledBack outer rfl
  refine ⟨?_, begun, beyond, begins, ?_, ?_⟩
  · change savepoints.take (outer.length + 1) =
      (outer ++ [{ m with rolledBack := true }]).map Mark.name
    rw [h.names, marks]
    simp [List.take_append]
  · change scopes.take (outer.length + 1) = begun.state.snapshot ::
      ((intact (outer ++ [{ m with rolledBack := true }])).map Mark.taken ++ beyond)
    rw [gone]
    exact split
  · intro all
    have fresh := rolledBack_of_intact all { m with rolledBack := true } (by simp)
    cases fresh

end Frames

/-- Outside a transaction there are no frames; inside one they match the ledger. -/
structure Framed (status : TxStatus) (s : SessionState Value Stmt Port)
    (l : Ledger Value Stmt Port) : Prop where
  idle : status = .I → s.scopes = [] ∧ s.savepoints = []
  opened : status ≠ .I → Frames s.scopes s.savepoints l

namespace Framed

variable {status status' : TxStatus} {s s' : SessionState Value Stmt Port}
  {l : Ledger Value Stmt Port}

theorem fresh : Framed .I (SessionState.initial : SessionState Value Stmt Port) l :=
  ⟨fun _ => ⟨rfl, rfl⟩, fun opened => False.elim (opened rfl)⟩

/-- What keeps the frames and the names, and neither opens nor closes the transaction. -/
theorem transfer (h : Framed status s l) (scopes : s'.scopes = s.scopes)
    (savepoints : s'.savepoints = s.savepoints) (same : status' = .I ↔ status = .I) :
    Framed status' s' l := by
  refine ⟨fun idle => ?_, fun opened => ?_⟩
  · rw [scopes, savepoints]
    exact h.idle (same.mp idle)
  · rw [scopes, savepoints]
    exact h.opened (fun idle => opened (same.mpr idle))

theorem of_idle (scopes : s.scopes = []) (savepoints : s.savepoints = []) : Framed .I s l :=
  ⟨fun _ => ⟨scopes, savepoints⟩, fun opened => False.elim (opened rfl)⟩

theorem of_frames (opened : status ≠ .I) (h : Frames s.scopes s.savepoints l) :
    Framed status s l :=
  ⟨fun idle => False.elim (opened idle), fun _ => h⟩

variable [DecidableEq Value] {cat : Catalogue Value} {w : World Value Stmt Port}

theorem transaction (h : Framed w.txStatus w.state l) {tag : TransactionTag}
    (allowed : tag = .begin → w.txStatus ≠ .E) :
    Framed (World.transactionStatement cat w tag).txStatus
      (World.transactionStatement cat w tag).state (l.record w (.transaction tag) none) := by
  by_cases begins : tag = .begin
  · subst begins
    cases status : w.txStatus with
    | I =>
      have none := h.idle status
      rw [World.transactionStatement_begin cat w status]
      refine of_frames (by simp) ?_
      simp only [World.state_withState, none.1, Ledger.record, status, if_true]
      exact Frames.begin w
    | T =>
      rw [World.transactionStatement_redundant cat w status]
      simp only [Ledger.record, status, reduceCtorEq, if_false]
      exact h.transfer rfl rfl (by simp [status])
    | E => exact False.elim (allowed rfl status)
  · by_cases status : w.txStatus = .I
    · rw [World.transactionStatement_idle cat w begins status]
      exact of_idle (h.idle status).1 rfl
    · rw [World.transactionStatement_end cat w begins status, World.txStatus_endTransaction]
      cases tag with
      | begin => exact False.elim (begins rfl)
      | commit =>
        refine of_idle ?_ ?_
        · simp only [decide_true, World.state_commit]
          rfl
        · simp only [decide_true, World.state_commit]
          rfl
      | rollback =>
        refine of_idle ?_ ?_
        · simp [World.state_rollback]
        · simp [World.state_rollback]

/-- What each move does to the frames, it does to the ledger. -/
theorem move {st : Statement} {failed : Option Failure} {w' : World Value Stmt Port}
    (h : Framed w.txStatus w.state l) (move : Move cat w st failed w') :
    Framed w'.txStatus w'.state (l.record w st failed) := by
  cases move with
  | stopped quiet =>
    rw [World.state_fail]
    exact h.transfer quiet.scopes quiet.savepoints
      ((World.txStatus_fail_eq_I _).trans (by rw [quiet.txStatus]))
  | quiet frames quiet =>
    rw [Ledger.record_of_not_editsFrames l w frames]
    exact h.transfer quiet.scopes quiet.savepoints (by rw [quiet.txStatus])
  | subscribed frames listening =>
    rw [Ledger.record_of_not_editsFrames l w frames]
    exact h.transfer (by simp) (by simp) (by simp)
  | discarded idle quiet =>
    have status := quiet.txStatus.trans idle
    rw [World.txStatus_syncListeners, World.txStatus_withState, status]
    exact of_idle rfl rfl
  | transaction allowed => exact h.transaction allowed
  | savepoint opened => exact of_frames opened ((h.opened opened).savepoint _ w.state.snapshot)
  | @release name index opened found =>
    have frames := h.opened opened
    rw [frames.names, Ledger.innermost_names] at found
    obtain ⟨p, hp, rfl⟩ := Option.map_eq_some_iff.mp found
    refine of_frames opened ?_
    simp only [Ledger.record, hp]
    exact frames.cut hp
  | @rollbackTo name index opened found =>
    have frames := h.opened opened
    rw [frames.names, Ledger.innermost_names] at found
    obtain ⟨p, hp, rfl⟩ := Option.map_eq_some_iff.mp found
    refine of_frames (by simp [World.txStatus_rollbackTo]) ?_
    rw [World.state_rollbackTo, SessionState.scopes_restoreScope,
      SessionState.savepoints_restoreScope]
    simp only [Ledger.record, hp]
    exact frames.rollbackTo hp

end Framed

/-- The frames and the ledger agree on every connection of every run. -/
theorem framed_of_visits [DecidableEq Value] {cat : Catalogue Value}
    {parameterStatus : Dict String String} {port : Nat} {events : List Event}
    {sys : System Value Stmt Port}
    (visited : Trace.Visits (System.step cat) (System.start parameterStatus port) events sys)
    {pid : Pid} {c : Client Value Stmt Port} (live : sys.clients pid = some c) :
    Framed c.connection.txStatus c.connection.state c.ledger :=
  System.clients_invariant
    (fun c : Client Value Stmt Port => Framed c.connection.txStatus c.connection.state c.ledger)
    (fun _ _ _ => Framed.fresh)
    (fun c server _ _ _ h move => Framed.move (w := c.world server) h move) visited live

section Results

variable [DecidableEq Value]

/-- A ROLLBACK TO that succeeded, and what it found on the ledger. -/
theorem rollbackTo_found {cat : Catalogue Value} {w w' : World Value Stmt Port}
    {l : Ledger Value Stmt Port} {name : String} {answers : List Answer}
    (framed : Framed w.txStatus w.state l)
    (done : World.execute cat w ⟨.savepoint .rollbackTo name, answers⟩ = (w', none)) :
    ∃ outer mark, w.txStatus ≠ .I ∧ Ledger.find name l.marks = some (outer, mark) ∧
      w' = World.rollbackTo cat w outer.length := by
  have move := execute_move cat w ⟨.savepoint .rollbackTo name, answers⟩
  rw [done] at move
  cases move with
  | quiet frames _ => cases frames
  | subscribed frames _ => cases frames
  | @rollbackTo name index opened found =>
    rw [(framed.opened opened).names, Ledger.innermost_names] at found
    obtain ⟨p, hp, rfl⟩ := Option.map_eq_some_iff.mp found
    exact ⟨p.1, p.2, opened, hp, rfl⟩

/-- In every run: a ROLLBACK TO puts back what there was when the savepoint was taken,
where neither it nor a savepoint outside it has been rolled back to since; with no
transaction open there are no frames and no names, and in an open one there is a
frame for every name and one more, where no live savepoint has been rolled back to. -/
theorem rollbackTo_restores (cat : Catalogue Value) (parameterStatus : Dict String String)
    (port : Nat) (events : List Event) :
    (∀ (u v : System Value Stmt Port) pid name answers c w,
      Trace.Takes (System.step cat) (System.start parameterStatus port) events u
        (.request pid ⟨.savepoint .rollbackTo name, answers⟩) v →
      u.clients pid = some c →
      World.execute cat (c.world u.server) ⟨.savepoint .rollbackTo name, answers⟩ = (w, none) →
      ∃ outer mark c', Ledger.find name c.ledger.marks = some (outer, mark) ∧
        v.clients pid = some c' ∧
        ((∀ m ∈ outer, m.rolledBack = false) → mark.rolledBack = false →
          c'.connection.state.snapshot = mark.taken)) ∧
    (∀ (t : System Value Stmt Port) pid c,
      Trace.Visits (System.step cat) (System.start parameterStatus port) events t →
      t.clients pid = some c →
      (c.connection.txStatus = .I →
        c.connection.state.scopes = [] ∧ c.connection.state.savepoints = []) ∧
      (c.connection.txStatus ≠ .I → (∀ m ∈ c.ledger.marks, m.rolledBack = false) →
        c.connection.state.scopes.length = c.connection.state.savepoints.length + 1)) := by
  constructor
  · intro u v pid name answers c w taken live done
    have framed := framed_of_visits taken.before live
    obtain ⟨d, failed, w', hd, executed, _, rfl⟩ := System.step_request taken.possible
    obtain rfl : c = d := Option.some.inj (live.symm.trans hd)
    obtain ⟨rfl, rfl⟩ := Prod.mk.inj (done.symm.trans executed)
    obtain ⟨outer, mark, opened, found, rfl⟩ :=
      rollbackTo_found (w := c.world u.server) framed done
    refine ⟨outer, mark, _, found, System.clients_put_self _ _ _ _, ?_⟩
    intro outside kept
    have frame := (framed.opened opened).frame_of_intact found kept outside
    change (World.rollbackTo cat (c.world u.server) outer.length).state.snapshot = mark.taken
    rw [World.state_rollbackTo, SessionState.snapshot_restoreScope]
    exact (congrArg (Option.getD · _) frame).trans (Option.getD_some)
  · intro t pid c visited live
    have framed := framed_of_visits visited live
    exact ⟨framed.idle, fun opened fresh => (framed.opened opened).length_eq fresh⟩

end Results

/-- A savepoint gone back to once, and a setting written after. -/
def rolledBackOnce : List Event :=
  [.connect 1 "app" ∅, .request 1 ⟨.transaction .begin, []⟩,
    .request 1 ⟨.savepoint .savepoint "a", []⟩, .request 1 ⟨.savepoint .rollbackTo "a", []⟩,
    .request 1 ⟨.assignment [("search_path", some "app")] false, []⟩]

/-- The second ROLLBACK TO finds no frame, and the write stays. -/
theorem second_rollbackTo_restores_nothing :
    ∃ (u v : System String Unit Unit) (c c' : Client String Unit Unit)
      (w : World String Unit Unit) (outer : List (Mark String)) (mark : Mark String),
      Trace.Takes (System.step plainCatalogue) (System.start ∅ 5432)
        (rolledBackOnce ++ [.request 1 ⟨.savepoint .rollbackTo "a", []⟩])
        u (.request 1 ⟨.savepoint .rollbackTo "a", []⟩) v ∧
      u.clients 1 = some c ∧
      World.execute plainCatalogue (c.world u.server) ⟨.savepoint .rollbackTo "a", []⟩ =
        (w, none) ∧
      Ledger.find "a" c.ledger.marks = some (outer, mark) ∧
      v.clients 1 = some c' ∧ c'.connection.state.snapshot ≠ mark.taken := by
  refine ⟨_, _, _, _, _, _, _, ⟨rolledBackOnce, [], rfl, rfl, rfl⟩, rfl, rfl, rfl, rfl, ?_⟩
  decide

/-- The same write, undone by the first ROLLBACK TO. -/
def writtenUnderSavepoint : List Event :=
  [.connect 1 "app" ∅, .request 1 ⟨.transaction .begin, []⟩,
    .request 1 ⟨.savepoint .savepoint "a", []⟩,
    .request 1 ⟨.assignment [("search_path", some "app")] false, []⟩]

theorem first_rollbackTo_restores :
    ∃ (u v : System String Unit Unit) (c c' : Client String Unit Unit) (mark : Mark String),
      Trace.Takes (System.step plainCatalogue) (System.start ∅ 5432)
        (writtenUnderSavepoint ++ [.request 1 ⟨.savepoint .rollbackTo "a", []⟩])
        u (.request 1 ⟨.savepoint .rollbackTo "a", []⟩) v ∧
      u.clients 1 = some c ∧ v.clients 1 = some c' ∧
      c'.connection.state.snapshot = mark.taken ∧ c.connection.state.snapshot ≠ mark.taken := by
  have taken : Trace.Takes (System.step plainCatalogue) (System.start ∅ 5432)
      (writtenUnderSavepoint ++ [.request 1 ⟨.savepoint .rollbackTo "a", []⟩])
      (_ : System String Unit Unit) (.request 1 ⟨.savepoint .rollbackTo "a", []⟩) _ :=
    ⟨writtenUnderSavepoint, [], rfl, rfl, rfl⟩
  obtain ⟨outer, mark, c', found, live, restored⟩ :=
    (rollbackTo_restores plainCatalogue ∅ 5432 _).1 _ _ 1 "a" [] _ _ taken rfl rfl
  have listed : (([], ⟨"a", _, false⟩) : List (Mark String) × Mark String) = (outer, mark) :=
    Option.some.inj found
  obtain ⟨rfl, rfl⟩ := Prod.mk.inj listed
  refine ⟨_, _, _, c', _, taken, rfl, live, restored (fun m hm => ?_) rfl, ?_⟩
  · cases hm
  · decide

end PgMimic

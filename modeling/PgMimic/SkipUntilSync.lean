import PgMimic.CommandLoop

/-!
# The rest of a failed batch

A message of the extended protocol that fails takes the rest of its batch with it: up
to the Sync nothing more is executed or answered. The loop means to keep this with
`_ignore_until_sync`. Here its rounds are recorded as they end, and whether the batch
has failed is read off what they were answered with, not off the flag. A connection
that closes, or whose framing breaks, ends the run.
-/

namespace PgMimic.CommandLoop

open PgMimic.Stream (Tag Message)

def Output.isAnswer : Output → Bool
  | .command _ | .error _ | .readyForQuery _ => true
  | .parameterStatus _ _ | .async _ => false

def Output.isReady : Output → Bool
  | .readyForQuery _ => true
  | _ => false

/-- The messages of the command path, in their order. -/
def answers (out : List Output) : List Output := out.filter Output.isAnswer

/-- The commands of the extended protocol. -/
def extended (tag : Tag) : Bool :=
  tag == Tag.PARSE || tag == Tag.BIND || tag == Tag.DESCRIBE || tag == Tag.EXECUTE ||
    tag == Tag.CLOSE

/-- The message whose turn it is. -/
def Loop.inHand (l : Loop) : Option Tag :=
  match l.phase with
  | .dispatching tag | .dispatched tag _ => some tag
  | .reading | .ended => none

/-- One turn of the loop: the message it read, and the loop before and after. -/
structure Round where
  tag : Tag
  cancelled : Bool
  before : Loop
  after : Loop

namespace Round

/-- What the turn wrote on the command path. -/
def wrote (r : Round) : List Output := answers (r.after.out.drop r.before.out.length)

def Errored (r : Round) : Prop := ∃ e, Output.error e ∈ r.wrote

/-- The message was handed to no handler and answered with nothing. -/
structure Skipped (r : Round) : Prop where
  undispatched : r.before.skips r.tag = true
  unanswered : r.wrote = []
  txStatus : r.after.txStatus = r.before.txStatus
  registeredChannels : r.after.registeredChannels = r.before.registeredChannels

end Round

/-- The turns that have ended, and the loop as it was when it read the last message. -/
structure Rounds where
  finished : List Round
  opened : Loop

namespace Rounds

def start (l : Loop) : Rounds := ⟨[], l⟩

def note (h : Rounds) (l : Loop) : Event → Rounds
  | .receive _ => { h with opened := l }
  | .resume =>
    match l.phase with
    | .dispatched tag cancelled =>
      { h with finished := h.finished ++ [⟨tag, cancelled, h.opened, l.resume tag cancelled⟩] }
    | _ => h
  | _ => h

/-- What the turn under way has written on the command path. -/
def current (h : Rounds) (l : Loop) : List Output :=
  match l.inHand with
  | some _ => answers (l.out.drop h.opened.out.length)
  | none => []

end Rounds

/-- The loop with its turns beside it. -/
abbrev recordedStep : Loop × Rounds → Event → Option (Loop × Rounds) :=
  Trace.annotate Loop.step Rounds.note

/-- An extended command was answered with an error, and no Sync was read since. -/
def Failed (rounds : List Round) : Prop :=
  ∃ earlier r later, rounds = earlier ++ r :: later ∧ extended r.tag = true ∧ r.Errored ∧
    ∀ q ∈ later, q.tag ≠ Tag.SYNC

/-- What is owed to a client whose batch failed, and one ReadyForQuery where one is due. -/
structure Disciplined (l : Loop) (h : Rounds) : Prop where
  skipped : ∀ earlier r later, h.finished = earlier ++ r :: later → Failed earlier →
    r.tag ≠ Tag.SYNC → r.Skipped
  synced : ∀ earlier r later, h.finished = earlier ++ r :: later → Failed earlier →
    r.tag = Tag.SYNC → ∃ status, r.wrote = [.readyForQuery status]
  underway : Failed h.finished → h.current l = []
  ready : ∀ earlier r later, h.finished = earlier ++ r :: later →
    r.tag = Tag.SYNC ∨ (r.tag = Tag.QUERY ∧ ¬ Failed earlier) →
      r.wrote.countP Output.isReady = 1
  unready : ∀ earlier r later, h.finished = earlier ++ r :: later →
    ¬ (r.tag = Tag.SYNC ∨ (r.tag = Tag.QUERY ∧ ¬ Failed earlier)) →
      r.wrote.countP Output.isReady = 0

/-- While the batch is failed no Query is read and no message's task is cancelled. -/
def Unprovoked (rounds : List Round) : Prop :=
  ∀ earlier r later, rounds = earlier ++ r :: later → Failed earlier →
    r.tag ≠ Tag.QUERY ∧ r.cancelled = false

/-! ## One turn -/

@[simp] theorem answers_nil : answers [] = [] := rfl

theorem answers_append (out written : List Output) :
    answers (out ++ written) = answers out ++ answers written := List.filter_append ..

theorem answers_of_silent {written : List Output} (silent : ∀ x ∈ written, x.isAnswer = false) :
    answers written = [] := by
  apply List.filter_eq_nil_iff.mpr
  intro x member answer
  rw [silent x member] at answer
  cases answer

theorem extended_cases {tag : Tag} (h : extended tag = true) :
    tag ≠ Tag.QUERY ∧ tag ≠ Tag.SYNC := by
  simp only [extended, Bool.or_eq_true, beq_iff_eq] at h
  rcases h with (((rfl | rfl) | rfl) | rfl) | rfl <;> decide

/-- What the turn under way has done so far: `w` is what it wrote. -/
structure Underway (opened l : Loop) (tag : Tag) (w : List Output) : Prop where
  out : l.out = opened.out ++ w
  running : tag ≠ Tag.TERMINATE
  unready : ∀ x ∈ w, x.isReady = false
  flag : opened.ignoreUntilSync = true → l.ignoreUntilSync = true
  errored : ∀ e, Output.error e ∈ w → l.ignoreUntilSync = true
  idle : opened.skips tag = true ∨ tag = Tag.SYNC → answers w = [] ∧
    l.txStatus = opened.txStatus ∧ l.registeredChannels = opened.registeredChannels

namespace Underway

variable {opened l l' : Loop} {tag : Tag} {w : List Output}

/-- A step that is not the command's: nothing of the command path is written. -/
theorem silent (h : Underway opened l tag w) {written : List Output}
    (out : l'.out = l.out ++ written)
    (unanswered : ∀ x ∈ written, x.isAnswer = false) (unready : ∀ x ∈ written, x.isReady = false)
    (flag : l'.ignoreUntilSync = l.ignoreUntilSync) (txStatus : l'.txStatus = l.txStatus)
    (channels : l'.registeredChannels = l.registeredChannels) :
    Underway opened l' tag (w ++ written) where
  out := by rw [out, h.out, List.append_assoc]
  running := h.running
  unready := by
    intro x member
    rcases List.mem_append.mp member with old | new
    · exact h.unready x old
    · exact unready x new
  flag := fun set => flag ▸ h.flag set
  errored := by
    intro e member
    rw [flag]
    rcases List.mem_append.mp member with old | new
    · exact h.errored e old
    · cases unanswered _ new
  idle := by
    intro quiet
    obtain ⟨nothing, tx, heard⟩ := h.idle quiet
    refine ⟨?_, txStatus.trans tx, channels.trans heard⟩
    rw [answers_append, nothing, answers_of_silent unanswered]
    rfl

theorem unwritten (h : Underway opened l tag w) (out : l'.out = l.out)
    (flag : l'.ignoreUntilSync = l.ignoreUntilSync) (txStatus : l'.txStatus = l.txStatus)
    (channels : l'.registeredChannels = l.registeredChannels) : Underway opened l' tag w := by
  have kept : Underway opened l' tag (w ++ []) := h.silent (by rw [out, List.append_nil])
    (by simp) (by simp) flag txStatus channels
  rwa [List.append_nil] at kept

/-- A step of the command itself, which is then neither skipped nor a Sync. -/
theorem command (h : Underway opened l tag w) (busy : ¬ (opened.skips tag = true ∨ tag = Tag.SYNC))
    {written : List Output} (out : l'.out = l.out ++ written)
    (unready : ∀ x ∈ written, x.isReady = false)
    (flag : l.ignoreUntilSync = true → l'.ignoreUntilSync = true)
    (errored : ∀ e, Output.error e ∈ written → l'.ignoreUntilSync = true) :
    Underway opened l' tag (w ++ written) where
  out := by rw [out, h.out, List.append_assoc]
  running := h.running
  unready := by
    intro x member
    rcases List.mem_append.mp member with old | new
    · exact h.unready x old
    · exact unready x new
  flag := fun set => flag (h.flag set)
  errored := by
    intro e member
    rcases List.mem_append.mp member with old | new
    · exact flag (h.errored e old)
    · exact errored e new
  idle := fun quiet => False.elim (busy quiet)

end Underway

namespace Loop

/-- What the end of a turn adds to the command path. -/
theorem resume_out (l : Loop) (tag : Tag) (cancelled : Bool) :
    ∃ status written, (l.resume tag cancelled).out = l.out ++ written ∧
      answers written = (if cancelled then [Output.error queryCanceled] else []) ++
        if tag = Tag.QUERY ∨ tag = Tag.SYNC then [.readyForQuery status] else [] := by
  have reports (d : Dict String String) :
      answers (d.entries.map fun p => Output.parameterStatus p.1 p.2) = [] := by
    apply answers_of_silent
    intro x member
    obtain ⟨p, _, rfl⟩ := List.mem_map.mp member
    rfl
  have queued (ms : List Async) : answers (ms.map Output.async) = [] := by
    apply answers_of_silent
    intro x member
    obtain ⟨m, _, rfl⟩ := List.mem_map.mp member
    rfl
  have closed (l : Loop) : ∃ written, l.readyForQuery.out = l.out ++ written ∧
      answers written = [.readyForQuery l.txStatus] := by
    refine ⟨l.pendingParameterStatus.entries.map (fun p => .parameterStatus p.1 p.2) ++
      (l.pendingAsync.map .async ++ [.readyForQuery l.txStatus]), ?_, ?_⟩
    · simp [readyForQuery, flushParameterStatus, flushAsync, write]
    · rw [answers_append, answers_append, reports, queued]
      rfl
  cases cancelled with
  | false =>
    by_cases closes : tag = Tag.QUERY ∨ tag = Tag.SYNC
    · obtain ⟨written, out, answered⟩ := closed l
      refine ⟨l.txStatus, written, ?_, ?_⟩
      · simpa only [resume, Bool.false_eq_true, if_false, if_pos closes] using out
      · simpa only [Bool.false_eq_true, if_false, if_pos closes, List.nil_append] using answered
    · refine ⟨.I, [], ?_, ?_⟩
      · simp only [resume, Bool.false_eq_true, if_false, if_neg closes, List.append_nil]
      · simp only [Bool.false_eq_true, if_false, if_neg closes, answers_nil, List.append_nil]
  | true =>
    have failed : (l.fail queryCanceled).out = l.out ++ [.error queryCanceled] := rfl
    by_cases closes : tag = Tag.QUERY ∨ tag = Tag.SYNC
    · obtain ⟨written, out, answered⟩ := closed (l.fail queryCanceled)
      refine ⟨(l.fail queryCanceled).txStatus, .error queryCanceled :: written, ?_, ?_⟩
      · simp only [resume, if_true, if_pos closes]
        rw [out, failed, List.append_assoc, List.singleton_append]
      · rw [if_pos closes, ← answered]
        rfl
    · refine ⟨.I, [.error queryCanceled], ?_, ?_⟩
      · simp only [resume, if_true, if_neg closes]
        exact failed
      · rw [if_neg closes]
        rfl

theorem resume_flag (l : Loop) {tag : Tag} (cancelled : Bool)
    (other : ¬ (tag = Tag.QUERY ∨ tag = Tag.SYNC)) :
    (l.resume tag cancelled).ignoreUntilSync = (l.ignoreUntilSync || cancelled) := by
  cases cancelled with
  | false => simp only [resume, Bool.false_eq_true, if_false, if_neg other, Bool.or_false]
  | true =>
    simp only [resume, if_true, if_neg other, Bool.or_true]
    rfl

theorem resume_state (l : Loop) (tag : Tag) :
    (l.resume tag false).txStatus = l.txStatus ∧
      (l.resume tag false).registeredChannels = l.registeredChannels := by
  by_cases closes : tag = Tag.QUERY ∨ tag = Tag.SYNC
  · simp only [resume, Bool.false_eq_true, if_false, if_pos closes]
    exact ⟨rfl, rfl⟩
  · simp only [resume, Bool.false_eq_true, if_false, if_neg closes, and_self]

end Loop

/-- What holds of every turn that has ended, whatever came before it. -/
structure Round.Kept (r : Round) : Prop where
  running : r.tag ≠ Tag.TERMINATE
  ready : r.wrote.countP Output.isReady = if r.tag = Tag.QUERY ∨ r.tag = Tag.SYNC then 1 else 0
  errored : extended r.tag = true → r.Errored → r.after.ignoreUntilSync = true
  cancelled : r.cancelled = true → r.Errored
  flag : ¬ (r.tag = Tag.QUERY ∨ r.tag = Tag.SYNC) → r.before.ignoreUntilSync = true →
    r.after.ignoreUntilSync = true
  idle : r.before.skips r.tag = true ∨ r.tag = Tag.SYNC → r.cancelled = false →
    (∃ status, r.wrote =
      if r.tag = Tag.QUERY ∨ r.tag = Tag.SYNC then [.readyForQuery status] else []) ∧
      r.after.txStatus = r.before.txStatus ∧
        r.after.registeredChannels = r.before.registeredChannels

theorem Underway.current {opened l : Loop} {tag : Tag} {w : List Output}
    (h : Underway opened l tag w) : answers (l.out.drop opened.out.length) = answers w := by
  rw [h.out, List.drop_left]

theorem Underway.wrote {opened l : Loop} {tag : Tag} {w : List Output}
    (h : Underway opened l tag w) (cancelled : Bool) :
    ∃ status, (⟨tag, cancelled, opened, l.resume tag cancelled⟩ : Round).wrote =
      answers w ++ ((if cancelled then [Output.error queryCanceled] else []) ++
        if tag = Tag.QUERY ∨ tag = Tag.SYNC then [.readyForQuery status] else []) := by
  obtain ⟨status, written, out, answered⟩ := l.resume_out tag cancelled
  refine ⟨status, ?_⟩
  simp only [Round.wrote]
  rw [out, h.out, List.append_assoc, List.drop_left, answers_append, answered]

theorem Underway.kept {opened l : Loop} {tag : Tag} {w : List Output}
    (h : Underway opened l tag w) (cancelled : Bool) :
    (⟨tag, cancelled, opened, l.resume tag cancelled⟩ : Round).Kept := by
  obtain ⟨status, wrote⟩ := h.wrote cancelled
  have unready : (answers w).countP Output.isReady = 0 := by
    apply List.countP_eq_zero.mpr
    intro x member ready
    rw [h.unready x (List.mem_of_mem_filter member)] at ready
    cases ready
  constructor
  case running => exact h.running
  case ready =>
    rw [wrote, List.countP_append, unready]
    cases cancelled <;> by_cases closes : tag = Tag.QUERY ∨ tag = Tag.SYNC <;>
      simp [closes, Output.isReady]
  case errored =>
    intro is_extended ⟨e, member⟩
    have other : ¬ (tag = Tag.QUERY ∨ tag = Tag.SYNC) := by
      have apart := extended_cases is_extended
      exact fun closes => closes.elim apart.1 apart.2
    change (l.resume tag cancelled).ignoreUntilSync = true
    rw [l.resume_flag cancelled other]
    rw [wrote, if_neg other, List.append_nil, List.mem_append] at member
    rcases member with before | last
    · rw [h.errored e (List.mem_of_mem_filter before), Bool.true_or]
    · cases cancelled with
      | false => cases last
      | true => exact Bool.or_true _
  case cancelled =>
    intro set
    change cancelled = true at set
    subst set
    refine ⟨queryCanceled, ?_⟩
    rw [wrote]
    simp
  case flag =>
    intro other set
    change (l.resume tag cancelled).ignoreUntilSync = true
    rw [l.resume_flag cancelled other, h.flag set, Bool.true_or]
  case idle =>
    intro quiet unset
    change cancelled = false at unset
    subst unset
    obtain ⟨nothing, tx, heard⟩ := h.idle quiet
    have state := l.resume_state tag
    refine ⟨⟨status, ?_⟩, state.1.trans tx, state.2.trans heard⟩
    rw [wrote, nothing]
    rfl

/-! ## The whole run -/

theorem failed_append_iff (rounds : List Round) (r : Round) :
    Failed (rounds ++ [r]) ↔ (extended r.tag = true ∧ r.Errored) ∨
      (Failed rounds ∧ r.tag ≠ Tag.SYNC) := by
  constructor
  · rintro ⟨earlier, q, later, split, is_extended, errored, unsynced⟩
    rcases append_eq_split split with ⟨between, hrounds, hlater⟩ | ⟨between, hearlier, hlast⟩
    · refine Or.inr ⟨⟨earlier, q, between, hrounds, is_extended, errored, ?_⟩, ?_⟩
      · intro p member
        exact unsynced p (hlater ▸ List.mem_append_left _ member)
      · exact unsynced r (hlater ▸ List.mem_append_right _ (List.mem_singleton_self r))
    · refine Or.inl ?_
      cases between with
      | nil =>
        obtain ⟨rfl, _⟩ := List.cons.inj hlast
        exact ⟨is_extended, errored⟩
      | cons p between =>
        have longer := congrArg List.length hlast
        simp only [List.length_cons, List.length_nil, List.length_append] at longer
        omega
  · rintro (⟨is_extended, errored⟩ |
      ⟨⟨earlier, q, later, rfl, is_extended, errored, unsynced⟩, other⟩)
    · exact ⟨rounds, r, [], rfl, is_extended, errored, by simp⟩
    · refine ⟨earlier, q, later ++ [r], by simp, is_extended, errored, ?_⟩
      intro p member
      rcases List.mem_append.mp member with old | new
      · exact unsynced p old
      · rw [List.mem_singleton.mp new]
        exact other

theorem not_failed_nil : ¬ Failed [] := by
  rintro ⟨earlier, r, later, split, _⟩
  simp at split

theorem unprovoked_of_append {rounds later : List Round} (h : Unprovoked (rounds ++ later)) :
    Unprovoked rounds := by
  intro earlier r between split failed
  exact h earlier r (between ++ later) (by rw [split, List.append_assoc, List.cons_append]) failed

theorem unprovoked_of_forall {rounds : List Round}
    (plain : ∀ r ∈ rounds, r.tag ≠ Tag.QUERY ∧ r.cancelled = false) : Unprovoked rounds := by
  rintro earlier r later rfl _
  exact plain r (List.mem_append_right _ (List.mem_cons_self ..))

/-- The outputs of the command path are those of the turns, in order. -/
def Accounted (base : List Output) (l : Loop) (h : Rounds) : Prop :=
  answers l.out = base ++ h.finished.flatMap Round.wrote ++ h.current l

theorem accounted_iff {base : List Output} {l : Loop} {h : Rounds} {tag : Tag} {w : List Output}
    (inHand : l.inHand = some tag) (under : Underway h.opened l tag w) :
    Accounted base l h ↔ answers h.opened.out = base ++ h.finished.flatMap Round.wrote := by
  simp only [Accounted, Rounds.current, inHand]
  rw [under.current, under.out, answers_append]
  exact List.append_left_inj (answers w)

structure Recorded (base : List Output) (l : Loop) (h : Rounds) : Prop where
  underway : ∀ tag, l.inHand = some tag → ∃ w, Underway h.opened l tag w
  dispatching : ∀ tag, l.phase = .dispatching tag →
    l.ignoreUntilSync = h.opened.ignoreUntilSync
  accounted : Accounted base l h
  kept : ∀ r ∈ h.finished, r.Kept
  flag : Unprovoked h.finished → Failed h.finished → l.ignoreUntilSync = true ∧
    (l.inHand ≠ none → h.opened.ignoreUntilSync = true)
  positions : ∀ earlier r later, h.finished = earlier ++ r :: later → Unprovoked earlier →
    Failed earlier → r.before.ignoreUntilSync = true

namespace Recorded

variable {base : List Output} {l l' : Loop} {h : Rounds}

/-- A step that ends no turn and opens none. -/
theorem during (hr : Recorded base l h) {tag : Tag} {w : List Output}
    (inHand : l.inHand = some tag) (inHand' : l'.inHand = some tag)
    (under : Underway h.opened l' tag w)
    (flag : l.ignoreUntilSync = true → l'.ignoreUntilSync = true)
    (dispatching : ∀ tag, l'.phase = .dispatching tag →
      l'.ignoreUntilSync = h.opened.ignoreUntilSync) : Recorded base l' h where
  underway := by
    intro tag' inHand''
    obtain rfl : tag = tag' := Option.some.inj (inHand'.symm.trans inHand'')
    exact ⟨w, under⟩
  dispatching := dispatching
  accounted := by
    obtain ⟨w', under'⟩ := hr.underway tag inHand
    exact (accounted_iff inHand' under).mpr ((accounted_iff inHand under').mp hr.accounted)
  kept := hr.kept
  flag := by
    intro unprovoked failed
    obtain ⟨set, opened⟩ := hr.flag unprovoked failed
    exact ⟨flag set, fun _ => opened (by rw [inHand]; simp)⟩
  positions := hr.positions

/-- A step of the rest of the server, or of a task that swallowed its cancellation. -/
theorem silent (hr : Recorded base l h) {written : List Output} (out : l'.out = l.out ++ written)
    (unanswered : ∀ x ∈ written, x.isAnswer = false) (unready : ∀ x ∈ written, x.isReady = false)
    (phase : l'.phase = l.phase) (flag : l'.ignoreUntilSync = l.ignoreUntilSync)
    (txStatus : l'.txStatus = l.txStatus)
    (channels : l'.registeredChannels = l.registeredChannels) : Recorded base l' h := by
  have same : l'.inHand = l.inHand := by simp only [Loop.inHand, phase]
  have dispatching : ∀ tag, l'.phase = .dispatching tag →
      l'.ignoreUntilSync = h.opened.ignoreUntilSync := by
    intro tag hphase
    rw [flag]
    exact hr.dispatching tag (phase ▸ hphase)
  cases inHand : l.inHand with
  | some tag =>
    obtain ⟨w, under⟩ := hr.underway tag inHand
    exact hr.during inHand (same.trans inHand)
      (under.silent out unanswered unready flag txStatus channels) (fun set => flag ▸ set)
      dispatching
  | none =>
    constructor
    case underway =>
      intro tag inHand'
      rw [same, inHand] at inHand'
      cases inHand'
    case dispatching => exact dispatching
    case accounted =>
      have before := hr.accounted
      simp only [Accounted, Rounds.current, inHand] at before
      simp only [Accounted, Rounds.current, same, inHand]
      rw [out, answers_append, before, answers_of_silent unanswered, List.append_nil]
    case kept => exact hr.kept
    case flag =>
      intro unprovoked failed
      rw [flag, same]
      exact hr.flag unprovoked failed
    case positions => exact hr.positions

theorem deliverAsync (hr : Recorded base l h) (m : Async) : Recorded base (l.deliverAsync m) h := by
  rw [Loop.deliverAsync]
  split
  · exact hr.silent rfl (by simp [Output.isAnswer]) (by simp [Output.isReady]) rfl rfl rfl rfl
  · exact hr.silent (List.append_nil _).symm (by simp) (by simp) rfl rfl rfl rfl

theorem receive (hr : Recorded base l h) (reading : l.phase = .reading) (tag : Tag) :
    Recorded base (l.receive tag) ⟨h.finished, l⟩ := by
  have idle : l.inHand = none := by simp only [Loop.inHand, reading]
  have before : answers l.out = base ++ h.finished.flatMap Round.wrote := by
    have all := hr.accounted
    simp only [Accounted, Rounds.current, idle, List.append_nil] at all
    exact all
  by_cases ends : tag = Tag.TERMINATE
  · have terminated : (l.receive tag).inHand = none := by
      simp only [Loop.receive, if_pos ends, Loop.inHand]
    constructor
    case underway =>
      intro tag' inHand
      rw [terminated] at inHand
      cases inHand
    case dispatching =>
      intro tag' phase
      simp only [Loop.receive, if_pos ends] at phase
      cases phase
    case accounted =>
      simp only [Accounted, Rounds.current, terminated, List.append_nil]
      simpa only [Loop.receive, if_pos ends] using before
    case kept => exact hr.kept
    case flag =>
      intro unprovoked failed
      refine ⟨?_, fun busy => False.elim (busy terminated)⟩
      simpa only [Loop.receive, if_pos ends] using (hr.flag unprovoked failed).1
    case positions => exact hr.positions
  · have opened : (l.receive tag).inHand = some tag := by
      simp only [Loop.receive, if_neg ends, Loop.inHand]
    have under : Underway l (l.receive tag) tag [] := by
      simp only [Loop.receive, if_neg ends]
      exact ⟨(List.append_nil _).symm, ends, by simp, fun set => set, by simp,
        fun _ => ⟨rfl, rfl, rfl⟩⟩
    have flag : (l.receive tag).ignoreUntilSync = l.ignoreUntilSync := by
      simp only [Loop.receive, if_neg ends]
    constructor
    case underway =>
      intro tag' inHand
      obtain rfl : tag = tag' := Option.some.inj (opened.symm.trans inHand)
      exact ⟨[], under⟩
    case dispatching => exact fun tag' _ => flag
    case accounted => exact (accounted_iff (h := ⟨h.finished, l⟩) opened under).mpr before
    case kept => exact hr.kept
    case flag =>
      intro unprovoked failed
      have set := (hr.flag unprovoked failed).1
      exact ⟨flag.trans set, fun _ => set⟩
    case positions => exact hr.positions

/-- The end of a turn. -/
theorem resume (hr : Recorded base l h) {tag : Tag} {cancelled : Bool}
    (ended : l.phase = .dispatched tag cancelled) : Recorded base (l.resume tag cancelled)
      ⟨h.finished ++ [⟨tag, cancelled, h.opened, l.resume tag cancelled⟩], h.opened⟩ := by
  have inHand : l.inHand = some tag := by simp only [Loop.inHand, ended]
  obtain ⟨w, under⟩ := hr.underway tag inHand
  have made := under.kept cancelled
  have reading : (l.resume tag cancelled).phase = .reading := by
    simp only [Loop.resume]
    split <;> rfl
  have idle : (l.resume tag cancelled).inHand = none := by simp only [Loop.inHand, reading]
  constructor
  case underway =>
    intro tag' inHand'
    rw [idle] at inHand'
    cases inHand'
  case dispatching =>
    intro tag' dispatching
    rw [reading] at dispatching
    cases dispatching
  case accounted =>
    obtain ⟨status, written, out, _⟩ := l.resume_out tag cancelled
    have before := (accounted_iff inHand under).mp hr.accounted
    have grown : (l.resume tag cancelled).out = h.opened.out ++ (w ++ written) := by
      rw [out, under.out, List.append_assoc]
    simp only [Accounted, Rounds.current, idle, List.flatMap_append, List.flatMap_singleton,
      Round.wrote, List.append_nil]
    rw [grown, List.drop_left, answers_append, before, List.append_assoc]
  case kept =>
    intro r member
    rcases List.mem_append.mp member with old | new
    · exact hr.kept r old
    · rw [List.mem_singleton.mp new]
      exact made
  case flag =>
    intro unprovoked failed
    refine ⟨?_, fun busy => False.elim (busy idle)⟩
    rcases (failed_append_iff _ _).mp failed with ⟨is_extended, errored⟩ | ⟨before, other⟩
    · exact made.errored is_extended errored
    · have condition := unprovoked h.finished _ [] rfl before
      have opened := (hr.flag (unprovoked_of_append unprovoked) before).2 (by rw [inHand]; simp)
      exact made.flag (fun closes => closes.elim condition.1 other) opened
  case positions =>
    intro earlier r later split unprovoked failed
    rcases append_eq_split split with ⟨between, hfinished, _⟩ | ⟨between, hearlier, hlast⟩
    · exact hr.positions earlier r between hfinished unprovoked failed
    · cases between with
      | nil =>
        obtain ⟨rfl, _⟩ := List.cons.inj hlast
        rw [List.append_nil] at hearlier
        subst hearlier
        exact (hr.flag unprovoked failed).2 (by rw [inHand]; simp)
      | cons p between =>
        have longer := congrArg List.length hlast
        simp only [List.length_cons, List.length_nil, List.length_append] at longer
        omega

/-- A step only the command in hand can take. -/
theorem command (hr : Recorded base l h) {tag : Tag} (phase : l.phase = .dispatching tag)
    (busy : ¬ (l.skips tag = true ∨ tag = Tag.SYNC)) {written : List Output}
    (out : l'.out = l.out ++ written) (unready : ∀ x ∈ written, x.isReady = false)
    (inHand' : l'.inHand = some tag)
    (flag : l.ignoreUntilSync = true → l'.ignoreUntilSync = true)
    (errored : ∀ e, Output.error e ∈ written → l'.ignoreUntilSync = true)
    (dispatching : ∀ tag, l'.phase = .dispatching tag → l'.ignoreUntilSync = l.ignoreUntilSync) :
    Recorded base l' h := by
  have inHand : l.inHand = some tag := by simp only [Loop.inHand, phase]
  have same := hr.dispatching tag phase
  obtain ⟨w, under⟩ := hr.underway tag inHand
  have busy' : ¬ (h.opened.skips tag = true ∨ tag = Tag.SYNC) := by
    simp only [Loop.skips] at busy ⊢
    rwa [← same]
  exact hr.during inHand inHand' (under.command busy' out unready flag errored) flag
    (fun tag' still => (dispatching tag' still).trans same)

/-- The command's task ends without a message. -/
theorem returned (hr : Recorded base l h) {tag : Tag} (phase : l.phase = .dispatching tag)
    (cancelled : Bool) : Recorded base { l with phase := .dispatched tag cancelled } h := by
  have inHand : l.inHand = some tag := by simp only [Loop.inHand, phase]
  obtain ⟨w, under⟩ := hr.underway tag inHand
  exact hr.during inHand rfl (under.unwritten rfl rfl rfl rfl) (fun set => set)
    (fun tag' still => by cases still)

end Recorded

/-- What no Sync may do is done by no command that is skipped and by no Sync. -/
theorem command_cases {may : Tag → Bool} (sync : may Tag.SYNC = false) {tag : Tag} {skipped : Bool}
    (h : (may tag && !skipped) = true) : ¬ (skipped = true ∨ tag = Tag.SYNC) := by
  simp only [Bool.and_eq_true, Bool.not_eq_true'] at h
  rintro (rfl | rfl)
  · cases h.2
  · rw [sync] at h
    cases h.1

theorem handled_cases {tag : Tag} {skipped : Bool} (h : (Loop.handled tag && !skipped) = true) :
    ¬ (skipped = true ∨ tag = Tag.SYNC) := command_cases rfl h

theorem raising_cases {tag : Tag} {skipped : Bool} (h : (!Loop.passes tag && !skipped) = true) :
    ¬ (skipped = true ∨ tag = Tag.SYNC) :=
  @command_cases (fun tag => !Loop.passes tag) rfl tag skipped h

theorem Loop.step_recorded {base : List Output} {l l' : Loop} {h : Rounds} {e : Event}
    (hr : Recorded base l h) (stepped : l.step e = some l') : Recorded base l' (h.note l e) := by
  cases e with
  | receive tag =>
    simp only [step, Option.ite_none_right_eq_some, Option.some.injEq] at stepped
    obtain ⟨reading, rfl⟩ := stepped
    exact hr.receive reading tag
  | write m =>
    obtain ⟨tag, phase, may, rfl⟩ := of_dispatching stepped
    refine hr.command phase (handled_cases may) rfl ?_ ?_ (fun set => set) ?_ (fun _ _ => rfl)
    · simp [Output.isReady]
    · simp only [Loop.inHand, Loop.write, phase]
    · simp
  | setTxStatus status =>
    obtain ⟨tag, phase, may, rfl⟩ := of_dispatching stepped
    exact hr.command phase (handled_cases may) (List.append_nil _).symm (by simp)
      (by simp only [Loop.inHand, phase]) (fun set => set) (by simp) (fun _ _ => rfl)
  | syncListeners listening =>
    obtain ⟨tag, phase, may, rfl⟩ := of_dispatching stepped
    exact hr.command phase (handled_cases may) (List.append_nil _).symm (by simp)
      (by simp only [Loop.inHand, phase]) (fun set => set) (by simp) (fun _ _ => rfl)
  | raise e =>
    obtain ⟨tag, phase, may, rfl⟩ := of_dispatching stepped
    refine hr.command phase (raising_cases may) rfl ?_ rfl (fun _ => rfl) (fun _ _ => rfl) ?_
    · simp [Output.isReady]
    · intro tag' still
      cases still
  | finish =>
    obtain ⟨tag, phase, _, rfl⟩ := of_dispatching stepped
    exact hr.returned phase false
  | cancel swallowed =>
    simp only [step] at stepped
    split at stepped
    · rename_i tag phase
      cases swallowed with
      | true =>
        obtain rfl := Option.some.inj stepped
        exact hr
      | false =>
        obtain rfl := Option.some.inj stepped
        exact hr.returned phase true
    · obtain rfl := Option.some.inj stepped
      exact hr
  | resume =>
    simp only [step] at stepped
    split at stepped
    · rename_i tag cancelled phase
      obtain rfl := Option.some.inj stepped
      simp only [Rounds.note, phase]
      exact hr.resume phase
    · cases stepped
  | reportParameter name value =>
    obtain rfl := Option.some.inj stepped
    exact hr.silent (List.append_nil _).symm (by simp) (by simp) rfl rfl rfl rfl
  | notify channel payload pid =>
    obtain rfl := Option.some.inj stepped
    simp only [Rounds.note, Loop.notify]
    split
    · exact hr.deliverAsync _
    · exact hr
  | notice n =>
    obtain rfl := Option.some.inj stepped
    exact hr.deliverAsync _

/-- With the flag set, all but Sync and Terminate are skipped. -/
theorem skips_of_flag {l : Loop} {tag : Tag} (set : l.ignoreUntilSync = true)
    (other : tag ≠ Tag.SYNC) (running : tag ≠ Tag.TERMINATE) : l.skips tag = true := by
  simp [Loop.skips, set, other, running]

theorem Recorded.disciplined {base : List Output} {l : Loop} {h : Rounds}
    (hr : Recorded base l h) (unprovoked : Unprovoked h.finished) : Disciplined l h := by
  have split_kept {earlier later : List Round} {r : Round}
      (split : h.finished = earlier ++ r :: later) : r.Kept := hr.kept r (by simp [split])
  have earlier_unprovoked {earlier later : List Round} {r : Round}
      (split : h.finished = earlier ++ r :: later) : Unprovoked earlier :=
    unprovoked_of_append (split ▸ unprovoked)
  constructor
  case skipped =>
    intro earlier r later split failed other
    have set := hr.positions earlier r later split (earlier_unprovoked split) failed
    obtain ⟨unqueried, uncancelled⟩ := unprovoked earlier r later split failed
    have skips := skips_of_flag set other (split_kept split).running
    obtain ⟨⟨status, wrote⟩, tx, heard⟩ :=
      (split_kept split).idle (Or.inl skips) uncancelled
    rw [if_neg (fun closes => closes.elim unqueried other)] at wrote
    exact ⟨skips, wrote, tx, heard⟩
  case synced =>
    intro earlier r later split failed sync
    have uncancelled := (unprovoked earlier r later split failed).2
    obtain ⟨⟨status, wrote⟩, _⟩ := (split_kept split).idle (Or.inr sync) uncancelled
    rw [if_pos (Or.inr sync)] at wrote
    exact ⟨status, wrote⟩
  case underway =>
    intro failed
    cases inHand : l.inHand with
    | none => simp only [Rounds.current, inHand]
    | some tag =>
      obtain ⟨w, under⟩ := hr.underway tag inHand
      have set := (hr.flag unprovoked failed).2 (by rw [inHand]; simp)
      have quiet : h.opened.skips tag = true ∨ tag = Tag.SYNC := by
        by_cases sync : tag = Tag.SYNC
        · exact Or.inr sync
        · exact Or.inl (skips_of_flag set sync under.running)
      simp only [Rounds.current, inHand]
      rw [under.current]
      exact (under.idle quiet).1
  case ready =>
    intro earlier r later split due
    rw [(split_kept split).ready]
    apply if_pos
    rcases due with sync | ⟨query, _⟩
    · exact Or.inr sync
    · exact Or.inl query
  case unready =>
    intro earlier r later split undue
    rw [(split_kept split).ready]
    apply if_neg
    rintro (query | sync)
    · by_cases failed : Failed earlier
      · exact (unprovoked earlier r later split failed).1 query
      · exact undue (Or.inr ⟨query, failed⟩)
    · exact undue (Or.inl sync)

/-- No turn has ended when the loop is entered. -/
theorem Recorded.start (l : Loop) (reading : l.phase = .reading) :
    Recorded (answers l.out) l (Rounds.start l) := by
  have idle : l.inHand = none := by simp only [Loop.inHand, reading]
  constructor
  case underway =>
    intro tag inHand
    rw [idle] at inHand
    cases inHand
  case dispatching => exact fun tag _ => rfl
  case accounted =>
    simp [Accounted, Rounds.current, idle, Rounds.start]
  case kept => exact fun r member => by cases member
  case flag => exact fun _ failed => False.elim (not_failed_nil failed)
  case positions =>
    intro earlier r later split
    simp [Rounds.start] at split

/-- A failed batch is passed over up to its Sync, and every Sync and every Query outside
one is answered by one ReadyForQuery, in exactly the runs that bring no Query and no
CancelRequest in between. A skipped Query is answered by a ReadyForQuery of its own, which
ends the skipping too. -/
theorem skip_until_sync_iff {reports : Dict String String} {keyData : Message}
    {events : List Event} {l : Loop} {h : Rounds}
    (run : Trace.run recordedStep
      (Loop.start reports keyData, Rounds.start (Loop.start reports keyData)) events =
        some (l, h)) :
    (Accounted (answers (Loop.start reports keyData).out) l h ∧ Disciplined l h) ↔
      Unprovoked h.finished := by
  have recorded : Recorded (answers (Loop.start reports keyData).out) l h :=
    Trace.run_invariant (fun s : Loop × Rounds => Recorded _ s.1 s.2)
      (Recorded.start _ rfl)
      (fun u e v hr stepped => by
        obtain ⟨possible, noted⟩ := Trace.annotate_eq_some stepped
        rw [noted]
        exact Loop.step_recorded hr possible) run
  constructor
  · rintro ⟨_, disciplined⟩ earlier r later split failed
    have kept : r.Kept := recorded.kept r (by simp [split])
    have silent : r.tag ≠ Tag.SYNC → r.wrote = [] :=
      fun other => (disciplined.skipped earlier r later split failed other).unanswered
    constructor
    · intro query
      have ready := kept.ready
      rw [silent (by rw [query]; decide), if_pos (Or.inl query)] at ready
      cases ready
    · by_contra cancelled
      obtain ⟨e, member⟩ := kept.cancelled (by simpa using cancelled)
      by_cases sync : r.tag = Tag.SYNC
      · obtain ⟨status, wrote⟩ := disciplined.synced earlier r later split failed sync
        simp [wrote] at member
      · simp [silent sync] at member
  · intro unprovoked
    exact ⟨recorded.accounted, recorded.disciplined unprovoked⟩

def undefinedTable : PgError := ⟨"42P01", "relation \"nosuch\" does not exist", []⟩

/-- A Parse that fails, and behind it a Bind and the Sync. -/
def failedBatch : List Event :=
  [.receive Tag.PARSE, .raise undefinedTable, .resume, .receive Tag.BIND, .finish, .resume,
    .receive Tag.SYNC, .finish, .resume]

theorem failedBatch_disciplined : ∃ l h,
    Trace.run recordedStep (Loop.start ∅ ⟨0x4B, []⟩, Rounds.start (Loop.start ∅ ⟨0x4B, []⟩))
      failedBatch = some (l, h) ∧
      Accounted (answers (Loop.start ∅ ⟨0x4B, []⟩).out) l h ∧ Disciplined l h := by
  refine ⟨_, _, rfl, ?_⟩
  have run : Trace.run recordedStep
      (Loop.start ∅ ⟨0x4B, []⟩, Rounds.start (Loop.start ∅ ⟨0x4B, []⟩)) failedBatch = some _ := rfl
  exact (skip_until_sync_iff run).mpr (unprovoked_of_forall (by decide))

/-- The same Parse, and behind it a Query before the Sync. -/
def failedBatchWithQuery : List Event :=
  [.receive Tag.PARSE, .raise undefinedTable, .resume, .receive Tag.QUERY, .finish, .resume,
    .receive Tag.SYNC, .finish, .resume]

/-- The skipped Query is answered. -/
theorem failedBatchWithQuery_undisciplined : ∃ l h,
    Trace.run recordedStep (Loop.start ∅ ⟨0x4B, []⟩, Rounds.start (Loop.start ∅ ⟨0x4B, []⟩))
      failedBatchWithQuery = some (l, h) ∧ ¬ Disciplined l h := by
  refine ⟨_, _, rfl, ?_⟩
  intro disciplined
  have skipped := disciplined.skipped [_] _ [_] rfl
    ⟨[], _, [], rfl, by decide, ⟨undefinedTable, by decide⟩, by simp⟩ (by decide)
  exact absurd skipped.unanswered (by decide)

end PgMimic.CommandLoop

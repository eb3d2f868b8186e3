import PgMimic.Lib.Trace
import PgMimic.Server

/-!
# One session, one connection

Connections whose `session_factory` returned the same Session object. The claim
is a test of `session._connection` at the top of `run`; the assignment that
makes the next test fail comes after the authentication exchange and the startup
burst. Each event is what one connection does between two of its awaits.
-/

namespace PgMimic

namespace SessionClaim

/-- How far `run` has come. -/
inductive Phase where
  | absent
  | connected
  | authenticating
  | greeting
  | running
  | gone
  deriving DecidableEq

/-- Past `_claim_session` and not yet through the `finally` of `run`. -/
def Phase.pastClaim : Phase → Bool
  | .authenticating | .greeting | .running => true
  | _ => false

/-- Past the claim with `session._connection` still to be set. -/
def Phase.unbound : Phase → Bool
  | .authenticating | .greeting => true
  | _ => false

structure State where
  phase : Pid → Phase
  bound : Option Pid

/-- `leave` is every way out of `run` from an await: a refusal by the plugin, an
exception, a lost client, Terminate. -/
inductive Event where
  | connect (pid : Pid)
  | claim (pid : Pid)
  | authenticated (pid : Pid)
  | bind (pid : Pid)
  | dispatch (pid : Pid)
  | leave (pid : Pid)

def start : State := ⟨fun _ => .absent, none⟩

def State.become (s : State) (pid : Pid) (p : Phase) : State :=
  { s with phase := Function.update s.phase pid p }

/-- `_claim_session`. -/
def claimSession (s : State) (pid : Pid) : Bool := s.bound = none ∨ s.bound = some pid

/-- The `finally` of `run`, as far as the session goes. -/
def release (s : State) (pid : Pid) : State :=
  if s.bound = some pid then { s with bound := none } else s

def step (s : State) : Event → Option State
  | .connect pid => if s.phase pid = .absent then some (s.become pid .connected) else none
  | .claim pid =>
    if s.phase pid = .connected then
      if claimSession s pid then some (s.become pid .authenticating)
      else some ((release s pid).become pid .gone)
    else none
  | .authenticated pid =>
    if s.phase pid = .authenticating then some (s.become pid .greeting) else none
  | .bind pid =>
    if s.phase pid = .greeting then some { s.become pid .running with bound := some pid }
    else none
  | .dispatch pid => if s.phase pid = .running then some s else none
  | .leave pid =>
    if (s.phase pid).pastClaim then some ((release s pid).become pid .gone) else none

/-- No two connections past the claim. -/
def Exclusive (s : State) : Prop :=
  ∀ i j, (s.phase i).pastClaim = true → (s.phase j).pastClaim = true → i = j

/-- Nobody is between the claim and the assignment. -/
def Quiescent (s : State) : Prop := ∀ i, (s.phase i).unbound = false

theorem phase_become_self (s : State) (pid : Pid) (p : Phase) :
    (s.become pid p).phase pid = p := by
  simp only [State.become, Function.update_self]

theorem phase_become_of_ne (s : State) {pid i : Pid} (p : Phase) (h : i ≠ pid) :
    (s.become pid p).phase i = s.phase i := by
  simp only [State.become, Function.update_of_ne h]

@[simp] theorem bound_become (s : State) (pid : Pid) (p : Phase) :
    (s.become pid p).bound = s.bound := rfl

@[simp] theorem phase_release (s : State) (pid : Pid) : (release s pid).phase = s.phase := by
  simp only [release]
  split <;> rfl

theorem bound_release (s : State) (pid : Pid) :
    (release s pid).bound = if s.bound = some pid then none else s.bound := by
  by_cases h : s.bound = some pid
  · rw [release, if_pos h, if_pos h]
  · rw [release, if_neg h, if_neg h]

/-- What any run keeps: a session is bound to a connection that is running. -/
def BoundRuns (s : State) : Prop := ∀ i, s.bound = some i → s.phase i = .running

/-- What one more condition keeps: every running connection is the one bound. -/
structure Safe (s : State) : Prop where
  exclusive : Exclusive s
  running : ∀ i, s.phase i = .running → s.bound = some i

section Steps

variable {s t : State} {pid : Pid}

theorem boundRuns_become (h : BoundRuns s) {p : Phase} (unbound : s.bound ≠ some pid) :
    BoundRuns (s.become pid p) := by
  intro i bound
  have other : i ≠ pid := fun same => unbound (same ▸ bound)
  rw [phase_become_of_ne s p other]
  exact h i bound

/-- What each step of a connection finds and leaves. -/
inductive Stepped (s : State) : Event → State → Prop where
  | connect {pid : Pid} (absent : s.phase pid = .absent) :
      Stepped s (.connect pid) (s.become pid .connected)
  | claim {pid : Pid} (connected : s.phase pid = .connected)
      (granted : claimSession s pid = true) : Stepped s (.claim pid) (s.become pid .authenticating)
  | refused {pid : Pid} (held : claimSession s pid = false) :
      Stepped s (.claim pid) ((release s pid).become pid .gone)
  | authenticated {pid : Pid} (authenticating : s.phase pid = .authenticating) :
      Stepped s (.authenticated pid) (s.become pid .greeting)
  | bind {pid : Pid} (greeting : s.phase pid = .greeting) :
      Stepped s (.bind pid) { s.become pid .running with bound := some pid }
  | dispatch {pid : Pid} (running : s.phase pid = .running) : Stepped s (.dispatch pid) s
  | leave {pid : Pid} : Stepped s (.leave pid) ((release s pid).become pid .gone)

theorem stepped_of_step {e : Event} (h : step s e = some t) : Stepped s e t := by
  cases e with
  | claim pid =>
    simp only [step, Option.ite_none_right_eq_some] at h
    obtain ⟨connected, h⟩ := h
    cases granted : claimSession s pid with
    | true =>
      rw [granted] at h
      exact Option.some.inj h ▸ .claim connected granted
    | false =>
      rw [granted] at h
      exact Option.some.inj h ▸ .refused granted
  | connect pid =>
    simp only [step, Option.ite_none_right_eq_some, Option.some.injEq] at h
    exact h.2 ▸ .connect h.1
  | authenticated pid =>
    simp only [step, Option.ite_none_right_eq_some, Option.some.injEq] at h
    exact h.2 ▸ .authenticated h.1
  | bind pid =>
    simp only [step, Option.ite_none_right_eq_some, Option.some.injEq] at h
    exact h.2 ▸ .bind h.1
  | dispatch pid =>
    simp only [step, Option.ite_none_right_eq_some, Option.some.injEq] at h
    exact h.2 ▸ .dispatch h.1
  | leave pid =>
    simp only [step, Option.ite_none_right_eq_some, Option.some.injEq] at h
    exact h.2 ▸ .leave

theorem boundRuns_step {e : Event} (h : BoundRuns s) (stepped : step s e = some t) :
    BoundRuns t := by
  have not_bound : ∀ pid, s.phase pid ≠ .running → s.bound ≠ some pid :=
    fun pid idle bound => idle (h pid bound)
  have released : ∀ pid, BoundRuns ((release s pid).become pid .gone) := by
    intro pid i bound
    rw [bound_become, bound_release] at bound
    split at bound
    · cases bound
    · rename_i other
      have ne : i ≠ pid := fun same => other (same ▸ bound)
      rw [phase_become_of_ne _ _ ne, phase_release]
      exact h i bound
  cases stepped_of_step stepped with
  | connect absent => exact boundRuns_become h (not_bound _ (by simp [absent]))
  | claim connected granted => exact boundRuns_become h (not_bound _ (by simp [connected]))
  | refused held => exact released _
  | authenticated here => exact boundRuns_become h (not_bound _ (by simp [here]))
  | bind greeting =>
    intro i bound
    obtain rfl := Option.some.inj bound
    exact phase_become_self s _ .running
  | dispatch running => exact h
  | leave => exact released _

/-- Leaving the region past the claim, or not entering it. -/
theorem exclusive_become_outside (h : Exclusive s) {p : Phase} (outside : p.pastClaim = false) :
    Exclusive (s.become pid p) := by
  have past : ∀ k, ((s.become pid p).phase k).pastClaim = true →
      (s.phase k).pastClaim = true := by
    intro k hk
    by_cases same : k = pid
    · rw [same, phase_become_self, outside] at hk
      cases hk
    · rwa [phase_become_of_ne s p same] at hk
  exact fun i j hi hj => h i j (past i hi) (past j hj)

/-- Moving within it. -/
theorem exclusive_become_inside (h : Exclusive s) (p : Phase)
    (inside : (s.phase pid).pastClaim = true) : Exclusive (s.become pid p) := by
  have past : ∀ k, ((s.become pid p).phase k).pastClaim = true →
      (s.phase k).pastClaim = true := by
    intro k hk
    by_cases same : k = pid
    · exact same ▸ inside
    · rwa [phase_become_of_ne s p same] at hk
  exact fun i j hi hj => h i j (past i hi) (past j hj)

/-- Entering it while nobody else is there. -/
theorem exclusive_become_first (p : Phase) (nobody : ∀ k, (s.phase k).pastClaim = false) :
    Exclusive (s.become pid p) := by
  have only : ∀ k, ((s.become pid p).phase k).pastClaim = true → k = pid := by
    intro k hk
    by_contra other
    rw [phase_become_of_ne s p other, nobody k] at hk
    cases hk
  exact fun i j hi hj => (only i hi).trans (only j hj).symm

/-- A connection that is running after `pid` became anything else was running before. -/
theorem running_become (h : ∀ i, s.phase i = .running → s.bound = some i) {p : Phase}
    (idle : p ≠ .running) : ∀ i, (s.become pid p).phase i = .running → s.bound = some i := by
  intro i hi
  by_cases same : i = pid
  · rw [same, phase_become_self] at hi
    exact False.elim (idle hi)
  · rw [phase_become_of_ne s p same] at hi
    exact h i hi

theorem safe_leave (h : Safe s) (pid : Pid) : Safe ((release s pid).become pid .gone) where
  exclusive := by
    have same : Exclusive (release s pid) := by
      intro i j hi hj
      rw [phase_release] at hi hj
      exact h.exclusive i j hi hj
    exact exclusive_become_outside same rfl
  running := by
    intro i hi
    by_cases same : i = pid
    · rw [same, phase_become_self] at hi
      cases hi
    · rw [phase_become_of_ne _ _ same, phase_release] at hi
      have bound := h.running i hi
      rw [bound_become, bound_release, if_neg, bound]
      intro mine
      exact same (Option.some.inj (bound.symm.trans mine))

/-- One step, a claim that finds the session free being made while nobody is on the
way to binding it. -/
theorem safe_step {e : Event} (runs : BoundRuns s) (h : Safe s) (stepped : step s e = some t)
    (alone : ∀ pid, e = .claim pid → s.bound = none → Quiescent s) : Safe t := by
  cases stepped_of_step stepped with
  | connect absent =>
    exact ⟨exclusive_become_outside h.exclusive rfl, running_become h.running (by simp)⟩
  | @claim pid connected granted =>
    have free : s.bound = none := by
      rcases of_decide_eq_true granted with none | mine
      · exact none
      · exact Phase.noConfusion (connected.symm.trans (runs pid mine))
    have nobody : ∀ k, (s.phase k).pastClaim = false := by
      intro k
      have unbound := alone pid rfl free k
      cases phase : s.phase k with
      | running =>
        have bound := h.running k phase
        rw [free] at bound
        cases bound
      | authenticating => rw [phase] at unbound; cases unbound
      | greeting => rw [phase] at unbound; cases unbound
      | absent => rfl
      | connected => rfl
      | gone => rfl
    exact ⟨exclusive_become_first .authenticating nobody, running_become h.running (by simp)⟩
  | @refused pid held => exact safe_leave h pid
  | authenticated here =>
    exact ⟨exclusive_become_inside h.exclusive .greeting (by rw [here]; rfl),
      running_become h.running (by simp)⟩
  | @bind pid greeting =>
    refine ⟨exclusive_become_inside h.exclusive .running (by rw [greeting]; rfl), ?_⟩
    intro i hi
    change some pid = some i
    by_cases same : i = pid
    · rw [same]
    · have running : s.phase i = .running := (phase_become_of_ne s .running same) ▸ hi
      exact congrArg some (h.exclusive pid i (by rw [greeting]; rfl) (by rw [running]; rfl))
  | dispatch running => exact h
  | @leave pid => exact safe_leave h pid

end Steps

theorem boundRuns_of_visits {events : List Event} {s : State}
    (visited : Trace.Visits step start events s) : BoundRuns s :=
  Trace.visits_invariant BoundRuns (fun _ bound => by cases bound)
    (fun _ _ _ h stepped => boundRuns_step h stepped) visited

/-- A run never has two connections past the claim, and dispatches only for the one the
session is bound to, if and only if every claim in it that finds the session free is
made while no other connection is between its own claim and its binding. -/
theorem one_connection_iff (events : List Event) :
    ((∀ s, Trace.Visits step start events s → Exclusive s) ∧
      ∀ s pid t, Trace.Takes step start events s (.dispatch pid) t → s.bound = some pid) ↔
    (∀ s pid t, Trace.Takes step start events s (.claim pid) t → s.bound = none →
      Quiescent s) := by
  constructor
  · rintro ⟨exclusive, _⟩ s pid t taken free i
    by_contra unbound
    cases stepped_of_step taken.possible with
    | refused held =>
      have granted : claimSession s pid = true := by simp [claimSession, free]
      exact Bool.noConfusion (held.symm.trans granted)
    | claim connected granted =>
      have other : i ≠ pid := by
        rintro rfl
        rw [connected] at unbound
        exact unbound rfl
      have past : (s.phase i).pastClaim = true := by
        cases phase : s.phase i <;> simp_all [Phase.unbound, Phase.pastClaim]
      refine other (exclusive _ taken.after i pid ?_ ?_)
      · rw [phase_become_of_ne s _ other]
        exact past
      · rw [phase_become_self]
        rfl
  · intro alone
    have safe : ∀ s, Trace.Visits step start events s → Safe s := by
      intro s visited
      have begins : Safe start :=
        ⟨fun i j hi hj => Bool.noConfusion hi, fun i hi => Phase.noConfusion hi⟩
      refine Trace.visits_induction Safe begins ?_ visited
      intro u e v taken h
      refine safe_step (boundRuns_of_visits taken.before) h taken.possible ?_
      rintro pid rfl free
      exact alone u pid v taken free
    refine ⟨fun s visited => (safe s visited).exclusive, fun s pid t taken => ?_⟩
    cases stepped_of_step taken.possible with
    | dispatch running => exact (safe s taken.before).running pid running

/-- Two clients, the second connecting while the first is asked for its password. -/
def overlapping : List Event :=
  [.connect 1, .claim 1, .connect 2, .claim 2, .authenticated 1, .bind 1, .authenticated 2,
    .bind 2]

/-- Both get past the claim, and the first goes on as the second. -/
theorem overlapping_claims_both_pass :
    ∃ s t, Trace.Takes step start (overlapping ++ [.dispatch 1]) s (.dispatch 1) t ∧
      (s.phase 1).pastClaim = true ∧ (s.phase 2).pastClaim = true ∧ s.bound = some 2 :=
  ⟨_, _, ⟨overlapping, [], rfl, rfl, rfl⟩, rfl, rfl, rfl⟩

end SessionClaim

end PgMimic

import Mathlib.Data.List.Induction

/-!
# Finite runs of a partial step function

A machine is a function from a state and an event to the next state, `none`
where the event cannot happen. Nothing is assumed of either type. `Visits` and
`Takes` speak about the states and the steps of one run, so a claim about every
state a run reaches and a claim about every step it takes can be compared.
-/

namespace Trace

universe u v

variable {State : Type u} {Event : Type v} (step : State → Event → Option State)

/-- The state after all the events, if each of them was possible in its turn. -/
def run : State → List Event → Option State
  | s, [] => some s
  | s, e :: es => (step s e).bind fun t => run t es

/-- Some state along the run, the first and the last included. -/
def Visits (s : State) (es : List Event) (t : State) : Prop :=
  ∃ done left, es = done ++ left ∧ run step s done = some t

/-- Some step along the run. -/
def Takes (s : State) (es : List Event) (u : State) (e : Event) (v : State) : Prop :=
  ∃ done left, es = done ++ e :: left ∧ run step s done = some u ∧ step u e = some v

variable {step}

@[simp] theorem run_nil (s : State) : run step s [] = some s := rfl

theorem run_cons (s : State) (e : Event) (es : List Event) :
    run step s (e :: es) = (step s e).bind fun t => run step t es := rfl

theorem run_append (s : State) (es fs : List Event) :
    run step s (es ++ fs) = (run step s es).bind fun t => run step t fs := by
  induction es generalizing s with
  | nil => rfl
  | cons e es ih =>
    rw [List.cons_append, run_cons, run_cons]
    cases step s e with
    | none => rfl
    | some t => exact ih t

theorem run_snoc {s t u : State} {es : List Event} {e : Event}
    (before : run step s es = some t) (last : step t e = some u) :
    run step s (es ++ [e]) = some u := by
  rw [run_append, before, Option.bind_some, run_cons, last, Option.bind_some, run_nil]

theorem visits_end {s t : State} {es : List Event} (h : run step s es = some t) :
    Visits step s es t :=
  ⟨es, [], (List.append_nil es).symm, h⟩

theorem Takes.before {s u v : State} {es : List Event} {e : Event}
    (h : Takes step s es u e v) : Visits step s es u := by
  obtain ⟨done, left, heq, hrun, _⟩ := h
  exact ⟨done, e :: left, heq, hrun⟩

theorem Takes.after {s u v : State} {es : List Event} {e : Event}
    (h : Takes step s es u e v) : Visits step s es v := by
  obtain ⟨done, left, heq, hrun, hstep⟩ := h
  exact ⟨done ++ [e], left, by simp [heq], run_snoc hrun hstep⟩

theorem Takes.possible {s u v : State} {es : List Event} {e : Event}
    (h : Takes step s es u e v) : step u e = some v := by
  obtain ⟨_, _, _, _, hstep⟩ := h
  exact hstep

/-- What holds at the start and survives every step of the run holds throughout it.
The step is known to be one of this run, so a condition on its steps may be used. -/
theorem visits_induction {s : State} {es : List Event} (I : State → Prop) (start : I s)
    (kept : ∀ u e v, Takes step s es u e v → I u → I v) {t : State}
    (h : Visits step s es t) : I t := by
  obtain ⟨done, left, heq, hrun⟩ := h
  induction done using List.reverseRecOn generalizing left t with
  | nil =>
    rw [run_nil] at hrun
    exact Option.some.inj hrun ▸ start
  | append_singleton done e ih =>
    rw [run_append] at hrun
    cases hu : run step s done with
    | none => rw [hu] at hrun; cases hrun
    | some u =>
      have hstep : step u e = some t := by
        rw [hu, Option.bind_some, run_cons] at hrun
        cases hv : step u e with
        | none => rw [hv] at hrun; cases hrun
        | some v => rw [hv] at hrun; exact hrun
      have split : es = done ++ e :: left := by simpa using heq
      exact kept u e t ⟨done, left, split, hu, hstep⟩ (ih (e :: left) split hu)

/-- The unconditional form: every step of the machine preserves `I`. -/
theorem visits_invariant {s : State} {es : List Event} (I : State → Prop) (start : I s)
    (kept : ∀ u e v, I u → step u e = some v → I v) {t : State}
    (h : Visits step s es t) : I t :=
  visits_induction I start (fun u e v taken hu => kept u e v hu taken.possible) h

section Histories

universe w

variable {History : Type w} (step) (note : History → State → Event → History)

/-- The machine with a history beside its state. The steps are the machine's own: the
history is written to and never read. -/
def annotate : State × History → Event → Option (State × History)
  | (s, h), e => (step s e).map fun t => (t, note h s e)

variable {step} {note}

theorem annotate_eq_some {u v : State × History} {e : Event} (h : annotate step note u e = some v) :
    step u.1 e = some v.1 ∧ v.2 = note u.2 u.1 e := by
  obtain ⟨t, stepped, rfl⟩ := Option.map_eq_some_iff.mp h
  exact ⟨stepped, rfl⟩

/-- And a history is of nothing but a run of the machine. -/
theorem run_of_annotate {u v : State × History} {es : List Event}
    (h : run (annotate step note) u es = some v) : run step u.1 es = some v.1 := by
  induction es generalizing u with
  | nil =>
    rw [run_nil] at h
    rw [run_nil, Option.some.inj h]
  | cons e es ih =>
    obtain ⟨w, stepped, rest⟩ := Option.bind_eq_some_iff.mp h
    rw [run_cons, (annotate_eq_some stepped).1, Option.bind_some]
    exact ih rest

theorem Visits.of_annotate {u v : State × History} {es : List Event}
    (h : Visits (annotate step note) u es v) : Visits step u.1 es v.1 := by
  obtain ⟨done, left, split, ran⟩ := h
  exact ⟨done, left, split, run_of_annotate ran⟩

end Histories

theorem run_invariant {s t : State} {es : List Event} (I : State → Prop) (start : I s)
    (kept : ∀ u e v, I u → step u e = some v → I v) (h : run step s es = some t) : I t :=
  visits_invariant I start kept (visits_end h)

end Trace

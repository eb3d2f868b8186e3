import PgMimic.Lib.Trace

/-!
# Commands that write as they go

A command changes a state, writes entries of a log, and returns or raises; what it has written
before it raises stays written. Somebody reads the log: an automaton, of which a command must
not lead outside. `Triple` says what a command that starts well comes to, in the state and in
the reader, whether it returns or raises, and there is a rule for each way to put a command
together.
-/

/-- A state changed, a log written, and a value or what was raised. -/
def Command (σ ω ε α : Type) : Type := σ → σ × List ω × Except ε α

namespace Command

variable {σ ω ε κ α β : Type}

/-- What is done with the value of a command, if it has one. -/
def andThen (f : α → Command σ ω ε β) : σ × List ω × Except ε α → σ × List ω × Except ε β
  | (s, log, .error e) => (s, log, .error e)
  | (s, log, .ok a) => ((f a s).1, log ++ (f a s).2.1, (f a s).2.2)

instance : Monad (Command σ ω ε) where
  pure a := fun s => (s, [], .ok a)
  bind m f := fun s => andThen f (m s)

def write (entry : ω) : Command σ ω ε Unit := fun s => (s, [entry], .ok ())

def raise (e : ε) : Command σ ω ε α := fun s => (s, [], .error e)

def read : Command σ ω ε σ := fun s => (s, [], .ok s)

def change (f : σ → σ) : Command σ ω ε Unit := fun s => (f s, [], .ok ())

/-- A value, or what is raised for want of it. -/
def settle (r : Except ε α) : Command σ ω ε α := fun s => (s, [], r)

/-- `except`: what is raised is handed on, and the state and the log are kept. -/
def handle (m : Command σ ω ε α) (f : ε → Command σ ω ε α) : Command σ ω ε α := fun s =>
  match m s with
  | (s, log, .ok a) => (s, log, .ok a)
  | (s, log, .error e) => ((f e s).1, log ++ (f e s).2.1, (f e s).2.2)

/-- What has become of a command: the one it has returned, the other it has raised. -/
def Ends (R : α → σ → κ → Prop) (E : ε → σ → κ → Prop) : Except ε α → σ → κ → Prop
  | .ok a => R a
  | .error e => E e

/-- From a state and a reader in `P` the reader follows all that is written, and comes with the
state to `R` or to `E`. -/
def Triple (next : κ → ω → Option κ) (P : σ → κ → Prop) (m : Command σ ω ε α)
    (R : α → σ → κ → Prop) (E : ε → σ → κ → Prop) : Prop :=
  ∀ s k, P s k → ∃ k', Trace.run next k (m s).2.1 = some k' ∧ Ends R E (m s).2.2 (m s).1 k'

namespace Triple

variable {next : κ → ω → Option κ} {P Q : σ → κ → Prop} {m : Command σ ω ε α}
  {R : α → σ → κ → Prop} {E : ε → σ → κ → Prop} {S : β → σ → κ → Prop}

theorem run_append_of {k k' k'' : κ} {log later : List ω} (first : Trace.run next k log = some k')
    (second : Trace.run next k' later = some k'') :
    Trace.run next k (log ++ later) = some k'' := by
  rw [Trace.run_append, first, Option.bind_some, second]

theorem of_imp (h : Triple next Q m R E) (before : ∀ s k, P s k → Q s k) :
    Triple next P m R E :=
  fun s k start => h s k (before s k start)

theorem imp {R' : α → σ → κ → Prop} {E' : ε → σ → κ → Prop} (h : Triple next P m R E)
    (returned : ∀ a s k, R a s k → R' a s k) (raised : ∀ e s k, E e s k → E' e s k) :
    Triple next P m R' E' := by
  intro s k start
  obtain ⟨k', follows, ends⟩ := h s k start
  refine ⟨k', follows, ?_⟩
  cases result : (m s).2.2 with
  | ok a =>
    rw [result] at ends
    exact returned a _ _ ends
  | error e =>
    rw [result] at ends
    exact raised e _ _ ends

/-- A fact the start gives that is not about the state. -/
theorem given {p : Prop} (h : p → Triple next P m R E) :
    Triple next (fun s k => p ∧ P s k) m R E :=
  fun s k start => h start.1 s k start.2

theorem any {ι : Type} {Q : ι → σ → κ → Prop} (h : ∀ i, Triple next (Q i) m R E) :
    Triple next (fun s k => ∃ i, Q i s k) m R E :=
  fun s k ⟨i, start⟩ => h i s k start

theorem pure {a : α} (h : ∀ s k, P s k → R a s k) :
    Triple next P (Pure.pure a : Command σ ω ε α) R E :=
  fun s k start => ⟨k, rfl, h s k start⟩

theorem raise {e : ε} (h : ∀ s k, P s k → E e s k) :
    Triple next P (Command.raise e : Command σ ω ε α) R E :=
  fun s k start => ⟨k, rfl, h s k start⟩

theorem settle {r : Except ε α} (h : ∀ s k, P s k → Ends R E r s k) :
    Triple next P (Command.settle r : Command σ ω ε α) R E :=
  fun s k start => ⟨k, rfl, h s k start⟩

theorem change {f : σ → σ} {R : Unit → σ → κ → Prop} (h : ∀ s k, P s k → R () (f s) k) :
    Triple next P (Command.change f : Command σ ω ε Unit) R E :=
  fun s k start => ⟨k, rfl, h s k start⟩

theorem write {entry : ω} {R : Unit → σ → κ → Prop}
    (h : ∀ s k, P s k → ∃ k', next k entry = some k' ∧ R () s k') :
    Triple next P (Command.write entry : Command σ ω ε Unit) R E := by
  intro s k start
  obtain ⟨k', moves, after⟩ := h s k start
  refine ⟨k', ?_, after⟩
  change (next k entry).bind some = some k'
  rw [moves, Option.bind_some]

theorem bind {f : α → Command σ ω ε β} (first : Triple next P m R E)
    (then_ : ∀ a, Triple next (R a) (f a) S E) : Triple next P (m >>= f) S E := by
  intro s k start
  obtain ⟨k', follows, ends⟩ := first s k start
  change ∃ k'', Trace.run next k (andThen f (m s)).2.1 = some k'' ∧
    Ends S E (andThen f (m s)).2.2 (andThen f (m s)).1 k''
  generalize m s = done at follows ends
  obtain ⟨t, log, result⟩ := done
  cases result with
  | error e => exact ⟨k', follows, ends⟩
  | ok a =>
    obtain ⟨k'', later, after⟩ := then_ a t k' ends
    exact ⟨k'', run_append_of follows later, after⟩

theorem read_bind {f : σ → Command σ ω ε β}
    (h : ∀ s₀, Triple next (fun s k => s = s₀ ∧ P s k) (f s₀) S E) :
    Triple next P (Command.read >>= f) S E := by
  intro s k start
  exact h s s k ⟨rfl, start⟩

theorem handle {f : ε → Command σ ω ε α} {F : ε → σ → κ → Prop} (tried : Triple next P m R F)
    (caught : ∀ e, Triple next (F e) (f e) R E) : Triple next P (Command.handle m f) R E := by
  intro s k start
  obtain ⟨k', follows, ends⟩ := tried s k start
  rw [Command.handle]
  generalize m s = done at follows ends
  obtain ⟨t, log, result⟩ := done
  cases result with
  | ok a => exact ⟨k', follows, ends⟩
  | error e =>
    obtain ⟨k'', later, after⟩ := caught e t k' ends
    exact ⟨k'', run_append_of follows later, after⟩

end Triple

end Command

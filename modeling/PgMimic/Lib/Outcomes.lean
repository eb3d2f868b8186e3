import Mathlib.Data.List.Forall2

/-!
# Computations that may fail, taken apart

What a computation in `Except` that succeeds has done: each of its steps succeeded, and a
relation that every step of a fold keeps, whether it may fail or not, holds along the whole
of it.
-/

namespace Outcomes

universe u v

section Steps

variable {ε : Type u} {α β : Type v} {x : Except ε α}

theorem bind_ok {f : α → Except ε β} {b : β} :
    (x >>= f) = .ok b ↔ ∃ a, x = .ok a ∧ f a = .ok b := by
  cases x with
  | error e => simp [bind, Except.bind]
  | ok a => simp [bind, Except.bind]

theorem map_ok {f : α → β} {b : β} : x.map f = .ok b ↔ ∃ a, x = .ok a ∧ f a = b := by
  cases x with
  | error e => simp [Except.map]
  | ok a => simp [Except.map]

end Steps

section Loops

variable {ε : Type u} {α σ : Type v} {f : σ → α → Except ε σ} {l : List α} {s s' : σ}

/-- What each step relates and runs of steps compose, a whole run relates. -/
theorem foldlM_relates {R : List α → σ → σ → Prop} (refl : ∀ s, R [] s s)
    (step : ∀ {a s s'}, f s a = .ok s' → R [a] s s')
    (append : ∀ {l l' s s' s''}, R l s s' → R l' s' s'' → R (l ++ l') s s'')
    (run : l.foldlM f s = .ok s') : R l s s' := by
  induction l generalizing s with
  | nil =>
    obtain rfl := Except.ok.inj run
    exact refl s
  | cons a l ih =>
    rw [List.foldlM_cons] at run
    obtain ⟨next, first, rest⟩ := bind_ok.mp run
    exact append (step first) (ih rest)

/-- The same of a loop that cannot fail. -/
theorem foldl_relates {α : Type u} {σ : Type v} {f : σ → α → σ} {R : List α → σ → σ → Prop}
    (refl : ∀ s, R [] s s) (step : ∀ a s, R [a] s (f s a))
    (append : ∀ {l l' s s' s''}, R l s s' → R l' s' s'' → R (l ++ l') s s'') (l : List α) (s : σ) :
    R l s (l.foldl f s) := by
  induction l generalizing s with
  | nil => exact refl s
  | cons a l ih => exact append (step a s) (ih (f s a))

/-- A loop whose steps never fail does not. -/
theorem foldlM_total (total : ∀ a ∈ l, ∀ s, ∃ s', f s a = .ok s') (s : σ) :
    ∃ s', l.foldlM f s = .ok s' := by
  induction l generalizing s with
  | nil => exact ⟨s, rfl⟩
  | cons a l ih =>
    obtain ⟨next, first⟩ := total a List.mem_cons_self s
    obtain ⟨s', rest⟩ := ih (fun b inside => total b (List.mem_cons_of_mem a inside)) next
    exact ⟨s', by rw [List.foldlM_cons]; exact bind_ok.mpr ⟨next, first, rest⟩⟩

end Loops

theorem mapM_ok {ε : Type u} {α β : Type v} {f : α → Except ε β} {l : List α} {l' : List β} :
    l.mapM f = .ok l' ↔ List.Forall₂ (fun a b => f a = .ok b) l l' := by
  induction l generalizing l' with
  | nil =>
    rw [List.mapM_nil, List.forall₂_nil_left_iff]
    exact ⟨fun same => (Except.ok.inj same).symm, fun nothing => by rw [nothing]; rfl⟩
  | cons a l ih =>
    rw [List.mapM_cons, bind_ok, List.forall₂_cons_left_iff]
    constructor
    · rintro ⟨b, first, later⟩
      obtain ⟨bs, others, same⟩ := bind_ok.mp later
      obtain rfl := Except.ok.inj same
      exact ⟨b, bs, first, ih.mp others, rfl⟩
    · rintro ⟨b, bs, first, others, rfl⟩
      exact ⟨b, first, bind_ok.mpr ⟨bs, ih.mpr others, rfl⟩⟩

/-- What each element succeeds with stands in its place. -/
theorem mapM_relates {ε : Type u} {α β : Type v} {f : α → Except ε β} {R : α → β → Prop}
    (l : List α)
    (each : ∀ a, ∃ b, f a = .ok b ∧ R a b) : ∃ l', l.mapM f = .ok l' ∧ List.Forall₂ R l l' := by
  induction l with
  | nil => exact ⟨[], rfl, .nil⟩
  | cons a l ih =>
    obtain ⟨b, first, holds⟩ := each a
    obtain ⟨l', others, hold⟩ := ih
    exact ⟨b :: l', mapM_ok.mpr (.cons first (mapM_ok.mp others)), .cons holds hold⟩

end Outcomes

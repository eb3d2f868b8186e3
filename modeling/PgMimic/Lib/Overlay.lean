import Mathlib.Data.List.Basic

/-!
# Writes laid over a function

A log of writes, oldest first, over what was there before it: a key reads as its
latest write, or as before where the log has none. Logs compose by appending.
-/

namespace Overlay

universe u v

variable {κ : Type u} {β : Type v} [DecidableEq κ]

/-- The last write of a key, if the log has one. -/
def latest : List (κ × β) → κ → Option β
  | [], _ => none
  | w :: ws, k => match latest ws k with
    | some b => some b
    | none => if w.1 = k then some w.2 else none

/-- What a key reads as under the log. -/
def overwrite (base : κ → β) (ws : List (κ × β)) (k : κ) : β := (latest ws k).getD (base k)

theorem overwrite_nil (base : κ → β) : overwrite base [] = base := rfl

theorem latest_append (ws vs : List (κ × β)) (k : κ) :
    latest (ws ++ vs) k = (latest vs k).or (latest ws k) := by
  induction ws with
  | nil => rw [List.nil_append, latest, Option.or_none]
  | cons w ws ih =>
    rw [List.cons_append, latest, ih, latest]
    cases latest vs k with
    | some b => rfl
    | none => rw [Option.none_or, Option.none_or]

theorem overwrite_append (base : κ → β) (ws vs : List (κ × β)) :
    overwrite base (ws ++ vs) = overwrite (overwrite base ws) vs := by
  funext k
  rw [overwrite, latest_append, overwrite, overwrite]
  cases latest vs k with
  | some b => rfl
  | none => rw [Option.none_or, Option.getD_none]

theorem overwrite_singleton (base : κ → β) (k a : κ) (b : β) :
    overwrite base [(k, b)] a = if a = k then b else base a := by
  by_cases same : a = k
  · simp [overwrite, latest, same]
  · simp [overwrite, latest, same, Ne.symm same]

theorem mem_of_latest {ws : List (κ × β)} {k : κ} {b : β} (h : latest ws k = some b) :
    (k, b) ∈ ws := by
  induction ws with
  | nil => cases h
  | cons w ws ih =>
    rw [latest] at h
    cases later : latest ws k with
    | some b' =>
      simp only [later, Option.some.injEq] at h
      exact List.mem_cons_of_mem w (ih (h ▸ later))
    | none =>
      simp only [later, Option.ite_none_right_eq_some, Option.some.injEq] at h
      obtain ⟨rfl, rfl⟩ := h
      exact List.mem_cons_self ..

theorem unwritten_of_latest {ws : List (κ × β)} {k : κ} (h : latest ws k = none) :
    k ∉ ws.map Prod.fst := by
  induction ws with
  | nil => simp
  | cons w ws ih =>
    rw [latest] at h
    cases later : latest ws k with
    | some b => simp [later] at h
    | none =>
      have other : w.1 ≠ k := by simpa [later] using h
      rw [List.map_cons, List.mem_cons, not_or]
      exact ⟨Ne.symm other, ih later⟩

/-- A log leaves what was there when it writes of each key, last, what was there. -/
theorem overwrite_eq_self_iff (base : κ → β) (ws : List (κ × β)) :
    overwrite base ws = base ↔ ∀ k b, latest ws k = some b → base k = b := by
  constructor
  · intro same k b last
    have at_key := congrFun same k
    rw [overwrite, last, Option.getD_some] at at_key
    exact at_key.symm
  · intro held
    funext k
    rw [overwrite]
    cases last : latest ws k with
    | none => rfl
    | some b => exact (held k b last).symm

/-- Every key of a list set to one value. -/
theorem overwrite_all (base : κ → β) (ks : List κ) (b : β) (k : κ) :
    overwrite base (ks.map fun a => (a, b)) k = if k ∈ ks then b else base k := by
  by_cases member : k ∈ ks
  · rw [if_pos member, overwrite]
    cases last : latest (ks.map fun a => (a, b)) k with
    | some b' =>
      obtain ⟨_, _, same⟩ := List.mem_map.mp (mem_of_latest last)
      exact (Prod.mk.inj same).2.symm
    | none =>
      refine False.elim (unwritten_of_latest last ?_)
      simpa using member
  · rw [if_neg member, overwrite]
    cases last : latest (ks.map fun a => (a, b)) k with
    | some b' =>
      obtain ⟨a, inside, same⟩ := List.mem_map.mp (mem_of_latest last)
      exact False.elim (member ((Prod.mk.inj same).1 ▸ inside))
    | none => rfl

end Overlay

import Mathlib.Data.List.Nodup
import Mathlib.Data.List.Perm.Subperm
import Mathlib.Data.List.Range

/-!
# Names that are given one after another

Every key asks for a name, and has a row of candidates it would take. It takes the first
that no key before it has taken. A candidate is free among more of them than names are
taken, and no name is given twice.
-/

namespace FreshNames

universe u v

variable {κ : Type u} {α : Type v}

/-- Of more candidates than taken names, all different, one is free. -/
theorem exists_free {candidate : Nat → α} {taken : List α} {low high : Nat}
    (apart : ∀ i j, low ≤ i → i < high → low ≤ j → j < high → candidate i = candidate j → i = j)
    (more : taken.length < high - low) : ∃ i, low ≤ i ∧ i < high ∧ candidate i ∉ taken := by
  by_contra none
  have all : ∀ i, low ≤ i → i < high → candidate i ∈ taken := by
    intro i above below
    by_contra free
    exact none ⟨i, above, below, free⟩
  have range {i : Nat} (member : i ∈ List.range' low (high - low)) : low ≤ i ∧ i < high := by
    have := List.mem_range'_1.mp member
    omega
  have distinct : ((List.range' low (high - low)).map candidate).Nodup := by
    refine List.Nodup.map_on (fun i member j member' same => ?_) List.nodup_range'
    exact apart i j (range member).1 (range member).2 (range member').1 (range member').2 same
  have within : (List.range' low (high - low)).map candidate ⊆ taken := by
    intro name member
    obtain ⟨i, listed, rfl⟩ := List.mem_map.mp member
    exact all i (range listed).1 (range listed).2
  have := (distinct.subperm within).length_le
  rw [List.length_map, List.length_range'] at this
  omega

/-- The names that some keys get in turn, each the first of its candidates that no key before
it has taken. -/
inductive Given (candidates : κ → Nat → α) : List κ → List α → Prop where
  | nil : Given candidates [] []
  | snoc {keys : List κ} {names : List α} {key : κ} {i : Nat} (before : Given candidates keys names)
      (free : candidates key i ∉ names) (earlier : ∀ j < i, candidates key j ∈ names) :
      Given candidates (keys ++ [key]) (names ++ [candidates key i])

namespace Given

variable {candidates : κ → Nat → α} {keys : List κ} {names names' : List α}

theorem nodup (given : Given candidates keys names) : names.Nodup := by
  induction given with
  | nil => exact List.nodup_nil
  | snoc _ free _ ih =>
    refine List.nodup_append.mpr ⟨ih, List.nodup_singleton _, ?_⟩
    rintro name member _ last rfl
    exact free (List.mem_singleton.mp last ▸ member)

theorem length_eq (given : Given candidates keys names) : names.length = keys.length := by
  induction given with
  | nil => rfl
  | snoc _ _ _ ih => rw [List.length_append, List.length_append, ih, List.length_singleton,
      List.length_singleton]

/-- The keys alone say which names they get. -/
theorem unique (given : Given candidates keys names) (given' : Given candidates keys names') :
    names = names' := by
  induction given generalizing names' with
  | nil =>
    generalize none : ([] : List κ) = listed at given'
    cases given' with
    | nil => rfl
    | snoc => exact absurd none.symm (List.append_ne_nil_of_right_ne_nil _ (List.cons_ne_nil _ _))
  | @snoc keys names key i _ free earlier ih =>
    generalize same : keys ++ [key] = listed at given'
    cases given' with
    | nil => exact absurd same (List.append_ne_nil_of_right_ne_nil _ (List.cons_ne_nil _ _))
    | @snoc keys' names' key' i' before' free' earlier' =>
      obtain ⟨rfl, last⟩ := List.append_inj' same rfl
      obtain rfl := (List.cons.inj last).1
      obtain rfl := ih before'
      rcases Nat.lt_trichotomy i i' with less | rfl | more
      · exact absurd (earlier' i less) free
      · rfl
      · exact absurd (earlier i' more) free'

end Given

end FreshNames

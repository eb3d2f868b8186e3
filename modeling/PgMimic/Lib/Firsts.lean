import Mathlib.Data.List.Basic
import Mathlib.Data.List.Pairwise

/-!
# The first of each class

Going over a list and keeping what nothing before it is related to leaves the first element
of each class. Two relations, one finer than the other, leave the same elements if and only
if they have the same classes in that list.
-/

namespace Firsts

variable {α : Type} {r s : α → α → Prop} [DecidableRel r] [DecidableRel s]

/-- What nothing before it is related to. -/
def firsts (r : α → α → Prop) [DecidableRel r] (before : List α) : List α → List α
  | [] => []
  | a :: l =>
    if ∃ b ∈ before, r b a then firsts r (a :: before) l else a :: firsts r (a :: before) l

theorem not_related_before {a b : α} {before l : List α} (kept : a ∈ firsts r before l)
    (earlier : b ∈ before) : ¬r b a := by
  induction l generalizing before with
  | nil => exact absurd kept List.not_mem_nil
  | cons c l ih =>
    rw [firsts] at kept
    split at kept
    · exact ih kept (List.mem_cons_of_mem c earlier)
    · rename_i fresh
      rcases List.mem_cons.mp kept with rfl | later
      · exact fun related => fresh ⟨b, earlier, related⟩
      · exact ih later (List.mem_cons_of_mem c earlier)

theorem firsts_pairwise (before l : List α) : (firsts r before l).Pairwise fun a b => ¬r a b := by
  induction l generalizing before with
  | nil => exact .nil
  | cons a l ih =>
    rw [firsts]
    split
    · exact ih (a :: before)
    · exact List.pairwise_cons.mpr
        ⟨fun b kept => not_related_before kept List.mem_cons_self, ih (a :: before)⟩

/-- Every element has the first of its class, here or before. -/
theorem exists_first (equivalence : Equivalence r) {a : α} {before l : List α} (member : a ∈ l) :
    (∃ b ∈ before, r b a) ∨ ∃ b ∈ firsts r before l, r b a := by
  induction l generalizing before with
  | nil => exact absurd member List.not_mem_nil
  | cons c l ih =>
    rw [firsts]
    rcases List.mem_cons.mp member with rfl | later
    · by_cases found : ∃ b ∈ before, r b a
      · exact Or.inl found
      · rw [if_neg found]
        exact Or.inr ⟨a, List.mem_cons_self, equivalence.refl a⟩
    · by_cases found : ∃ b ∈ before, r b c
      · rw [if_pos found]
        rcases @ih (c :: before) later with ⟨b, earlier, related⟩ | kept
        · rcases List.mem_cons.mp earlier with rfl | earlier
          · obtain ⟨d, first, same⟩ := found
            exact Or.inl ⟨d, first, equivalence.trans same related⟩
          · exact Or.inl ⟨b, earlier, related⟩
        · exact Or.inr kept
      · rw [if_neg found]
        rcases @ih (c :: before) later with ⟨b, earlier, related⟩ | ⟨b, kept, related⟩
        · rcases List.mem_cons.mp earlier with rfl | earlier
          · exact Or.inr ⟨b, List.mem_cons_self, related⟩
          · exact Or.inl ⟨b, earlier, related⟩
        · exact Or.inr ⟨b, List.mem_cons_of_mem c kept, related⟩

theorem firsts_congr {before l : List α}
    (same : ∀ a ∈ before ++ l, ∀ b ∈ before ++ l, (r a b ↔ s a b)) :
    firsts r before l = firsts s before l := by
  induction l generalizing before with
  | nil => rfl
  | cons a l ih =>
    have found : (∃ b ∈ before, r b a) ↔ ∃ b ∈ before, s b a := by
      refine exists_congr fun b => and_congr_right fun earlier => ?_
      exact same b (List.mem_append_left _ earlier) a (List.mem_append_right _ List.mem_cons_self)
    have later : firsts r (a :: before) l = firsts s (a :: before) l := by
      apply ih
      intro b first c second
      apply same <;> simp_all [or_left_comm]
    rw [firsts, firsts, later]
    simp only [found]

/-- The coarser relation leaves the same elements if and only if it relates no others. -/
theorem firsts_eq_iff (fine : Equivalence r) (coarse : Equivalence s) (finer : ∀ a b, r a b → s a b)
    (l : List α) :
    firsts s [] l = firsts r [] l ↔ ∀ a ∈ l, ∀ b ∈ l, s a b → r a b := by
  constructor
  · intro same a first b second related
    obtain ⟨_, none_, _⟩ | ⟨a', kept, toA⟩ := @exists_first _ r _ fine a [] l first
    · exact absurd none_ List.not_mem_nil
    obtain ⟨_, none_, _⟩ | ⟨b', kept', toB⟩ := @exists_first _ r _ fine b [] l second
    · exact absurd none_ List.not_mem_nil
    have one : s a' b' :=
      coarse.trans (finer _ _ toA) (coarse.trans related (coarse.symm (finer _ _ toB)))
    by_cases equal : a' = b'
    · subst equal
      exact fine.trans (fine.symm toA) toB
    · have apart : (firsts r [] l).Pairwise fun a b => ¬s a b := same ▸ firsts_pairwise [] l
      have symmetric : Std.Symm fun a b => ¬s a b :=
        ⟨fun _ _ distinct back => distinct (coarse.symm back)⟩
      exact absurd one (apart.forall kept kept' equal)
  · intro within
    refine firsts_congr fun a first b second => ⟨within a first b second, finer a b⟩

end Firsts

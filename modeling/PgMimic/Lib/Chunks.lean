import Mathlib.Algebra.Group.Nat.Defs
import Mathlib.Data.List.Forall2

/-!
# Cutting a list into pieces of one width

Where the length is so many times the width the pieces make up the list, and each of them
has the width.
-/

universe u v

namespace Chunks

variable {α : Type u} {β : Type v}

theorem forall₂_congr_left {R S : α → β → Prop} {l : List α}
    (same : ∀ a ∈ l, ∀ b, R a b ↔ S a b) (l' : List β) :
    List.Forall₂ R l l' ↔ List.Forall₂ S l l' := by
  induction l generalizing l' with
  | nil => rw [List.forall₂_nil_left_iff, List.forall₂_nil_left_iff]
  | cons a l ih =>
    obtain ⟨first, others⟩ := List.forall_mem_cons.mp same
    simp only [List.forall₂_cons_left_iff, first, ih others]

/-- So many pieces of a width, from the front. -/
def chunks (width : Nat) : Nat → List α → List (List α)
  | 0, _ => []
  | n + 1, flat => flat.take width :: chunks width n (flat.drop width)

theorem length_chunks (width n : Nat) : ∀ flat : List α, (chunks width n flat).length = n := by
  induction n with
  | zero => exact fun _ => rfl
  | succ n ih => exact fun flat => congrArg Nat.succ (ih (flat.drop width))

theorem chunks_eq (width n : Nat) : ∀ flat : List α,
    chunks width n flat = (List.range n).map fun i => (flat.drop (i * width)).take width := by
  induction n with
  | zero =>
    intro flat
    rfl
  | succ n ih =>
    intro flat
    rw [chunks, ih, List.range_succ_eq_map, List.map_cons, List.map_map, Nat.zero_mul,
      List.drop_zero]
    refine congrArg _ (List.map_congr_left fun i _ => ?_)
    rw [List.drop_drop, Function.comp_apply, Nat.succ_mul, Nat.add_comm]

theorem length_of_mem_chunks {width n : Nat} {flat : List α} (size : flat.length = n * width) :
    ∀ piece ∈ chunks width n flat, piece.length = width := by
  induction n generalizing flat with
  | zero =>
    intro piece member
    cases member
  | succ n ih =>
    rw [Nat.succ_mul] at size
    rw [chunks, List.forall_mem_cons]
    constructor
    · rw [List.length_take]
      omega
    · apply ih
      rw [List.length_drop]
      omega

theorem mem_of_mem_chunks {width n : Nat} {flat : List α} :
    ∀ piece ∈ chunks width n flat, ∀ a ∈ piece, a ∈ flat := by
  induction n generalizing flat with
  | zero =>
    intro piece member
    cases member
  | succ n ih =>
    rw [chunks, List.forall_mem_cons]
    exact ⟨fun a inside => List.mem_of_mem_take inside,
      fun piece member a inside => List.mem_of_mem_drop (ih piece member a inside)⟩

/-- The pieces are what the items of a list are made of exactly if the whole is what they
are all made of. -/
theorem forall₂_chunks {width : Nat} {content : β → List α} {good : β → Prop}
    (even : ∀ x, good x → (content x).length = width) (n : Nat) :
    ∀ (flat : List α) (items : List β),
    flat.length = n * width →
      (List.Forall₂ (fun piece x => good x ∧ content x = piece) (chunks width n flat) items ↔
        items.length = n ∧ (∀ x ∈ items, good x) ∧ items.flatMap content = flat) := by
  induction n with
  | zero =>
    intro flat items size
    rw [Nat.zero_mul, List.length_eq_zero_iff] at size
    rw [chunks, List.forall₂_nil_left_iff, size, List.length_eq_zero_iff]
    constructor
    · rintro rfl
      exact ⟨rfl, fun x member => absurd member List.not_mem_nil, rfl⟩
    · exact And.left
  | succ n ih =>
    intro flat items size
    have rest : (flat.drop width).length = n * width := by
      rw [List.length_drop, size, Nat.succ_mul, Nat.add_sub_cancel]
    have front : (flat.take width).length = width := by
      rw [List.length_take, size, Nat.succ_mul]
      omega
    cases items with
    | nil => simp [chunks]
    | cons x items =>
      rw [chunks, List.forall₂_cons, ih _ _ rest, List.forall_mem_cons, List.flatMap_cons,
        List.length_cons, Nat.add_right_cancel_iff]
      constructor
      · rintro ⟨⟨holds, piece⟩, count, others, whole⟩
        exact ⟨count, ⟨holds, others⟩, by rw [piece, whole, List.take_append_drop]⟩
      · rintro ⟨count, ⟨holds, others⟩, whole⟩
        have split := List.append_inj (whole.trans (List.take_append_drop width flat).symm)
          ((even x holds).trans front.symm)
        exact ⟨⟨holds, split.1⟩, count, others, split.2⟩

end Chunks

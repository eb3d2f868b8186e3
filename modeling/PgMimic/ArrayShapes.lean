import PgMimic.ArrayFrames

/-!
# The shape of an array

`_dimensions` goes down the first branch and then compares every other branch with it. What
it accepts are the lists whose levels are even, and its sizes are enough for `_reshape` to put
a list together from its elements in one row, unless a list in it is empty.
-/

namespace PgMimic.Arrays

variable {α : Type} {value : List (Nested α)}

theorem dimensions_iff_evenLevels :
    (∃ dims, dimensions value = .ok dims) ↔ value = [] ∨ (Nested.list value).EvenLevels := by
  rw [← Nested.rectangular_iff_evenLevels]
  constructor
  · rintro ⟨dims, sized⟩
    exact Or.inr (dimensions_ok.mp sized).1
  · rintro (rfl | shape)
    · exact ⟨[], rfl⟩
    · exact ⟨_, dimensions_ok.mpr ⟨shape, rfl⟩⟩

/-- No list inside is empty. -/
theorem inner_full_iff : value = [] ∨ (Nested.list value).Full ↔
    ∀ depth, .list [] ∉ (Nested.list value).atDepth (depth + 1) := by
  rw [Nested.full_iff_atDepth]
  constructor
  · rintro (rfl | absent) depth
    · exact List.not_mem_nil
    · exact absent (depth + 1)
  · intro absent
    refine or_iff_not_imp_left.mpr fun some depth member => ?_
    cases depth with
    | zero => exact some (Nested.list.inj (List.mem_singleton.mp member)).symm
    | succ depth => exact absent depth member

theorem length_flatten {dims : List Nat} (sized : dimensions value = .ok dims)
    (some : dims ≠ []) : (flatten (.list value)).length = dims.prod := by
  rw [flatten, List.length_map, length_leaves sized, if_neg some]

/-- What was flattened is put together again exactly if the sizes behind the first are positive. -/
theorem reshape_flatten_iff {dims : List Nat} (sized : dimensions value = .ok dims) :
    reshape (flatten (.list value)) (dims.map Int.ofNat) = .ok value ↔ ∀ n ∈ dims.tail, 0 < n := by
  cases dims with
  | nil =>
    obtain rfl := (dims_nil_iff sized).mp rfl
    exact iff_of_true rfl fun n member => absurd member List.not_mem_nil
  | cons size dims =>
    have some : value ≠ [] := fun none => nomatch (dims_nil_iff sized).mpr none
    have shape := hasShape_of_sized sized some
    have count := length_flatten sized (List.cons_ne_nil size dims)
    have whole : Nested.atDepth (size :: dims).length (.list value) = flatten (.list value) :=
      Nested.atDepth_isLeaf (size :: dims) _ shape
    rw [reshape_ok dims size _ value count, List.tail_cons]
    exact and_iff_left ⟨Nested.hasShape_mono (fun _ _ => trivial) _ _ shape, whole⟩

/-- A list has dimensions exactly if all that is at one depth are lists of one length, or
elements. Its elements in one row are cut into the list by them exactly if no list inside is
empty. -/
theorem shape_lossless (value : List (Nested α)) :
    ((∃ dims, dimensions value = .ok dims) ↔ value = [] ∨ (Nested.list value).EvenLevels) ∧
      ∀ dims, dimensions value = .ok dims →
        (reshape (flatten (.list value)) (dims.map Int.ofNat) = .ok value ↔
          ∀ depth, .list [] ∉ (Nested.list value).atDepth (depth + 1)) := by
  refine ⟨dimensions_iff_evenLevels, fun dims sized => ?_⟩
  rw [reshape_flatten_iff sized, positive_tail_iff sized, inner_full_iff]

theorem matrix_lossless :
    reshape (flatten (.list [.list [.leaf 1, .leaf 2], .list [.leaf 3, .leaf 4]])) [2, 2] =
      .ok [.list [.leaf 1, .leaf 2], .list [.leaf 3, .leaf 4]] := by
  refine ((shape_lossless _).2 [2, 2] rfl).mpr (inner_full_iff.mp (Or.inr ?_))
  simp [Nested.Full, Nested.Full.FullAll]

end PgMimic.Arrays

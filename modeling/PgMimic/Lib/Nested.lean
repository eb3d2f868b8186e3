import Mathlib.Data.List.Basic
import Mathlib.Algebra.BigOperators.Group.List.Basic

/-!
# Nested lists and their shapes

A nested list is a leaf or a list of nested lists. It has a shape if every list at one
depth has the same length; the leaves are then as many as the product of the lengths.
-/

universe u v

inductive Nested (α : Type u) where
  | leaf (a : α)
  | list (items : List (Nested α))

namespace Nested

variable {α : Type u} {β : Type v}

/-- Induction with the hypothesis for all items of a list at once. -/
theorem induct {motive : Nested α → Prop} (leaf : ∀ a, motive (.leaf a))
    (list : ∀ items, (∀ x ∈ items, motive x) → motive (.list items)) : ∀ x, motive x
  | .leaf a => leaf a
  | .list items => list items (all items)
where
  all : ∀ items : List (Nested α), ∀ x ∈ items, motive x
    | [], _, member => absurd member List.not_mem_nil
    | y :: ys, x, member => (List.mem_cons.mp member).elim
        (fun same => same ▸ induct leaf list y) (fun later => all ys x later)

mutual

def decEq [DecidableEq α] : ∀ x y : Nested α, Decidable (x = y)
  | .leaf a, .leaf b => decidable_of_iff (a = b) (by rw [Nested.leaf.injEq])
  | .list xs, .list ys =>
    match decEqAll xs ys with
    | isTrue same => isTrue (congrArg Nested.list same)
    | isFalse apart => isFalse fun same => apart (Nested.list.inj same)
  | .leaf _, .list _ => isFalse fun same => nomatch same
  | .list _, .leaf _ => isFalse fun same => nomatch same

def decEqAll [DecidableEq α] : ∀ xs ys : List (Nested α), Decidable (xs = ys)
  | [], [] => isTrue rfl
  | x :: xs, y :: ys =>
    match decEq x y, decEqAll xs ys with
    | isTrue first, isTrue later => isTrue (by rw [first, later])
    | isFalse apart, _ => isFalse fun same => apart (List.cons.inj same).1
    | _, isFalse apart => isFalse fun same => apart (List.cons.inj same).2
  | [], _ :: _ => isFalse fun same => nomatch same
  | _ :: _, [] => isFalse fun same => nomatch same

end

instance [DecidableEq α] : DecidableEq (Nested α) := decEq

mutual

def map (f : α → β) : Nested α → Nested β
  | .leaf a => .leaf (f a)
  | .list items => .list (mapAll f items)

def mapAll (f : α → β) : List (Nested α) → List (Nested β)
  | [] => []
  | x :: xs => x.map f :: mapAll f xs

end

theorem mapAll_eq (f : α → β) (items : List (Nested α)) : mapAll f items = items.map (map f) := by
  induction items with
  | nil => rfl
  | cons x xs ih => rw [mapAll, ih, List.map_cons]

theorem map_eq_self {f : α → α} (x : Nested α) (same : ∀ a, f a = a) : x.map f = x := by
  induction x using induct with
  | leaf a => rw [map, same]
  | list items ih => rw [map, mapAll_eq, List.map_congr_left ih, List.map_id']

mutual

/-- From left to right. -/
def leaves : Nested α → List α
  | .leaf a => [a]
  | .list items => leavesAll items

def leavesAll : List (Nested α) → List α
  | [] => []
  | x :: xs => x.leaves ++ leavesAll xs

end

theorem leavesAll_eq (items : List (Nested α)) : leavesAll items = items.flatMap leaves := by
  induction items with
  | nil => rfl
  | cons x xs ih => rw [leavesAll, ih, List.flatMap_cons]

/-- The lengths met on the way to the first leaf. -/
def firstDimensions : Nested α → List Nat
  | .leaf _ => []
  | .list [] => [0]
  | .list (x :: xs) => (xs.length + 1) :: x.firstDimensions

/-- No list is empty, at any depth. -/
def Full : Nested α → Prop
  | .leaf _ => True
  | .list items => items ≠ [] ∧ FullAll items
where
  FullAll : List (Nested α) → Prop
    | [] => True
    | x :: xs => x.Full ∧ FullAll xs

/-- The lists at depth `i` have `dims[i]` items each, and `bottom` holds below them. -/
def HasShape (bottom : Nested α → Prop) : List Nat → Nested α → Prop
  | [], x => bottom x
  | _ :: _, .leaf _ => False
  | n :: dims, .list items => items.length = n ∧ ∀ x ∈ items, HasShape bottom dims x

def IsLeaf : Nested α → Prop
  | .leaf _ => True
  | .list _ => False

/-- All lists of one depth have one length, and the leaves are at one depth. -/
def Rectangular (x : Nested α) : Prop := ∃ dims, HasShape IsLeaf dims x

/-- The sizes met on the way to the first leaf of one value are those of every other value
of its shape, as far as there are lists to have them. -/
theorem hasShape_first (x : Nested α) : ∀ (dims : List Nat) (y : Nested α), HasShape IsLeaf dims x →
    HasShape IsLeaf dims y → HasShape IsLeaf x.firstDimensions y := by
  induction x using induct with
  | leaf a =>
    intro dims y shape shape'
    cases dims with
    | nil => exact shape'
    | cons n dims => exact absurd shape id
  | list items ih =>
    intro dims y shape shape'
    cases dims with
    | nil => exact absurd shape id
    | cons n dims =>
      cases y with
      | leaf a => exact absurd shape' id
      | list others =>
        obtain ⟨size, inside⟩ := shape
        obtain ⟨size', inside'⟩ := shape'
        cases items with
        | nil =>
          obtain rfl : others = [] := List.length_eq_zero_iff.mp (size'.trans size.symm)
          exact ⟨rfl, fun z member => absurd member List.not_mem_nil⟩
        | cons x xs =>
          refine ⟨size'.trans size.symm, fun z member => ?_⟩
          exact ih x List.mem_cons_self dims z (inside x List.mem_cons_self) (inside' z member)

theorem hasShape_firstDimensions {x : Nested α} :
    HasShape IsLeaf x.firstDimensions x ↔ x.Rectangular := by
  constructor
  · intro shape
    exact ⟨_, shape⟩
  · rintro ⟨dims, shape⟩
    exact hasShape_first x dims x shape shape

theorem hasShape_map (f : α → β) (dims : List Nat) : ∀ x : Nested α,
    HasShape IsLeaf dims (x.map f) ↔ HasShape IsLeaf dims x := by
  induction dims with
  | nil =>
    intro x
    cases x <;> simp [map, HasShape, IsLeaf]
  | cons n dims ih =>
    intro x
    cases x with
    | leaf a => simp [map, HasShape]
    | list items => simp [map, mapAll_eq, HasShape, ih]

theorem rectangular_map {f : α → β} {x : Nested α} : (x.map f).Rectangular ↔ x.Rectangular :=
  exists_congr fun dims => hasShape_map f dims x

theorem leaves_map (f : α → β) (x : Nested α) : (x.map f).leaves = x.leaves.map f := by
  induction x using induct with
  | leaf a => rfl
  | list items ih =>
    rw [map, leaves, leaves, leavesAll_eq, leavesAll_eq, mapAll_eq, List.flatMap_map,
      List.map_flatMap]
    exact List.flatMap_congr ih

/-! ## Flattening -/

/-- What is at a depth, from left to right. -/
def atDepth : Nat → Nested α → List (Nested α)
  | 0, x => [x]
  | _ + 1, .leaf _ => []
  | n + 1, .list items => items.flatMap (atDepth n)

theorem length_atDepth {bottom : Nested α → Prop} (dims : List Nat) : ∀ x, HasShape bottom dims x →
    (atDepth dims.length x).length = dims.prod := by
  induction dims with
  | nil =>
    intro x _
    rfl
  | cons n dims ih =>
    intro x shape
    cases x with
    | leaf a => exact absurd shape id
    | list items =>
      obtain ⟨size, inside⟩ := shape
      rw [List.length_cons, atDepth, List.length_flatMap, List.prod_cons,
        List.map_congr_left fun x member => ih x (inside x member)]
      simp [size]

theorem atDepth_isLeaf (dims : List Nat) : ∀ x : Nested α, HasShape IsLeaf dims x →
    atDepth dims.length x = x.leaves.map .leaf := by
  induction dims with
  | nil =>
    intro x shape
    cases x with
    | leaf a => rfl
    | list items => exact absurd shape id
  | cons n dims ih =>
    intro x shape
    cases x with
    | leaf a => exact absurd shape id
    | list items =>
      rw [List.length_cons, atDepth, leaves, leavesAll_eq, List.map_flatMap]
      exact List.flatMap_congr fun x member => ih x (shape.2 x member)

theorem hasShape_mono {bottom bottom' : Nested α → Prop} (weaker : ∀ x, bottom x → bottom' x)
    (dims : List Nat) : ∀ x, HasShape bottom dims x → HasShape bottom' dims x := by
  induction dims with
  | nil => exact weaker
  | cons n dims ih =>
    intro x shape
    cases x with
    | leaf a => exact shape
    | list items => exact ⟨shape.1, fun x member => ih x (shape.2 x member)⟩

theorem fullAll_iff {items : List (Nested α)} : Full.FullAll items ↔ ∀ x ∈ items, x.Full := by
  induction items with
  | nil => simp [Full.FullAll]
  | cons x items ih => rw [Full.FullAll, ih, List.forall_mem_cons]

theorem full_iff (dims : List Nat) : ∀ x : Nested α, HasShape IsLeaf dims x →
    (x.Full ↔ ∀ n ∈ dims, 0 < n) := by
  induction dims with
  | nil =>
    intro x shape
    cases x with
    | leaf a => simp [Full]
    | list items => exact absurd shape id
  | cons n dims ih =>
    intro x shape
    cases x with
    | leaf a => exact absurd shape id
    | list items =>
      obtain ⟨size, inside⟩ := shape
      rw [Full, fullAll_iff, List.forall_mem_cons, ← size, List.length_pos_iff,
        forall₂_congr fun x member => ih x (inside x member)]
      refine and_congr_right fun some => ?_
      obtain ⟨x, member⟩ := List.exists_mem_of_ne_nil items some
      exact ⟨fun all => all x member, fun sizes _ _ => sizes⟩

/-! ## Levels -/

def HasLength (n : Nat) : Nested α → Prop
  | .leaf _ => False
  | .list items => items.length = n

/-- Lists of one length, or leaves. -/
def Level (nodes : List (Nested α)) : Prop :=
  (∃ n, ∀ x ∈ nodes, HasLength n x) ∨ ∀ x ∈ nodes, IsLeaf x

/-- What is at one depth are lists of one length, or leaves. -/
def EvenLevels (x : Nested α) : Prop := ∀ depth, Level (atDepth depth x)

theorem flatMap_atDepth_zero (nodes : List (Nested α)) : nodes.flatMap (atDepth 0) = nodes :=
  List.flatMap_singleton' nodes

theorem atDepth_one (items : List (Nested α)) : atDepth 1 (.list items) = items :=
  flatMap_atDepth_zero items

theorem flatMap_atDepth_succ (depth : Nat) (nodes : List (Nested α)) :
    nodes.flatMap (atDepth (depth + 1)) = (nodes.flatMap (atDepth 1)).flatMap (atDepth depth) := by
  rw [List.flatMap_assoc]
  refine List.flatMap_congr fun x _ => ?_
  cases x with
  | leaf a => rfl
  | list items =>
    rw [atDepth_one]
    rfl

/-- The items of lists are one level down. -/
theorem mem_items_iff {nodes : List (Nested α)} {y : Nested α} :
    y ∈ nodes.flatMap (atDepth 1) ↔ ∃ items, .list items ∈ nodes ∧ y ∈ items := by
  rw [List.mem_flatMap]
  constructor
  · rintro ⟨x, member, below⟩
    cases x with
    | leaf a => cases below
    | list items =>
      rw [atDepth_one] at below
      exact ⟨items, member, below⟩
  · rintro ⟨items, member, inside⟩
    refine ⟨.list items, member, ?_⟩
    rw [atDepth_one]
    exact inside

/-- Below values of one shape every level is even. -/
theorem level_of_hasShape (dims : List Nat) : ∀ (nodes : List (Nested α)),
    (∀ x ∈ nodes, HasShape IsLeaf dims x) → ∀ depth, Level (nodes.flatMap (atDepth depth)) := by
  induction dims with
  | nil =>
    intro nodes leaves depth
    cases depth with
    | zero =>
      rw [flatMap_atDepth_zero]
      exact Or.inr leaves
    | succ depth =>
      have nothing : nodes.flatMap (atDepth 1) = [] := by
        refine List.eq_nil_iff_forall_not_mem.mpr fun y member => ?_
        obtain ⟨items, listed, -⟩ := mem_items_iff.mp member
        exact leaves _ listed
      rw [flatMap_atDepth_succ, nothing]
      exact Or.inr nofun
  | cons n dims ih =>
    intro nodes shape depth
    cases depth with
    | zero =>
      rw [flatMap_atDepth_zero]
      refine Or.inl ⟨n, fun x member => ?_⟩
      cases x with
      | leaf a => exact shape _ member
      | list items => exact (shape _ member).1
    | succ depth =>
      rw [flatMap_atDepth_succ]
      refine ih _ (fun y member => ?_) depth
      obtain ⟨items, listed, inside⟩ := mem_items_iff.mp member
      exact (shape _ listed).2 y inside

/-- Where every level below some values is even, all of them have the sizes met on the way to
the first leaf of any one. -/
theorem hasShape_of_level (x : Nested α) : ∀ nodes : List (Nested α), x ∈ nodes →
    (∀ depth, Level (nodes.flatMap (atDepth depth))) →
      ∀ y ∈ nodes, HasShape IsLeaf x.firstDimensions y := by
  induction x using induct with
  | leaf a =>
    intro nodes member levels
    have top := levels 0
    rw [flatMap_atDepth_zero] at top
    rcases top with ⟨n, lists⟩ | leaves
    · exact absurd (lists _ member) id
    · exact leaves
  | list items ih =>
    intro nodes member levels y member'
    have top := levels 0
    rw [flatMap_atDepth_zero] at top
    rcases top with ⟨n, lists⟩ | leaves
    · have size : items.length = n := lists _ member
      cases y with
      | leaf a => exact absurd (lists _ member') id
      | list others =>
        have size' : others.length = n := lists _ member'
        cases items with
        | nil =>
          obtain rfl : others = [] := List.length_eq_zero_iff.mp (size'.trans size.symm)
          exact ⟨rfl, nofun⟩
        | cons z zs =>
          refine ⟨size'.trans size.symm, fun w inside => ?_⟩
          refine ih z List.mem_cons_self (nodes.flatMap (atDepth 1)) ?_ (fun depth => ?_) w ?_
          · exact mem_items_iff.mpr ⟨z :: zs, member, List.mem_cons_self⟩
          · rw [← flatMap_atDepth_succ]
            exact levels (depth + 1)
          · exact mem_items_iff.mpr ⟨others, member', inside⟩
    · exact absurd (leaves _ member) id

theorem rectangular_iff_evenLevels {x : Nested α} : x.Rectangular ↔ x.EvenLevels := by
  have single : ∀ depth, [x].flatMap (atDepth depth) = atDepth depth x :=
    fun depth => List.flatMap_singleton (atDepth depth) x
  constructor
  · rintro ⟨dims, shape⟩ depth
    rw [← single]
    exact level_of_hasShape dims [x] (List.forall_mem_singleton.mpr shape) depth
  · intro levels
    refine hasShape_firstDimensions.mp (hasShape_of_level x [x] List.mem_cons_self ?_ x
      List.mem_cons_self)
    intro depth
    rw [single]
    exact levels depth

theorem full_iff_atDepth {x : Nested α} : x.Full ↔ ∀ depth, .list [] ∉ atDepth depth x := by
  induction x using induct with
  | leaf a =>
    refine iff_of_true trivial fun depth member => ?_
    cases depth with
    | zero => cases List.mem_singleton.mp member
    | succ depth => cases member
  | list items ih =>
    rw [Full, fullAll_iff, forall₂_congr ih]
    constructor
    · rintro ⟨some, below⟩ depth member
      cases depth with
      | zero => exact some (Nested.list.inj (List.mem_singleton.mp member)).symm
      | succ depth =>
        obtain ⟨x, inside, deeper⟩ := List.mem_flatMap.mp member
        exact below x inside depth deeper
    · intro absent
      refine ⟨fun none => absent 0 (none ▸ List.mem_cons_self), fun x inside depth deeper => ?_⟩
      exact absent (depth + 1) (List.mem_flatMap.mpr ⟨x, inside, deeper⟩)

end Nested

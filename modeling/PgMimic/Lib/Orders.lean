import Mathlib.Data.List.Basic
import Mathlib.Order.Compare

/-!
# Orders with ties, and sorting by them

A comparison that orders what it compares up to ties may be turned round, extended by a
value that is not there, and followed by others that decide its ties. A stable sort by any
of them is determined: what is tied stays as it was.
-/

namespace Orders

open Std

variable {α β : Type}

/-- The same order, or the one that turns it round. -/
def directed (descending : Bool) (cmp : α → α → Ordering) (a b : α) : Ordering :=
  if descending then cmp b a else cmp a b

instance directed_trans (descending : Bool) (cmp : α → α → Ordering) [TransCmp cmp] :
    TransCmp (directed descending cmp) := by
  cases descending with
  | false => exact inferInstanceAs (TransCmp cmp)
  | true => exact inferInstanceAs (TransCmp fun a b => cmp b a)

/-- Everything that is not there stands at one end. -/
def nullable (nullsFirst : Bool) (cmp : α → α → Ordering) : Option α → Option α → Ordering
  | none, none => .eq
  | none, some _ => if nullsFirst then .lt else .gt
  | some _, none => if nullsFirst then .gt else .lt
  | some a, some b => cmp a b

theorem nullable_swap (nullsFirst : Bool) (cmp : α → α → Ordering) [OrientedCmp cmp]
    (a b : Option α) : nullable nullsFirst cmp a b = (nullable nullsFirst cmp b a).swap := by
  cases a with
  | none => cases b <;> cases nullsFirst <;> rfl
  | some a =>
    cases b with
    | none => cases nullsFirst <;> rfl
    | some b => exact @OrientedCmp.eq_swap _ cmp _ a b

instance nullable_trans (nullsFirst : Bool) (cmp : α → α → Ordering) [TransCmp cmp] :
    TransCmp (nullable nullsFirst cmp) where
  eq_swap := nullable_swap nullsFirst cmp _ _
  isLE_trans := by
    intro a b c first second
    cases a with
    | none => cases c <;> cases b <;> cases nullsFirst <;> simp_all [nullable]
    | some a =>
      cases b with
      | none => cases c <;> cases nullsFirst <;> simp_all [nullable]
      | some b =>
        cases c with
        | none => cases nullsFirst <;> simp_all [nullable]
        | some c => exact @TransCmp.isLE_trans _ cmp _ a b c first second

/-- Each comparison decides the ties of those before it. -/
def lexicographic : List (α → α → Ordering) → α → α → Ordering
  | [] => fun _ _ => .eq
  | cmp :: later => compareLex cmp (lexicographic later)

theorem lexicographic_trans {orders : List (α → α → Ordering)}
    (every : ∀ cmp ∈ orders, TransCmp cmp) : TransCmp (lexicographic orders) := by
  induction orders with
  | nil => exact { eq_swap := rfl, isLE_trans := fun _ _ => rfl }
  | cons cmp later ih =>
    obtain ⟨first, others⟩ := List.forall_mem_cons.mp every
    have second := ih others
    exact inferInstanceAs (TransCmp (compareLex cmp (lexicographic later)))

/-- The comparison of what is read off two values. -/
instance reading_trans (f : α → β) (cmp : β → β → Ordering) [TransCmp cmp] :
    TransCmp fun a b => cmp (f a) (f b) where
  eq_swap := OrientedCmp.eq_swap
  isLE_trans := TransCmp.isLE_trans

/-! ## Sorting -/

section Sorting

variable (cmp : α → α → Ordering)

/-- Everything but what has to stand behind. -/
def sort (l : List α) : List α := l.mergeSort fun a b => (cmp a b).isLE

theorem sort_perm (l : List α) : (sort cmp l).Perm l := List.mergeSort_perm ..

variable [TransCmp cmp]

theorem isLE_total (a b : α) : ((cmp a b).isLE || (cmp b a).isLE) = true := by
  rw [@OrientedCmp.eq_swap _ cmp _ b a]
  cases cmp a b <;> rfl

theorem sort_pairwise (l : List α) : (sort cmp l).Pairwise fun a b => (cmp a b).isLE = true :=
  List.pairwise_mergeSort (fun _ _ _ => TransCmp.isLE_trans) (isLE_total cmp) l

/-- What is tied with a value is a sorted part of the list, and stays as it is. -/
theorem sort_stable (l : List α) (a : α) :
    (sort cmp l).filter (cmp a · = .eq) = l.filter (cmp a · = .eq) := by
  have tied : (l.filter (cmp a · = .eq)).Pairwise fun b c => (cmp b c).isLE = true := by
    rw [List.pairwise_filter]
    refine List.pairwise_of_forall fun b c first second => ?_
    have first : cmp a b = .eq := of_decide_eq_true first
    have second : cmp a c = .eq := of_decide_eq_true second
    rw [TransCmp.eq_trans (OrientedCmp.eq_symm first) second]
    rfl
  have kept : (l.filter (cmp a · = .eq)).Sublist (sort cmp l) :=
    List.sublist_mergeSort (fun _ _ _ => TransCmp.isLE_trans) (isLE_total cmp) tied
      List.filter_sublist
  have within : (l.filter (cmp a · = .eq)).Sublist ((sort cmp l).filter (cmp a · = .eq)) := by
    have filtered := kept.filter (cmp a · = .eq)
    simpa only [List.filter_filter, Bool.and_self] using filtered
  exact (within.eq_of_length ((sort_perm cmp l).filter _).length_eq.symm).symm

/-- Of two values in order, and the first in front, the first stays in front. -/
theorem sort_pair {l : List α} {a b : α} (le : (cmp a b).isLE = true) (pair : [a, b].Sublist l) :
    [a, b].Sublist (sort cmp l) :=
  List.pair_sublist_mergeSort (fun _ _ _ => TransCmp.isLE_trans) (isLE_total cmp) le pair

/-- What comes strictly before another value is put in front of it. -/
theorem sort_pair_of_lt {l : List α} {a b : α} (lt : cmp a b = .lt) (first : a ∈ l)
    (second : b ∈ l) : [a, b].Sublist (sort cmp l) := by
  have sorted := sort_pairwise cmp l
  obtain ⟨front, back, split⟩ := List.append_of_mem ((sort_perm cmp l).mem_iff.mpr first)
  have member : b ∈ front ++ a :: back := split ▸ (sort_perm cmp l).mem_iff.mpr second
  rw [split] at sorted ⊢
  have behind : b ∈ back := by
    rcases List.mem_append.mp member with early | late
    · have le := (List.pairwise_append.mp sorted).2.2 b early a List.mem_cons_self
      rw [@OrientedCmp.eq_swap _ cmp _ b a, lt] at le
      cases le
    · rcases List.mem_cons.mp late with rfl | behind
      · have tied : cmp b b = .eq := ReflCmp.compare_self
        rw [tied] at lt
        cases lt
      · exact behind
  refine List.Sublist.trans ?_ (List.sublist_append_right front _)
  exact (List.singleton_sublist.mpr behind).cons_cons a

end Sorting

end Orders

import Mathlib.Data.List.DropRight
import Mathlib.Data.List.TakeWhile

/-!
# Trimming

A list is trimmed by dropping from both of its ends what a predicate holds of. What is
left is solid: it neither begins nor ends with such an element.
-/

namespace Trim

universe u

variable {α : Type u} (p : α → Bool)

/-- Drop from both ends. -/
def trim (l : List α) : List α := (l.dropWhile p).rdropWhile p

def Blank (l : List α) : Prop := ∀ a ∈ l, p a = true

/-- Neither end is blank. -/
def Solid (l : List α) : Prop :=
  (∀ a ∈ l.head?, p a = false) ∧ ∀ a ∈ l.getLast?, p a = false

variable {p}

theorem blank_append_iff {l l' : List α} : Blank p (l ++ l') ↔ Blank p l ∧ Blank p l' := by
  simp only [Blank, List.mem_append, or_imp, forall_and]

theorem dropWhile_blank {before : List α} (blank : Blank p before) (rest : List α) :
    (before ++ rest).dropWhile p = rest.dropWhile p := by
  rw [List.dropWhile_append, List.dropWhile_eq_nil_iff.mpr blank]
  rfl

theorem dropWhile_solid {rest : List α} (front : ∀ a ∈ rest.head?, p a = false) :
    rest.dropWhile p = rest := by
  cases rest with
  | nil => rfl
  | cons a rest => exact List.dropWhile_cons_of_neg (by simp [front a rfl])

theorem head_dropWhile (l : List α) : ∀ a ∈ (l.dropWhile p).head?, p a = false := by
  induction l with
  | nil =>
    intro a member
    cases member
  | cons b l ih =>
    by_cases holds : p b
    · rwa [List.dropWhile_cons_of_pos holds]
    · rw [List.dropWhile_cons_of_neg holds]
      intro a member
      obtain rfl : b = a := Option.some.inj member
      exact Bool.eq_false_iff.mpr holds

/-- What `dropWhile` leaves, with what it dropped in front. -/
theorem dropWhile_split (l : List α) :
    ∃ before, l = before ++ l.dropWhile p ∧ Blank p before :=
  ⟨l.takeWhile p, (List.takeWhile_append_dropWhile (p := p)).symm, fun _ => List.mem_takeWhile_imp⟩

theorem rdropWhile_blank (l : List α) {after : List α} (blank : Blank p after) :
    (l ++ after).rdropWhile p = l.rdropWhile p := by
  induction after using List.reverseRecOn with
  | nil => rw [List.append_nil]
  | append_singleton after a ih =>
    obtain ⟨front, last⟩ := blank_append_iff.mp blank
    rw [← List.append_assoc, List.rdropWhile_concat_pos _ _ _ (last a List.mem_cons_self), ih front]

theorem rdropWhile_solid {l : List α} (back : ∀ a ∈ l.getLast?, p a = false) :
    l.rdropWhile p = l := by
  rw [List.rdropWhile_eq_self_iff]
  intro full holds
  have member := back _ (List.getLast?_eq_getLast_of_ne_nil full)
  rw [holds] at member
  cases member

theorem rdropWhile_split (l : List α) :
    ∃ after, l = l.rdropWhile p ++ after ∧ Blank p after :=
  ⟨l.rtakeWhile p, List.rdropWhile_append_rtakeWhile.symm, fun _ => List.mem_rtakeWhile_imp⟩

theorem solid_trim (l : List α) : Solid p (trim p l) := by
  constructor
  · intro a member
    obtain ⟨rest, whole⟩ := List.rdropWhile_prefix p (l := l.dropWhile p)
    apply head_dropWhile l a
    rw [← whole]
    exact List.mem_head?_append_of_mem_head? member
  · intro a member
    by_cases empty : trim p l = []
    · rw [empty] at member
      cases member
    · rw [List.getLast?_eq_getLast_of_ne_nil empty] at member
      obtain rfl := Option.some.inj member
      exact Bool.eq_false_iff.mpr (List.rdropWhile_last_not p _ empty)

theorem trim_split (l : List α) :
    ∃ before after, l = before ++ (trim p l ++ after) ∧ Blank p before ∧ Blank p after := by
  obtain ⟨before, front, blank⟩ := dropWhile_split (p := p) l
  obtain ⟨after, back, blank'⟩ := rdropWhile_split (p := p) (l.dropWhile p)
  refine ⟨before, after, ?_, blank, blank'⟩
  rw [trim, ← back, ← front]

theorem trim_of_solid {before l after : List α} (blank : Blank p before) (solid : Solid p l)
    (blank' : Blank p after) : trim p (before ++ (l ++ after)) = l := by
  rw [trim, dropWhile_blank blank]
  by_cases empty : l = []
  · rw [empty, List.nil_append, List.dropWhile_eq_nil_iff.mpr blank']
    rfl
  · obtain ⟨a, rest, rfl⟩ := List.exists_cons_of_ne_nil empty
    have front : (a :: rest ++ after).dropWhile p = a :: rest ++ after :=
      dropWhile_solid fun b member => solid.1 b member
    rw [front, rdropWhile_blank _ blank', rdropWhile_solid solid.2]

/-- More of what is dropped, at either end. -/
theorem trim_blank {before l after : List α} (blank : Blank p before) (blank' : Blank p after) :
    trim p (before ++ (l ++ after)) = trim p l := by
  rw [trim, dropWhile_blank blank, List.dropWhile_append, trim]
  by_cases empty : l.dropWhile p = []
  · rw [empty, List.isEmpty_nil, if_pos rfl, List.dropWhile_eq_nil_iff.mpr blank']
  · rw [if_neg (by simpa using empty), rdropWhile_blank _ blank']

theorem trim_eq_self_iff {l : List α} : trim p l = l ↔ Solid p l := by
  constructor
  · intro same
    rw [← same]
    exact solid_trim l
  · intro solid
    have blank : Blank p ([] : List α) := fun _ member => absurd member List.not_mem_nil
    simpa using trim_of_solid blank solid blank

theorem trim_eq_nil_iff {l : List α} : trim p l = [] ↔ Blank p l := by
  constructor
  · intro empty
    obtain ⟨before, after, split, blank, blank'⟩ := trim_split (p := p) l
    rw [split, empty]
    exact blank_append_iff.mpr ⟨blank, blank'⟩
  · intro blank
    have none : l.dropWhile p = [] := List.dropWhile_eq_nil_iff.mpr blank
    rw [trim, none]
    rfl

end Trim

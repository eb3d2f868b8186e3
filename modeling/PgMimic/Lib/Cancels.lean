import Mathlib.Data.List.Basic

/-!
# Codes told apart in front of what may follow them

A code cancels in front of tails of some kind when a code word and such a tail behind it
are known from the two together. Words that cancel in front of anything may stand one
after another, up to a tail that begins with no word (`Cancels.flatMap`).
-/

universe u v

variable {α : Type u} {β : Type v} {f : α → List β} {S : List β → Prop}

def Cancels (f : α → List β) (S : List β → Prop) : Prop :=
  ∀ ⦃a b x y⦄, S x → S y → f a ++ x = f b ++ y → a = b ∧ x = y

theorem Cancels.flatMap (words : Cancels f fun _ => True) (stops : ∀ a x, ¬ S (f a ++ x)) :
    Cancels (fun l : List α => l.flatMap f) S := by
  intro l l' x y hx hy same
  induction l generalizing l' with
  | nil =>
    cases l' with
    | nil => exact ⟨rfl, same⟩
    | cons b l' =>
      simp only [List.flatMap_nil, List.nil_append, List.flatMap_cons, List.append_assoc] at same
      exact absurd (same ▸ hx) (stops b _)
  | cons a l ih =>
    cases l' with
    | nil =>
      simp only [List.flatMap_nil, List.nil_append, List.flatMap_cons, List.append_assoc] at same
      exact absurd (same.symm ▸ hy) (stops a _)
    | cons b l' =>
      simp only [List.flatMap_cons, List.append_assoc] at same
      obtain ⟨rfl, rest⟩ := words trivial trivial same
      obtain ⟨rfl, tails⟩ := ih rest
      exact ⟨rfl, tails⟩

/-- Without its separator a text ends where the separator, or the text, does. -/
theorem cancels_of_not_mem {sep : β} {l l' x y : List β} (absent : sep ∉ l) (absent' : sep ∉ l')
    (hx : ∀ c ∈ x.head?, c = sep) (hy : ∀ c ∈ y.head?, c = sep) (same : l ++ x = l' ++ y) :
    l = l' ∧ x = y := by
  induction l generalizing l' with
  | nil =>
    cases l' with
    | nil => exact ⟨rfl, same⟩
    | cons b l' =>
      rw [List.nil_append] at same
      rw [same] at hx
      exact absurd (hx b rfl ▸ List.mem_cons_self) absent'
  | cons a l ih =>
    rw [List.mem_cons, not_or] at absent
    cases l' with
    | nil =>
      rw [List.nil_append] at same
      rw [← same] at hy
      exact absurd (hy a rfl).symm absent.1
    | cons b l' =>
      rw [List.mem_cons, not_or] at absent'
      rw [List.cons_append, List.cons_append, List.cons.injEq] at same
      obtain ⟨rfl, rest⟩ := same
      obtain ⟨rfl, tails⟩ := ih absent.2 absent'.2 rest
      exact ⟨rfl, tails⟩

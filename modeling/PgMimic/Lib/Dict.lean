import Mathlib.Data.List.Nodup
import Mathlib.Data.List.Basic

/-!
# Insertion-ordered dictionaries

Assigning to a key already present keeps its place, a new key goes to the end,
and iteration follows that order. Distinctness of the keys is a field, so every
dictionary that can be built has it. Two dictionaries are `Same` when they hold
the same value under every key, whatever order the keys came in.
-/

universe u v

structure Dict (κ : Type u) (ν : Type v) where
  entries : List (κ × ν)
  distinct : (entries.map Prod.fst).Nodup
  deriving DecidableEq

namespace Dict

variable {κ : Type u} {ν : Type v} [DecidableEq κ]

def empty : Dict κ ν := ⟨[], List.nodup_nil⟩

instance : EmptyCollection (Dict κ ν) := ⟨empty⟩

def keys (d : Dict κ ν) : List κ := d.entries.map Prod.fst

/-- The first match in a list of pairs. -/
def find (k : κ) : List (κ × ν) → Option ν
  | [] => none
  | p :: rest => if p.1 = k then some p.2 else find k rest

def get? (d : Dict κ ν) (k : κ) : Option ν := find k d.entries

/-- Replace in place, or append. -/
def put (k : κ) (v : ν) : List (κ × ν) → List (κ × ν)
  | [] => [(k, v)]
  | p :: rest => if p.1 = k then (k, v) :: rest else p :: put k v rest

theorem mem_keys_put {k a : κ} {v : ν} {l : List (κ × ν)} :
    a ∈ (put k v l).map Prod.fst ↔ a = k ∨ a ∈ l.map Prod.fst := by
  induction l with
  | nil => simp [put]
  | cons p rest ih =>
    by_cases hp : p.1 = k
    · simp [put, hp]
    · simp only [put, if_neg hp, List.map_cons, List.mem_cons, ih]
      tauto

theorem nodup_put (k : κ) (v : ν) {l : List (κ × ν)} (h : (l.map Prod.fst).Nodup) :
    ((put k v l).map Prod.fst).Nodup := by
  induction l with
  | nil => simp [put]
  | cons p rest ih =>
    rw [List.map_cons, List.nodup_cons] at h
    by_cases hp : p.1 = k
    · rw [put, if_pos hp, List.map_cons, List.nodup_cons]
      exact hp ▸ h
    · rw [put, if_neg hp, List.map_cons, List.nodup_cons]
      refine ⟨?_, ih h.2⟩
      intro hmem
      rcases mem_keys_put.mp hmem with heq | hrest
      · exact hp heq
      · exact h.1 hrest

def set (d : Dict κ ν) (k : κ) (v : ν) : Dict κ ν :=
  ⟨put k v d.entries, nodup_put k v d.distinct⟩

def erase (d : Dict κ ν) (k : κ) : Dict κ ν :=
  ⟨d.entries.filter (fun p => p.1 ≠ k),
    d.distinct.sublist (List.filter_sublist.map Prod.fst)⟩

@[simp] theorem get?_empty (k : κ) : (∅ : Dict κ ν).get? k = none := rfl

theorem find_put (k a : κ) (v : ν) (l : List (κ × ν)) :
    find a (put k v l) = if a = k then some v else find a l := by
  induction l with
  | nil => simp [put, find, eq_comm]
  | cons p rest ih =>
    by_cases hp : p.1 = k
    · by_cases ha : a = k
      · simp [put, find, hp, ha]
      · simp [put, find, hp, ha, Ne.symm ha]
    · by_cases ha : p.1 = a
      · simp [put, find, ha, show a ≠ k from fun h => hp (ha.trans h)]
      · simp [put, find, hp, ha, ih]

theorem find_filter (k a : κ) (l : List (κ × ν)) :
    find a (l.filter (fun p => p.1 ≠ k)) = if a = k then none else find a l := by
  induction l with
  | nil => simp [find]
  | cons p rest ih =>
    by_cases hp : p.1 = k
    · rw [List.filter_cons_of_neg (by simpa using hp), ih]
      by_cases ha : a = k
      · simp [ha]
      · simp [find, ha, hp, Ne.symm ha]
    · rw [List.filter_cons_of_pos (by simpa using hp)]
      by_cases ha : p.1 = a
      · simp [find, ha, show a ≠ k from fun h => hp (ha.trans h)]
      · rw [find, if_neg ha, ih, find, if_neg ha]

theorem get?_set (d : Dict κ ν) (k a : κ) (v : ν) :
    (d.set k v).get? a = if a = k then some v else d.get? a := find_put k a v d.entries

theorem get?_erase (d : Dict κ ν) (k a : κ) :
    (d.erase k).get? a = if a = k then none else d.get? a := find_filter k a d.entries

theorem find_eq_none_iff {k : κ} {l : List (κ × ν)} :
    find k l = none ↔ k ∉ l.map Prod.fst := by
  induction l with
  | nil => simp [find]
  | cons p rest ih =>
    by_cases hp : p.1 = k
    · simp [find, hp]
    · simp [find, hp, ih, Ne.symm hp]

theorem mem_of_find {k : κ} {v : ν} {l : List (κ × ν)} (h : find k l = some v) : (k, v) ∈ l := by
  induction l with
  | nil => cases h
  | cons p rest ih =>
    by_cases hp : p.1 = k
    · rw [find, if_pos hp] at h
      apply List.mem_cons.mpr
      exact Or.inl (Prod.ext hp.symm (Option.some.inj h).symm)
    · rw [find, if_neg hp] at h
      exact List.mem_cons_of_mem p (ih h)

theorem put_of_find {k : κ} {v : ν} {l : List (κ × ν)} (h : find k l = some v) :
    put k v l = l := by
  induction l with
  | nil => cases h
  | cons p rest ih =>
    by_cases hp : p.1 = k
    · have hv : p.2 = v := Option.some.inj (by simpa [find, hp] using h)
      rw [put, if_pos hp, ← hp, ← hv]
    · simp [put, hp, ih (by simpa [find, hp] using h)]

/-- Assign these in turn. -/
def update (d : Dict κ ν) (l : List (κ × ν)) : Dict κ ν := l.foldl (fun d p => d.set p.1 p.2) d

theorem mem_keys_update {d : Dict κ ν} {l : List (κ × ν)} {a : κ} :
    a ∈ (d.update l).keys ↔ a ∈ l.map Prod.fst ∨ a ∈ d.keys := by
  induction l generalizing d with
  | nil => exact ⟨Or.inr, fun either => either.resolve_left List.not_mem_nil⟩
  | cons p rest ih =>
    have first : a ∈ (d.set p.1 p.2).keys ↔ a = p.1 ∨ a ∈ d.keys := mem_keys_put
    rw [update, List.foldl_cons, ← update, ih, first, List.map_cons, List.mem_cons, or_assoc,
      or_left_comm]

theorem get?_update_of_not_mem {d : Dict κ ν} {l : List (κ × ν)} {k : κ}
    (absent : k ∉ l.map Prod.fst) : (d.update l).get? k = d.get? k := by
  induction l generalizing d with
  | nil => rfl
  | cons p rest ih =>
    obtain ⟨other, later⟩ := List.ne_and_not_mem_of_not_mem_cons absent
    rw [update, List.foldl_cons, ← update, ih later, get?_set, if_neg other]

/-- Of keys that are all different each keeps its value. -/
theorem get?_update {d : Dict κ ν} {l : List (κ × ν)} {k : κ} {v : ν}
    (once : (l.map Prod.fst).Nodup) (member : (k, v) ∈ l) : (d.update l).get? k = some v := by
  induction l generalizing d with
  | nil => cases member
  | cons p rest ih =>
    rw [List.map_cons, List.nodup_cons] at once
    rw [update, List.foldl_cons, ← update]
    rcases List.mem_cons.mp member with rfl | later
    · rw [get?_update_of_not_mem once.1, get?_set, if_pos rfl]
    · exact ih once.2 later

/-- Writing back the value that is there changes nothing, order included. -/
theorem set_eq_self {d : Dict κ ν} {k : κ} {v : ν} (h : d.get? k = some v) : d.set k v = d := by
  cases d with
  | mk entries distinct => simp only [set, put_of_find h]

theorem erase_eq_self {d : Dict κ ν} {k : κ} (h : d.get? k = none) : d.erase k = d := by
  cases d with
  | mk entries distinct =>
    have absent : ∀ p ∈ entries, p.1 ≠ k := by
      intro p hp heq
      exact find_eq_none_iff.mp h (List.mem_map.mpr ⟨p, hp, heq⟩)
    simp only [erase, mk.injEq]
    exact List.filter_eq_self.mpr (fun p hp => by simpa using absent p hp)

/-- Equality of contents, the order of the keys apart. -/
def Same (d e : Dict κ ν) : Prop := ∀ k, d.get? k = e.get? k

theorem Same.refl (d : Dict κ ν) : d.Same d := fun _ => rfl

end Dict

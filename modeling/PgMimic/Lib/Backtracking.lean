import Mathlib.Data.List.Basic
import Mathlib.Data.List.Infix
import Mathlib.Data.List.TakeWhile

/-!
# Matching with backtracking

A pattern takes something off the front of a text. It may do so in several ways, which
are listed in the order a backtracking matcher comes to them: a sequence goes through the
ways of its second part for each way of the first, a greedy repetition starts with the
longest run, a reluctant one with the shortest. A match is the first way of the whole.
-/

namespace Backtracking

universe u

/-- What each way captures, and the text it leaves. -/
structure Pattern (α β : Type u) where
  ways : List α → List (β × List α)

namespace Pattern

variable {α β γ : Type u}

instance : Monad (Pattern α) where
  pure b := ⟨fun text => [(b, text)]⟩
  bind p f := ⟨fun text => (p.ways text).flatMap fun way => (f way.1).ways way.2⟩

/-- What the first way captures. -/
def capture (p : Pattern α β) (text : List α) : Option β := (p.ways text).head?.map Prod.fst

/-- The capture of the first place in the text at which there is a match. -/
def search (p : Pattern α β) (text : List α) : Option β := text.tails.findSome? p.capture

/-- One element. -/
def one (ok : α → Bool) : Pattern α α where
  ways
    | [] => []
    | a :: text => if ok a then [(a, text)] else []

def manyWays (ok : α → Bool) : List α → List (List α × List α)
  | [] => [([], [])]
  | a :: text =>
    (if ok a then (manyWays ok text).map fun way => (a :: way.1, way.2) else []) ++ [([], a :: text)]

def fewWays (ok : α → Bool) : List α → List (List α × List α)
  | [] => [([], [])]
  | a :: text =>
    ([], a :: text) :: if ok a then (fewWays ok text).map fun way => (a :: way.1, way.2) else []

/-- As long a run as there is, or a shorter one. -/
def many (ok : α → Bool) : Pattern α (List α) := ⟨manyWays ok⟩

/-- As short a run as will do. -/
def few (ok : α → Bool) : Pattern α (List α) := ⟨fewWays ok⟩

def many1 (ok : α → Bool) : Pattern α (List α) := do
  let a ← one ok
  let run ← many ok
  pure (a :: run)

def few1 (ok : α → Bool) : Pattern α (List α) := do
  let a ← one ok
  let run ← few ok
  pure (a :: run)

def either (p q : Pattern α β) : Pattern α β := ⟨fun text => p.ways text ++ q.ways text⟩

/-- With the pattern if it can be, without it otherwise. -/
def optional (p : Pattern α β) : Pattern α (Option β) :=
  either (do let b ← p; pure (some b)) (pure none)

/-- Nothing, where the pattern has no way. -/
def notAhead (p : Pattern α β) : Pattern α PUnit :=
  ⟨fun text => if (p.ways text).isEmpty then [(⟨⟩, text)] else []⟩

/-- The text a pattern takes. -/
def taken (p : Pattern α β) : Pattern α (List α) where
  ways text := (p.ways text).map fun way => (text.take (text.length - way.2.length), way.2)

/-! ## The ways there are -/

section Ways

variable {text : List α} {b : β} {rest : List α}

@[simp] theorem mem_pure {b' : β} :
    (b', rest) ∈ (pure b : Pattern α β).ways text ↔ b' = b ∧ rest = text := by
  change (b', rest) ∈ [(b, text)] ↔ _
  rw [List.mem_singleton, Prod.mk.injEq]

@[simp] theorem mem_bind {p : Pattern α β} {f : β → Pattern α γ} {c : γ} :
    (c, rest) ∈ (p >>= f).ways text ↔
      ∃ b between, (b, between) ∈ p.ways text ∧ (c, rest) ∈ (f b).ways between := by
  change (c, rest) ∈ (p.ways text).flatMap (fun way => (f way.1).ways way.2) ↔ _
  rw [List.mem_flatMap]
  constructor
  · rintro ⟨⟨b, between⟩, first, later⟩
    exact ⟨b, between, first, later⟩
  · rintro ⟨b, between, first, later⟩
    exact ⟨(b, between), first, later⟩

@[simp] theorem mem_either {p q : Pattern α β} :
    (b, rest) ∈ (either p q).ways text ↔ (b, rest) ∈ p.ways text ∨ (b, rest) ∈ q.ways text :=
  List.mem_append

theorem mem_one {ok : α → Bool} {a : α} :
    (a, rest) ∈ (one ok).ways text ↔ ok a = true ∧ text = a :: rest := by
  cases text with
  | nil => simp [one]
  | cons c text =>
    by_cases holds : ok c
    · simp only [one, holds, if_true, List.mem_singleton, Prod.mk.injEq, List.cons.injEq]
      constructor
      · rintro ⟨rfl, rfl⟩
        exact ⟨holds, rfl, rfl⟩
      · rintro ⟨_, rfl, rfl⟩
        exact ⟨rfl, rfl⟩
    · simp only [one, holds, Bool.false_eq_true, if_false, List.not_mem_nil, List.cons.injEq,
        false_iff]
      rintro ⟨holds', rfl, _⟩
      exact holds holds'

theorem mem_many {ok : α → Bool} {run : List α} :
    (run, rest) ∈ (many ok).ways text ↔ text = run ++ rest ∧ ∀ a ∈ run, ok a = true := by
  change (run, rest) ∈ manyWays ok text ↔ _
  induction text generalizing run with
  | nil =>
    simp only [manyWays, List.mem_singleton, Prod.mk.injEq]
    constructor
    · rintro ⟨rfl, rfl⟩
      exact ⟨rfl, by simp⟩
    · rintro ⟨split, _⟩
      exact List.append_eq_nil_iff.mp split.symm
  | cons a text ih =>
    rw [manyWays, List.mem_append, List.mem_singleton, Prod.mk.injEq]
    constructor
    · rintro (longer | ⟨rfl, rfl⟩)
      · by_cases holds : ok a
        · rw [if_pos holds, List.mem_map] at longer
          obtain ⟨⟨run', rest'⟩, member, same⟩ := longer
          obtain ⟨rfl, rfl⟩ := Prod.mk.inj same
          obtain ⟨rfl, all⟩ := ih.mp member
          exact ⟨rfl, List.forall_mem_cons.mpr ⟨holds, all⟩⟩
        · rw [if_neg holds] at longer
          cases longer
      · exact ⟨rfl, by simp⟩
    · rintro ⟨split, all⟩
      cases run with
      | nil => exact Or.inr ⟨rfl, split.symm⟩
      | cons c run =>
        obtain ⟨rfl, later⟩ := List.cons.inj (split.trans (List.cons_append ..))
        obtain ⟨holds, all⟩ := List.forall_mem_cons.mp all
        refine Or.inl ?_
        rw [if_pos holds, List.mem_map]
        exact ⟨(run, rest), ih.mpr ⟨later, all⟩, rfl⟩

/-- The two repetitions differ in the order of their ways alone. -/
theorem mem_few {ok : α → Bool} {run : List α} :
    (run, rest) ∈ (few ok).ways text ↔ text = run ++ rest ∧ ∀ a ∈ run, ok a = true := by
  rw [← mem_many]
  change (run, rest) ∈ fewWays ok text ↔ (run, rest) ∈ manyWays ok text
  induction text generalizing run rest with
  | nil => exact Iff.rfl
  | cons a text ih =>
    rw [fewWays, manyWays, List.mem_cons, List.mem_append, List.mem_singleton, or_comm]
    refine or_congr_left ?_
    by_cases holds : ok a
    · rw [if_pos holds, if_pos holds, List.mem_map, List.mem_map]
      exact exists_congr fun way => and_congr_left fun _ => ih
    · rw [if_neg holds, if_neg holds]

theorem mem_many1 {ok : α → Bool} {run : List α} :
    (run, rest) ∈ (many1 ok).ways text ↔
      text = run ++ rest ∧ run ≠ [] ∧ ∀ a ∈ run, ok a = true := by
  simp only [many1, mem_bind, mem_pure, mem_one, mem_many]
  constructor
  · rintro ⟨a, _, ⟨holds, rfl⟩, run, _, ⟨rfl, all⟩, rfl, rfl⟩
    exact ⟨rfl, by simp, List.forall_mem_cons.mpr ⟨holds, all⟩⟩
  · rintro ⟨rfl, nonempty, all⟩
    cases run with
    | nil => exact absurd rfl nonempty
    | cons a run =>
      obtain ⟨holds, all⟩ := List.forall_mem_cons.mp all
      exact ⟨a, run ++ rest, ⟨holds, rfl⟩, run, rest, ⟨rfl, all⟩, rfl, rfl⟩

theorem mem_few1 {ok : α → Bool} {run : List α} :
    (run, rest) ∈ (few1 ok).ways text ↔
      text = run ++ rest ∧ run ≠ [] ∧ ∀ a ∈ run, ok a = true := by
  rw [← mem_many1]
  simp only [few1, many1, mem_bind, mem_few, mem_many]

theorem mem_optional {p : Pattern α β} {found : Option β} :
    (found, rest) ∈ (optional p).ways text ↔
      (∃ b, found = some b ∧ (b, rest) ∈ p.ways text) ∨ found = none ∧ rest = text := by
  simp only [optional, mem_either, mem_bind, mem_pure]
  constructor
  · rintro (⟨b, _, member, rfl, rfl⟩ | without)
    · exact Or.inl ⟨b, rfl, member⟩
    · exact Or.inr without
  · rintro (⟨b, rfl, member⟩ | without)
    · exact Or.inl ⟨b, rest, member, rfl, rfl⟩
    · exact Or.inr without

theorem mem_notAhead {p : Pattern α β} {found : PUnit} :
    (found, rest) ∈ (notAhead p).ways text ↔ p.ways text = [] ∧ rest = text := by
  cases h : p.ways text with
  | nil => simp [notAhead, h]
  | cons way ways => simp [notAhead, h]

end Ways

/-! ## Steps of a sequence -/

section Steps

/-- No way to start with an element that satisfies `ok`. -/
def Refuses (ok : α → Bool) (p : Pattern α β) : Prop :=
  ∀ a text, ok a = true → p.ways (a :: text) = []

variable {ok : α → Bool} {p q : Pattern α β} {f : β → Pattern α γ} {text rest : List α} {c : γ}

theorem bind_eq_nil (h : p.ways text = []) : (p >>= f).ways text = [] := by
  change (p.ways text).flatMap _ = []
  rw [h]
  rfl

theorem ways_bind (p : Pattern α β) (f : β → Pattern α γ) (text : List α) :
    (p >>= f).ways text = (p.ways text).flatMap fun way => (f way.1).ways way.2 := rfl

theorem bind_assoc {δ : Type u} (p : Pattern α β) (f : β → Pattern α γ) (g : γ → Pattern α δ) :
    (p >>= f) >>= g = p >>= fun b => f b >>= g := by
  change Pattern.mk _ = Pattern.mk _
  congr 1
  funext text
  exact List.flatMap_assoc

theorem pure_bind (b : β) (f : β → Pattern α γ) : (pure b : Pattern α β) >>= f = f b := by
  change Pattern.mk _ = _
  congr 1
  funext text
  exact List.flatMap_singleton ..

theorem ways_one_bind {f : α → Pattern α γ} {a : α} (holds : ok a = true) :
    (one ok >>= f).ways (a :: text) = (f a).ways text := by
  rw [ways_bind]
  simp only [one, holds, if_true, List.flatMap_singleton]

/-- The ways with an optional part, then those without. -/
theorem ways_optional_bind (f : Option β → Pattern α γ) :
    (optional p >>= f).ways text =
      (p >>= fun b => f (some b)).ways text ++ (f none).ways text := by
  have parts : (optional p).ways text =
      (p >>= fun b => pure (some b)).ways text ++ [(none, text)] := rfl
  rw [ways_bind, parts, List.flatMap_append, List.flatMap_singleton, ← ways_bind, bind_assoc]
  simp only [pure_bind]

theorem ways_either_bind {f : β → Pattern α γ} :
    (either p q >>= f).ways text = (p >>= f).ways text ++ (q >>= f).ways text := by
  rw [ways_bind, ways_bind, ways_bind, ← List.flatMap_append]
  rfl

theorem Refuses.bind (h : Refuses ok p) : Refuses ok (p >>= f) :=
  fun a text holds => bind_eq_nil (h a text holds)

theorem Refuses.either (h : Refuses ok p) (h' : Refuses ok q) : Refuses ok (either p q) := by
  intro a text holds
  change p.ways (a :: text) ++ q.ways (a :: text) = []
  rw [h a text holds, h' a text holds]
  rfl

theorem optional_bind_of_nil {f : Option β → Pattern α γ} (h : p.ways text = []) :
    (optional p >>= f).ways text = (f none).ways text := by
  rw [ways_optional_bind, bind_eq_nil h, List.nil_append]

/-- What comes after an optional part decides where the part is left out. -/
theorem Refuses.optional_bind {f : Option β → Pattern α γ} (h : Refuses ok p)
    (h' : Refuses ok (f none)) : Refuses ok (optional p >>= f) := by
  intro a text holds
  rw [optional_bind_of_nil (h a text holds)]
  exact h' a text holds

/-- Before what refuses its elements a repetition takes the whole run. -/
theorem ways_many_bind {f : List α → Pattern α γ} {run : List α}
    (all : ∀ a ∈ run, ok a = true) (stops : ∀ a ∈ text.head?, ok a = false)
    (refuses : ∀ taken, Refuses ok (f taken)) :
    (many ok >>= f).ways (run ++ text) = (f run).ways text := by
  change (manyWays ok (run ++ text)).flatMap (fun way => (f way.1).ways way.2) = _
  induction run generalizing f with
  | nil =>
    have one : manyWays ok text = [([], text)] := by
      cases text with
      | nil => rfl
      | cons a text => rw [manyWays, stops a rfl]; rfl
    rw [List.nil_append, one, List.flatMap_singleton]
  | cons a run ih =>
    obtain ⟨holds, all⟩ := List.forall_mem_cons.mp all
    rw [List.cons_append, manyWays, if_pos holds, List.flatMap_append, List.flatMap_singleton,
      refuses [] a _ holds, List.append_nil, List.flatMap_map]
    exact ih all fun taken => refuses (a :: taken)

/-- The whole run comes first, whatever comes after it. -/
theorem ways_many_bind_longest {f : List α → Pattern α γ} {run : List α}
    (all : ∀ a ∈ run, ok a = true) (stops : ∀ a ∈ text.head?, ok a = false) :
    ∃ shorter, (many ok >>= f).ways (run ++ text) = (f run).ways text ++ shorter := by
  change ∃ shorter, (manyWays ok (run ++ text)).flatMap (fun way => (f way.1).ways way.2) = _
  induction run generalizing f with
  | nil =>
    have one : manyWays ok text = [([], text)] := by
      cases text with
      | nil => rfl
      | cons a text => rw [manyWays, stops a rfl]; rfl
    exact ⟨[], by rw [List.nil_append, one, List.flatMap_singleton, List.append_nil]⟩
  | cons a run ih =>
    obtain ⟨holds, all⟩ := List.forall_mem_cons.mp all
    obtain ⟨shorter, longest⟩ := ih all (f := fun taken => f (a :: taken))
    refine ⟨shorter ++ (f []).ways (a :: (run ++ text)), ?_⟩
    rw [List.cons_append, manyWays, if_pos holds, List.flatMap_append, List.flatMap_singleton,
      List.flatMap_map, ← List.append_assoc, ← longest]

theorem ways_many1_bind {f : List α → Pattern α γ} {run : List α} (nonempty : run ≠ [])
    (all : ∀ a ∈ run, ok a = true) (stops : ∀ a ∈ text.head?, ok a = false)
    (refuses : ∀ taken, Refuses ok (f taken)) :
    (many1 ok >>= f).ways (run ++ text) = (f run).ways text := by
  obtain ⟨a, run, rfl⟩ := List.exists_cons_of_ne_nil nonempty
  obtain ⟨holds, all⟩ := List.forall_mem_cons.mp all
  have rest := ways_many_bind all stops fun taken => refuses (a :: taken)
  rw [many1, bind_assoc, List.cons_append, ways_one_bind holds, bind_assoc]
  simpa only [pure_bind] using rest

end Steps

/-! ## What is captured -/

section Captures

variable {p : Pattern α β} {text : List α} {b : β}

theorem capture_eq_none_iff : p.capture text = none ↔ ∀ b rest, (b, rest) ∉ p.ways text := by
  rw [capture, Option.map_eq_none_iff, List.head?_eq_none_iff, List.eq_nil_iff_forall_not_mem]
  exact Prod.forall

theorem mem_of_capture (h : p.capture text = some b) : ∃ rest, (b, rest) ∈ p.ways text := by
  obtain ⟨way, first, rfl⟩ := Option.map_eq_some_iff.mp h
  exact ⟨way.2, List.mem_of_mem_head? first⟩

/-- Where all the ways capture alike, the order in which they come is no matter. -/
theorem capture_satisfies {P : β → Prop} {rest : List α} (way : (b, rest) ∈ p.ways text)
    (all : ∀ b' rest', (b', rest') ∈ p.ways text → P b') :
    ∃ b', p.capture text = some b' ∧ P b' := by
  cases h : p.capture text with
  | none => exact absurd way (capture_eq_none_iff.mp h b rest)
  | some b' =>
    obtain ⟨rest', member⟩ := mem_of_capture h
    exact ⟨b', rfl, all b' rest' member⟩

theorem capture_congr {q : Pattern α β} {text' : List α} (same : p.ways text = q.ways text') :
    p.capture text = q.capture text' := by
  rw [capture, capture, same]

theorem capture_eq_none (nothing : p.ways text = []) : p.capture text = none := by
  rw [capture, nothing]
  rfl

theorem capture_append {q : Pattern α β} {text' : List α} {others : List (β × List α)}
    (same : p.ways text = q.ways text' ++ others) (found : q.capture text' = some b) :
    p.capture text = some b := by
  obtain ⟨way, first, rfl⟩ := Option.map_eq_some_iff.mp found
  rw [capture, same, List.head?_append, first]
  rfl

/-- Where an optional part can be, and the rest matches behind it. -/
theorem capture_optional_bind {f : Option γ → Pattern α β} {q : Pattern α γ}
    (found : (q >>= fun c => f (some c)).capture text = some b) :
    (optional q >>= f).capture text = some b :=
  capture_append (ways_optional_bind f) found

/-- Where the longest run will do. -/
theorem capture_many1_bind {ok : α → Bool} {f : List α → Pattern α β} {run : List α}
    (nonempty : run ≠ []) (all : ∀ a ∈ run, ok a = true)
    (stops : ∀ a ∈ text.head?, ok a = false) (found : (f run).capture text = some b) :
    (many1 ok >>= f).capture (run ++ text) = some b := by
  obtain ⟨a, run, rfl⟩ := List.exists_cons_of_ne_nil nonempty
  obtain ⟨holds, all⟩ := List.forall_mem_cons.mp all
  obtain ⟨shorter, longest⟩ := ways_many_bind_longest all stops (f := fun taken => f (a :: taken))
  have same : (many1 ok >>= f).ways (a :: run ++ text) = (f (a :: run)).ways text ++ shorter := by
    rw [many1, bind_assoc, List.cons_append, ways_one_bind holds, bind_assoc]
    simpa only [pure_bind] using longest
  exact capture_append same found

end Captures

end Pattern

end Backtracking

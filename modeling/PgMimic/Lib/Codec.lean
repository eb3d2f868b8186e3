import Mathlib.Data.List.Basic

/-!
# Layouts that say where they end

A layout lays a value out as a run of symbols, or refuses it; a reader takes a value off the
front of what it is given. `Reads` ties the two: a good value comes back with whatever is
behind it, and a reader returns no other value. Layouts are put together from parts, and each
combinator has its rule.
-/

namespace Codec

variable {α γ β : Type}

/-- The reader takes back what is laid out, exactly for good values. -/
structure Reads (pack : α → Option (List β)) (read : List β → Option (α × List β))
    (Good : α → Prop) : Prop where
  back : ∀ {a bytes}, pack a = some bytes → Good a → ∀ rest, read (bytes ++ rest) = some (a, rest)
  good : ∀ {bytes a rest}, read bytes = some (a, rest) → Good a

/-- One value behind another. -/
def packBoth (pack : α → Option (List β)) (pack' : γ → Option (List β)) (x : α × γ) :
    Option (List β) := do
  let front ← pack x.1
  let back ← pack' x.2
  some (front ++ back)

def readBoth (read : List β → Option (α × List β)) (read' : List β → Option (γ × List β))
    (bytes : List β) : Option ((α × γ) × List β) := do
  let (a, bytes) ← read bytes
  let (c, bytes) ← read' bytes
  some ((a, c), bytes)

/-- So many values, one behind another. -/
def packAll (pack : α → Option (List β)) : List α → Option (List β)
  | [] => some []
  | a :: as => do
    let front ← pack a
    let back ← packAll pack as
    some (front ++ back)

def readMany (read : List β → Option (α × List β)) : Nat → List β → Option (List α × List β)
  | 0, bytes => some ([], bytes)
  | n + 1, bytes => do
    let (a, bytes) ← read bytes
    let (as, bytes) ← readMany read n bytes
    some (a :: as, bytes)

/-- The count in front of the values. -/
def packCounted (packCount : Nat → Option (List β)) (pack : α → Option (List β)) (as : List α) :
    Option (List β) := do
  let count ← packCount as.length
  let items ← packAll pack as
  some (count ++ items)

def readCounted (readCount : List β → Option (Nat × List β))
    (read : List β → Option (α × List β)) (bytes : List β) : Option (List α × List β) := do
  let (count, bytes) ← readCount bytes
  readMany read count bytes

/-- A value that stands for another. -/
def readAs (f : α → γ) (read : List β → Option (α × List β)) (bytes : List β) :
    Option (γ × List β) :=
  (read bytes).map fun r => (f r.1, r.2)

/-- The value that all of the symbols are. -/
def whole (read : List β → Option (α × List β)) (bytes : List β) : Option α :=
  match read bytes with
  | some (a, []) => some a
  | _ => none

theorem packBoth_eq_some {pack : α → Option (List β)} {pack' : γ → Option (List β)} {x : α × γ}
    {bytes : List β} (packed : packBoth pack pack' x = some bytes) :
    ∃ front back, pack x.1 = some front ∧ pack' x.2 = some back ∧ bytes = front ++ back := by
  simp only [packBoth, Option.bind_eq_bind, Option.bind_eq_some_iff, Option.some.injEq] at packed
  obtain ⟨front, first, back, second, rfl⟩ := packed
  exact ⟨front, back, first, second, rfl⟩

theorem packAll_cons_eq_some {pack : α → Option (List β)} {a : α} {as : List α} {bytes : List β}
    (packed : packAll pack (a :: as) = some bytes) :
    ∃ front back, pack a = some front ∧ packAll pack as = some back ∧ bytes = front ++ back := by
  simp only [packAll, Option.bind_eq_bind, Option.bind_eq_some_iff, Option.some.injEq] at packed
  obtain ⟨front, first, back, second, rfl⟩ := packed
  exact ⟨front, back, first, second, rfl⟩

theorem packCounted_eq_some {packCount : Nat → Option (List β)} {pack : α → Option (List β)}
    {as : List α} {bytes : List β} (packed : packCounted packCount pack as = some bytes) :
    ∃ count items, packCount as.length = some count ∧ packAll pack as = some items ∧
      bytes = count ++ items := by
  simp only [packCounted, Option.bind_eq_bind, Option.bind_eq_some_iff, Option.some.injEq] at packed
  obtain ⟨count, first, items, second, rfl⟩ := packed
  exact ⟨count, items, first, second, rfl⟩

theorem readMany_succ_eq_some {read : List β → Option (α × List β)} {n : Nat} {bytes rest : List β}
    {as : List α} (reads : readMany read (n + 1) bytes = some (as, rest)) :
    ∃ a others between, read bytes = some (a, between) ∧
      readMany read n between = some (others, rest) ∧ as = a :: others := by
  simp only [readMany, Option.bind_eq_bind, Option.bind_eq_some_iff, Option.some.injEq,
    Prod.mk.injEq] at reads
  obtain ⟨⟨a, between⟩, first, ⟨others, last⟩, second, rfl, rfl⟩ := reads
  exact ⟨a, others, between, first, second, rfl⟩

namespace Reads

variable {pack : α → Option (List β)} {read : List β → Option (α × List β)} {Good : α → Prop}
variable {pack' : γ → Option (List β)} {read' : List β → Option (γ × List β)} {Good' : γ → Prop}

theorem both (h : Reads pack read Good) (h' : Reads pack' read' Good') :
    Reads (packBoth pack pack') (readBoth read read') fun x => Good x.1 ∧ Good' x.2 where
  back := by
    rintro ⟨a, c⟩ bytes packed ⟨first, second⟩ rest
    obtain ⟨front, back, packs, packs', rfl⟩ := packBoth_eq_some packed
    rw [readBoth, List.append_assoc, h.back packs first]
    simp only [Option.bind_eq_bind, Option.bind_some, h'.back packs' second]
  good := by
    rintro bytes ⟨a, c⟩ rest reads
    simp only [readBoth, Option.bind_eq_bind, Option.bind_eq_some_iff, Option.some.injEq,
      Prod.mk.injEq] at reads
    obtain ⟨⟨a, bytes⟩, first, ⟨c, bytes⟩, second, ⟨rfl, rfl⟩, rfl⟩ := reads
    exact ⟨h.good first, h'.good second⟩

theorem readMany_packAll (h : Reads pack read Good) {as : List α} {bytes : List β}
    (packed : packAll pack as = some bytes) (good : ∀ a ∈ as, Good a) (rest : List β) :
    readMany read as.length (bytes ++ rest) = some (as, rest) := by
  induction as generalizing bytes with
  | nil =>
    obtain rfl := Option.some.inj packed
    rfl
  | cons a as ih =>
    obtain ⟨front, back, packs, others, rfl⟩ := packAll_cons_eq_some packed
    obtain ⟨first, later⟩ := List.forall_mem_cons.mp good
    rw [List.length_cons, readMany, List.append_assoc, h.back packs first]
    simp only [Option.bind_eq_bind, Option.bind_some, ih others later]

theorem good_of_readMany (h : Reads pack read Good) {n : Nat} {as : List α} {bytes rest : List β}
    (reads : readMany read n bytes = some (as, rest)) : as.length = n ∧ ∀ a ∈ as, Good a := by
  induction n generalizing as bytes with
  | zero =>
    obtain ⟨rfl, rfl⟩ := Prod.mk.inj (Option.some.inj reads)
    exact ⟨rfl, fun a member => absurd member List.not_mem_nil⟩
  | succ n ih =>
    obtain ⟨a, others, between, first, second, rfl⟩ := readMany_succ_eq_some reads
    obtain ⟨count, good⟩ := ih second
    exact ⟨congrArg Nat.succ count, List.forall_mem_cons.mpr ⟨h.good first, good⟩⟩

theorem counted {packCount : Nat → Option (List β)} {readCount : List β → Option (Nat × List β)}
    (count : Reads packCount readCount fun _ => True) (h : Reads pack read Good) :
    Reads (packCounted packCount pack) (readCounted readCount read) fun as => ∀ a ∈ as, Good a where
  back := by
    intro as bytes packed good rest
    obtain ⟨front, items, first, second, rfl⟩ := packCounted_eq_some packed
    rw [readCounted, List.append_assoc, count.back first trivial]
    exact h.readMany_packAll second good rest
  good := by
    intro bytes as rest reads
    simp only [readCounted, Option.bind_eq_bind, Option.bind_eq_some_iff] at reads
    obtain ⟨⟨n, between⟩, first, second⟩ := reads
    exact (h.good_of_readMany second).2

theorem imp (h : Reads pack read Good) {Better : α → Prop} (same : ∀ a, Better a ↔ Good a) :
    Reads pack read Better where
  back := fun packed good => h.back packed ((same _).mp good)
  good := fun reads => (same _).mpr (h.good reads)

/-- Along a bijection. -/
theorem as (h : Reads pack read Good) (f : α → γ) (g : γ → α) (there : ∀ c, f (g c) = c)
    (back : ∀ a, g (f a) = a) :
    Reads (fun c => pack (g c)) (readAs f read) fun c => Good (g c) where
  back := by
    intro c bytes packed good rest
    rw [readAs, h.back packed good rest, Option.map_some, there]
  good := by
    intro bytes c rest reads
    obtain ⟨⟨a, between⟩, first, same⟩ := Option.map_eq_some_iff.mp reads
    obtain ⟨rfl, rfl⟩ := Prod.mk.inj same
    rw [back]
    exact h.good first

theorem whole_back (h : Reads pack read Good) {a : α} {bytes : List β}
    (packed : pack a = some bytes) (good : Good a) : whole read bytes = some a := by
  have reads := h.back packed good []
  rw [List.append_nil] at reads
  rw [whole, reads]

theorem good_of_whole (h : Reads pack read Good) {a : α} {bytes : List β}
    (reads : whole read bytes = some a) : Good a := by
  simp only [whole] at reads
  split at reads
  · rename_i b front
    obtain rfl := Option.some.inj reads
    exact h.good front
  · cases reads

end Reads

end Codec

import Mathlib.Data.List.Sort
import Mathlib.Data.Rat.Defs
import Mathlib.Data.String.Basic
import PgMimic.Lib.Firsts
import PgMimic.Lib.Nested

/-!
# The rows DISTINCT ON keeps

The executor leaves the duplicates in, so the first row of each key is kept in Python. A key
that is a list or a dict is flattened into tuples to be put in a set, and the set tells two
keys apart by their flattened forms alone.
-/

namespace PgMimic.Tables

/-- A value of a key column, as Python holds it: NULL, a scalar of the column's type, an array,
or what a JSON document is loaded as. A number is its value: 1.0 is 1. -/
inductive KeyValue (Scalar : Type) where
  | null
  | bool (b : Bool)
  | number (value : ℚ)
  | string (text : String)
  | scalar (value : Scalar)
  | array (items : List (KeyValue Scalar))
  | object (members : List (String × KeyValue Scalar))

/-- What is no tuple, as a member of a set. `bool` is a subclass of `int`. -/
inductive Atom (Scalar : Type) where
  | none
  | number (value : ℚ)
  | string (text : String)
  | scalar (value : Scalar)
deriving DecidableEq

/-- A tuple of tuples. -/
abbrev Hashed (Scalar : Type) := Nested (Atom Scalar)

namespace KeyValue

variable {Scalar : Type}

/-- Induction with the hypothesis for all items and all members at once. -/
theorem induct {motive : KeyValue Scalar → Prop} (null : motive .null)
    (bool : ∀ b, motive (.bool b)) (number : ∀ q, motive (.number q))
    (string : ∀ text, motive (.string text)) (scalar : ∀ value, motive (.scalar value))
    (array : ∀ items, (∀ x ∈ items, motive x) → motive (.array items))
    (object : ∀ members, (∀ m ∈ members, motive m.2) → motive (.object members)) :
    ∀ value, motive value
  | .null => null
  | .bool b => bool b
  | .number q => number q
  | .string text => string text
  | .scalar value => scalar value
  | .array items => array items (all items)
  | .object members => object members (each members)
where
  all : ∀ items : List (KeyValue Scalar), ∀ x ∈ items, motive x
    | [], _, member => absurd member List.not_mem_nil
    | y :: ys, x, member => (List.mem_cons.mp member).elim
        (fun same => same ▸ induct null bool number string scalar array object y)
        (fun later => all ys x later)
  each : ∀ members : List (String × KeyValue Scalar), ∀ m ∈ members, motive m.2
    | [], _, member => absurd member List.not_mem_nil
    | (_, value) :: ms, m, member => (List.mem_cons.mp member).elim
        (fun same => same ▸ induct null bool number string scalar array object value)
        (fun later => each ms m later)

/-- `sorted`, of items whose first components are all different. -/
def sortedItems {β : Type} (items : List (String × β)) : List (String × β) :=
  items.insertionSort fun a b => a.1 ≤ b.1

mutual

/-- `_hashable`. -/
def hashable : KeyValue Scalar → Hashed Scalar
  | .null => .leaf .none
  | .bool b => .leaf (.number (if b then 1 else 0))
  | .number q => .leaf (.number q)
  | .string text => .leaf (.string text)
  | .scalar value => .leaf (.scalar value)
  | .array items => .list (hashableAll items)
  | .object members => .list ((sortedItems (hashableMembers members)).map fun m =>
      .list [.leaf (.string m.1), m.2])

def hashableAll : List (KeyValue Scalar) → List (Hashed Scalar)
  | [] => []
  | x :: xs => x.hashable :: hashableAll xs

def hashableMembers : List (String × KeyValue Scalar) → List (String × Hashed Scalar)
  | [] => []
  | (key, value) :: members => (key, value.hashable) :: hashableMembers members

end

mutual

/-- A dict has a key once. -/
def WellFormed : KeyValue Scalar → Prop
  | .array items => AllWellFormed items
  | .object members => (members.map Prod.fst).Nodup ∧ MembersWellFormed members
  | _ => True

def AllWellFormed : List (KeyValue Scalar) → Prop
  | [] => True
  | x :: xs => x.WellFormed ∧ AllWellFormed xs

def MembersWellFormed : List (String × KeyValue Scalar) → Prop
  | [] => True
  | (_, value) :: members => value.WellFormed ∧ MembersWellFormed members

end

end KeyValue

/-- A value that Python can hold. -/
abbrev KeyCell (Scalar : Type) := { value : KeyValue Scalar // value.WellFormed }

section FirstRows

variable {ι Scalar : Type} [DecidableEq Scalar]

/-- The tuple that a row's key is looked up by. -/
def keyOf (keys : List ι) (row : ι → KeyCell Scalar) : List (Hashed Scalar) :=
  keys.map fun k => (row k).1.hashable

/-- The loop of `_first_row_per_key`, with what has been seen before. -/
def firstRowPerKeyFrom (keys : List ι) (seen : List (List (Hashed Scalar))) :
    List (ι → KeyCell Scalar) → List (ι → KeyCell Scalar)
  | [] => []
  | row :: rows =>
    if keyOf keys row ∈ seen then firstRowPerKeyFrom keys seen rows
    else row :: firstRowPerKeyFrom keys (keyOf keys row :: seen) rows

/-- `_first_row_per_key`. -/
def firstRowPerKey (rows : List (ι → KeyCell Scalar)) (keys : List ι) : List (ι → KeyCell Scalar) :=
  firstRowPerKeyFrom keys [] rows

end FirstRows

/-! ## What a document is -/

/-- A JSON document by what it says: an object is what it holds under each key. -/
inductive Document (Scalar : Type) where
  | null
  | bool (b : Bool)
  | number (value : ℚ)
  | string (text : String)
  | scalar (value : Scalar)
  | array (items : List (Document Scalar))
  | object (members : String → Option (Document Scalar))

namespace KeyValue

variable {Scalar : Type}

mutual

def document : KeyValue Scalar → Document Scalar
  | .null => .null
  | .bool b => .bool b
  | .number q => .number q
  | .string text => .string text
  | .scalar value => .scalar value
  | .array items => .array (documentAll items)
  | .object members => .object (documentAt members)

def documentAll : List (KeyValue Scalar) → List (Document Scalar)
  | [] => []
  | x :: xs => x.document :: documentAll xs

def documentAt : List (String × KeyValue Scalar) → String → Option (Document Scalar)
  | [], _ => none
  | (key, value) :: members, name =>
    if name = key then some value.document else documentAt members name

end

/-- The number that a value is equal to. -/
def number? : KeyValue Scalar → Option ℚ
  | .bool b => some (if b then 1 else 0)
  | .number q => some q
  | _ => none

/-- The items of an array; an object's are its members in the order of their keys, each an
array of its key and its value. -/
def items? : KeyValue Scalar → Option (List (KeyValue Scalar))
  | .array items => some items
  | .object members => some ((sortedItems members).map fun m => .array [.string m.1, m.2])
  | _ => none

/-- Two values that differ, if at all, in an object that stands for an array or the other way,
and in a truth value that stands for 1 or 0. -/
inductive Alike : KeyValue Scalar → KeyValue Scalar → Prop
  | null : Alike .null .null
  | string (text : String) : Alike (.string text) (.string text)
  | scalar (value : Scalar) : Alike (.scalar value) (.scalar value)
  | number {a b : KeyValue Scalar} {q : ℚ} (first : a.number? = some q)
      (second : b.number? = some q) : Alike a b
  | items {a b : KeyValue Scalar} {xs ys : List (KeyValue Scalar)} (first : a.items? = some xs)
      (second : b.items? = some ys) (each : List.Forall₂ Alike xs ys) : Alike a b

end KeyValue

/-- The rows have the same document under each key. -/
def SameKey {ι Scalar : Type} (keys : List ι) (r s : ι → KeyCell Scalar) : Prop :=
  ∀ k ∈ keys, (r k).1.document = (s k).1.document

open Classical in
/-- The first row of each class of rows with equal keys. -/
noncomputable def firstOfEachKey {ι Scalar : Type} (rows : List (ι → KeyCell Scalar))
    (keys : List ι) : List (ι → KeyCell Scalar) :=
  Firsts.firsts (SameKey keys) [] rows

/-! ## What flattening leaves of a value -/

namespace KeyValue

variable {Scalar : Type}

theorem hashableAll_eq (items : List (KeyValue Scalar)) :
    hashableAll items = items.map hashable := by
  induction items with
  | nil => rfl
  | cons x xs ih => rw [hashableAll, ih, List.map_cons]

theorem hashableMembers_eq (members : List (String × KeyValue Scalar)) :
    hashableMembers members = members.map fun m => (m.1, m.2.hashable) := by
  induction members with
  | nil => rfl
  | cons m members ih => rw [hashableMembers, ih, List.map_cons]

theorem sortedItems_map {β γ : Type} (f : β → γ) (items : List (String × β)) :
    sortedItems (items.map fun m => (m.1, f m.2)) = (sortedItems items).map fun m => (m.1, f m.2) :=
  (List.map_insertionSort (fun a b : String × β => a.1 ≤ b.1) (fun a b : String × γ => a.1 ≤ b.1)
    (fun m => (m.1, f m.2)) items fun _ _ _ _ => Iff.rfl).symm

/-- A value that has items is flattened to a tuple of them. -/
theorem hashable_of_items {a : KeyValue Scalar} {xs : List (KeyValue Scalar)}
    (read : a.items? = some xs) : a.hashable = .list (xs.map hashable) := by
  cases a with
  | array items =>
    obtain rfl := Option.some.inj read
    rw [hashable, hashableAll_eq]
  | object members =>
    obtain rfl := Option.some.inj read
    rw [hashable, hashableMembers_eq, sortedItems_map, List.map_map, List.map_map]
    rfl
  | _ => cases read

theorem hashable_of_number {a : KeyValue Scalar} {q : ℚ} (read : a.number? = some q) :
    a.hashable = .leaf (.number q) := by
  cases a with
  | bool b =>
    obtain rfl := Option.some.inj read
    rfl
  | number r =>
    obtain rfl := Option.some.inj read
    rfl
  | _ => cases read

theorem items_of_hashable {a : KeyValue Scalar} {hs : List (Hashed Scalar)}
    (flat : a.hashable = .list hs) : ∃ xs, a.items? = some xs ∧ xs.map hashable = hs := by
  have found : ∃ xs, a.items? = some xs := by
    cases a with
    | array items => exact ⟨_, rfl⟩
    | object members => exact ⟨_, rfl⟩
    | _ => cases flat
  obtain ⟨xs, found⟩ := found
  rw [hashable_of_items found] at flat
  exact ⟨xs, found, Nested.list.inj flat⟩

/-- Values are flattened to one tuple if and only if they are alike. -/
theorem alike_of_hashable (h : Hashed Scalar) : ∀ a b : KeyValue Scalar,
    a.hashable = h → b.hashable = h → Alike a b := by
  induction h using Nested.induct with
  | leaf atom =>
    intro a b first second
    cases atom with
    | none =>
      cases a <;> cases first
      cases b <;> cases second
      exact .null
    | string text =>
      cases a <;> cases first
      cases b <;> cases second
      exact .string _
    | scalar value =>
      cases a <;> cases first
      cases b <;> cases second
      exact .scalar _
    | number q =>
      have read : ∀ c : KeyValue Scalar, c.hashable = .leaf (.number q) → c.number? = some q := by
        intro c flat
        cases c <;> cases flat <;> rfl
      exact .number (read a first) (read b second)
  | list hs ih =>
    intro a b first second
    obtain ⟨xs, read, flat⟩ := items_of_hashable first
    obtain ⟨ys, read', flat'⟩ := items_of_hashable second
    refine .items read read' ?_
    clear first second read read'
    induction hs generalizing xs ys with
    | nil =>
      obtain rfl := List.map_eq_nil_iff.mp flat
      obtain rfl := List.map_eq_nil_iff.mp flat'
      exact .nil
    | cons h hs later =>
      obtain ⟨x, xs, rfl, head, tail⟩ := List.map_eq_cons_iff.mp flat
      obtain ⟨y, ys, rfl, head', tail'⟩ := List.map_eq_cons_iff.mp flat'
      exact .cons (ih h List.mem_cons_self x y head head')
        (later (fun g member => ih g (List.mem_cons_of_mem h member)) xs tail ys tail')

theorem hashable_of_alike (h : Hashed Scalar) : ∀ a b : KeyValue Scalar,
    a.hashable = h → Alike a b → b.hashable = h := by
  induction h using Nested.induct with
  | leaf atom =>
    intro a b flat alike
    cases alike with
    | null => exact flat
    | string text => exact flat
    | scalar value => exact flat
    | number first second => rw [← flat, hashable_of_number first, hashable_of_number second]
    | items first second each =>
      rw [hashable_of_items first] at flat
      cases flat
  | list hs ih =>
    intro a b flat alike
    cases alike with
    | null => exact flat
    | string text => exact flat
    | scalar value => exact flat
    | number first second => rw [← flat, hashable_of_number first, hashable_of_number second]
    | @items _ _ xs ys first second each =>
      rw [hashable_of_items first] at flat
      obtain rfl := Nested.list.inj flat
      rw [hashable_of_items second]
      congr 1
      clear first second flat
      induction each with
      | nil => rfl
      | @cons x y xs ys head tail later =>
        rw [List.map_cons, List.map_cons, ih _ List.mem_cons_self x y rfl head,
          later fun g member => ih g (List.mem_cons_of_mem _ member)]

theorem alike_iff {a b : KeyValue Scalar} : Alike a b ↔ a.hashable = b.hashable :=
  ⟨fun alike => (hashable_of_alike _ a b rfl alike).symm,
    fun same => alike_of_hashable _ a b same rfl⟩

/-! ## Equal documents are flattened alike -/

theorem wellFormed_of_mem {items : List (KeyValue Scalar)} (every : AllWellFormed items)
    {x : KeyValue Scalar} (member : x ∈ items) : x.WellFormed := by
  induction items with
  | nil => exact absurd member List.not_mem_nil
  | cons y ys ih =>
    rcases List.mem_cons.mp member with rfl | later
    · exact every.1
    · exact ih every.2 later

theorem wellFormed_of_member {members : List (String × KeyValue Scalar)}
    (every : MembersWellFormed members) {m : String × KeyValue Scalar} (member : m ∈ members) :
    m.2.WellFormed := by
  induction members with
  | nil => exact absurd member List.not_mem_nil
  | cons n ms ih =>
    rcases List.mem_cons.mp member with rfl | later
    · exact every.1
    · exact ih every.2 later

theorem documentAll_eq (items : List (KeyValue Scalar)) :
    documentAll items = items.map document := by
  induction items with
  | nil => rfl
  | cons x xs ih => rw [documentAll, ih, List.map_cons]

/-- An object holds the document of its one member of that name. -/
theorem documentAt_eq_some_iff {members : List (String × KeyValue Scalar)}
    (once : (members.map Prod.fst).Nodup) {name : String} {d : Document Scalar} :
    documentAt members name = some d ↔ ∃ value, (name, value) ∈ members ∧ value.document = d := by
  induction members with
  | nil => simp [documentAt]
  | cons m ms ih =>
    obtain ⟨key, value⟩ := m
    obtain ⟨fresh, once⟩ := List.nodup_cons.mp once
    rw [documentAt]
    by_cases same : name = key
    · subst same
      rw [if_pos rfl]
      constructor
      · intro here
        exact ⟨value, List.mem_cons_self, Option.some.inj here⟩
      · rintro ⟨other, member, rfl⟩
        rcases List.mem_cons.mp member with here | later
        · rw [(Prod.mk.inj here).2]
        · exact absurd (List.mem_map_of_mem later) fresh
    · rw [if_neg same, ih once]
      refine exists_congr fun other => and_congr_left fun _ => ?_
      rw [List.mem_cons, Prod.mk.injEq]
      exact ⟨Or.inr, fun either => either.resolve_left fun here => same here.1⟩

/-- Items whose first components are all different are sorted in one way. -/
theorem sortedItems_of_perm {β : Type} {xs ys : List (String × β)}
    (once : (xs.map Prod.fst).Nodup) (perm : xs.Perm ys) : sortedItems xs = sortedItems ys := by
  have sorted : ∀ zs : List (String × β), (sortedItems zs).Pairwise fun a b => a.1 ≤ b.1 :=
    fun zs => List.pairwise_insertionSort _ zs
  have whole : (sortedItems xs).Perm (sortedItems ys) :=
    (List.perm_insertionSort _ xs).trans (perm.trans (List.perm_insertionSort _ ys).symm)
  refine List.Perm.eq_of_pairwise ?_ (sorted xs) (sorted ys) whole
  intro a b first second le ge
  have member : a ∈ xs := (List.mem_insertionSort _).mp first
  have member' : b ∈ xs := perm.mem_iff.mpr ((List.mem_insertionSort _).mp second)
  exact List.inj_on_of_nodup_map once member member' (le_antisymm le ge)

/-- Where two objects hold the same under each name, what one is flattened to is in the
other. -/
theorem flat_member {members others : List (String × KeyValue Scalar)}
    (once : (members.map Prod.fst).Nodup) (once' : (others.map Prod.fst).Nodup)
    (lookup : documentAt members = documentAt others)
    (equal : ∀ m ∈ members, ∀ n ∈ others, m.2.document = n.2.document →
      m.2.hashable = n.2.hashable)
    {p : String × Hashed Scalar} (flat : p ∈ members.map fun m => (m.1, m.2.hashable)) :
    p ∈ others.map fun m => (m.1, m.2.hashable) := by
  obtain ⟨⟨name, value⟩, member, rfl⟩ := List.mem_map.mp flat
  have found := (documentAt_eq_some_iff once).mpr ⟨value, member, rfl⟩
  rw [lookup] at found
  obtain ⟨other, member', same⟩ := (documentAt_eq_some_iff once').mp found
  refine List.mem_map.mpr ⟨(name, other), member', Prod.ext rfl ?_⟩
  exact (equal _ member _ member' same.symm).symm

/-- What agrees on lists of which one reading agrees. -/
theorem map_eq_of_map_eq {α β γ : Type} {f : α → β} {g : α → γ} {l l' : List α}
    (each : l.map f = l'.map f) (determines : ∀ x ∈ l, ∀ y ∈ l', f x = f y → g x = g y) :
    l.map g = l'.map g := by
  induction l generalizing l' with
  | nil =>
    rw [List.map_eq_nil_iff.mp each.symm]
  | cons x xs ih =>
    obtain ⟨y, ys, rfl, head, tail⟩ := List.map_eq_cons_iff.mp each.symm
    rw [List.map_cons, List.map_cons,
      determines x List.mem_cons_self y List.mem_cons_self head.symm]
    congr 1
    exact ih tail.symm fun z member w member' =>
      determines z (List.mem_cons_of_mem x member) w (List.mem_cons_of_mem y member')

theorem hashable_of_document (a : KeyValue Scalar) : ∀ b : KeyValue Scalar, a.WellFormed →
    b.WellFormed → a.document = b.document → a.hashable = b.hashable := by
  induction a using induct with
  | null => intro b _ _ same; cases b <;> cases same; rfl
  | bool _ => intro b _ _ same; cases b <;> cases same; rfl
  | number _ => intro b _ _ same; cases b <;> cases same; rfl
  | string _ => intro b _ _ same; cases b <;> cases same; rfl
  | scalar _ => intro b _ _ same; cases b <;> cases same; rfl
  | array items ih =>
    intro b formed formed' same
    cases b with
    | array others =>
      have each : items.map document = others.map document := by
        rw [← documentAll_eq, ← documentAll_eq]
        exact Document.array.inj same
      rw [hashable, hashable, hashableAll_eq, hashableAll_eq]
      congr 1
      exact map_eq_of_map_eq each fun x member y member' => ih x member y
        (wellFormed_of_mem formed member) (wellFormed_of_mem formed' member')
    | _ => cases same
  | object members ih =>
    intro b formed formed' same
    cases b with
    | object others =>
      obtain ⟨once, every⟩ := formed
      obtain ⟨once', every'⟩ := formed'
      have lookup : documentAt members = documentAt others := Document.object.inj same
      have names : ∀ ms : List (String × KeyValue Scalar),
          (ms.map fun m => (m.1, m.2.hashable)).map Prod.fst = ms.map Prod.fst := by
        intro ms
        rw [List.map_map]
        rfl
      have perm : (members.map fun m => (m.1, m.2.hashable)).Perm
          (others.map fun m => (m.1, m.2.hashable)) := by
        rw [List.perm_ext_iff_of_nodup (List.Nodup.of_map _ (names members ▸ once))
          (List.Nodup.of_map _ (names others ▸ once'))]
        have equal : ∀ m ∈ members, ∀ n ∈ others, m.2.document = n.2.document →
            m.2.hashable = n.2.hashable := fun m member n member' =>
          ih m member n.2 (wellFormed_of_member every member) (wellFormed_of_member every' member')
        exact fun p => ⟨flat_member once once' lookup equal, flat_member once' once lookup.symm
          fun n member' m member same => (equal m member n member' same.symm).symm⟩
      have sorted := sortedItems_of_perm (names members ▸ once) perm
      rw [hashable, hashable, hashableMembers_eq, hashableMembers_eq, sorted]
    | _ => cases same

end KeyValue

/-! ## Which rows are lost -/

section FirstRows

variable {ι Scalar : Type} {keys : List ι}

open KeyValue

theorem keyOf_eq_iff {r s : ι → KeyCell Scalar} :
    keyOf keys r = keyOf keys s ↔ ∀ k ∈ keys, (r k).1.hashable = (s k).1.hashable :=
  List.map_inj_left

theorem sameKey_equivalence : Equivalence (@SameKey ι Scalar keys) where
  refl _ _ _ := rfl
  symm same k member := (same k member).symm
  trans first second k member := (first k member).trans (second k member)

theorem keyOf_of_sameKey {r s : ι → KeyCell Scalar} (same : SameKey keys r s) :
    keyOf keys r = keyOf keys s :=
  keyOf_eq_iff.mpr fun k member =>
    hashable_of_document _ _ (r k).2 (s k).2 (same k member)

variable [DecidableEq Scalar]

/-- What has been seen is what the rows before have for a key. -/
theorem firstRowPerKeyFrom_eq (before rows : List (ι → KeyCell Scalar))
    {seen : List (List (Hashed Scalar))}
    (known : ∀ key, key ∈ seen ↔ ∃ r ∈ before, keyOf keys r = key) :
    firstRowPerKeyFrom keys seen rows =
      Firsts.firsts (fun r s => keyOf keys r = keyOf keys s) before rows := by
  induction rows generalizing before seen with
  | nil => rfl
  | cons row rows ih =>
    rw [firstRowPerKeyFrom, Firsts.firsts]
    by_cases found : keyOf keys row ∈ seen
    · rw [if_pos found, if_pos ((known _).mp found)]
      apply ih
      intro key
      rw [known key]
      constructor
      · rintro ⟨r, earlier, same⟩
        exact ⟨r, List.mem_cons_of_mem row earlier, same⟩
      · rintro ⟨r, earlier, same⟩
        rcases List.mem_cons.mp earlier with rfl | earlier
        · exact same ▸ (known _).mp found
        · exact ⟨r, earlier, same⟩
    · rw [if_neg found, if_neg fun earlier => found ((known _).mpr earlier)]
      congr 1
      apply ih
      intro key
      rw [List.mem_cons, known key]
      constructor
      · rintro (rfl | ⟨r, earlier, same⟩)
        · exact ⟨row, List.mem_cons_self, rfl⟩
        · exact ⟨r, List.mem_cons_of_mem row earlier, same⟩
      · rintro ⟨r, earlier, same⟩
        rcases List.mem_cons.mp earlier with rfl | earlier
        · exact Or.inl same.symm
        · exact Or.inr ⟨r, earlier, same⟩

end FirstRows

/-- A row of one column. -/
def oneCell (value : KeyValue Unit) (formed : value.WellFormed) : Unit → KeyCell Unit :=
  fun _ => ⟨value, formed⟩

def emptyObject : Unit → KeyCell Unit := oneCell (.object []) ⟨List.nodup_nil, trivial⟩

def emptyArray : Unit → KeyCell Unit := oneCell (.array []) trivial

end PgMimic.Tables

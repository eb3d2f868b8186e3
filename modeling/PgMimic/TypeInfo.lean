import PgMimic.Lib.Orders
import PgMimic.PgTypes

/-!
# Type introspection

asyncpg asks for types by their OIDs and expects the element type of an array in front of
it. `_rows_for` walks the OIDs once, adds the element of an array at the next depth, and
sorts by depth, deepest first.
-/

namespace PgMimic.TypeInfo

open PgMimic.Catalog

/-- The columns of asyncpg's query, and the three its outer SELECT adds. -/
structure TypeInfoRow where
  oid : Int
  ns : String
  name : String
  kind : String
  basetype : Option Int
  elemtype : Option Int
  elemdelim : String
  rangeSubtype : Option Int
  attrtypoids : Option String
  attrnames : Option String
  depth : Nat
  basetypeName : Option String
  elemtypeName : Option String
  rangeSubtypeName : Option String
deriving DecidableEq

/-- `_row`. -/
def typeInfoRow (depth : Nat) (row : PgType) : TypeInfoRow :=
  let elementOid := if row.typelem = 0 then none else some row.typelem
  let element := elementOid.bind pgTypeByOid
  { oid := row.oid
    ns := "pg_catalog"
    name := row.typname
    kind := row.typtype
    basetype := none
    elemtype := elementOid
    elemdelim := (element.getD row).typdelim
    rangeSubtype := none
    attrtypoids := none
    attrnames := none
    depth := depth
    basetypeName := none
    elemtypeName := element.map PgType.typname
    rangeSubtypeName := none }

/-- Where the walk over the requested OIDs stands. -/
structure Walk where
  seen : List Int
  atDepth : List (Nat × PgType)

def Walk.add (w : Walk) (oid : Int) (depth : Nat) (row : PgType) : Walk :=
  ⟨oid :: w.seen, w.atDepth ++ [(depth, row)]⟩

/-- One round of the loop of `_rows_for`. -/
def Walk.visit (w : Walk) (oid : Int) : Walk :=
  match pgTypeByOid oid with
  | none => w
  | some row =>
    if oid ∈ w.seen then w
    else
      let w' := w.add oid 0 row
      if row.typelem ≠ 0 ∧ row.typelem ∉ w'.seen then
        match pgTypeByOid row.typelem with
        | none => w'
        | some element => w'.add row.typelem 1 element
      else w'

/-- The order of the sort: `key=lambda pair: -pair[0]`. -/
def deepestFirst (a b : Nat × PgType) : Ordering := compare (-(a.1 : Int)) (-(b.1 : Int))

/-- `_rows_for`. -/
def rowsFor (oids : List Int) : List TypeInfoRow :=
  (Orders.sort deepestFirst (oids.foldl Walk.visit ⟨[], []⟩).atDepth).map fun pair =>
    typeInfoRow pair.1 pair.2

/-! ## What is asked for -/

/-- A requested array has this type as its element. -/
def ElementOfRequested (requested : List Int) (oid : Int) : Prop :=
  ∃ array ∈ requested, ∃ row, pgTypeByOid array = some row ∧ row.typelem = oid ∧ oid ≠ 0

/-- A type the catalogue knows that was requested, or whose array was. -/
def Wanted (requested : List Int) (oid : Int) : Prop :=
  (pgTypeByOid oid).isSome = true ∧ (oid ∈ requested ∨ ElementOfRequested requested oid)

/-- What asyncpg builds its codecs from. -/
structure ElementsFirst (requested : List Int) (rows : List TypeInfoRow) : Prop where
  once : (rows.map TypeInfoRow.oid).Nodup
  exactly : ∀ oid, oid ∈ rows.map TypeInfoRow.oid ↔ Wanted requested oid
  described : ∀ r ∈ rows, ∃ row depth, pgTypeByOid r.oid = some row ∧ r = typeInfoRow depth row
  first : ∀ r ∈ rows, ∀ oid, r.elemtype = some oid →
    [oid, r.oid].Sublist (rows.map TypeInfoRow.oid)

/-! ## The walk -/

/-- What holds of the walk after these OIDs. -/
structure Walked (requested : List Int) (w : Walk) : Prop where
  listed : ∀ oid, oid ∈ w.seen ↔ oid ∈ w.atDepth.map fun pair => pair.2.oid
  once : (w.atDepth.map fun pair => pair.2.oid).Nodup
  known : ∀ pair ∈ w.atDepth, pgTypeByOid pair.2.oid = some pair.2
  wanted : ∀ oid, oid ∈ w.seen ↔ Wanted requested oid
  shallow : ∀ pair ∈ w.atDepth, pair.1 = 0 ∨ pair.1 = 1
  /-- An element found below its array is at depth 1; one requested before it stands in front. -/
  element : ∀ pair ∈ w.atDepth, pair.2.typelem ≠ 0 → pair.1 = 0 ∧ ∃ below ∈ w.atDepth,
    below.2.oid = pair.2.typelem ∧ (below.1 = 1 ∨ below.1 = 0 ∧ [below, pair].Sublist w.atDepth)

theorem wanted_append (requested : List Int) (oid other : Int) :
    Wanted (requested ++ [oid]) other ↔ Wanted requested other ∨
      (pgTypeByOid other).isSome = true ∧ (other = oid ∨
        ∃ row, pgTypeByOid oid = some row ∧ row.typelem = other ∧ other ≠ 0) := by
  simp only [Wanted, ElementOfRequested, List.mem_append, List.mem_singleton, or_and_right,
    exists_or, exists_eq_left, ← and_or_left]
  exact and_congr_right fun _ => or_or_or_comm

theorem element_of_typelem {oid : Int} {row : PgType} (found : pgTypeByOid oid = some row)
    (array : row.typelem ≠ 0) :
    ∃ element, pgTypeByOid row.typelem = some element ∧ element.typelem = 0 ∧
      row.typelem ≠ oid := by
  obtain ⟨element, known, flat⟩ := element_known (mem_of_pgTypeByOid found) array
  refine ⟨element, known, flat, fun same => ?_⟩
  rw [same, found] at known
  obtain rfl := Option.some.inj known
  exact array flat

section Steps

variable {requested : List Int} {w : Walk} {oid : Int} {row : PgType}

/-- A row behind the others leaves them as they are. -/
theorem element_kept {below pair : Nat × PgType} {l later : List (Nat × PgType)}
    (holds : below.1 = 1 ∨ below.1 = 0 ∧ [below, pair].Sublist l) :
    below.1 = 1 ∨ below.1 = 0 ∧ [below, pair].Sublist (l ++ later) :=
  holds.imp_right fun both => ⟨both.1, both.2.trans (List.sublist_append_left l later)⟩

theorem Walked.unknown (h : Walked requested w) (absent : pgTypeByOid oid = none) :
    Walked (requested ++ [oid]) w := by
  refine ⟨h.listed, h.once, h.known, fun other => ?_, h.shallow, h.element⟩
  rw [h.wanted, wanted_append]
  refine ⟨Or.inl, fun either => either.elim id ?_⟩
  rintro ⟨some_, rfl | ⟨row, found, -⟩⟩
  · rw [absent] at some_
    cases some_
  · rw [absent] at found
    cases found

/-- A type that has been seen is listed, and so is its element. -/
theorem Walked.again (h : Walked requested w) (found : pgTypeByOid oid = some row)
    (seen : oid ∈ w.seen) : Walked (requested ++ [oid]) w := by
  refine ⟨h.listed, h.once, h.known, fun other => ?_, h.shallow, h.element⟩
  rw [h.wanted, wanted_append]
  refine ⟨Or.inl, fun either => either.elim id ?_⟩
  rintro ⟨some_, rfl | ⟨row', found', rfl, array⟩⟩
  · exact (h.wanted other).mp seen
  · obtain ⟨pair, member, same⟩ := List.mem_map.mp ((h.listed oid).mp seen)
    have it : pair.2 = row' := by
      have known := h.known pair member
      rw [same, found'] at known
      exact (Option.some.inj known).symm
    obtain ⟨-, below, member', same', -⟩ := h.element pair member (it ▸ array)
    rw [← it, ← same', ← h.wanted, h.listed]
    exact List.mem_map_of_mem member'

/-- What holds of every type so far and of the one that is added. -/
theorem forall_mem_add {P : Nat × PgType → Prop} {depth : Nat}
    (before : ∀ pair ∈ w.atDepth, P pair) (last : P (depth, row)) :
    ∀ pair ∈ (w.add oid depth row).atDepth, P pair :=
  List.forall_mem_append.mpr ⟨before, List.forall_mem_singleton.mpr last⟩

theorem once_append {l : List (Nat × PgType)} {depth : Nat}
    (once : (l.map fun pair => pair.2.oid).Nodup)
    (fresh : row.oid ∉ l.map fun pair => pair.2.oid) :
    ((l ++ [(depth, row)]).map fun pair => pair.2.oid).Nodup := by
  rw [List.map_append, List.map_singleton, List.nodup_append_comm]
  exact List.nodup_cons.mpr ⟨fresh, once⟩

/-- A type whose element, if it has one, has been seen. -/
theorem Walked.fresh (h : Walked requested w) (found : pgTypeByOid oid = some row)
    (unseen : oid ∉ w.seen) (element : row.typelem ≠ 0 → row.typelem ∈ w.seen) :
    Walked (requested ++ [oid]) (w.add oid 0 row) := by
  obtain rfl : row.oid = oid := pgTypeByOid_oid found
  refine ⟨fun other => ?_, ?_, forall_mem_add h.known found, fun other => ?_,
    forall_mem_add h.shallow (Or.inl rfl), forall_mem_add ?_ ?_⟩
  · simp [Walk.add, h.listed, or_comm]
  · exact once_append h.once fun listed => unseen ((h.listed _).mpr listed)
  · change other ∈ row.oid :: w.seen ↔ _
    rw [List.mem_cons, wanted_append, ← h.wanted]
    constructor
    · rintro (rfl | before)
      · exact Or.inr ⟨by rw [found]; rfl, Or.inl rfl⟩
      · exact Or.inl before
    · rintro (before | ⟨-, rfl | ⟨row', found', rfl, array⟩⟩)
      · exact Or.inr before
      · exact Or.inl rfl
      · obtain rfl : row = row' := Option.some.inj (found.symm.trans found')
        exact Or.inr (element array)
  · intro pair before array
    obtain ⟨depth, below, member', same, placed⟩ := h.element pair before array
    exact ⟨depth, below, List.mem_append_left _ member', same, element_kept placed⟩
  · intro array
    obtain ⟨below, member', same⟩ := List.mem_map.mp ((h.listed _).mp (element array))
    refine ⟨rfl, below, List.mem_append_left _ member', same, ?_⟩
    have pair_ : [below, (0, row)].Sublist (w.atDepth ++ [(0, row)]) :=
      (List.singleton_sublist.mpr member').append (List.Sublist.refl [(0, row)])
    obtain first | deeper := h.shallow below member'
    · exact Or.inr ⟨first, pair_⟩
    · exact Or.inl deeper

/-- An array whose element has not been seen brings it along. -/
theorem Walked.with_element (h : Walked requested w) (found : pgTypeByOid oid = some row)
    (unseen : oid ∉ w.seen) (array : row.typelem ≠ 0) (unseen' : row.typelem ∉ oid :: w.seen)
    {element : PgType} (known : pgTypeByOid row.typelem = some element)
    (flat : element.typelem = 0) :
    Walked (requested ++ [oid]) ((w.add oid 0 row).add row.typelem 1 element) := by
  obtain rfl : row.oid = oid := pgTypeByOid_oid found
  have same : element.oid = row.typelem := pgTypeByOid_oid known
  obtain ⟨apart, unseen'⟩ := not_or.mp fun listed => unseen' (List.mem_cons.mpr listed)
  refine ⟨fun other => ?_, ?_, forall_mem_add (forall_mem_add h.known found) (same ▸ known),
    fun other => ?_, forall_mem_add (forall_mem_add h.shallow (Or.inl rfl)) (Or.inr rfl),
    forall_mem_add (forall_mem_add ?_ ?_) fun array' => absurd flat array'⟩
  · simp [Walk.add, h.listed, same, or_comm, or_assoc]
    exact or_left_comm
  · apply once_append (once_append h.once fun listed => unseen ((h.listed _).mpr listed))
    rw [List.map_append, List.mem_append, same, ← h.listed]
    rintro (before | last)
    · exact unseen' before
    · exact apart (List.mem_singleton.mp last)
  · change other ∈ row.typelem :: row.oid :: w.seen ↔ _
    rw [List.mem_cons, List.mem_cons, wanted_append, ← h.wanted]
    constructor
    · rintro (rfl | rfl | before)
      · exact Or.inr ⟨by rw [known]; rfl, Or.inr ⟨row, found, rfl, array⟩⟩
      · exact Or.inr ⟨by rw [found]; rfl, Or.inl rfl⟩
      · exact Or.inl before
    · rintro (before | ⟨-, rfl | ⟨row', found', rfl, -⟩⟩)
      · exact Or.inr (Or.inr before)
      · exact Or.inr (Or.inl rfl)
      · obtain rfl : row = row' := Option.some.inj (found.symm.trans found')
        exact Or.inl rfl
  · intro pair before array'
    obtain ⟨depth, below, member', same, placed⟩ := h.element pair before array'
    exact ⟨depth, below, List.mem_append_left _ (List.mem_append_left _ member'), same,
      element_kept (element_kept placed)⟩
  · exact fun _ => ⟨rfl, (1, element), List.mem_append_right _ List.mem_cons_self, same, Or.inl rfl⟩

theorem Walked.visit (h : Walked requested w) (oid : Int) :
    Walked (requested ++ [oid]) (w.visit oid) := by
  rw [Walk.visit]
  cases found : pgTypeByOid oid with
  | none => exact h.unknown found
  | some row =>
    change Walked _ (if oid ∈ w.seen then w
      else if row.typelem ≠ 0 ∧ row.typelem ∉ oid :: w.seen then
        match pgTypeByOid row.typelem with
        | none => w.add oid 0 row
        | some element => (w.add oid 0 row).add row.typelem 1 element
      else w.add oid 0 row)
    by_cases seen : oid ∈ w.seen
    · rw [if_pos seen]
      exact h.again found seen
    · rw [if_neg seen]
      by_cases missing : row.typelem ≠ 0 ∧ row.typelem ∉ oid :: w.seen
      · obtain ⟨element, known, flat, -⟩ := element_of_typelem found missing.1
        rw [if_pos missing, known]
        exact h.with_element found seen missing.1 missing.2 known flat
      · rw [if_neg missing]
        apply h.fresh found seen
        intro array
        obtain ⟨_, _, _, apart⟩ := element_of_typelem found array
        have listed := not_not.mp fun absent => missing ⟨array, absent⟩
        exact (List.mem_cons.mp listed).resolve_left apart

end Steps

theorem walked (oids : List Int) : Walked oids (oids.foldl Walk.visit ⟨[], []⟩) := by
  induction oids using List.reverseRecOn with
  | nil => exact ⟨by simp, by simp, by simp, by simp [Wanted, ElementOfRequested], by simp, by simp⟩
  | append_singleton oids oid ih =>
    rw [List.foldl_append]
    exact ih.visit oid

instance : Std.TransCmp deepestFirst :=
  Orders.reading_trans (fun pair : Nat × PgType => -(pair.1 : Int)) compare

/-- Each type asked for is described once, the element of an array before it. -/
theorem rowsFor_elements_first (oids : List Int) : ElementsFirst oids (rowsFor oids) := by
  have walk := walked oids
  rw [rowsFor]
  generalize oids.foldl Walk.visit ⟨[], []⟩ = w at walk
  have listed : ((Orders.sort deepestFirst w.atDepth).map fun pair =>
      typeInfoRow pair.1 pair.2).map TypeInfoRow.oid =
      (Orders.sort deepestFirst w.atDepth).map fun pair => pair.2.oid := by
    rw [List.map_map]
    rfl
  have perm := Orders.sort_perm deepestFirst w.atDepth
  refine ⟨?_, fun oid => ?_, fun r member => ?_, fun r member oid elementOf => ?_⟩
  · rw [listed]
    exact (perm.map _).nodup_iff.mpr walk.once
  · rw [listed, (perm.map _).mem_iff, ← walk.listed, walk.wanted]
  · obtain ⟨pair, inside, rfl⟩ := List.mem_map.mp member
    exact ⟨pair.2, pair.1, walk.known pair (perm.mem_iff.mp inside), rfl⟩
  · obtain ⟨pair, inside, rfl⟩ := List.mem_map.mp member
    rw [listed]
    have array : pair.2.typelem ≠ 0 ∧ pair.2.typelem = oid := by
      change (if pair.2.typelem = 0 then none else some pair.2.typelem) = some oid at elementOf
      by_cases none_ : pair.2.typelem = 0
      · rw [if_pos none_] at elementOf
        cases elementOf
      · rw [if_neg none_] at elementOf
        exact ⟨none_, Option.some.inj elementOf⟩
    obtain ⟨array, rfl⟩ := array
    have inside := perm.mem_iff.mp inside
    obtain ⟨top, below, member', same, placed⟩ := walk.element pair inside array
    have pair_ : [below, pair].Sublist (Orders.sort deepestFirst w.atDepth) := by
      rcases placed with deeper | ⟨level, front⟩
      · apply Orders.sort_pair_of_lt deepestFirst _ member' inside
        rw [deepestFirst, deeper, top]
        rfl
      · apply Orders.sort_pair deepestFirst _ front
        rw [deepestFirst, level, top]
        rfl
    rw [← same]
    exact pair_.map fun pair => pair.2.oid

end PgMimic.TypeInfo

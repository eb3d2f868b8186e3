import Mathlib.Algebra.Order.BigOperators.Group.List
import PgMimic.CatalogRows

/-!
# The names of relations

Tables and indexes share one namespace. The name of a key is checked against those of the
keys before it and against no table, so the names in `pg_class` are apart only where no table
bears a name that a key gets.
-/

namespace PgMimic.Catalog

open PgMimic.Copy (Text)
open PgMimic.Declared

/-- What is asked of the names in `pg_class` and of the loop that finds them. -/
structure RelationNames (declared : Schema) : Prop where
  apart : ((buildPgCatalog declared).classRows.map ClassRow.relname).Nodup
  short : ∀ row ∈ (buildPgCatalog declared).classRows, row.relkind = "i" →
    (Utf8.encode row.relname).length ≤ 63 ∧
      Utf8.whole (Utf8.encode row.relname) = some row.relname
  ends : ∀ name taken, ∃ rounds result, countedName name taken rounds 1 = some result

/-! ## The keys of a schema -/

theorem places_keys (tables : List Table) :
    (places tables.zipIdx).map Place.key = tables.flatMap declaredKeys := by
  have each : ∀ entry : Table × Nat,
      ((declaredKeys entry.1).map fun key => (⟨entry.2, entry.1, key⟩ : Place)).map Place.key =
        declaredKeys entry.1 := by
    intro entry
    rw [List.map_map]
    exact List.map_id _
  rw [places, List.map_flatMap]
  simp only [each]
  conv_rhs => rw [← List.zipIdx_map_fst 0 tables, List.flatMap_map]

theorem length_declaredKeys (table : Table) : (declaredKeys table).length ≤ 2 ^ 63 := by
  have sized := table.sized
  have primary :
      (if table.primaryKey = [] then []
        else [(⟨table.name, table.primaryKey, true⟩ : Key)]).length ≤ 1 := by
    split
    · exact Nat.zero_le 1
    · exact Nat.le_refl 1
  rw [declaredKeys, List.length_append, List.length_map]
  omega

/-- There are far fewer keys than a name has counters. -/
theorem length_keys (declared : Schema) :
    (declared.tables.flatMap declaredKeys).length < 9 * 10 ^ 61 := by
  have each : ∀ count ∈ declared.tables.map fun table => (declaredKeys table).length,
      count ≤ 2 ^ 63 := by
    intro count member
    obtain ⟨table, -, rfl⟩ := List.mem_map.mp member
    exact length_declaredKeys table
  have sum := List.sum_le_card_nsmul _ _ each
  have sized := declared.sized
  rw [List.length_map, smul_eq_mul] at sum
  rw [List.length_flatMap]
  omega

/-! ## The names they get -/

theorem short_names (places : List Place) (few : places.length < 9 * 10 ^ 61) :
    ∀ e ∈ places.foldl register [], (Utf8.encode e.name).length ≤ 63 := by
  induction places using List.reverseRecOn with
  | nil => exact nofun
  | append_singleton places place ih =>
    rw [List.length_append, List.length_singleton] at few
    have before := registered places
    intro e member
    rw [List.foldl_append] at member
    rcases List.mem_append.mp member with earlier | last
    · exact ih (by omega) e earlier
    · rw [List.mem_singleton.mp last]
      refine length_keyName place.key ?_
      rw [before.names.length_eq, List.length_map]
      omega

theorem entries_names (declared : Schema) :
    FreshNames.Given candidates (declared.tables.flatMap declaredKeys)
      ((entries declared).map Entry.name) := by
  rw [← places_keys]
  exact (registered _).names

theorem relnames_perm (declared : Schema) :
    ((buildPgCatalog declared).classRows.map ClassRow.relname).Perm
      (declared.tables.map Table.name ++ (entries declared).map Entry.name) := by
  have perm := (reported declared).perm.map ClassRow.relname
  rw [List.map_append, List.map_map, List.map_map] at perm
  have tables : declared.tables.zipIdx.map
      (ClassRow.relname ∘ fun entry => tableRow entry.2 entry.1) =
        declared.tables.map Table.name := by
    conv_rhs => rw [← List.zipIdx_map_fst 0 declared.tables, List.map_map]
    rfl
  rw [tables] at perm
  exact perm

/-- The names of the tables are apart, and so are those of the keys. -/
theorem relnames_apart_iff (declared : Schema) :
    ((buildPgCatalog declared).classRows.map ClassRow.relname).Nodup ↔
      ∀ table ∈ declared.tables, table.name ∉ (entries declared).map Entry.name := by
  rw [(relnames_perm declared).nodup_iff, List.nodup_append]
  constructor
  · rintro ⟨-, -, apart⟩ table member named
    exact apart table.name (List.mem_map_of_mem member) table.name named rfl
  · intro apart
    refine ⟨declared.apart, (entries_names declared).nodup, ?_⟩
    rintro name member _ named rfl
    obtain ⟨table, listed, rfl⟩ := List.mem_map.mp member
    exact apart table listed named

/-- The names in `pg_class` are as asked exactly where no table bears a name that a key gets,
each key in turn getting the first of its candidates that no key before it has. -/
theorem relationNames_iff (declared : Schema) :
    RelationNames declared ↔
      ∀ names, FreshNames.Given candidates (declared.tables.flatMap declaredKeys) names →
        ∀ table ∈ declared.tables, table.name ∉ names := by
  have same {names : List Text}
      (given : FreshNames.Given candidates (declared.tables.flatMap declaredKeys) names) :
      names = (entries declared).map Entry.name := given.unique (entries_names declared)
  constructor
  · intro h names given
    rw [same given]
    exact (relnames_apart_iff declared).mp h.apart
  · intro h
    refine ⟨(relnames_apart_iff declared).mpr (h _ (entries_names declared)), ?_, ?_⟩
    · intro row member index
      have listed : row ∈ (entries declared).map Entry.classRow := by
        rw [← (reported declared).keyRows]
        exact List.mem_filter.mpr ⟨member, decide_eq_true index⟩
      obtain ⟨e, inside, rfl⟩ := List.mem_map.mp listed
      have few := length_keys declared
      rw [← places_keys, List.length_map] at few
      exact ⟨short_names _ few e inside, Utf8.whole_eq_some_iff.mpr rfl⟩
    · intro name taken
      obtain ⟨rounds, counted⟩ := counted_first name taken
      exact ⟨rounds, _, counted⟩

/-! ## A table named like a key -/

def keyedTable : Table where
  name := "a".toList
  columns := [("id".toList, "text".toList)]
  primaryKey := ["id".toList]
  unique := []
  named := by decide
  spelled := by decide
  distinct := by decide
  primaryKey_columns := by decide
  primaryKey_once := by decide
  unique_columns := by decide
  unique_once := by decide
  unique_apart := by decide
  sized := by decide

def likeNamedTable : Table where
  name := "a_pkey".toList
  columns := [("id".toList, "text".toList)]
  primaryKey := []
  unique := []
  named := by decide
  spelled := by decide
  distinct := by decide
  primaryKey_columns := by decide
  primaryKey_once := by decide
  unique_columns := by decide
  unique_once := by decide
  unique_apart := by decide
  sized := by decide

def twoTables : Schema where
  tables := [keyedTable, likeNamedTable]
  apart := by decide
  sized := by decide

theorem table_named_like_key : ¬RelationNames twoTables := by
  intro h
  have apart := h.apart
  revert apart
  decide +kernel

end PgMimic.Catalog

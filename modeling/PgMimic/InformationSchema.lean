import PgMimic.CatalogRows
import PgMimic.Lib.Dict
import PgMimic.Lib.Orders

/-!
# The rows of information_schema

A row has every column its view declares, NULL but for those that the declared tables settle.
A column's type is named as `pg_type` names it.
-/

namespace PgMimic.Catalog

open Outcomes (bind_ok)
open PgMimic.Copy (Text)
open PgMimic.Declared

/-! ## Views -/

inductive View where
  | tables
  | columns
deriving DecidableEq

/-- The columns of `INFORMATION_SCHEMA_SCHEMA`, in their order. -/
def View.columnNames : View → List String
  | .tables =>
    ["table_catalog", "table_schema", "table_name", "table_type", "self_referencing_column_name",
      "reference_generation", "user_defined_type_catalog", "user_defined_type_schema",
      "user_defined_type_name", "is_insertable_into", "is_typed", "commit_action"]
  | .columns =>
    ["table_catalog", "table_schema", "table_name", "column_name", "ordinal_position",
      "column_default", "is_nullable", "data_type", "character_maximum_length",
      "character_octet_length", "numeric_precision", "numeric_precision_radix", "numeric_scale",
      "datetime_precision", "interval_type", "interval_precision", "character_set_catalog",
      "character_set_schema", "character_set_name", "collation_catalog", "collation_schema",
      "collation_name", "domain_catalog", "domain_schema", "domain_name", "udt_catalog",
      "udt_schema", "udt_name", "scope_catalog", "scope_schema", "scope_name",
      "maximum_cardinality", "dtd_identifier", "is_self_referencing", "is_identity",
      "identity_generation", "identity_start", "identity_increment", "identity_maximum",
      "identity_minimum", "identity_cycle", "is_generated", "generation_expression",
      "is_updatable"]

inductive Value where
  | int (n : Nat)
  | text (text : Text)
deriving DecidableEq

/-- NULL is None. -/
abbrev InformationRow := Dict String (Option Value)

/-- The `KeyError` of a column that the view does not declare, and of a type without a row. -/
inductive InformationError where
  | undeclared (view : View) (unknown : List String)
  | untyped (oid : Nat)
deriving DecidableEq

/-- `dict.fromkeys` of a view. -/
def nullRow (view : View) : InformationRow :=
  Dict.empty.update (view.columnNames.map fun column => (column, none))

/-- `_information_schema_row`. -/
def informationSchemaRow (view : View) (derived : List (String × Value)) :
    Except InformationError InformationRow :=
  let row := nullRow view
  let unknown := Orders.sort compare ((derived.map Prod.fst).filter (· ∉ row.keys))
  if unknown ≠ [] then .error (.undeclared view unknown)
  else .ok (row.update (derived.map fun entry => (entry.1, some entry.2)))

/-- `_TYPE_FACTS`. -/
def typeFacts : List (Nat × List (String × Nat)) :=
  [(1042, [("character_octet_length", 1073741824)]),
    (25, [("character_octet_length", 1073741824)]),
    (1043, [("character_octet_length", 1073741824)]),
    (21, [("numeric_precision", 16), ("numeric_precision_radix", 2), ("numeric_scale", 0)]),
    (23, [("numeric_precision", 32), ("numeric_precision_radix", 2), ("numeric_scale", 0)]),
    (20, [("numeric_precision", 64), ("numeric_precision_radix", 2), ("numeric_scale", 0)]),
    (700, [("numeric_precision", 24), ("numeric_precision_radix", 2)]),
    (701, [("numeric_precision", 53), ("numeric_precision_radix", 2)]),
    (1700, [("numeric_precision_radix", 10)]),
    (1082, [("datetime_precision", 0)]),
    (1083, [("datetime_precision", 6)]),
    (1114, [("datetime_precision", 6)]),
    (1184, [("datetime_precision", 6)]),
    (1186, [("datetime_precision", 6)])]

/-- `_TYPE_FACTS.get(oid, {})`. -/
def factsOf (oid : Nat) : List (String × Nat) :=
  ((typeFacts.find? fun entry => entry.1 = oid).map Prod.snd).getD []

def typeValues (oid : Nat) : List (String × Value) :=
  (factsOf oid).map fun fact => (fact.1, .int fact.2)

def tableFacts (table : Table) : List (String × Value) :=
  [("table_catalog", .text "pg_mimic".toList), ("table_schema", .text "public".toList),
    ("table_name", .text table.name), ("table_type", .text "BASE TABLE".toList),
    ("is_insertable_into", .text "YES".toList), ("is_typed", .text "NO".toList)]

def columnFacts (table : Table) (column : (Text × Text) × Nat) (udtName : String) :
    List (String × Value) :=
  [("table_catalog", .text "pg_mimic".toList), ("table_schema", .text "public".toList),
    ("table_name", .text table.name), ("column_name", .text column.1.1),
    ("ordinal_position", .int column.2),
    ("is_nullable", .text (if column.1.1 ∈ table.primaryKey then "NO" else "YES").toList),
    ("data_type", .text column.1.2), ("udt_catalog", .text "pg_mimic".toList),
    ("udt_schema", .text "pg_catalog".toList), ("udt_name", .text udtName.toList),
    ("dtd_identifier", .text (numberText column.2)), ("is_self_referencing", .text "NO".toList),
    ("is_identity", .text "NO".toList), ("identity_cycle", .text "NO".toList),
    ("is_generated", .text "NEVER".toList), ("is_updatable", .text "YES".toList)]

/-- The body of the inner loop of `_build_information_schema`. -/
def columnsRow (table : Table) (column : (Text × Text) × Nat) :
    Except InformationError InformationRow :=
  let oid := oidForDeclaredType column.1.2
  match pgTypeByOid oid with
  | none => .error (.untyped oid)
  | some row =>
    informationSchemaRow .columns (columnFacts table column row.typname ++ typeValues oid)

structure InformationSchema where
  tablesRows : List InformationRow
  columnsRows : List InformationRow

/-- The body of the outer loop. -/
def InformationSchema.add (s : InformationSchema) (table : Table) :
    Except InformationError InformationSchema := do
  let row ← informationSchemaRow .tables (tableFacts table)
  let rows ← (table.columns.zipIdx 1).mapM (columnsRow table)
  return ⟨s.tablesRows ++ [row], s.columnsRows ++ rows⟩

/-- `_build_information_schema`. -/
def buildInformationSchema (declared : Schema) : Except InformationError InformationSchema :=
  declared.tables.foldlM InformationSchema.add ⟨[], []⟩

/-! ## The rows are always built -/

/-- A row whose derived columns the view declares holds what was derived. -/
theorem informationSchemaRow_ok {view : View} {derived : List (String × Value)}
    (once : (derived.map Prod.fst).Nodup)
    (declared : ∀ name ∈ derived.map Prod.fst, name ∈ view.columnNames) :
    ∃ row, informationSchemaRow view derived = .ok row ∧
      ∀ name value, (name, value) ∈ derived → row.get? name = some (some value) := by
  have known : (derived.map Prod.fst).filter (· ∉ (nullRow view).keys) = [] := by
    refine List.filter_eq_nil_iff.mpr fun name member => ?_
    rw [decide_eq_true_eq, not_not, nullRow, Dict.mem_keys_update, List.map_map]
    exact Or.inl (List.mem_map.mpr ⟨name, declared name member, rfl⟩)
  refine ⟨(nullRow view).update (derived.map fun entry => (entry.1, some entry.2)), ?_, ?_⟩
  · unfold informationSchemaRow
    dsimp only
    rw [known]
    rw [Orders.sort, List.mergeSort_nil]
    exact if_neg (not_not.mpr rfl)
  · intro name value member
    refine Dict.get?_update ?_ (List.mem_map_of_mem member)
    rw [List.map_map]
    exact once

theorem elementOid_known (element : Text) :
    (pgTypeByOid (elementOid element)).isSome = true ∧
      (pgTypeByOid (arrayOidOver (elementOid element))).isSome = true := by
  have listed : ∀ oid ∈ 25 :: declaredTypeOids.map Prod.snd,
      (pgTypeByOid oid).isSome = true ∧ (pgTypeByOid (arrayOidOver oid)).isSome = true := by
    decide +kernel
  refine listed (elementOid element) ?_
  rw [elementOid]
  cases found : declaredTypeOids.find? fun entry => entry.1.toList = element with
  | none => exact List.mem_cons_self
  | some entry =>
    exact List.mem_cons_of_mem 25 (List.mem_map_of_mem (List.mem_of_find?_eq_some found))

/-- Every declared type resolves to an OID that `pg_type` has a row for. -/
theorem oidForDeclaredType_known (declared : Text) :
    ∃ row, pgTypeByOid (oidForDeclaredType declared) = some row := by
  refine Option.isSome_iff_exists.mp ?_
  unfold oidForDeclaredType
  dsimp only
  split
  · exact (elementOid_known _).1
  · exact (elementOid_known _).2

/-- The facts of a type are other columns of the view than those of every column. -/
theorem columnFacts_declared (table : Table) (column : (Text × Text) × Nat) (udtName : String)
    (oid : Nat) :
    ((columnFacts table column udtName ++ typeValues oid).map Prod.fst).Nodup ∧
      ∀ name ∈ (columnFacts table column udtName ++ typeValues oid).map Prod.fst,
        name ∈ View.columns.columnNames := by
  have listed : ∀ facts ∈ [] :: typeFacts.map Prod.snd,
      (((columnFacts table column udtName).map Prod.fst) ++ facts.map Prod.fst).Nodup ∧
      ∀ name ∈ ((columnFacts table column udtName).map Prod.fst) ++ facts.map Prod.fst,
        name ∈ View.columns.columnNames := by
    simp only [columnFacts, List.map_cons, List.map_nil]
    decide +kernel
  have member : factsOf oid ∈ [] :: typeFacts.map Prod.snd := by
    rw [factsOf]
    cases found : typeFacts.find? fun entry => entry.1 = oid with
    | none => exact List.mem_cons_self
    | some entry =>
      exact List.mem_cons_of_mem [] (List.mem_map_of_mem (List.mem_of_find?_eq_some found))
  rw [List.map_append, typeValues, List.map_map]
  exact listed (factsOf oid) member

/-- A row holds what its column settles. -/
def DescribesColumn (column : Table × (Text × Text) × Nat) (row : InformationRow) : Prop :=
  ∃ udtName, ∀ name value, (name, value) ∈ columnFacts column.1 column.2 udtName →
    row.get? name = some (some value)

def DescribesTable (table : Table) (row : InformationRow) : Prop :=
  ∀ name value, (name, value) ∈ tableFacts table → row.get? name = some (some value)

theorem columnsRow_ok (table : Table) (column : (Text × Text) × Nat) :
    ∃ row, columnsRow table column = .ok row ∧ DescribesColumn (table, column) row := by
  obtain ⟨pgType, known⟩ := oidForDeclaredType_known column.1.2
  obtain ⟨once, declared⟩ := columnFacts_declared table column pgType.typname
    (oidForDeclaredType column.1.2)
  obtain ⟨row, built, holds⟩ := informationSchemaRow_ok once declared
  refine ⟨row, ?_, pgType.typname, fun name value member => ?_⟩
  · unfold columnsRow
    dsimp only
    rw [known]
    exact built
  · exact holds name value (List.mem_append_left _ member)

theorem tablesRow_ok (table : Table) :
    ∃ row, informationSchemaRow .tables (tableFacts table) = .ok row ∧
      DescribesTable table row := by
  refine informationSchemaRow_ok ?_ ?_
  · simp only [tableFacts, List.map_cons, List.map_nil]
    decide
  · simp only [tableFacts, List.map_cons, List.map_nil]
    decide

/-! ## The loops -/

/-- The columns of these tables, with their positions. -/
def placedColumns (tables : List Table) : List (Table × (Text × Text) × Nat) :=
  tables.flatMap fun table => (table.columns.zipIdx 1).map fun column => (table, column)

/-- The rows of the views, one for each table and one for each column in its place. -/
structure Described (tables : List Table) (s : InformationSchema) : Prop where
  tablesRows : List.Forall₂ DescribesTable tables s.tablesRows
  columnsRows : List.Forall₂ DescribesColumn (placedColumns tables) s.columnsRows

theorem Described.add {tables : List Table} {s : InformationSchema} (h : Described tables s)
    (table : Table) : ∃ s', s.add table = .ok s' ∧ Described (tables ++ [table]) s' := by
  obtain ⟨row, first, describes⟩ := tablesRow_ok table
  obtain ⟨rows, others, describe⟩ :=
    Outcomes.mapM_relates (table.columns.zipIdx 1) (columnsRow_ok table)
  refine ⟨⟨s.tablesRows ++ [row], s.columnsRows ++ rows⟩, ?_, ?_, ?_⟩
  · exact bind_ok.mpr ⟨row, first, bind_ok.mpr ⟨rows, others, rfl⟩⟩
  · exact List.rel_append h.tablesRows (.cons describes .nil)
  · rw [placedColumns, List.flatMap_append, List.flatMap_singleton]
    exact List.rel_append h.columnsRows (List.forall₂_map_left_iff.mpr describe)

/-- The views are built for every schema. -/
theorem buildInformationSchema_ok (declared : Schema) :
    ∃ s, buildInformationSchema declared = .ok s ∧ Described declared.tables s := by
  have run : ∀ (later tables : List Table) (s : InformationSchema), Described tables s →
      ∃ s', later.foldlM InformationSchema.add s = .ok s' ∧ Described (tables ++ later) s' := by
    intro later
    induction later with
    | nil =>
      intro tables s h
      rw [List.append_nil]
      exact ⟨s, rfl, h⟩
    | cons table later ih =>
      intro tables s h
      obtain ⟨next, first, holds⟩ := h.add table
      obtain ⟨s', rest, hold⟩ := ih (tables ++ [table]) next holds
      rw [List.append_cons]
      exact ⟨s', by rw [List.foldlM_cons]; exact bind_ok.mpr ⟨next, first, rest⟩, hold⟩
  exact run declared.tables [] ⟨[], []⟩ ⟨.nil, .nil⟩

end PgMimic.Catalog

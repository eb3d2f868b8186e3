import PgMimic.Arrays

/-!
# The rows of pg_type

The types pg_mimic can name are the integer constants of its module of types, each with its
array type. The catalog serves them as rows of `pg_type`, and asyncpg's introspection is
answered from the same rows.
-/

namespace PgMimic.Catalog

structure PgType where
  oid : Int
  typname : String
  typnamespace : Int
  typtype : String
  typelem : Int
  typbasetype : Int
  typrelid : Int
  typcategory : String
  typdelim : String
  typcollation : Int
  typarray : Int
deriving DecidableEq

/-- The integers that `dir(pg_types)` lists under names in capitals. A leading underscore is
no lower-case letter, so the constants of the binary codecs are among them. -/
def typeConstants : List (String × Int) :=
  [("bool", 16), ("bpchar", 1042), ("bytea", 17), ("char", 18), ("cidr", 650), ("date", 1082),
    ("float4", 700), ("float8", 701), ("inet", 869), ("int2", 21), ("int4", 23), ("int8", 20),
    ("interval", 1186), ("json", 114), ("jsonb", 3802), ("macaddr", 829), ("money", 790),
    ("name", 19), ("numeric", 1700), ("oid", 26), ("record", 2249), ("text", 25), ("time", 1083),
    ("timestamp", 1114), ("timestamptz", 1184), ("unknown", 705), ("uuid", 2950),
    ("varchar", 1043), ("_jsonb_version", 1), ("_nbase", 10000), ("_numeric_nan", 0xC000),
    ("_numeric_neg", 0x4000), ("_numeric_ninf", 0xF000), ("_numeric_pinf", 0xD000),
    ("_numeric_pos", 0)]

/-- `ARRAY_OID.get(oid, 0)`. -/
def arrayOidOf (oid : Int) : Int :=
  match Arrays.arrayOids.find? fun entry => (entry.1 : Int) = oid with
  | none => 0
  | some entry => entry.2

def scalarType (entry : String × Int) : PgType where
  oid := entry.2
  typname := entry.1
  typnamespace := 11
  typtype := "b"
  typelem := 0
  typbasetype := 0
  typrelid := 0
  typcategory := "U"
  typdelim := ","
  typcollation := 0
  typarray := arrayOidOf entry.2

/-- `_typname_for`. -/
def typnameFor (rows : List PgType) (oid : Int) : String :=
  match rows.find? fun row => row.oid = oid with
  | none => "unknown"
  | some row => row.typname

def arrayType (rows : List PgType) (element array : Int) : PgType where
  oid := array
  typname := "_" ++ typnameFor rows element
  typnamespace := 11
  typtype := "b"
  typelem := element
  typbasetype := 0
  typrelid := 0
  typcategory := "A"
  typdelim := ","
  typcollation := 0
  typarray := 0

/-- The first loop of `_pg_type_rows`: a number is listed under the first of its names. -/
def scalarTypes (rows : List PgType) : List (String × Int) → List PgType
  | [] => rows
  | entry :: later =>
    if rows.any fun row => row.oid = entry.2 then scalarTypes rows later
    else scalarTypes (rows ++ [scalarType entry]) later

/-- The second loop, over `ARRAY_OID`. -/
def arrayTypes (rows : List PgType) : List (Nat × Nat) → List PgType
  | [] => rows
  | (element, array) :: later =>
    if rows.any fun row => row.oid = array then arrayTypes rows later
    else arrayTypes (rows ++ [arrayType rows element array]) later

/-- `_pg_type_rows`. -/
def pgTypeRows : List PgType := arrayTypes (scalarTypes [] typeConstants) Arrays.arrayOids

/-- `pg_type_by_oid`. -/
def pgTypeByOid (oid : Int) : Option PgType := pgTypeRows.find? fun row => row.oid = oid

theorem pgTypeByOid_oid {oid : Int} {row : PgType} (known : pgTypeByOid oid = some row) :
    row.oid = oid := by
  rw [pgTypeByOid] at known
  simpa using List.find?_some known

theorem mem_of_pgTypeByOid {oid : Int} {row : PgType} (known : pgTypeByOid oid = some row) :
    row ∈ pgTypeRows :=
  List.mem_of_find?_eq_some known

/-- No two rows have one OID, so that a dict by the OID holds them all. -/
theorem pgTypeRows_nodup : (pgTypeRows.map PgType.oid).Nodup := by decide +kernel

/-- The element type of an array is listed, and is no array itself. -/
theorem element_known {row : PgType} (member : row ∈ pgTypeRows) (array : row.typelem ≠ 0) :
    ∃ element, pgTypeByOid row.typelem = some element ∧ element.typelem = 0 := by
  have every : ∀ row ∈ pgTypeRows, row.typelem ≠ 0 →
      (pgTypeByOid row.typelem).map PgType.typelem = some 0 := by decide +kernel
  exact Option.map_eq_some_iff.mp (every row member array)

end PgMimic.Catalog

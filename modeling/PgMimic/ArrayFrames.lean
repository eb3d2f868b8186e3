import Mathlib.Algebra.BigOperators.Ring.Finset
import Mathlib.Algebra.BigOperators.Ring.List
import PgMimic.Arrays
import PgMimic.Lib.Chunks

/-!
# Arrays in binary

A frame is a binary array as the protocol has it: sizes that are not negative, a lower
bound for each, and as many elements as the sizes say. The encoder writes frames, and a
frame is decoded to its elements cut into rows. Every other byte string that is decoded
at all is taken for something it is not.
-/

namespace PgMimic.Arrays

open Outcomes (bind_ok map_ok mapM_ok)
open PgMimic.Copy (Text)
open Offsets (Stands slice)
open Wire (packInt32 packParam)

/-! ## Frames -/

def packBound (dim : Nat × Int) : List UInt8 := packInt32 dim.1 ++ packInt32 dim.2

def IsInt32 (value : Int) : Prop := -2 ^ 31 ≤ value ∧ value < 2 ^ 31

/-- What the protocol calls an array value. -/
structure Frame where
  flags : Int
  oid : Nat
  dims : List (Nat × Int)
  elements : List (Option (List UInt8))
  flags_int32 : IsInt32 flags
  oid_uint32 : oid < 2 ^ 32
  ndim_int32 : dims.length < 2 ^ 31
  dims_int32 : ∀ dim ∈ dims, dim.1 < 2 ^ 31 ∧ IsInt32 dim.2
  lengths_int32 : ∀ value, some value ∈ elements → value.length < 2 ^ 31
  count : elements.length = if dims = [] then 0 else (dims.map Prod.fst).prod

namespace Frame

def sizes (frame : Frame) : List Nat := frame.dims.map Prod.fst

def bytes (frame : Frame) : List UInt8 :=
  packInt32 frame.dims.length ++ (packInt32 frame.flags ++ (packInt32 frame.oid ++
    (frame.dims.flatMap packBound ++ frame.elements.flatMap packParam)))

end Frame

/-! ## Reading what is packed -/

section Reading

variable {data rest : List UInt8} {offset : Int}

theorem packInt32_cases (value : Int) (range : IsInt32 value) :
    ∃ a b c d, packInt32 value = [a, b, c, d] ∧ Stream.unpackInt32 a b c d = value := by
  obtain ⟨a, b, c, d, packed, unpacked⟩ := Wire.unpackInt32_packInt32 value
  refine ⟨a, b, c, d, packed, ?_⟩
  obtain ⟨low, high⟩ := range
  rw [unpacked]
  split_ifs <;> omega

theorem unpackSize_of_stands {value : Int} (range : IsInt32 value)
    (h : Stands data offset (packInt32 value ++ rest)) :
    unpackSize data offset = .ok value ∧ Stands data (offset + 4) rest := by
  obtain ⟨a, b, c, d, packed, same⟩ := packInt32_cases value range
  rw [packed] at h
  obtain ⟨read, moved⟩ := Wire.unpackInt32_of_stands h
  refine ⟨?_, moved⟩
  rw [unpackSize, read, same]

/-- An OID is read with a sign, which `unsigned` takes away. -/
theorem unpackOid_of_stands {oid : Nat} (range : oid < 2 ^ 32)
    (h : Stands data offset (packInt32 oid ++ rest)) :
    ∃ value, unpackSize data offset = .ok value ∧ unsigned value = oid ∧
      Stands data (offset + 4) rest := by
  obtain ⟨a, b, c, d, packed, unpacked⟩ := Wire.unpackInt32_packInt32 oid
  rw [packed] at h
  obtain ⟨read, moved⟩ := Wire.unpackInt32_of_stands h
  refine ⟨_, by rw [unpackSize, read], ?_, moved⟩
  rw [unpacked, unsigned]
  split_ifs <;> omega

theorem readDimensions_of_stands (dims : List (Nat × Int)) : ∀ offset,
    (∀ dim ∈ dims, dim.1 < 2 ^ 31 ∧ IsInt32 dim.2) →
    Stands data offset (dims.flatMap packBound ++ rest) →
    ∃ offset', readDimensions data dims.length offset =
      .ok (dims.map fun dim => (dim.1 : Int), offset') ∧ Stands data offset' rest := by
  induction dims with
  | nil =>
    intro offset _ h
    exact ⟨offset, rfl, h⟩
  | cons dim dims ih =>
    intro offset range h
    obtain ⟨⟨small, lower⟩, others⟩ := List.forall_mem_cons.mp range
    rw [List.flatMap_cons, packBound, List.append_assoc, List.append_assoc] at h
    obtain ⟨size, h⟩ := unpackSize_of_stands (by constructor <;> omega) h
    obtain ⟨bound, h⟩ := unpackSize_of_stands lower h
    obtain ⟨offset', read, h⟩ := ih (offset + 4 + 4) others h
    refine ⟨offset', ?_, h⟩
    rw [Int.add_assoc] at read
    rw [List.length_cons, readDimensions, size, bound]
    simp only [bind, Except.bind]
    rw [show offset + 8 = offset + (4 + 4) from rfl, read]
    rfl

/-- One element of a frame. -/
def decodeElement (decode : List UInt8 → Result Item) : Option (List UInt8) → Result Item
  | none => .ok (.leaf none)
  | some value => decode value

theorem readElements_of_stands (decode : List UInt8 → Result Item)
    (elements : List (Option (List UInt8))) : ∀ offset,
    (∀ value, some value ∈ elements → value.length < 2 ^ 31) →
    Stands data offset (elements.flatMap packParam ++ rest) →
    readElements decode data elements.length offset = elements.mapM (decodeElement decode) := by
  induction elements with
  | nil =>
    intro offset _ _
    rfl
  | cons element elements ih =>
    intro offset short h
    have short' : ∀ value, some value ∈ elements → value.length < 2 ^ 31 :=
      fun value member => short value (List.mem_cons_of_mem _ member)
    rw [List.flatMap_cons, List.append_assoc] at h
    rw [List.length_cons, readElements, List.mapM_cons]
    cases element with
    | none =>
      obtain ⟨length, h⟩ := unpackSize_of_stands (by constructor <;> decide) h
      rw [length]
      simp only [bind, Except.bind, if_true, decodeElement, ih _ short' h]
      rfl
    | some value =>
      have fits := short value List.mem_cons_self
      rw [packParam, List.append_assoc] at h
      obtain ⟨length, h⟩ := unpackSize_of_stands (by constructor <;> omega) h
      have inside := h.slice value.length
      rw [List.take_left] at inside
      rw [length]
      simp only [bind, Except.bind, if_neg (show ¬(value.length : Int) = -1 by omega), decodeElement,
        inside, ih _ short' h.advance]
      rfl

end Reading

theorem prod_toNat (dims : List (Nat × Int)) :
    ((dims.map fun dim => (dim.1 : Int)).prod).toNat = (dims.map Prod.fst).prod := by
  have cast := Nat.cast_list_prod (R := Int) (dims.map Prod.fst)
  rw [List.map_map] at cast
  rw [← Int.toNat_natCast (List.prod (dims.map Prod.fst)), cast]
  rfl

/-- What is decoded of a frame. -/
theorem decode_frame (others : Decoders) (depth : Nat) (frame : Frame) :
    decodeArrayBinary others (depth + 1) frame.bytes =
      if frame.dims = [] then .ok []
      else frame.elements.mapM
        (decodeElement (decodeParam others (decodeArrayBinary others depth) frame.oid)) >>= fun flat =>
          reshape flat (frame.sizes.map Int.ofNat) := by
  have start : Stands frame.bytes 0 frame.bytes := Offsets.stands_start _
  have fits := frame.ndim_int32
  nth_rewrite 2 [Frame.bytes] at start
  obtain ⟨ndim, h⟩ := unpackSize_of_stands (by constructor <;> omega) start
  obtain ⟨flags, h⟩ := unpackSize_of_stands frame.flags_int32 h
  obtain ⟨value, oid, same, h⟩ := unpackOid_of_stands frame.oid_uint32 h
  obtain ⟨offset, dims, h⟩ := readDimensions_of_stands frame.dims _ frame.dims_int32 h
  rw [← List.append_nil (frame.elements.flatMap packParam)] at h
  have elements := readElements_of_stands
    (decodeParam others (decodeArrayBinary others depth) frame.oid) frame.elements offset
    frame.lengths_int32 h
  simp only [Int.zero_add, Int.reduceAdd] at flags oid dims
  rw [decodeArrayBinary, ndim, flags, oid]
  simp only [bind, Except.bind]
  by_cases none : frame.dims = []
  · rw [if_pos none, if_pos (by rw [none]; rfl)]
  · have some : 0 < frame.dims.length := List.length_pos_iff.mpr none
    have count := frame.count
    have prod : ((frame.dims.map fun dim => (dim.1 : Int)).prod).toNat = frame.elements.length := by
      rw [prod_toNat, count, if_neg none]
    rw [if_neg none, if_neg (by omega), if_neg (by omega), Int.toNat_natCast, dims]
    simp only [prod, same, elements]
    rw [Frame.sizes, List.map_map]
    rfl

/-! ## Cutting into rows -/

section Rows

variable {α : Type}

/-- The slices `_reshape` takes are the pieces of a width. -/
theorem slices_eq {width n : Nat} (some : 0 < width) (flat : List (Nested α))
    (size : flat.length = n * width) :
    (starts flat.length width).map (fun i => slice flat i (i + width)) =
      Chunks.chunks width n flat := by
  have count : (flat.length + (width : Int).toNat - 1) / (width : Int).toNat = n := by
    rw [size, Int.toNat_natCast, Nat.add_sub_assoc some, Nat.mul_comm, Nat.mul_add_div some,
      Nat.div_eq_of_lt (by omega), Nat.add_zero]
  rw [starts, if_pos (by omega), count, List.map_map, Chunks.chunks_eq]
  refine List.map_congr_left fun i member => ?_
  have inside : i * width ≤ flat.length := by
    rw [size]
    exact Nat.mul_le_mul_right _ (Nat.le_of_lt (List.mem_range.mp member))
  have here := (Offsets.stands_start flat).advance_drop inside
  rw [Int.zero_add] at here
  rw [Function.comp_apply, ← here.slice width, Nat.cast_mul]

/-- A list is cut into pieces of one size, and each piece is an item of the shape. -/
theorem mapM_rows {next : Nat} {dims : List Nat} (width : 0 < (next :: dims).prod)
    (rows : ∀ (piece row : List (Nested α)), piece.length = (next :: dims).prod →
      (reshape piece ((next :: dims).map Int.ofNat) = .ok row ↔
        (Nested.list row).HasShape (fun _ => True) (next :: dims) ∧
          Nested.atDepth (next :: dims).length (.list row) = piece))
    {size : Nat} {flat : List (Nested α)} (count : flat.length = size * (next :: dims).prod)
    (items : List (Nested α)) :
    (starts flat.length ((next :: dims).prod : Nat)).mapM (fun i =>
        (reshape (slice flat i (i + ((next :: dims).prod : Nat)))
          ((next :: dims).map Int.ofNat)).map Nested.list) = .ok items ↔
      items.length = size ∧ (∀ x ∈ items, x.HasShape (fun _ => True) (next :: dims)) ∧
        items.flatMap (Nested.atDepth (next :: dims).length) = flat := by
  have nested : ∀ piece (x : Nested α), piece.length = (next :: dims).prod →
      ((reshape piece ((next :: dims).map Int.ofNat)).map Nested.list = .ok x ↔
        x.HasShape (fun _ => True) (next :: dims) ∧
          Nested.atDepth (next :: dims).length x = piece) := by
    intro piece x even
    rw [map_ok]
    constructor
    · rintro ⟨row, read, rfl⟩
      exact (rows piece row even).mp read
    · intro found
      cases x with
      | leaf element => exact absurd found.1 id
      | list row => exact ⟨row, (rows piece row even).mpr found, rfl⟩
  have pieces := Chunks.length_of_mem_chunks count
  have same :=
    Chunks.forall₂_congr_left (fun piece member x => nested piece x (pieces piece member)) items
  rw [← Chunks.forall₂_chunks (fun x => Nested.length_atDepth (next :: dims) x) size flat items
    count, ← same, ← mapM_ok, ← slices_eq width flat count, List.mapM_map]
  rfl

/-- The elements are cut as the sizes say, from any list of as many. No size but the first
can be nothing. -/
theorem reshape_ok (dims : List Nat) : ∀ (size : Nat) (flat items : List (Nested α)),
    flat.length = (size :: dims).prod →
    (reshape flat ((size :: dims).map Int.ofNat) = .ok items ↔
      (∀ n ∈ dims, 0 < n) ∧ (Nested.list items).HasShape (fun _ => True) (size :: dims) ∧
        Nested.atDepth (size :: dims).length (.list items) = flat) := by
  induction dims with
  | nil =>
    intro size flat items count
    rw [List.prod_singleton] at count
    rw [List.map_singleton, reshape, Except.ok.injEq, List.length_singleton, Nested.atDepth_one]
    constructor
    · rintro rfl
      exact ⟨fun n member => absurd member List.not_mem_nil, ⟨count, fun _ _ => trivial⟩, rfl⟩
    · rintro ⟨_, _, same⟩
      exact same.symm
  | cons next dims ih =>
    intro size flat items count
    have cast : (List.map Int.ofNat (next :: dims)).prod = ((next :: dims).prod : Nat) :=
      (Nat.cast_list_prod (R := Int) (next :: dims)).symm
    rw [List.prod_cons] at count
    simp only [List.map_cons, reshape] at cast ⊢
    rw [cast]
    by_cases none : (next :: dims).prod = 0
    · rw [if_pos (by omega)]
      refine iff_of_false (fun same => nomatch same) fun ⟨positive, _⟩ => ?_
      exact Nat.lt_irrefl 0 (positive 0 (List.prod_eq_zero_iff.mp none))
    · have width : 0 < (next :: dims).prod := Nat.pos_of_ne_zero none
      have positive : ∀ n ∈ next :: dims, 0 < n := by
        intro n member
        refine Nat.pos_of_ne_zero ?_
        rintro rfl
        exact none (List.prod_eq_zero_iff.mpr member)
      have rows (piece row : List (Nested α)) (even : piece.length = (next :: dims).prod) :=
        (ih next piece row even).trans
          (and_iff_right fun n member => positive n (List.mem_cons_of_mem _ member))
      have cut := mapM_rows width rows count items
      rw [List.map_cons] at cut
      rw [if_neg (by omega), cut]
      exact ⟨fun whole => ⟨positive, ⟨whole.1, whole.2.1⟩, whole.2.2⟩,
        fun ⟨_, shape, whole⟩ => ⟨shape.1, shape.2, whole⟩⟩

end Rows

/-- The value has the shape of the frame, and its elements, row after row, are those of
the frame. -/
def Frame.Holds (decode : List UInt8 → Result Item) (frame : Frame) (value : List Item) : Prop :=
  if frame.dims = [] then value = []
  else (Nested.list value).HasShape (fun _ => True) frame.sizes ∧
    List.Forall₂ (fun element x => decodeElement decode element = .ok x) frame.elements
      (Nested.atDepth frame.sizes.length (.list value))

/-- A frame is decoded to what it holds, but that an empty row is one that has no start. -/
theorem decode_frame_ok (others : Decoders) (depth : Nat) (frame : Frame) (value : List Item) :
    decodeArrayBinary others (depth + 1) frame.bytes = .ok value ↔
      frame.Holds (decodeParam others (decodeArrayBinary others depth) frame.oid) value ∧
        ∀ n ∈ frame.sizes.tail, 0 < n := by
  rw [decode_frame, Frame.Holds]
  have count := frame.count
  have sizes : frame.sizes = frame.dims.map Prod.fst := rfl
  cases dims : frame.dims with
  | nil =>
    rw [if_pos rfl, if_pos rfl, Except.ok.injEq, sizes, dims]
    exact ⟨fun same => ⟨same.symm, fun n member => absurd member List.not_mem_nil⟩,
      fun holds => holds.1.symm⟩
  | cons dim dims' =>
    rw [dims, if_neg (List.cons_ne_nil _ _), List.map_cons] at count
    rw [if_neg (List.cons_ne_nil _ _), if_neg (List.cons_ne_nil _ _), bind_ok, sizes, dims,
      List.map_cons, List.tail_cons]
    constructor
    · rintro ⟨flat, elements, cut⟩
      have each := mapM_ok.mp elements
      obtain ⟨positive, shape, whole⟩ :=
        (reshape_ok _ _ _ _ (each.length_eq.symm.trans count)).mp cut
      refine ⟨⟨shape, ?_⟩, positive⟩
      rw [whole]
      exact each
    · rintro ⟨⟨shape, each⟩, positive⟩
      refine ⟨_, mapM_ok.mpr each, ?_⟩
      exact (reshape_ok _ _ _ _ (each.length_eq.symm.trans count)).mpr ⟨positive, shape, rfl⟩

/-! ## What is encoded -/

theorem packSize_ok {n : Nat} {bytes : List UInt8} :
    packSize n = .ok bytes ↔ n < 2 ^ 31 ∧ packInt32 n = bytes := by
  rw [packSize]
  by_cases fits : n < 2 ^ 31
  · rw [if_pos fits, Except.ok.injEq]
    exact ⟨fun same => ⟨fits, same⟩, And.right⟩
  · rw [if_neg fits]
    refine iff_of_false (fun raised => ?_) fun holds => fits holds.1
    cases raised

theorem mapM_total {α : Type} {f : α → Result (List UInt8)} {fits : α → Prop}
    {pack : α → List UInt8}
    (one : ∀ a bytes, f a = .ok bytes ↔ fits a ∧ pack a = bytes) {l : List α}
    {packed : List (List UInt8)} (all : l.mapM f = .ok packed) :
    (∀ a ∈ l, fits a) ∧ packed.flatten = l.flatMap pack := by
  have each := mapM_ok.mp all
  simp only [one] at each
  obtain ⟨inside, same⟩ := (List.forall₂_and_left _ _).mp each
  have mapped : l.map pack = packed := by
    rw [← List.forall₂_eq_eq_eq]
    exact List.forall₂_map_left_iff.mpr same
  exact ⟨inside, by rw [← mapped, List.flatMap_def]⟩

theorem packDimension_ok (size : Nat) (bytes : List UInt8) :
    packDimension size = .ok bytes ↔ size < 2 ^ 31 ∧ packBound (size, 1) = bytes := by
  rw [packDimension, bind_ok]
  constructor
  · rintro ⟨front, packed, same⟩
    obtain ⟨fits, rfl⟩ := packSize_ok.mp packed
    exact ⟨fits, Except.ok.inj same⟩
  · rintro ⟨fits, rfl⟩
    exact ⟨_, packSize_ok.mpr ⟨fits, rfl⟩, rfl⟩

/-- An element as a frame has it. -/
def encoded (element : Element) : Option (List UInt8) := element.map Utf8.encode

theorem packElement_ok (element : Element) (bytes : List UInt8) :
    packElement element = .ok bytes ↔
      (∀ value ∈ encoded element, value.length < 2 ^ 31) ∧ packParam (encoded element) = bytes := by
  cases element with
  | none => simp [packElement, encoded, packParam]
  | some text =>
    rw [packElement, bind_ok]
    simp only [packSize_ok, encoded, Option.map_some, Option.mem_def, Option.some.injEq,
      forall_eq', packParam, Except.ok.injEq]
    constructor
    · rintro ⟨front, ⟨fits, rfl⟩, same⟩
      exact ⟨fits, same⟩
    · rintro ⟨fits, same⟩
      exact ⟨_, ⟨fits, rfl⟩, same⟩

theorem sizes_of_ones (dims : List Nat) :
    (dims.map fun size => (size, (1 : Int))).map Prod.fst = dims := by
  rw [List.map_map]
  exact List.map_id' dims

/-- The frame of these elements, all lower bounds 1. -/
def frameOf (hasNull : Bool) (dims : List Nat) (flat : List Element) (few : dims.length < 2 ^ 31)
    (small : ∀ size ∈ dims, size < 2 ^ 31)
    (short : ∀ element ∈ flat, ∀ value ∈ encoded element, value.length < 2 ^ 31)
    (count : flat.length = if dims = [] then 0 else dims.prod) : Frame where
  flags := if hasNull then 1 else 0
  oid := textOid
  dims := dims.map fun size => (size, 1)
  elements := flat.map encoded
  flags_int32 := by cases hasNull <;> constructor <;> decide
  oid_uint32 := by decide
  ndim_int32 := by simpa using few
  dims_int32 := by
    simp only [List.forall_mem_map]
    intro size member
    exact ⟨small size member, by constructor <;> decide⟩
  lengths_int32 := by
    intro value member
    obtain ⟨element, inside, same⟩ := List.mem_map.mp member
    exact short element inside value same
  count := by
    rw [List.length_map, count, sizes_of_ones]
    simp only [List.map_eq_nil_iff]

theorem dims_nil_iff {α : Type} {value : List (Nested α)} {dims : List Nat}
    (sized : dimensions value = .ok dims) :
    dims = [] ↔ value = [] := by
  rw [(dimensions_ok.mp sized).2]
  cases value <;> simp [Nested.firstDimensions]

theorem hasShape_of_sized {α : Type} {value : List (Nested α)} {dims : List Nat}
    (sized : dimensions value = .ok dims) (some : value ≠ []) :
    (Nested.list value).HasShape Nested.IsLeaf dims := by
  obtain ⟨shape, same⟩ := dimensions_ok.mp sized
  rw [same, if_neg fun none => some (List.isEmpty_iff.mp none)]
  exact Nested.hasShape_firstDimensions.mpr shape

theorem length_leaves {α : Type} {value : List (Nested α)} {dims : List Nat}
    (sized : dimensions value = .ok dims) :
    (Nested.list value).leaves.length = if dims = [] then 0 else dims.prod := by
  cases value with
  | nil =>
    rw [if_pos ((dims_nil_iff sized).mpr rfl)]
    rfl
  | cons x xs =>
    rw [if_neg fun none => nomatch (dims_nil_iff sized).mp none]
    have shape := hasShape_of_sized sized (List.cons_ne_nil x xs)
    rw [← Nested.length_atDepth dims _ shape, Nested.atDepth_isLeaf dims _ shape, List.length_map]

/-- The sizes behind the first are those of the lists in the value. -/
theorem positive_tail_iff {α : Type} {value : List (Nested α)} {dims : List Nat}
    (sized : dimensions value = .ok dims) :
    (∀ n ∈ dims.tail, 0 < n) ↔ value = [] ∨ (Nested.list value).Full := by
  cases value with
  | nil =>
    rw [(dims_nil_iff sized).mpr rfl]
    exact iff_of_true (fun n member => absurd member List.not_mem_nil) (Or.inl rfl)
  | cons x xs =>
    have shape := hasShape_of_sized sized (List.cons_ne_nil x xs)
    have sizes : dims = (xs.length + 1) :: x.firstDimensions := (dimensions_ok.mp sized).2
    rw [Nested.full_iff _ _ shape, sizes, List.tail_cons, List.forall_mem_cons]
    constructor
    · intro positive
      exact Or.inr ⟨Nat.succ_pos _, positive⟩
    · rintro (nothing | ⟨_, positive⟩)
      · cases nothing
      · exact positive

/-- What is encoded is a frame: the sizes of the value, and its elements in one row. -/
theorem encodeArrayBinary_ok {value : List Item} {data : List UInt8}
    (written : encodeArrayBinary value = .ok data) :
    ∃ frame : Frame, frame.bytes = data ∧ frame.oid = textOid ∧
      dimensions value = .ok frame.sizes ∧
      frame.elements = (Nested.list value).leaves.map encoded := by
  obtain ⟨dims, sized, written⟩ := bind_ok.mp written
  have flat : (if dims.isEmpty then [] else (Nested.list value).leaves) =
      (Nested.list value).leaves := by
    split
    · rw [(dims_nil_iff sized).mp (List.isEmpty_iff.mp ‹_›)]
      rfl
    · rfl
  rw [flat] at written
  obtain ⟨header, ndim, written⟩ := bind_ok.mp written
  obtain ⟨sizes, packed, written⟩ := bind_ok.mp written
  obtain ⟨elements, packed', written⟩ := bind_ok.mp written
  obtain ⟨few, rfl⟩ := packSize_ok.mp ndim
  obtain ⟨small, front⟩ := mapM_total packDimension_ok packed
  obtain ⟨short, back⟩ := mapM_total packElement_ok packed'
  refine ⟨frameOf ((Nested.list value).leaves.any Option.isNone) dims _ few small short
    (length_leaves sized), ?_, rfl, ?_, rfl⟩
  · rw [← Except.ok.inj written, front, back]
    simp only [Frame.bytes, frameOf, List.length_map, List.flatMap_map, List.append_assoc]
  · rw [sized, Frame.sizes, frameOf, sizes_of_ones]

/-! ## The round trip -/

theorem decodeElement_encoded (others : Decoders) (array : List UInt8 → Result (List Item))
    (element : Element) :
    decodeElement (decodeParam others array textOid) (encoded element) = .ok (.leaf element) := by
  cases element with
  | none => rfl
  | some text =>
    have back : Utf8.whole (Utf8.encode text) = some text := Utf8.whole_eq_some_iff.mpr rfl
    simp only [encoded, Option.map_some, decodeElement, decodeParam, scalarDecoder, textOid,
      List.mem_cons, true_or, if_true, decodeText, back]
    rfl

/-- The value is what its own frame holds. -/
theorem holds_of_encoded (others : Decoders) (array : List UInt8 → Result (List Item))
    {value : List Item} {frame : Frame} (oid : frame.oid = textOid)
    (sized : dimensions value = .ok frame.sizes)
    (elements : frame.elements = (Nested.list value).leaves.map encoded) :
    frame.Holds (decodeParam others array frame.oid) value := by
  have none : frame.sizes = [] ↔ frame.dims = [] := List.map_eq_nil_iff
  rw [Frame.Holds]
  by_cases empty : frame.dims = []
  · rw [if_pos empty]
    exact (dims_nil_iff sized).mp (none.mpr empty)
  · rw [if_neg empty]
    have shape' := hasShape_of_sized sized fun nothing =>
      empty (none.mp ((dims_nil_iff sized).mpr nothing))
    refine ⟨Nested.hasShape_mono (fun _ _ => trivial) _ _ shape', ?_⟩
    rw [Nested.atDepth_isLeaf _ _ shape', elements, oid, List.forall₂_map_left_iff,
      List.forall₂_map_right_iff, List.forall₂_same]
    exact fun element _ => decodeElement_encoded others array element

/-- A list that is encoded comes back exactly if it is empty or no list in it is. -/
theorem binary_roundtrip_iff (others : Decoders) (depth : Nat) (value : List Item)
    (data : List UInt8) (written : encodeArrayBinary value = .ok data) :
    decodeArrayBinary others (depth + 1) data = .ok value ↔
      value = [] ∨ (Nested.list value).Full := by
  obtain ⟨frame, rfl, oid, sized, elements⟩ := encodeArrayBinary_ok written
  rw [decode_frame_ok, and_iff_right (holds_of_encoded others _ oid sized elements)]
  exact positive_tail_iff sized

def noDecoders : Decoders := fun _ => none

theorem nested_comes_back :
    ∃ data, encodeArrayBinary [.list [.leaf (some ['a']), .leaf none]] = .ok data ∧
      decodeArrayBinary noDecoders 1 data = .ok [.list [.leaf (some ['a']), .leaf none]] := by
  refine ⟨_, rfl, ?_⟩
  refine (binary_roundtrip_iff noDecoders 0 _ _ rfl).mpr (Or.inr ?_)
  simp [Nested.Full, Nested.Full.FullAll]

/-- `[[]]` is encoded, and cannot be decoded. -/
theorem emptyRow_lost :
    ∃ data, encodeArrayBinary [.list []] = .ok data ∧
      decodeArrayBinary noDecoders 1 data ≠ .ok [.list []] := by
  refine ⟨_, rfl, fun back => ?_⟩
  obtain ⟨frame, bytes, _, sized, _⟩ :=
    encodeArrayBinary_ok (show encodeArrayBinary [.list []] = _ from rfl)
  rw [← bytes, decode_frame_ok] at back
  have sizes : frame.sizes = [1, 0] := (dimensions_ok.mp sized).2
  rw [sizes] at back
  exact Nat.lt_irrefl 0 (back.2 0 List.mem_cons_self)

/-! ## Refusals -/

/-- So many elements, of which none is longer than what is left, and nothing more. Bytes
that break off are not looked at. -/
def regularElements : Nat → List UInt8 → Bool
  | 0, rest => rest.isEmpty
  | n + 1, a :: b :: c :: d :: rest =>
    let length := Stream.unpackInt32 a b c d
    if length = -1 then regularElements n rest
    else 0 ≤ length && length.toNat ≤ rest.length && regularElements n (rest.drop length.toNat)
  | _ + 1, _ => true

/-- So many dimensions without a negative size, and their product of elements. -/
def regularDimensions : Nat → Nat → List UInt8 → Bool
  | 0, total, rest => regularElements total rest
  | n + 1, total, a :: b :: c :: d :: _ :: _ :: _ :: _ :: rest =>
    let size := Stream.unpackInt32 a b c d
    0 ≤ size && regularDimensions n (total * size.toNat) rest
  | _ + 1, _, _ => true

/-- An array without dimensions has no elements. -/
def regular (data : List UInt8) : Bool :=
  match data with
  | a :: b :: c :: d :: _ :: _ :: _ :: _ :: _ :: _ :: _ :: _ :: rest =>
    let ndim := Stream.unpackInt32 a b c d
    if ndim = 0 then rest.isEmpty else regularDimensions ndim.toNat 1 rest
  | _ => true

/-- The bytes are an array value, and this is its value. -/
def WellFormed (others : Decoders) (depth : Nat) (data : List UInt8) (value : List Item) : Prop :=
  ∃ frame : Frame, frame.bytes = data ∧
    frame.Holds (decodeParam others (decodeArrayBinary others depth) frame.oid) value

/-! ### Frames are regular -/

theorem regularElements_pack (elements : List (Option (List UInt8)))
    (short : ∀ value, some value ∈ elements → value.length < 2 ^ 31) :
    regularElements elements.length (elements.flatMap packParam) = true := by
  induction elements with
  | nil => rfl
  | cons element elements ih =>
    have rest := ih fun value member => short value (List.mem_cons_of_mem _ member)
    rw [List.flatMap_cons, List.length_cons]
    cases element with
    | none =>
      obtain ⟨a, b, c, d, packed, length⟩ := packInt32_cases (-1) (by constructor <;> decide)
      rw [packParam, packed]
      simp only [List.cons_append, List.nil_append, regularElements, length, if_true, rest]
    | some value =>
      have fits := short value List.mem_cons_self
      obtain ⟨a, b, c, d, packed, length⟩ :=
        packInt32_cases value.length (by constructor <;> omega)
      rw [packParam, packed, List.append_assoc]
      simp only [List.cons_append, List.nil_append, regularElements, length,
        if_neg (show ¬(value.length : Int) = -1 by omega), Int.toNat_natCast, List.drop_left, rest,
        List.length_append]
      simp

theorem regularDimensions_pack (dims : List (Nat × Int)) (rest : List UInt8) :
    ∀ total, (∀ dim ∈ dims, dim.1 < 2 ^ 31 ∧ IsInt32 dim.2) →
      regularDimensions dims.length total (dims.flatMap packBound ++ rest) =
        regularElements (total * (dims.map Prod.fst).prod) rest := by
  induction dims with
  | nil =>
    intro total _
    simp [regularDimensions]
  | cons dim dims ih =>
    intro total range
    obtain ⟨⟨small, lower⟩, others⟩ := List.forall_mem_cons.mp range
    obtain ⟨a, b, c, d, packed, size⟩ :=
      packInt32_cases dim.1 (by constructor <;> omega)
    obtain ⟨e, f, g, h, packed', _⟩ := packInt32_cases dim.2 lower
    rw [List.flatMap_cons, packBound, packed, packed', List.length_cons, List.map_cons,
      List.prod_cons, ← Nat.mul_assoc, ← ih _ others]
    simp [regularDimensions, size]

theorem regular_bytes (frame : Frame) : regular frame.bytes = true := by
  have fits := frame.ndim_int32
  have count := frame.count
  obtain ⟨a, b, c, d, packed, ndim⟩ :=
    packInt32_cases frame.dims.length (by constructor <;> omega)
  obtain ⟨e, f, g, h, packed', _⟩ := packInt32_cases frame.flags frame.flags_int32
  obtain ⟨i, j, k, l, packed'', _⟩ := Wire.unpackInt32_packInt32 frame.oid
  rw [Frame.bytes, packed, packed', packed'']
  simp only [List.cons_append, List.nil_append, regular, ndim]
  by_cases empty : frame.dims = []
  · rw [if_pos empty, List.length_eq_zero_iff] at count
    simp [empty, count]
  · have some : 0 < frame.dims.length := List.length_pos_iff.mpr empty
    rw [if_neg empty] at count
    rw [if_neg (by omega), Int.toNat_natCast, regularDimensions_pack _ _ _ frame.dims_int32,
      Nat.one_mul, ← count]
    exact regularElements_pack frame.elements frame.lengths_int32

/-! ### What is regular is a frame -/

section Accepted

variable {data rest : List UInt8} {offset : Int}

theorem stands_of_unpackSize {value : Int} (h : Stands data offset rest)
    (read : unpackSize data offset = .ok value) :
    ∃ a b c d later, rest = a :: b :: c :: d :: later ∧ value = Stream.unpackInt32 a b c d ∧
      Stands data (offset + 4) later := by
  rw [unpackSize] at read
  cases unpacked : Wire.unpackInt32 data offset with
  | none =>
    rw [unpacked] at read
    cases read
  | some n =>
    rw [unpacked] at read
    obtain rfl := Except.ok.inj read
    exact Wire.stands_of_unpackInt32 h unpacked

theorem elements_of_regular {decode : List UInt8 → Result Item} (n : Nat) :
    ∀ offset rest items, Stands data offset rest → readElements decode data n offset = .ok items →
      regularElements n rest = true →
      ∃ elements : List (Option (List UInt8)), rest = elements.flatMap packParam ∧
        elements.length = n ∧ ∀ value, some value ∈ elements → value.length < 2 ^ 31 := by
  induction n with
  | zero =>
    intro offset rest items _ _ ends
    exact ⟨[], List.isEmpty_iff.mp ends, rfl, fun value member => absurd member List.not_mem_nil⟩
  | succ n ih =>
    intro offset rest items h read fine
    obtain ⟨length, unpacked, read⟩ := bind_ok.mp read
    obtain ⟨a, b, c, d, later, rfl, same, h⟩ := stands_of_unpackSize h unpacked
    have range := Wire.unpackInt32_range a b c d
    have packed := Wire.packInt32_unpackInt32 a b c d
    simp only [regularElements] at fine
    rw [← same] at fine range packed
    by_cases null : length = -1
    · rw [if_pos null] at read fine
      obtain ⟨items', read, _⟩ := bind_ok.mp read
      obtain ⟨elements, rfl, count, short⟩ := ih _ _ _ h read fine
      refine ⟨none :: elements, ?_, by rw [List.length_cons, count], ?_⟩
      · rw [List.flatMap_cons, packParam, ← null, packed]
        rfl
      · intro value member
        exact short value (by simpa using member)
    · rw [if_neg null] at read fine
      simp only [Bool.and_eq_true, decide_eq_true_eq] at fine
      obtain ⟨⟨sign, inside⟩, fine⟩ := fine
      obtain ⟨item, _, read⟩ := bind_ok.mp read
      obtain ⟨items', read, _⟩ := bind_ok.mp read
      have moved := h.advance_drop inside
      rw [Int.toNat_of_nonneg sign] at moved
      obtain ⟨elements, split, count, short⟩ := ih _ _ _ moved read fine
      have width : (later.take length.toNat).length = length.toNat := List.length_take_of_le inside
      refine ⟨some (later.take length.toNat) :: elements, ?_, by rw [List.length_cons, count], ?_⟩
      · rw [List.flatMap_cons, packParam, width, Int.toNat_of_nonneg sign, packed, ← split,
          List.append_assoc, List.take_append_drop]
        rfl
      · intro value member
        rcases List.mem_cons.mp member with same | member
        · rw [Option.some.inj same, width]
          omega
        · exact short value member

theorem dims_of_regular (n : Nat) : ∀ offset rest total sizes offset', Stands data offset rest →
    readDimensions data n offset = .ok (sizes, offset') → regularDimensions n total rest = true →
    ∃ (dims : List (Nat × Int)) (later : List UInt8), rest = dims.flatMap packBound ++ later ∧
      dims.length = n ∧ sizes = dims.map (fun dim => (dim.1 : Int)) ∧
      (∀ dim ∈ dims, dim.1 < 2 ^ 31 ∧ IsInt32 dim.2) ∧ Stands data offset' later ∧
      regularElements (total * (dims.map Prod.fst).prod) later = true := by
  induction n with
  | zero =>
    intro offset rest total sizes offset' h read fine
    obtain ⟨rfl, rfl⟩ := Prod.mk.inj (Except.ok.inj read)
    refine ⟨[], rest, rfl, rfl, rfl, fun dim member => absurd member List.not_mem_nil, h, ?_⟩
    simpa [regularDimensions] using fine
  | succ n ih =>
    intro offset rest total sizes offset' h read fine
    obtain ⟨size, unpacked, read⟩ := bind_ok.mp read
    obtain ⟨lower, unpacked', read⟩ := bind_ok.mp read
    obtain ⟨⟨sizes', offset''⟩, others, same⟩ := bind_ok.mp read
    obtain ⟨rfl, rfl⟩ := Prod.mk.inj (Except.ok.inj same)
    obtain ⟨a, b, c, d, later, rfl, rfl, h⟩ := stands_of_unpackSize h unpacked
    obtain ⟨e, f, g, i, later, rfl, rfl, h⟩ := stands_of_unpackSize h unpacked'
    have range := Wire.unpackInt32_range a b c d
    have packed := Wire.packInt32_unpackInt32 a b c d
    simp only [regularDimensions, Bool.and_eq_true, decide_eq_true_eq] at fine
    obtain ⟨sign, fine⟩ := fine
    rw [show offset + 4 + 4 = offset + 8 from Int.add_assoc ..] at h
    obtain ⟨dims, later, rfl, count, rfl, small, h, fine⟩ := ih _ _ _ _ _ h others fine
    have nat := Int.toNat_of_nonneg sign
    refine ⟨((Stream.unpackInt32 a b c d).toNat, Stream.unpackInt32 e f g i) :: dims, later, ?_,
      by rw [List.length_cons, count], ?_, ?_, h, ?_⟩
    · rw [List.flatMap_cons, packBound, nat, packed, Wire.packInt32_unpackInt32]
      rfl
    · rw [List.map_cons, nat]
    · rw [List.forall_mem_cons]
      exact ⟨⟨by omega, Wire.unpackInt32_range e f g i⟩, small⟩
    · rwa [List.map_cons, List.prod_cons, ← Nat.mul_assoc]

/-- The number an OID is read as, packed again. -/
theorem packInt32_unsigned (a b c d : UInt8) :
    packInt32 (unsigned (Stream.unpackInt32 a b c d)) = [a, b, c, d] := by
  rw [← Wire.packInt32_unpackInt32 a b c d]
  generalize Stream.unpackInt32 a b c d = value
  have same : (unsigned value : Int) % 2 ^ 32 = value % 2 ^ 32 := by
    rw [unsigned]
    omega
  rw [packInt32, packInt32, same]

theorem frame_of_regular {others : Decoders} {depth : Nat} {value : List Item}
    (read : decodeArrayBinary others (depth + 1) data = .ok value) (fine : regular data = true) :
    ∃ frame : Frame, frame.bytes = data := by
  have start := Offsets.stands_start data
  obtain ⟨ndim, unpacked, read⟩ := bind_ok.mp read
  obtain ⟨flags, unpacked', read⟩ := bind_ok.mp read
  obtain ⟨oid, unpacked'', read⟩ := bind_ok.mp read
  obtain ⟨a, b, c, d, later, rfl, rfl, h⟩ := stands_of_unpackSize start unpacked
  obtain ⟨e, f, g, i, later, rfl, rfl, h⟩ := stands_of_unpackSize h unpacked'
  obtain ⟨j, k, l, m, later, rfl, rfl, h⟩ := stands_of_unpackSize h unpacked''
  have uint32 : unsigned (Stream.unpackInt32 j k l m) < 2 ^ 32 := by
    rw [unsigned]
    omega
  have range := Wire.unpackInt32_range a b c d
  have packed := Wire.packInt32_unpackInt32 a b c d
  simp only [regular] at fine
  by_cases none : Stream.unpackInt32 a b c d = 0
  · rw [if_pos none, List.isEmpty_iff] at fine
    refine ⟨⟨Stream.unpackInt32 e f g i, unsigned (Stream.unpackInt32 j k l m), [], [],
      Wire.unpackInt32_range e f g i, uint32, by simp, by simp, by simp, rfl⟩, ?_⟩
    rw [Frame.bytes, Wire.packInt32_unpackInt32, packInt32_unsigned, fine]
    simp only [List.length_nil, Nat.cast_zero, ← none, packed]
    rfl
  · rw [if_neg none] at read fine
    by_cases negative : Stream.unpackInt32 a b c d < 0
    · rw [if_pos negative] at read
      cases read
    · rw [if_neg negative] at read
      obtain ⟨⟨sizes, offset'⟩, sized, read⟩ := bind_ok.mp read
      obtain ⟨flat, elements, _⟩ := bind_ok.mp read
      obtain ⟨dims, rest, rfl, count, rfl, small, h, fine⟩ :=
        dims_of_regular _ _ _ _ _ _ h sized fine
      simp only [prod_toNat] at elements
      rw [Nat.one_mul] at fine
      obtain ⟨items, rfl, total, short⟩ := elements_of_regular _ _ _ _ h elements fine
      have some : dims ≠ [] := by
        rintro rfl
        rw [List.length_nil] at count
        omega
      refine ⟨⟨Stream.unpackInt32 e f g i, unsigned (Stream.unpackInt32 j k l m), dims, items,
        Wire.unpackInt32_range e f g i, uint32, by omega, small, short, ?_⟩, ?_⟩
      · rw [total, if_neg some]
      · rw [Frame.bytes, Wire.packInt32_unpackInt32, packInt32_unsigned]
        simp only [count, Int.toNat_of_nonneg (Int.not_lt.mp negative), packed]
        rfl

end Accepted

/-- What is accepted is an array value exactly if it is regular. -/
theorem wellFormed_iff_regular (others : Decoders) (depth : Nat) (data : List UInt8)
    (value : List Item) (read : decodeArrayBinary others (depth + 1) data = .ok value) :
    WellFormed others depth data value ↔ regular data = true := by
  constructor
  · rintro ⟨frame, rfl, _⟩
    exact regular_bytes frame
  · intro fine
    obtain ⟨frame, rfl⟩ := frame_of_regular read fine
    exact ⟨frame, rfl, ((decode_frame_ok others depth frame value).mp read).1⟩

/-- One dimension of one element. -/
def oneText : Frame :=
  frameOf false [1] [some ['a']] (by decide) (by simp) (by simp [encoded]; decide) (by simp)

theorem oneText_read :
    decodeArrayBinary noDecoders 1 oneText.bytes = .ok [.leaf (some ['a'])] := by
  refine (decode_frame_ok noDecoders 0 oneText _).mpr ⟨?_, fun n member => nomatch member⟩
  exact holds_of_encoded noDecoders _ rfl rfl rfl

theorem oneText_wellFormed : WellFormed noDecoders 0 oneText.bytes [.leaf (some ['a'])] :=
  (wellFormed_iff_regular noDecoders 0 oneText.bytes [.leaf (some ['a'])] oneText_read).mpr
    (by decide)

/-- One dimension of the size -1. -/
def negativeSize : List UInt8 :=
  [0, 0, 0, 1, 0, 0, 0, 0, 0, 0, 0, 25, 0xFF, 0xFF, 0xFF, 0xFF, 0, 0, 0, 1]

theorem negativeSize_accepted :
    decodeArrayBinary noDecoders 1 negativeSize = .ok [] ∧
      ¬WellFormed noDecoders 0 negativeSize [] := by
  constructor
  · have ndim : unpackSize negativeSize 0 = .ok 1 := by decide
    have flags : unpackSize negativeSize 4 = .ok 0 := by decide
    have oid : unpackSize negativeSize 8 = .ok 25 := by decide
    have size : unpackSize negativeSize 12 = .ok (-1) := by decide
    have lower : unpackSize negativeSize (12 + 4) = .ok 1 := by decide
    have dims : readDimensions negativeSize 1 12 = .ok ([-1], 20) := by
      rw [readDimensions, size, lower]
      rfl
    rw [decodeArrayBinary, ndim, flags, oid]
    simp only [bind, Except.bind]
    rw [if_neg (by decide), if_neg (by decide), Int.toNat_one, dims]
    rfl
  · rintro ⟨frame, bytes, _⟩
    have fine := regular_bytes frame
    rw [bytes] at fine
    exact absurd fine (by decide)

end PgMimic.Arrays

import DatafusionPostgres.ArrowPg.ArrowArray

/-! `datafusion-pg-catalog/src/pg_catalog/array_bounds_udf.rs`: the bounds of arrays, by the
nesting of their lists. -/
namespace DatafusionPostgres.PgCatalog
open ArrowPg

inductive MessagePart where
  | text (s : String)
  | type (dataType : DataType)
  | number (n : Nat)

/-- `DataFusionError::Internal`. -/
structure InternalError where
  message : List MessagePart

inductive ColumnarValue where
  | array (array : ArrowArray)
  | scalar (value : ScalarValue)

section Bounds

/-- The loop of `length_at_dim`. `current` stays below `dim`, so it never overflows. -/
def lengthFrom (dim : Int64) (value : ArrowArray) (current : Int64) : Option Nat :=
  if current = dim then
    if value.len = 0 then none else some value.len
  else if value.len = 0 then none
  else match value with
    | .list .list _ _ _ value => lengthFrom dim (value 0) (current + 1)
    | .list .largeList _ _ _ value => lengthFrom dim (value 0) (current + 1)
    | .list (.fixedSizeList _) _ _ _ value => lengthFrom dim (value 0) (current + 1)
    | _ => none
termination_by structural value

def lengthAtDim (arr : Option ArrowArray) (dim : Int64) : Option Nat :=
  if dim < 1 then none
  else match arr with
    | none => none
    | some value => lengthFrom dim value 1

def extractDims (arg : ArrowArray) : Except InternalError (List (Option Int64)) :=
  match arg with
  | .primitive ⟨.int32, _, _⟩ slots =>
    .ok (slots.map fun slot => slot.get.map fun x => (Int32.ofInt x).toInt64)
  | .primitive ⟨.int64, _, _⟩ slots => .ok (slots.map fun slot => slot.get.map Int64.ofInt)
  | other => .error ⟨[.text "array dimension must be an integer, got ", .type other.dataType]⟩

/-- `build`, for one row. -/
def boundOf (upper : Bool) (row : Option ArrowArray) (dim : Option Int64) : Option Int32 :=
  match dim with
  | none => none
  | some d =>
    match lengthAtDim row d with
    | none => none
    | some len => if upper then some (.ofNat len) else some 1

/-- `iter` of a list array. -/
def listRows (len : Nat) (valid : Nat → Bool) (value : Nat → ArrowArray) :
    List (Option ArrowArray) :=
  (List.range len).map fun i => if valid i then some (value i) else none

variable (valuesToArrays : List ColumnarValue → Except InternalError (List ArrowArray))

def arrayBoundsImpl (args : List ColumnarValue) (upper : Bool) :
    Except InternalError (List (Option Int32)) := do
  match ← valuesToArrays args with
  | [listArr, dimArr] =>
    let dims ← extractDims dimArr
    match listArr with
    | .list .list _ len valid value =>
      return List.zipWith (boundOf upper) (listRows len valid value) dims
    | .list .largeList _ len valid value =>
      return List.zipWith (boundOf upper) (listRows len valid value) dims
    | .list (.fixedSizeList _) _ len valid value =>
      return List.zipWith (boundOf upper) (listRows len valid value) dims
    | other =>
      throw ⟨[.text "array_upper/array_lower expect a list argument, got ", .type other.dataType]⟩
  | args =>
    throw ⟨[.text "array_upper/array_lower expect exactly 2 arguments, got ",
      .number args.length]⟩

/-- `ArrayUpperUDF::invoke_with_args`. -/
def arrayUpper (args : List ColumnarValue) : Except InternalError (List (Option Int32)) :=
  arrayBoundsImpl valuesToArrays args true

/-- `ArrayLowerUDF::invoke_with_args`. -/
def arrayLower (args : List ColumnarValue) : Except InternalError (List (Option Int32)) :=
  arrayBoundsImpl valuesToArrays args false

end Bounds

section Extents

/-- The three layouts of lists that the functions read. -/
def isNested : ListKind → Bool
  | .list | .largeList | .fixedSizeList _ => true
  | .listView | .largeListView => false

/-- A rectangular array of the given positive extents, from the outermost in. -/
inductive Rectangular : List Nat → ArrowArray → Prop
  | elements {value : ArrowArray}
      (hleaf : ∀ kind field len valid value', value ≠ .list kind field len valid value')
      (hpos : 0 < value.len) : Rectangular [value.len] value
  | nested {kind : ListKind} {field : Field} {len : Nat} {valid : Nat → Bool}
      {value : Nat → ArrowArray} {extents : List Nat} (hkind : isNested kind = true)
      (hpos : 0 < len) (hvalid : ∀ i < len, valid i = true)
      (hvalue : ∀ i < len, Rectangular extents (value i)) :
      Rectangular (len :: extents) (.list kind field len valid value)

/-- The extents of a row of nesting depth `r`: a NULL and an empty array have none. -/
inductive RowExtents (r : Nat) : List Nat → Option ArrowArray → Prop
  | null : RowExtents r [] none
  | empty {value : ArrowArray} (hempty : value.len = 0) : RowExtents r [] (some value)
  | rectangular {value : ArrowArray} {extents : List Nat} (hrectangular : Rectangular extents value)
      (hdepth : extents.length = r) (hfit : ∀ d ∈ extents, d < 2 ^ 31) :
      RowExtents r extents (some value)

/-- A column of lists nested `r` deep, each row with its own extents. -/
inductive NestedColumn (r : Nat) (extents : Nat → List Nat) : ArrowArray → Prop
  | mk {kind : ListKind} {field : Field} {len : Nat} {valid : Nat → Bool}
      {value : Nat → ArrowArray} (hkind : isNested kind = true)
      (hrows : ∀ i < len, RowExtents r (extents i) (if valid i then some (value i) else none)) :
      NestedColumn r extents (.list kind field len valid value)

def int64Column (slots : List (Slot Int)) : ArrowArray := .primitive ⟨.int64, .int64, rfl⟩ slots

/-- The extent at a dimension, counted from 1. -/
def extentAt (extents : List Nat) (dim : Option Int64) : Option Nat :=
  dim.bind fun k => if 1 ≤ k.toInt then extents[k.toInt.toNat - 1]? else none

private theorem toInt_succ {current dim : Int64} (h : current.toInt < dim.toInt) :
    (current + 1).toInt = current.toInt + 1 := by
  have hdim := dim.toInt_lt
  have hcurrent := current.le_toInt
  rw [Int64.toInt_add]
  exact Int.bmod_eq_of_le (by change -2 ^ 63 ≤ current.toInt + 1; omega)
    (by change current.toInt + 1 < 2 ^ 63; omega)

private theorem lengthFrom_self {dim : Int64} {value : ArrowArray} (hpos : 0 < value.len) :
    lengthFrom dim value dim = some value.len := by
  rw [lengthFrom.eq_def, if_pos rfl, if_neg (Nat.ne_of_gt hpos)]

private theorem lengthFrom_elements {dim current : Int64} {value : ArrowArray}
    (hleaf : ∀ kind field len valid value', value ≠ .list kind field len valid value')
    (hpos : 0 < value.len) (hne : current ≠ dim) : lengthFrom dim value current = none := by
  rw [lengthFrom.eq_def, if_neg hne, if_neg (Nat.ne_of_gt hpos)]
  cases value with
  | list kind field len valid value => exact absurd rfl (hleaf kind field len valid value)
  | _ => rfl

private theorem lengthFrom_nested {dim : Int64} {kind : ListKind} {field : Field} {len : Nat}
    {valid : Nat → Bool} {value : Nat → ArrowArray} {current : Int64}
    (hkind : isNested kind = true) (hpos : 0 < len) (hne : current ≠ dim) :
    lengthFrom dim (.list kind field len valid value) current =
      lengthFrom dim (value 0) (current + 1) := by
  have hlen : (ArrowArray.list kind field len valid value).len ≠ 0 := Nat.ne_of_gt hpos
  rw [lengthFrom.eq_def, if_neg hne, if_neg hlen]
  cases kind with
  | list => rfl
  | largeList => rfl
  | fixedSizeList size => rfl
  | listView => cases hkind
  | largeListView => cases hkind

private theorem lengthFrom_rectangular {dim : Int64} {extents : List Nat} {value : ArrowArray}
    (h : Rectangular extents value) {current : Int64} (hle : current.toInt ≤ dim.toInt) :
    lengthFrom dim value current = extents[(dim.toInt - current.toInt).toNat]? := by
  induction h generalizing current with
  | @elements value hleaf hpos =>
    by_cases heq : current = dim
    · subst heq
      rw [lengthFrom_self hpos, Int.sub_self]
      rfl
    · have hlt : current.toInt < dim.toInt := Int.lt_iff_le_and_ne.mpr ⟨hle, mt Int64.toInt_inj.mp heq⟩
      rw [lengthFrom_elements hleaf hpos heq, List.getElem?_eq_none]
      change 1 ≤ _
      omega
  | @nested kind field len valid value extents hkind hpos hvalid hvalue ih =>
    have hlen : 0 < (ArrowArray.list kind field len valid value).len := hpos
    by_cases heq : current = dim
    · subst heq
      rw [lengthFrom_self hlen, Int.sub_self]
      rfl
    · have hlt : current.toInt < dim.toInt := Int.lt_iff_le_and_ne.mpr ⟨hle, mt Int64.toInt_inj.mp heq⟩
      have hnext := toInt_succ hlt
      have hindex : (dim.toInt - current.toInt).toNat =
          (dim.toInt - (current + 1).toInt).toNat + 1 := by omega
      rw [lengthFrom_nested hkind hpos heq, hindex, List.getElem?_cons_succ]
      exact ih 0 hpos (by omega)

private theorem lengthFrom_empty {dim current : Int64} {value : ArrowArray}
    (hempty : value.len = 0) : lengthFrom dim value current = none := by
  rw [lengthFrom.eq_def, if_pos hempty, if_pos hempty, ite_self]

private theorem lengthAtDim_row {r : Nat} {extents : List Nat} {row : Option ArrowArray}
    (h : RowExtents r extents row) (dim : Int64) :
    lengthAtDim row dim = extentAt extents (some dim) := by
  have hone : (1 : Int64).toInt = 1 := rfl
  unfold lengthAtDim extentAt
  rw [Option.bind_some]
  by_cases hdim : dim < 1
  · have hlow : ¬ 1 ≤ dim.toInt := by
      rw [Int64.lt_iff_toInt_lt, hone] at hdim
      omega
    rw [if_pos hdim, if_neg hlow]
  · have hhigh : 1 ≤ dim.toInt := by
      rw [Int64.lt_iff_toInt_lt, hone] at hdim
      omega
    rw [if_neg hdim, if_pos hhigh]
    cases h with
    | null => rfl
    | empty hempty => exact lengthFrom_empty hempty
    | rectangular hrectangular hdepth hfit =>
      have hle : (1 : Int64).toInt ≤ dim.toInt := hhigh
      have hindex : (dim.toInt - (1 : Int64).toInt).toNat = dim.toInt.toNat - 1 := by
        rw [hone]
        omega
      rw [← hindex]
      exact lengthFrom_rectangular hrectangular hle

private theorem RowExtents.fits {r : Nat} {extents : List Nat} {row : Option ArrowArray}
    (h : RowExtents r extents row) {dim : Option Int64} {d : Nat}
    (hd : extentAt extents dim = some d) : d < 2 ^ 31 := by
  cases dim with
  | none => cases hd
  | some k =>
    rw [extentAt, Option.bind_some] at hd
    split at hd
    · have hmem := List.mem_of_getElem? hd
      cases h with
      | null => cases hmem
      | empty => cases hmem
      | rectangular _ _ hfit => exact hfit d hmem
    · cases hd

private theorem boundOf_row {r : Nat} {extents : List Nat} {row : Option ArrowArray}
    (h : RowExtents r extents row) (upper : Bool) (dim : Option Int64) :
    boundOf upper row dim =
      (extentAt extents dim).map fun d => if upper then .ofNat d else 1 := by
  cases dim with
  | none => rfl
  | some k =>
    rw [boundOf, lengthAtDim_row h]
    cases extentAt extents (some k) with
    | none => rfl
    | some d => cases upper <;> rfl

private theorem listRows_getElem? {len : Nat} (valid : Nat → Bool) (value : Nat → ArrowArray)
    {i : Nat} (hi : i < len) :
    (listRows len valid value)[i]? = some (if valid i then some (value i) else none) := by
  rw [listRows, List.getElem?_map, List.getElem?_range hi]
  rfl

end Extents

section Columns
variable {valuesToArrays : List ColumnarValue → Except InternalError (List ArrowArray)}
  (hcolumns : ∀ n (columns : List ArrowArray), (∀ column ∈ columns, column.len = n) →
    valuesToArrays (columns.map .array) = .ok columns)
include hcolumns

private theorem arrayBoundsImpl_columns {kind : ListKind} (hkind : isNested kind = true)
    (field : Field) {len : Nat} (valid : Nat → Bool) (value : Nat → ArrowArray)
    {slots : List (Slot Int)} (hslots : slots.length = len) (upper : Bool) :
    arrayBoundsImpl valuesToArrays
        [.array (.list kind field len valid value), .array (int64Column slots)] upper =
      .ok (List.zipWith (boundOf upper) (listRows len valid value)
        (slots.map fun slot => slot.get.map Int64.ofInt)) := by
  have harrays := hcolumns len [.list kind field len valid value, int64Column slots] (by
    intro column hcolumn
    rcases List.mem_pair.mp hcolumn with rfl | rfl
    · rfl
    · exact hslots)
  unfold arrayBoundsImpl
  rw [show [ColumnarValue.array (.list kind field len valid value), .array (int64Column slots)] =
    [ArrowArray.list kind field len valid value, int64Column slots].map .array from rfl, harrays]
  cases kind with
  | list => rfl
  | largeList => rfl
  | fixedSizeList size => rfl
  | listView => cases hkind
  | largeListView => cases hkind

/-- Each row has the bounds of its own extents at its own dimension: the upper bound is the extent,
the lower bound is 1, and both are NULL where the row has no such dimension. -/
theorem arrayBounds_extents {r : Nat} {extents : Nat → List Nat} {column : ArrowArray}
    (hcolumn : NestedColumn r extents column) {slots : List (Slot Int)}
    (hslots : slots.length = column.len) :
    ∃ upper lower,
      arrayUpper valuesToArrays [.array column, .array (int64Column slots)] = .ok upper ∧
      arrayLower valuesToArrays [.array column, .array (int64Column slots)] = .ok lower ∧
      upper.length = column.len ∧ lower.length = column.len ∧
      ∀ i slot, slots[i]? = some slot → ∃ u l, upper[i]? = some u ∧ lower[i]? = some l ∧
        u.map Int32.toInt =
          (extentAt (extents i) (slot.get.map Int64.ofInt)).map Nat.cast ∧
        l = u.map fun _ => 1 := by
  obtain @⟨kind, field, len, valid, value, hkind, hrows⟩ := hcolumn
  have hlen : slots.length = len := hslots
  have hlength : ∀ upper, (List.zipWith (boundOf upper) (listRows len valid value)
      (slots.map fun slot => slot.get.map Int64.ofInt)).length = len := by
    intro upper
    rw [List.length_zipWith, listRows, List.length_map, List.length_map, List.length_range, hlen,
      Nat.min_self]
  refine ⟨_, _, arrayBoundsImpl_columns hcolumns hkind field valid value hlen true,
    arrayBoundsImpl_columns hcolumns hkind field valid value hlen false, hlength true,
    hlength false, ?_⟩
  intro i slot hslot
  have hi : i < len := hlen ▸ (List.getElem?_eq_some_iff.mp hslot).1
  have hbound : ∀ upper, (List.zipWith (boundOf upper) (listRows len valid value)
      (slots.map fun slot => slot.get.map Int64.ofInt))[i]? =
        some ((extentAt (extents i) (slot.get.map Int64.ofInt)).map fun d =>
          if upper then .ofNat d else 1) := by
    intro upper
    rw [List.getElem?_zipWith, listRows_getElem? valid value hi, List.getElem?_map, hslot]
    exact congrArg some (boundOf_row (hrows i hi) upper _)
  refine ⟨_, _, hbound true, hbound false, ?_, ?_⟩
  · rw [Option.map_map]
    apply Option.map_congr
    intro d hd
    exact Int32.toInt_ofNat_of_lt ((hrows i hi).fits hd)
  · rw [Option.map_map]
    rfl

end Columns

section Reference

def ColumnarValue.column : ColumnarValue → Option ArrowArray
  | .array column => some column
  | .scalar _ => none

/-- `ColumnarValue::values_to_arrays`, of the columns among the arguments. -/
def referenceValuesToArrays (args : List ColumnarValue) :
    Except InternalError (List ArrowArray) :=
  match args.filterMap ColumnarValue.column with
  | [] => .ok []
  | first :: rest =>
    match rest.find? fun column => column.len != first.len with
    | none => .ok (first :: rest)
    | some column =>
      .error ⟨[.text "Arguments has mixed length. Expected length: ", .number first.len,
        .text ", found length: ", .number column.len]⟩

theorem referenceValuesToArrays_columns (n : Nat) (columns : List ArrowArray)
    (hlen : ∀ column ∈ columns, column.len = n) :
    referenceValuesToArrays (columns.map .array) = .ok columns := by
  have hcolumns : (columns.map ColumnarValue.array).filterMap ColumnarValue.column = columns := by
    rw [List.filterMap_map]
    exact congrFun List.filterMap_some_fun columns
  rw [referenceValuesToArrays, hcolumns]
  cases columns with
  | nil => rfl
  | cons first rest =>
    have hfind : (rest.find? fun column => column.len != first.len) = none := by
      rw [List.find?_eq_none]
      intro column hcolumn
      rw [hlen column (List.mem_cons_of_mem _ hcolumn), hlen first List.mem_cons_self,
        bne_self_eq_false]
      exact Bool.false_ne_true
    dsimp only
    rw [hfind]

def integers (values : List Int) : ArrowArray :=
  .primitive ⟨.int32, .int32, rfl⟩ (values.map fun value => ⟨true, value⟩)

def integerLists (lists : List (List Int)) : ArrowArray :=
  .list .list (.new "item" .int32 true) lists.length (fun _ => true)
    fun i => integers (lists[i]?.getD [])

/-- The rows `{{1, 2, 3}, {4, 5, 6}}`, NULL and `{}`. -/
def gridColumn : ArrowArray :=
  .list .list (.new "item" (.list (.new "item" .int32 true)) true) 3 (fun i => i != 1)
    fun i => integerLists (if i = 0 then [[1, 2, 3], [4, 5, 6]] else [])

def gridExtents (i : Nat) : List Nat := if i = 0 then [2, 3] else []

/-- The dimension 2 for the grid, 1 for the NULL, and none for the empty array. -/
def gridDims : List (Slot Int) := [⟨true, 2⟩, ⟨true, 1⟩, ⟨false, 1⟩]

private theorem integers_rectangular (values : List Int) (hpos : 0 < values.length) :
    Rectangular [values.length] (integers values) := by
  have hlen : (integers values).len = values.length := List.length_map ..
  rw [← hlen] at hpos ⊢
  exact .elements (by rintro _ _ _ _ _ ⟨⟩) hpos

private theorem gridColumn_nested : NestedColumn 2 gridExtents gridColumn := by
  refine .mk rfl fun i hi => ?_
  match i, hi with
  | 0, _ =>
    refine .rectangular (.nested rfl (by decide) (fun _ _ => rfl) fun j hj => ?_) rfl (by decide)
    match j, hj with
    | 0, _ => exact integers_rectangular [1, 2, 3] (by decide)
    | 1, _ => exact integers_rectangular [4, 5, 6] (by decide)
  | 1, _ => exact .null
  | 2, _ => exact .empty rfl

theorem grid_bounds :
    ∃ upper lower,
      arrayUpper referenceValuesToArrays [.array gridColumn, .array (int64Column gridDims)] =
        .ok upper ∧
      arrayLower referenceValuesToArrays [.array gridColumn, .array (int64Column gridDims)] =
        .ok lower ∧
      upper.length = 3 ∧ lower.length = 3 ∧
      ∀ i slot, gridDims[i]? = some slot → ∃ u l, upper[i]? = some u ∧ lower[i]? = some l ∧
        u.map Int32.toInt =
          (extentAt (gridExtents i) (slot.get.map Int64.ofInt)).map Nat.cast ∧
        l = u.map fun _ => 1 :=
  arrayBounds_extents referenceValuesToArrays_columns gridColumn_nested rfl

end Reference
end DatafusionPostgres.PgCatalog

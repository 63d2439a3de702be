import DatafusionPostgres.ArrowPg.Encoder
import DatafusionPostgres.Library.Success

/-! The values that have an encoding, by recursion on the array, and the arms of the
encoders that are not recursive. -/
namespace DatafusionPostgres.ArrowPg
open Library (Succeeds SucceedsAs)

/-- The types without an arm in `encode_value`. -/
def lacksArm : DataType → Bool
  | .float16 | .decimal32 _ _ | .decimal64 _ _ | .decimal256 _ _ | .fixedSizeBinary _
  | .listView _ | .largeListView _ | .map _ _ | .union _ _ | .runEndEncoded _ _ => true
  | _ => false

/-- The element types without an arm in `encode_list`. -/
def lacksListArm : DataType → Bool
  | .float16 | .decimal32 _ _ | .decimal64 _ _ | .fixedSizeBinary _ | .fixedSizeList _ _
  | .listView _ | .largeListView _ | .runEndEncoded _ _ => true
  | _ => false

/-- A number that `rust_decimal` can hold. -/
def DecimalFits (scale : Int8) (value : Int) : Prop :=
  value.natAbs < 2 ^ 96 ∧ 0 ≤ scale.toInt ∧ scale.toInt ≤ 28

def ZoneKnown (libs : EncodeLibraries) (timezone : Option String) : Prop :=
  ∀ tz, timezone = some tz → Succeeds (libs.parseTz tz)

/-- A value that is not NULL, at its type. -/
def SlotFits (libs : EncodeLibraries) (type : DataType) (slot : Slot Int) : Prop :=
  match type with
  | .decimal128 _ scale => slot.valid = true → DecimalFits scale slot.value
  | .timestamp _ timezone => slot.valid = true → ZoneKnown libs timezone
  | _ => True

/-- The elements of a list; its time zone counts even where there is none. -/
def SlotsFit (libs : EncodeLibraries) (type : DataType) (slots : List (Slot Int)) : Prop :=
  match type with
  | .decimal128 _ scale => ∀ slot ∈ slots, slot.valid = true → DecimalFits scale slot.value
  | .timestamp _ timezone => ZoneKnown libs timezone
  | _ => True

def ScalarEncodable (libs : EncodeLibraries) : ArrowArray → Nat → Prop
  | .primitive type slots, idx =>
    lacksArm type.dataType = false ∧
      ∀ slot, slots[idx]? = some slot → SlotFits libs type.dataType slot
  | arr, _ => lacksArm arr.dataType = false

def ElementsEncodable (libs : EncodeLibraries) : ArrowArray → Prop
  | .primitive type slots =>
    lacksListArm type.dataType = false ∧ SlotsFit libs type.dataType slots
  | arr => lacksListArm arr.dataType = false

/-- The row is a list, or a dictionary's key of one. -/
def YieldsList : ArrowArray → Nat → Prop
  | .list _ _ _ valid _, idx => valid idx = true
  | .dictionary _ _ keys values, idx =>
    ∃ key, keys[idx]? = some key ∧ key.valid = true ∧ YieldsList values key.value.toNat
  | _, _ => False

/-- Every field of a struct has a Postgres type, and its column an encoding; a list needs
a type that takes lists, which a tagged field need not have. -/
def ColumnsEncodable (takesLists : PgType → Bool) (fields : List Field) (encodable : Nat → Prop)
    (yieldsList : Nat → Prop) : Prop :=
  ∀ i field, fields[i]? = some field → ∃ type, fieldIntoPgType field = .ok type ∧
    encodable i ∧ (yieldsList i → takesLists type = true)

mutual
/-- The value of a row has an encoding. -/
def Encodable (libs : EncodeLibraries) (takesLists : PgType → Bool) : ArrowArray → Nat → Prop
  | .list kind _ _ valid value, idx =>
    kind.hasListArm = true ∧
      (valid idx = true → kind = .list ∧ ListEncodable libs takesLists (value idx))
  | .struct fields _ valid columns, idx =>
    valid idx = true → ColumnsEncodable takesLists fields
      (fun i => Encodable libs takesLists (columns i) idx) (fun i => YieldsList (columns i) idx)
  | .dictionary _ _ keys values, idx =>
    ∀ key, keys[idx]? = some key → key.valid = true →
      Encodable libs takesLists values key.value.toNat
  | arr, idx => ScalarEncodable libs arr idx

/-- All elements of a list have an encoding. -/
def ListEncodable (libs : EncodeLibraries) (takesLists : PgType → Bool) : ArrowArray → Prop
  | .struct fields len valid columns =>
    (∀ field ∈ fields, Succeeds (fieldIntoPgType field)) ∧
      ∀ row < len, valid row = true → ColumnsEncodable takesLists fields
        (fun i => Encodable libs takesLists (columns i) row) (fun i => YieldsList (columns i) row)
  | arr => ElementsEncodable libs arr
end

theorem scaleAsU32_le_iff (scale : Int8) :
    scaleAsU32 scale ≤ 28 ↔ 0 ≤ scale.toInt ∧ scale.toInt ≤ 28 := by
  have hlow := scale.le_toInt
  have hhigh := scale.toInt_lt
  have hwrap : (scaleAsU32 scale : Int) = scale.toInt % 2 ^ 32 := by
    rw [← Int8.toInt_toInt32 scale]
    change (scale.toInt32.toBitVec.toNat : Int) = scale.toInt32.toBitVec.toInt % 2 ^ 32
    have hlt := scale.toInt32.toBitVec.isLt
    rw [BitVec.toInt_eq_toNat_bmod, Int.bmod_def]
    omega
  omega

theorem tryFromI128WithScale_succeeds (scale : Int8) (value : Int) :
    Succeeds (Decimal.tryFromI128WithScale value (scaleAsU32 scale)) ↔ DecimalFits scale value := by
  unfold DecimalFits
  rw [← scaleAsU32_le_iff]
  unfold Decimal.tryFromI128WithScale
  split
  next hscale =>
    split
    next hvalue => exact iff_of_true (Succeeds.ok _) ⟨hvalue, hscale⟩
    next hvalue =>
      refine iff_of_false ?_ (fun h => hvalue h.1)
      split <;> exact Succeeds.not_error _
  next hscale => exact iff_of_false (Succeeds.not_error _) (fun h => hscale h.2)

section Scalars
variable {libs : EncodeLibraries} {arr : ArrowArray} {idx : Nat}

/-- The length and the validity of an array are those of its slots. -/
def BackedBy {α : Type} (arr : ArrowArray) (slots : List (Slot α)) : Prop :=
  arr.len = slots.length ∧ ∀ idx, arr.validAt idx = (slots[idx]?.map Slot.valid).getD false

theorem BackedBy.getValue {α : Type} {slots : List (Slot α)} (h : BackedBy arr slots)
    (hidx : idx < arr.len) :
    ∃ slot, slots[idx]? = some slot ∧ getValue arr idx (some slots) = .ok slot.get := by
  obtain ⟨hlen, hvalid⟩ := h
  obtain ⟨slot, hslot⟩ : ∃ slot, slots[idx]? = some slot :=
    ⟨_, List.getElem?_eq_getElem (hlen ▸ hidx)⟩
  refine ⟨slot, hslot, ?_⟩
  unfold ArrowPg.getValue
  rw [ArrowArray.isNull_eq hidx, hvalid, hslot]
  obtain ⟨valid, value⟩ := slot
  cases valid with
  | false => rfl
  | true =>
    change (do
      let value ← ArrowArray.valueAt slots idx
      return some value) = Except.ok (some value)
    rw [ArrowArray.valueAt_of_getElem? hslot]
    rfl

private def scalarResult (value : Option Native) : Option FieldValue := some (.scalar value)

private theorem scalarOf_succeeds {α : Type} {slots : List (Slot α)} {downcast}
    (h : BackedBy arr slots) (harr : downcast = some slots) (hidx : idx < arr.len)
    (native : α → Option Native) {p : Prop} (hp : p) :
    SucceedsAs scalarResult (some <$> scalarOf arr idx downcast native) p := by
  obtain ⟨slot, -, hget⟩ := h.getValue hidx
  unfold scalarOf
  rw [harr, hget]
  exact .ok (slot.get.bind native) hp

private theorem numeric128Value_succeeds {slots : List (Slot Int)} (h : BackedBy arr slots)
    (harr : arr.asPrimitive .decimal128 = some slots) (hidx : idx < arr.len) (scale : Int8) :
    SucceedsAs scalarResult (some <$> numeric128Value libs arr idx (scaleAsU32 scale))
      (∀ slot, slots[idx]? = some slot → slot.valid = true → DecimalFits scale slot.value) := by
  obtain ⟨slot, hslot, hget⟩ := h.getValue hidx
  unfold numeric128Value
  rw [harr, hget, hslot]
  obtain ⟨valid, value⟩ := slot
  cases valid with
  | false =>
    refine .ok none ?_
    rintro slot hslot hvalid
    cases hslot
    cases hvalid
  | true =>
    have hfits := tryFromI128WithScale_succeeds scale value
    simp only [Slot.get, if_true, bind, Except.bind]
    cases hdecimal : Decimal.tryFromI128WithScale value (scaleAsU32 scale) with
    | ok decimal =>
      refine .ok (some (Native.decimal decimal)) ?_
      rintro slot hslot -
      cases hslot
      exact hfits.mp ⟨decimal, hdecimal⟩
    | error e =>
      refine .error _ fun hp => ?_
      obtain ⟨decimal, hok⟩ := hfits.mpr (hp _ rfl rfl)
      rw [hdecimal] at hok
      cases hok

private theorem timestampValue_succeeds {slots : List (Slot Int)} {unit : TimeUnit}
    (h : BackedBy arr slots) (harr : arr.asPrimitive (.timestamp unit) = some slots)
    (hidx : idx < arr.len) (timezone : Option String) :
    SucceedsAs scalarResult (some <$> timestampValue libs arr idx unit timezone)
      (∀ slot, slots[idx]? = some slot → slot.valid = true → ZoneKnown libs timezone) := by
  obtain ⟨slot, hslot, hget⟩ := h.getValue hidx
  unfold timestampValue
  rw [harr, hget, hslot]
  obtain ⟨valid, value⟩ := slot
  cases valid with
  | false =>
    refine .ok none ?_
    rintro slot hslot hvalid
    cases hslot
    cases hvalid
  | true =>
    cases timezone with
    | none => exact .ok _ fun _ _ _ tz htz => nomatch htz
    | some name =>
      simp only [Slot.get, if_true, bind, Except.bind]
      cases hparse : libs.parseTz name with
      | ok tz =>
        refine .ok ((libs.valueAsDatetimeWithTz unit value tz).map Native.dateTime) ?_
        rintro _ - - name' hname
        cases hname
        exact ⟨tz, hparse⟩
      | error text =>
        refine .error _ fun hp => ?_
        obtain ⟨tz, hok⟩ := hp _ rfl rfl name rfl
        rw [hparse] at hok
        cases hok

theorem primitive_backedBy (type : PrimitiveType) (slots : List (Slot Int)) :
    BackedBy (.primitive type slots) slots := ⟨rfl, fun _ => rfl⟩

private theorem intervalValue_succeeds {α : Type} {slots : List (Slot α)} {downcast}
    (h : BackedBy arr slots) (harr : downcast = some slots) (hidx : idx < arr.len)
    (interval : α → Native) {p : Prop} (hp : p) :
    SucceedsAs scalarResult (some <$> intervalValue idx downcast interval) p := by
  obtain ⟨slot, hslot, -⟩ := h.getValue hidx
  unfold intervalValue
  rw [harr]
  change SucceedsAs scalarResult (some <$> do
    let value ← ArrowArray.valueAt slots idx
    return .scalar (some (interval value))) p
  rw [ArrowArray.valueAt_of_getElem? hslot]
  exact .ok (some (interval slot.value)) hp

private theorem primitive_succeeds (type : PrimitiveType) {slots : List (Slot Int)}
    (hidx : idx < slots.length) :
    SucceedsAs scalarResult (scalarValue libs (.primitive type slots) idx type.dataType)
      (ScalarEncodable libs (.primitive type slots) idx) := by
  have hself := ArrowArray.asPrimitive_self type slots
  have hback := primitive_backedBy type slots
  unfold ScalarEncodable
  obtain ⟨dataType, native, hnative⟩ := type
  cases dataType
  case decimal128 precision scale =>
    cases hnative
    refine (numeric128Value_succeeds hback hself hidx scale).congr ?_
    exact ⟨fun h => ⟨rfl, h⟩, fun h => h.2⟩
  case timestamp unit timezone =>
    cases hnative
    refine (timestampValue_succeeds hback hself hidx timezone).congr ?_
    exact ⟨fun h => ⟨rfl, h⟩, fun h => h.2⟩
  case time32 unit =>
    cases unit <;> cases hnative
    all_goals exact scalarOf_succeeds hback hself hidx _ ⟨rfl, fun _ _ => trivial⟩
  case time64 unit =>
    cases unit <;> cases hnative
    all_goals exact scalarOf_succeeds hback hself hidx _ ⟨rfl, fun _ _ => trivial⟩
  case interval unit =>
    cases unit <;> cases hnative
    exact intervalValue_succeeds hback hself hidx _ ⟨rfl, fun _ _ => trivial⟩
  case float16 | decimal32 | decimal64 | decimal256 => exact .error _ fun h => nomatch h.1
  all_goals first
    | cases hnative; done
    | cases hnative
      exact scalarOf_succeeds hback hself hidx _ ⟨rfl, fun _ _ => trivial⟩

/-- The arms of `encode_value` that are not recursive. -/
theorem scalarValue_succeeds (libs : EncodeLibraries) (hscalar : isScalarType arr.dataType = true) (hidx : idx < arr.len) :
    SucceedsAs scalarResult (scalarValue libs arr idx arr.dataType)
      (ScalarEncodable libs arr idx) := by
  cases arr with
  | null len => exact .ok none rfl
  | boolean slots => exact scalarOf_succeeds ⟨rfl, fun _ => rfl⟩ rfl hidx _ rfl
  | primitive type slots => exact primitive_succeeds type hidx
  | intervalDayTime slots => exact intervalValue_succeeds ⟨rfl, fun _ => rfl⟩ rfl hidx _ rfl
  | intervalMonthDayNano slots => exact intervalValue_succeeds ⟨rfl, fun _ => rfl⟩ rfl hidx _ rfl
  | string kind slots =>
    have hself := ArrowArray.asString_self kind slots
    cases kind <;> exact scalarOf_succeeds ⟨rfl, fun _ => rfl⟩ hself hidx _ rfl
  | binary kind slots =>
    have hself := ArrowArray.asBinary_self kind slots
    cases kind
    case fixedSize size => exact .error _ fun h => nomatch h
    all_goals exact scalarOf_succeeds ⟨rfl, fun _ => rfl⟩ hself hidx _ rfl
  | list kind field len valid value =>
    cases kind <;> first | cases hscalar; done | exact .error _ fun h => nomatch h
  | struct fields len valid columns => cases hscalar
  | dictionary keyType valueType keys values => cases hscalar
  | other type len valid => cases type <;> exact .error _ fun h => nomatch h

end Scalars

section Elements
variable {libs : EncodeLibraries}

private theorem listElements_succeeds {α : Type} {slots : List (Slot α)} {downcast}
    (harr : downcast = some slots) (element : α → Option Native) {p : Prop} (hp : p) :
    SucceedsAs FieldValue.list (listElements downcast element) p := by
  rw [harr]
  exact .ok (slots.map fun slot => slot.get.bind element) hp

private theorem decimalElement_succeeds (scale : Int8) (slot : Slot Int) :
    Succeeds (match slot.get with
      | none => .ok none
      | some value =>
        match Decimal.tryFromI128WithScale value (scaleAsU32 scale) with
        | .ok decimal => .ok (some (Native.decimal decimal))
        | .error _ => .error Failure.panic) ↔
      (slot.valid = true → DecimalFits scale slot.value) := by
  obtain ⟨valid, value⟩ := slot
  cases valid with
  | false => exact iff_of_true (Succeeds.ok none) (fun h => nomatch h)
  | true =>
    rw [← tryFromI128WithScale_succeeds]
    change Succeeds (match Decimal.tryFromI128WithScale value (scaleAsU32 scale) with
      | .ok decimal => .ok (some (Native.decimal decimal))
      | .error _ => .error Failure.panic) ↔ _
    cases Decimal.tryFromI128WithScale value (scaleAsU32 scale) with
    | ok decimal => exact iff_of_true (Succeeds.ok _) (fun _ => Succeeds.ok _)
    | error e => exact iff_of_false (Succeeds.not_error _) (fun h => Succeeds.not_error _ (h rfl))

private theorem decimalElements_succeeds {slots : List (Slot Int)} {downcast}
    (harr : downcast = some slots) (scale : Int8) :
    SucceedsAs FieldValue.list (decimalElements downcast scale)
      (∀ slot ∈ slots, slot.valid = true → DecimalFits scale slot.value) := by
  rw [harr]
  refine (SucceedsAs.map _).congr (Succeeds.mapM.trans ?_)
  exact forall₂_congr fun slot _ => decimalElement_succeeds scale slot

private theorem timestampElements_succeeds {slots : List (Slot Int)} {downcast}
    (harr : downcast = some slots) (unit : TimeUnit) (timezone : Option String) :
    SucceedsAs FieldValue.list (timestampElements libs unit timezone downcast)
      (ZoneKnown libs timezone) := by
  rw [harr]
  cases timezone with
  | none => exact .ok _ fun _ htz => nomatch htz
  | some name =>
    simp only [timestampElements, unwrap, bind, Except.bind]
    cases hparse : libs.parseTz name with
    | ok tz =>
      refine .ok _ ?_
      rintro name' hname
      cases hname
      exact ⟨tz, hparse⟩
    | error text =>
      refine .error _ fun hp => ?_
      obtain ⟨tz, hok⟩ := hp name rfl
      rw [hparse] at hok
      cases hok

private theorem primitiveElements_succeeds (type : PrimitiveType) (slots : List (Slot Int)) :
    SucceedsAs FieldValue.list (listValue libs (.primitive type slots))
      (ElementsEncodable libs (.primitive type slots)) := by
  have hself := ArrowArray.asPrimitive_self type slots
  unfold ElementsEncodable
  obtain ⟨dataType, native, hnative⟩ := type
  cases dataType
  case decimal128 precision scale =>
    cases hnative
    refine (decimalElements_succeeds hself scale).congr ?_
    exact ⟨fun h => ⟨rfl, h⟩, fun h => h.2⟩
  case timestamp unit timezone =>
    cases hnative
    refine (timestampElements_succeeds hself unit timezone).congr ?_
    exact ⟨fun h => ⟨rfl, h⟩, fun h => h.2⟩
  case time32 unit =>
    cases unit <;> cases hnative
    all_goals exact listElements_succeeds hself _ ⟨rfl, trivial⟩
  case time64 unit =>
    cases unit <;> cases hnative
    all_goals exact listElements_succeeds hself _ ⟨rfl, trivial⟩
  case interval unit =>
    cases unit <;> cases hnative
    exact listElements_succeeds hself _ ⟨rfl, trivial⟩
  case float16 | decimal32 | decimal64 => exact .error _ fun h => nomatch h.1
  all_goals first
    | cases hnative; done
    | cases hnative
      exact listElements_succeeds hself _ ⟨rfl, trivial⟩

/-- The arms of `encode_list`, but for struct elements. -/
theorem listValue_succeeds (arr : ArrowArray) (hstruct : ∀ fields, arr.dataType ≠ .struct fields) :
    SucceedsAs FieldValue.list (listValue libs arr) (ElementsEncodable libs arr) := by
  cases arr with
  | null len => exact .ok _ rfl
  | boolean slots => exact listElements_succeeds rfl _ rfl
  | primitive type slots => exact primitiveElements_succeeds type slots
  | intervalDayTime slots => exact listElements_succeeds rfl _ rfl
  | intervalMonthDayNano slots => exact listElements_succeeds rfl _ rfl
  | string kind slots =>
    have hself := ArrowArray.asString_self kind slots
    cases kind <;> exact listElements_succeeds hself _ rfl
  | binary kind slots =>
    have hself := ArrowArray.asBinary_self kind slots
    cases kind
    case fixedSize size => exact .error _ fun h => nomatch h
    all_goals exact listElements_succeeds hself _ rfl
  | list kind field len valid value =>
    cases kind
    case list | largeList => exact .ok _ rfl
    all_goals exact .error _ fun h => nomatch h
  | struct fields len valid columns => exact absurd rfl (hstruct fields)
  | dictionary keyType valueType keys values => exact .ok _ rfl
  | other type len valid =>
    cases type
    case runEndEncoded => exact .error _ fun h => nomatch h
    all_goals exact .ok _ rfl

end Elements
end DatafusionPostgres.ArrowPg

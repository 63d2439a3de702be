import DatafusionPostgres.ArrowPg.ListEncoder
import DatafusionPostgres.ArrowPg.StructEncoder

/-! `arrow-pg/src/encoder.rs` and `row_encoder.rs`: one value of an array, and one row of
a record batch, without the postgis feature. -/
namespace DatafusionPostgres.ArrowPg

section Scalars
variable (libs : EncodeLibraries) (arr : ArrowArray) (idx : Nat)

/-- `get_…_value`: the downcast is only made where the slot is not null. -/
def getValue {α : Type} (slots : Option (List (Slot α))) : Except Failure (Option α) := do
  if ← arr.isNull idx then return none
  else
    let slots ← unwrap slots
    let value ← ArrowArray.valueAt slots idx
    return some value

/-- A value mapped to what `ToSql` is implemented for. -/
def scalarOf {α : Type} (slots : Option (List (Slot α))) (native : α → Option Native) :
    Except Failure FieldValue := do
  let value ← getValue arr idx slots
  return .scalar (value.bind native)

def numericConversionError : DecimalError → PgWireError
  | .scaleExceedsMaximumPrecision scale =>
    userError "22003" ("Scale " ++ toString scale ++ " exceeds maximum precision for numeric type")
  | e => userError "22003" ("Numeric value conversion failed: " ++ libs.decimalErrorText e)

/-- `get_numeric_128_value`. -/
def numeric128Value (scale : Nat) : Except Failure FieldValue := do
  match ← getValue arr idx (arr.asPrimitive .decimal128) with
  | none => return .scalar none
  | some value =>
    match Decimal.tryFromI128WithScale value scale with
    | .ok decimal => return .scalar (some (.decimal decimal))
    | .error e => .error (.err (numericConversionError libs e))

/-- The timestamp arms, which differ in the unit alone. -/
def timestampValue (unit : TimeUnit) (timezone : Option String) : Except Failure FieldValue := do
  match ← getValue arr idx (arr.asPrimitive (.timestamp unit)) with
  | none => return .scalar none
  | some value =>
    match timezone with
    | some tz =>
      match libs.parseTz tz with
      | .error text => .error (timezoneError text)
      | .ok tz => return .scalar ((libs.valueAsDatetimeWithTz unit value tz).map .dateTime)
    | none => return .scalar ((libs.valueAsDatetime unit value).map .naiveDateTime)

/-- The interval arms read the slot also where it is null. -/
def intervalValue {α : Type} (slots : Option (List (Slot α))) (interval : α → Native) :
    Except Failure FieldValue := do
  let slots ← unwrap slots
  let value ← ArrowArray.valueAt slots idx
  return .scalar (some (interval value))

def unsupportedScalar : Failure :=
  .err (.apiError
    [.text "Unsupported Datatype ", .displayType arr.dataType, .text " and array ", .debugArray])

/-- The arms of `encode_value` that are neither a list nor a struct nor a dictionary, up to
their call of `encode_field`; none is an arm without such a call. -/
def scalarValue (arrowType : DataType) : Except Failure (Option FieldValue) :=
  match arrowType with
  | .null => .ok (some (.scalar none))
  | .boolean => some <$> scalarOf arr idx arr.asBoolean fun v => some (.bool v)
  | .int8 => some <$> scalarOf arr idx (arr.asPrimitive .int8) fun v => some (.i8 (.ofInt v))
  | .int16 => some <$> scalarOf arr idx (arr.asPrimitive .int16) fun v => some (.i16 (.ofInt v))
  | .int32 => some <$> scalarOf arr idx (arr.asPrimitive .int32) fun v => some (.i32 (.ofInt v))
  | .int64 => some <$> scalarOf arr idx (arr.asPrimitive .int64) fun v => some (.i64 (.ofInt v))
  | .uint8 => some <$> scalarOf arr idx (arr.asPrimitive .uint8) fun v => some (.i16 (.ofInt v))
  | .uint16 => some <$> scalarOf arr idx (arr.asPrimitive .uint16) fun v => some (.i32 (.ofInt v))
  | .uint32 => some <$> scalarOf arr idx (arr.asPrimitive .uint32) fun v => some (.i64 (.ofInt v))
  | .uint64 =>
    some <$> scalarOf arr idx (arr.asPrimitive .uint64) fun v =>
      some (.decimal (.fromU64 (.ofNat v.toNat)))
  | .float32 =>
    some <$> scalarOf arr idx (arr.asPrimitive .float32) fun v => some (.f32 (.ofNat v.toNat))
  | .float64 =>
    some <$> scalarOf arr idx (arr.asPrimitive .float64) fun v => some (.f64 (.ofNat v.toNat))
  | .decimal128 _ scale => some <$> numeric128Value libs arr idx (scaleAsU32 scale)
  | .utf8 => some <$> scalarOf arr idx (arr.asString .utf8) fun v => some (.str v)
  | .utf8View => some <$> scalarOf arr idx (arr.asString .utf8View) fun v => some (.str v)
  | .largeUtf8 => some <$> scalarOf arr idx (arr.asString .largeUtf8) fun v => some (.str v)
  | .binaryView => some <$> scalarOf arr idx (arr.asBinary .binaryView) fun v => some (.bytes v)
  | .binary => some <$> scalarOf arr idx (arr.asBinary .binary) fun v => some (.bytes v)
  | .largeBinary => some <$> scalarOf arr idx (arr.asBinary .largeBinary) fun v => some (.bytes v)
  | .date32 =>
    some <$> scalarOf arr idx (arr.asPrimitive .date32) fun v =>
      (libs.date32AsDate v).map .naiveDate
  | .date64 =>
    some <$> scalarOf arr idx (arr.asPrimitive .date64) fun v =>
      (libs.date64AsDate v).map .naiveDate
  | .time32 .second =>
    some <$> scalarOf arr idx (arr.asPrimitive .time32Second) fun v =>
      (libs.asTime .second v).map .naiveTime
  | .time32 .millisecond =>
    some <$> scalarOf arr idx (arr.asPrimitive .time32Millisecond) fun v =>
      (libs.asTime .millisecond v).map .naiveTime
  | .time64 .microsecond =>
    some <$> scalarOf arr idx (arr.asPrimitive .time64Microsecond) fun v =>
      (libs.asTime .microsecond v).map .naiveTime
  | .time64 .nanosecond =>
    some <$> scalarOf arr idx (arr.asPrimitive .time64Nanosecond) fun v =>
      (libs.asTime .nanosecond v).map .naiveTime
  | .time32 _ | .time64 _ => .ok none
  | .timestamp unit timezone => some <$> timestampValue libs arr idx unit timezone
  | .interval .yearMonth =>
    some <$> intervalValue idx (arr.asPrimitive .intervalYearMonth) yearMonthInterval
  | .interval .dayTime => some <$> intervalValue idx arr.asIntervalDayTime dayTimeInterval
  | .interval .monthDayNano =>
    some <$> intervalValue idx arr.asIntervalMonthDayNano monthDayNanoInterval
  | .duration unit =>
    some <$> scalarOf arr idx (arr.asPrimitive (.duration unit)) fun v =>
      some (durationInterval unit v)
  | _ => .error (unsupportedScalar arr)

end Scalars

def unsupportedKeyType (valueType : DataType) : Failure :=
  .err (.apiError
    [.text "Unsupported dictionary key type for value type ", .displayType valueType])

/-- The key of a row as `usize`, of a dictionary with one of the key types. -/
def dictionaryIndex (keyType valueType : DataType) (keys : List (Slot Int)) (idx : Nat) :
    Except Failure Nat := do
  if ArrowArray.isKeyType keyType then
    let key ← ArrowArray.valueAt keys idx
    return (key % 2 ^ 64).toNat
  else .error (unsupportedKeyType valueType)

mutual
def encodeValue (libs : EncodeLibraries) (arr : ArrowArray) {σ : Type} (encoder : Encoder σ)
    (idx : Nat) (arrowField : Field) (pgField : FieldInfo) : EStateM Failure σ Unit :=
  match arrowField.dataType with
  | .list _ | .fixedSizeList _ _ | .largeList _ => do
    if ← liftExcept (arr.isNull idx) then encoder.encodeField (.scalar none) pgField
    else
      match arr with
      | .list .list _ _ _ value => encodeList libs (value idx) encoder pgField
      | _ => throw .panic
  | .struct arrowFields =>
    match arr with
    | .struct fields _ valid columns =>
      encodeWith encoder pgField (structValue
        (fun i row arrowField pgField =>
          encodeValue libs (columns i) (structEncoder libs) row arrowField pgField)
        fields.length idx valid arrowFields pgField)
    | _ => throw .panic
  | .dictionary _ valueType => do
    if ← liftExcept (arr.isNull idx) then encoder.encodeField (.scalar none) pgField
    else
      match arr with
      | .dictionary keyType _ keys values => do
        let key ← liftExcept (dictionaryIndex keyType valueType keys idx)
        encodeValue libs values encoder key (.new pgField.name valueType true) pgField
      | _ => throw (unsupportedKeyType valueType)
  | arrowType => do
    match ← liftExcept (scalarValue libs arr idx arrowType) with
    | some value => encoder.encodeField value pgField
    | none => return ()

def encodeList (libs : EncodeLibraries) (arr : ArrowArray) {σ : Type} (encoder : Encoder σ)
    (pgField : FieldInfo) : EStateM Failure σ Unit :=
  match arr with
  | .struct fields len valid columns =>
    encodeWith encoder pgField (structsValue
      (fun i row arrowField pgField =>
        encodeValue libs (columns i) (structEncoder libs) row arrowField pgField)
      fields.length len valid fields pgField)
  | arr => encodeWith encoder pgField (listValue libs arr)
end

section Arms
variable {libs : EncodeLibraries} {σ : Type} {encoder : Encoder σ} {idx : Nat}
  {arrowField : Field} {pgField : FieldInfo}

/-- The three types that share the list arm. -/
def ListKind.hasListArm : ListKind → Bool
  | .list | .largeList | .fixedSizeList _ => true
  | .listView | .largeListView => false

/-- The types that have the arm of their own array type. -/
def isScalarType : DataType → Bool
  | .list _ | .fixedSizeList _ _ | .largeList _ | .struct _ | .dictionary _ _ => false
  | _ => true

theorem encodeValue_list {kind : ListKind} (hkind : kind.hasListArm = true) {field : Field}
    {len : Nat} {valid : Nat → Bool} {value : Nat → ArrowArray}
    (htype : arrowField.dataType = kind.dataType field) :
    encodeValue libs (.list kind field len valid value) encoder idx arrowField pgField = (do
      if ← liftExcept ((ArrowArray.list kind field len valid value).isNull idx) then
        encoder.encodeField (.scalar none) pgField
      else if kind = .list then encodeList libs (value idx) encoder pgField
      else throw .panic) := by
  unfold encodeValue
  rw [htype]
  cases kind <;> first | rfl | cases hkind

theorem encodeValue_struct {fields : List Field} {len : Nat} {valid : Nat → Bool}
    {columns : Nat → ArrowArray} (htype : arrowField.dataType = .struct fields) :
    encodeValue libs (.struct fields len valid columns) encoder idx arrowField pgField =
      encodeWith encoder pgField (structValue
        (fun i row arrowField pgField =>
          encodeValue libs (columns i) (structEncoder libs) row arrowField pgField)
        fields.length idx valid fields pgField) := by
  rw [encodeValue.eq_def]
  rw [htype]

theorem encodeValue_dictionary {keyType valueType : DataType} {keys : List (Slot Int)}
    {values : ArrowArray} (htype : arrowField.dataType = .dictionary keyType valueType) :
    encodeValue libs (.dictionary keyType valueType keys values) encoder idx arrowField pgField =
      (do
        if ← liftExcept ((ArrowArray.dictionary keyType valueType keys values).isNull idx) then
          encoder.encodeField (.scalar none) pgField
        else
          let key ← liftExcept (dictionaryIndex keyType valueType keys idx)
          encodeValue libs values encoder key (.new pgField.name valueType true) pgField) := by
  rw [encodeValue.eq_def]
  rw [htype]

private theorem dictionary_isNull {keyType valueType : DataType} {keys : List (Slot Int)}
    {values : ArrowArray} {slot : Slot Int} (hslot : keys[idx]? = some slot) :
    (ArrowArray.dictionary keyType valueType keys values).isNull idx = .ok !slot.valid := by
  have hidx : idx < keys.length := (List.getElem?_eq_some_iff.mp hslot).1
  refine (ArrowArray.isNull_eq hidx).trans ?_
  change Except.ok (!(keys[idx]?.map Slot.valid).getD false) = _
  rw [hslot]
  rfl

/-- A NULL key. -/
theorem encodeValue_dictionary_null {keyType valueType : DataType} {keys : List (Slot Int)}
    {values : ArrowArray} (htype : arrowField.dataType = .dictionary keyType valueType)
    {slot : Slot Int} (hslot : keys[idx]? = some slot) (hnull : slot.valid = false) :
    encodeValue libs (.dictionary keyType valueType keys values) encoder idx arrowField pgField =
      encoder.encodeField (.scalar none) pgField := by
  rw [encodeValue_dictionary htype, dictionary_isNull hslot, hnull]
  rfl

/-- A key stands for the value that it points to. -/
theorem encodeValue_dictionary_key {keyType valueType : DataType} {keys : List (Slot Int)}
    {values : ArrowArray} (hvalid : (ArrowArray.dictionary keyType valueType keys values).Valid)
    (htype : arrowField.dataType = .dictionary keyType valueType)
    {slot : Slot Int} (hslot : keys[idx]? = some slot) (hkey : slot.valid = true) :
    encodeValue libs (.dictionary keyType valueType keys values) encoder idx arrowField pgField =
      encodeValue libs values encoder slot.value.toNat (.new pgField.name valueType true) pgField := by
  obtain ⟨hkeyType, -, -, hkeys⟩ := hvalid
  obtain ⟨hnonneg, hlt, -⟩ := hkeys slot (List.mem_of_getElem? hslot) hkey
  have hindex : dictionaryIndex keyType valueType keys idx = .ok slot.value.toNat := by
    unfold dictionaryIndex
    rw [if_pos hkeyType, ArrowArray.valueAt_of_getElem? hslot]
    change Except.ok (slot.value % 2 ^ 64).toNat = _
    rw [Int.emod_eq_of_lt hnonneg hlt]
  rw [encodeValue_dictionary htype, dictionary_isNull hslot, hkey, hindex]
  rfl

theorem encodeValue_scalar {arr : ArrowArray} (htype : isScalarType arrowField.dataType = true) :
    encodeValue libs arr encoder idx arrowField pgField = (do
      match ← liftExcept (scalarValue libs arr idx arrowField.dataType) with
      | some value => encoder.encodeField value pgField
      | none => return ()) := by
  rw [encodeValue.eq_def]
  split
  case h_6 => rfl
  all_goals
    rename_i heq
    rw [heq] at htype
    cases htype

end Arms

/-- A record batch: columns of the types of their fields, all of one length. -/
structure RecordBatch where
  columns : List (Field × ArrowArray)
  numRows : Nat
  valid : ∀ column ∈ columns, column.2.Valid ∧ column.1.dataType = column.2.dataType ∧
    column.2.len = numRows

structure RowEncoder where
  rb : RecordBatch
  currIdx : Nat
  fields : List FieldInfo
  rowEncoder : DataRowEncoder

/-- `RowEncoder::new` asserts a wire field for each column. -/
def RowEncoder.new (rb : RecordBatch) (fields : List FieldInfo) : Except Failure RowEncoder :=
  if rb.columns.length = fields.length then .ok ⟨rb, 0, fields, ⟨[]⟩⟩ else .error .panic

/-- The loop over the columns, which a failure leaves with the row as it then is. -/
def encodeColumns (libs : EncodeLibraries) (idx : Nat) :
    List ((Field × ArrowArray) × FieldInfo) → EStateM Failure DataRowEncoder Unit
  | [] => return ()
  | ((arrowField, array), pgField) :: columns => do
    encodeValue libs array (dataRowEncoder libs) idx arrowField pgField
    encodeColumns libs idx columns

/-- `next_row`: none after the last row. -/
def RowEncoder.nextRow (libs : EncodeLibraries) (enc : RowEncoder) :
    Option (Except Failure DataRow) × RowEncoder :=
  if enc.currIdx = enc.rb.numRows then (none, enc)
  else
    match encodeColumns libs enc.currIdx (enc.rb.columns.zip enc.fields) enc.rowEncoder with
    | .error failure rowEncoder => (some (.error failure), { enc with rowEncoder })
    | .ok _ rowEncoder =>
      (some (.ok rowEncoder.cells), { enc with currIdx := enc.currIdx + 1, rowEncoder := ⟨[]⟩ })

end DatafusionPostgres.ArrowPg

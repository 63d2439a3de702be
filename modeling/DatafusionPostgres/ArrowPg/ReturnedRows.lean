import DatafusionPostgres.ArrowPg.NullValues
import DatafusionPostgres.ArrowPg.RowIterator
import DatafusionPostgres.ArrowPg.TemporalRoundTrip

/-! The rows of a batch that are sent, and bound again: each cell as a parameter of the type that is
advertised for its column, with the type of the column expected. -/
namespace DatafusionPostgres.ArrowPg
open Library

/-- The values that come back. A NULL is given by the scalar of its type, a decimal by its digits
and their number after the point. -/
inductive ColumnValue where
  | null (scalar : ScalarValue)
  | boolean (value : Bool)
  | int16 (value : Int16)
  | int32 (value : Int32)
  | int64 (value : Int64)
  | uint8 (value : UInt8)
  | uint16 (value : UInt16)
  | uint32 (value : UInt32)
  | uint64 (value : UInt64)
  | float32 (bits : UInt32)
  | float64 (bits : UInt64)
  | utf8 (value : String)
  | largeUtf8 (value : String)
  | binary (value : List UInt8)
  | decimal128 (value : Decimal) (precision : UInt8)
  | date32 (value : Int32)
  | timestamptz (unit : TimeUnit) (timezone : String) (value : Int64)
  | temporal (value : TemporalValue)

/-- A NULL of a type that is read as NULL: an interval is not. -/
def ScalarValue.PlainNull : ScalarValue → Prop
  | .intervalYearMonth _ | .intervalDayTime _ | .intervalMonthDayNano _ | .nullList _ _ _
  | .other _ _ => False
  | v => v.isNull = true

/-- A timestamp at another time zone. -/
def ScalarValue.inZone (timezone : Option String) : ScalarValue → ScalarValue
  | .timestampSecond value _ => .timestampSecond value timezone
  | .timestampMillisecond value _ => .timestampMillisecond value timezone
  | .timestampMicrosecond value _ => .timestampMicrosecond value timezone
  | .timestampNanosecond value _ => .timestampNanosecond value timezone
  | v => v

def zonedScalar (unit : TimeUnit) (timezone : String) (value : Int64) : ScalarValue :=
  (TemporalValue.timestamp unit value).scalar.inZone (some timezone)

namespace ColumnValue

/-- The scalar that is bound: the value, an interval up to the microsecond. -/
def scalar : ColumnValue → ScalarValue
  | .null scalar => scalar
  | .boolean value => .boolean (some value)
  | .int16 value => .int16 (some value)
  | .int32 value => .int32 (some value)
  | .int64 value => .int64 (some value)
  | .uint8 value => .uint8 (some value)
  | .uint16 value => .uint16 (some value)
  | .uint32 value => .uint32 (some value)
  | .uint64 value => .uint64 (some value)
  | .float32 bits => .float32 (some (.ofBits bits))
  | .float64 bits => .float64 (some (.ofBits bits))
  | .utf8 value => .utf8 (some value)
  | .largeUtf8 value => .largeUtf8 (some value)
  | .binary value => .binary (some value)
  | .decimal128 value precision => .decimal128 (some value.mantissa) precision (.ofNat value.scale)
  | .date32 value => .date32 (some value)
  | .timestamptz unit timezone value => zonedScalar unit timezone value
  | .temporal value => value.restored

/-- The value is the one at the position of an array. -/
def StoredAt (arr : ArrowArray) (idx : Nat) : ColumnValue → Prop
  | .null scalar => arr.dataType = scalar.dataType ∧ idx < arr.len ∧ arr.validAt idx = false
  | .boolean value => ∃ slots, arr = .boolean slots ∧ slots[idx]? = some ⟨true, value⟩
  | .int16 value => arr.Stores idx .int16 value.toInt
  | .int32 value => arr.Stores idx .int32 value.toInt
  | .int64 value => arr.Stores idx .int64 value.toInt
  | .uint8 value => arr.Stores idx .uint8 value.toNat
  | .uint16 value => arr.Stores idx .uint16 value.toNat
  | .uint32 value => arr.Stores idx .uint32 value.toNat
  | .uint64 value => arr.Stores idx .uint64 value.toNat
  | .float32 bits => arr.Stores idx .float32 bits.toNat
  | .float64 bits => arr.Stores idx .float64 bits.toNat
  | .utf8 value => ∃ slots, arr = .string .utf8 slots ∧ slots[idx]? = some ⟨true, value⟩
  | .largeUtf8 value => ∃ slots, arr = .string .largeUtf8 slots ∧ slots[idx]? = some ⟨true, value⟩
  | .binary value => ∃ slots, arr = .binary .binary slots ∧ slots[idx]? = some ⟨true, value⟩
  | .decimal128 value precision =>
    arr.Stores idx (.decimal128 precision (.ofNat value.scale)) value.mantissa
  | .date32 value => arr.Stores idx .date32 value.toInt
  | .timestamptz unit timezone value => arr.Stores idx (.timestamp unit (some timezone)) value.toInt
  | .temporal value => value.StoredAt arr idx

/-- In the range of `chrono`, of whole microseconds and in a known time zone; a float is a number
that widening keeps. -/
def Sendable (libs : EncodeLibraries) (lo hi : Int) : ColumnValue → Prop
  | .null scalar => scalar.PlainNull
  | .float32 bits => (Float32.ofBits bits).isNaN = false ∧
    (Float32.ofBits bits).toFloat.toFloat32 = Float32.ofBits bits
  | .float64 bits => (Float.ofBits bits).isNaN = false
  | .date32 value => DayInRange lo hi value.toInt
  | .timestamptz unit timezone value =>
    ZoneKnown libs (some timezone) ∧ WholeInstant lo hi (nanosecondsOf unit value.toInt)
  | .temporal value => value.Sendable lo hi
  | _ => True

end ColumnValue

/-- The parameter is read as what was sent. A decimal keeps its number, an instant its moment. -/
def BoundParameter.Returns (param : BoundParameter) : Option Native → PgType → Prop
  | none, _ => param.isNull = true
  | some (.bool value), .bool => param.read .bool .bool = .ok (some value)
  | some (.i16 value), .int2 => param.read .i16 .int2 = .ok (some value)
  | some (.i32 value), .int4 => param.read .i32 .int4 = .ok (some value)
  | some (.i64 value), .int8 => param.read .i64 .int8 = .ok (some value)
  | some (.f32 bits), .float4 => param.read .f32 .float4 = .ok (some (.ofBits bits))
  | some (.f64 bits), .float8 => param.read .f64 .float8 = .ok (some (.ofBits bits))
  | some (.str value), .text => param.read .string .text = .ok (some value)
  | some (.bytes value), .bytea => param.read .bytes .bytea = .ok (some value)
  | some (.decimal value), .numeric => ∃ read : Decimal, read.number = value.number ∧
    param.read .decimal .numeric = .ok (some read)
  | some (.naiveDate value), .date => param.read .naiveDate .date = .ok (some value)
  | some (.dateTime value), .timestamptz => ∃ offset,
    param.read .dateTime .timestamptz = .ok (some ⟨value.utc, offset⟩)
  | some native, pgType => param.Reads native pgType

/-- What is sent as it is: NULL, and the values of the type that is advertised. -/
def Carried (lo hi : Int) : Option Native → PgType → Prop
  | none, _ => True
  | some (.bool _), .bool | some (.i16 _), .int2 | some (.i32 _), .int4 | some (.i64 _), .int8
  | some (.str _), .text | some (.bytes _), .bytea | some (.decimal _), .numeric => True
  | some (.f32 bits), .float4 => (Float32.ofBits bits).isNaN = false
  | some (.f64 bits), .float8 => (Float.ofBits bits).isNaN = false
  | some (.naiveDate value), .date => DayInRange lo hi value.days
  | some (.dateTime value), .timestamptz => WholeInstant lo hi value.utc.nanoseconds
  | some native, pgType => Wire lo hi native pgType

/-- What is assumed of the codecs of a wire field: `bind` is the cell as a parameter. -/
def EncodeLibraries.Carries (libs : EncodeLibraries) (lo hi : Int) (pgField : FieldInfo)
    (bind : Cell → BoundParameter) : Prop :=
  ∀ value, Carried lo hi value pgField.datatype → ∃ cell,
    libs.toSql pgField.format (.scalar value) pgField.datatype pgField.formatOptions = .ok cell ∧
      (bind cell).Returns value pgField.datatype

/-- What is documented of the functions that the conversions call, `Date32Type::from_naive_date`
among them. -/
structure ParamLibraries.CountsDays (libs : ParamLibraries) : Prop
    extends libs.ReadsClock, libs.ReadsDecimals where
  fromNaiveDate : ∀ date, libs.fromNaiveDate date = .ofInt date.days

/-- The value is encoded as one that is carried, and bound as the scalar. -/
def ComesBack (libs : EncodeLibraries) (params : ParamLibraries) (lo hi : Int) (arr : ArrowArray)
    (idx : Nat) (type : DataType) (scalar : ScalarValue) : Prop :=
  ∀ pgType, intoPgType type = .ok pgType → ∃ value,
    scalarValue libs arr idx type = .ok (some (.scalar value)) ∧ Carried lo hi value pgType ∧
      ∀ param : BoundParameter, param.Returns value pgType →
        deserializeParameter params param pgType (some type) = .ok [scalar]

section Conversions
variable {params : ParamLibraries}

private theorem coerceOr_ok {coerce : DataType → PgWireResult ScalarValue} {target : DataType}
    {scalar untyped : ScalarValue} (h : coerce target = .ok scalar) :
    coerceOr (some target) coerce untyped = .ok [scalar] := by
  rw [coerceOr, h]
  rfl

private theorem checkedIntCast_ok {τ : Type} (low high : Int) (ofInt : Int → τ) {n : Int64} {t : τ}
    {m : Int} (hn : n.toInt = m) (hlow : low ≤ m) (hhigh : m ≤ high) (ht : ofInt m = t)
    (target : DataType) :
    (some n).mapM (checkedIntCast (tryFromI64 low high ofInt) target) = .ok (some t) := by
  have hfits : low ≤ n.toInt ∧ n.toInt ≤ high := hn ▸ ⟨hlow, hhigh⟩
  change some <$> orOutOfRange "INT" n target (tryFromI64 low high ofInt n) = _
  rw [tryFromI64, if_pos hfits, hn, ht]
  rfl

private theorem coerceInt_int16 (v : Int16) :
    coerceIntValue (some v.toInt64) .int16 = .ok (.int16 (some v)) := by
  have hlow := v.le_toInt
  have hhigh := v.toInt_lt
  have hcast := checkedIntCast_ok (-2 ^ 15) (2 ^ 15 - 1) Int16.ofInt
    v.toInt_toInt64 hlow (by omega) v.ofInt_toInt .int16
  rw [coerceIntValue]
  exact congrArg (ScalarValue.int16 <$> ·) hcast

private theorem coerceInt_int32 (v : Int32) :
    coerceIntValue (some v.toInt64) .int32 = .ok (.int32 (some v)) := by
  have hlow := v.le_toInt
  have hhigh := v.toInt_lt
  have hcast := checkedIntCast_ok (-2 ^ 31) (2 ^ 31 - 1) Int32.ofInt
    v.toInt_toInt64 hlow (by omega) v.ofInt_toInt .int32
  rw [coerceIntValue]
  exact congrArg (ScalarValue.int32 <$> ·) hcast

private theorem coerceInt_uint8 (v : UInt8) :
    coerceIntValue (some (Int16.ofInt v.toNat).toInt64) .uint8 = .ok (.uint8 (some v)) := by
  have hlt := v.toNat_lt
  have hint : (Int16.ofInt v.toNat).toInt64.toInt = v.toNat := by
    rw [Int16.toInt_toInt64, Int16.toInt_ofInt_of_le (by omega) (by omega)]
  have hback : UInt8.ofNat (v.toNat : Int).toNat = v := by simp
  have hcast := checkedIntCast_ok 0 (2 ^ 8 - 1)
    (fun n => UInt8.ofNat n.toNat) hint (by omega) (by omega) hback .uint8
  rw [coerceIntValue]
  exact congrArg (ScalarValue.uint8 <$> ·) hcast

private theorem coerceInt_uint16 (v : UInt16) :
    coerceIntValue (some (Int32.ofInt v.toNat).toInt64) .uint16 = .ok (.uint16 (some v)) := by
  have hlt := v.toNat_lt
  have hint : (Int32.ofInt v.toNat).toInt64.toInt = v.toNat := by
    rw [Int32.toInt_toInt64, Int32.toInt_ofInt_of_le (by omega) (by omega)]
  have hback : UInt16.ofNat (v.toNat : Int).toNat = v := by simp
  have hcast := checkedIntCast_ok 0 (2 ^ 16 - 1)
    (fun n => UInt16.ofNat n.toNat) hint (by omega) (by omega) hback .uint16
  rw [coerceIntValue]
  exact congrArg (ScalarValue.uint16 <$> ·) hcast

private theorem coerceInt_uint32 (v : UInt32) :
    coerceIntValue (some (Int64.ofInt v.toNat)) .uint32 = .ok (.uint32 (some v)) := by
  have hlt := v.toNat_lt
  have hint : (Int64.ofInt v.toNat).toInt = v.toNat :=
    Int64.toInt_ofInt_of_le (by omega) (by omega)
  have hback : UInt32.ofNat (v.toNat : Int).toNat = v := by simp
  have hcast := checkedIntCast_ok 0 (2 ^ 32 - 1)
    (fun n => UInt32.ofNat n.toNat) hint (by omega) (by omega) hback .uint32
  rw [coerceIntValue]
  exact congrArg (ScalarValue.uint32 <$> ·) hcast

end Conversions

section Values
variable {libs : EncodeLibraries} {params : ParamLibraries} {lo hi : Int} {arr : ArrowArray}
  {idx : Nat}

private theorem slots_scalarOf {α : Type} {slots : List (Slot α)} {value : α}
    (hback : BackedBy arr slots) (hslot : slots[idx]? = some ⟨true, value⟩)
    (convert : α → Option Native) :
    some <$> scalarOf arr idx (some slots) convert = .ok (some (.scalar (convert value))) := by
  have hidx : idx < arr.len := hback.1 ▸ (List.getElem?_eq_some_iff.mp hslot).1
  obtain ⟨slot, hslot', hget⟩ := hback.getValue hidx
  cases hslot.symm.trans hslot'
  rw [scalarOf, hget]
  rfl

private theorem comesBack_of_arm {type : DataType} (pgType : PgType) {scalar : ScalarValue}
    {value : Option Native} (htype : intoPgType type = .ok pgType)
    (harm : scalarValue libs arr idx type = .ok (some (.scalar value)))
    (hcarried : Carried lo hi value pgType)
    (hbound : ∀ param : BoundParameter, param.Returns value pgType →
      deserializeParameter params param pgType (some type) = .ok [scalar]) :
    ComesBack libs params lo hi arr idx type scalar := by
  intro pgType' htype'
  cases htype.symm.trans htype'
  exact ⟨value, harm, hcarried, hbound⟩

private theorem boolean_comesBack {slots : List (Slot Bool)} {v : Bool}
    (hslot : slots[idx]? = some ⟨true, v⟩) :
    ComesBack libs params lo hi (.boolean slots) idx .boolean (.boolean (some v)) := by
  refine comesBack_of_arm .bool (by rw [intoPgType])
    (slots_scalarOf ⟨rfl, fun _ => rfl⟩ hslot fun v => some (.bool v)) trivial ?_
  intro param hread
  exact read_ok hread _

private theorem int16_comesBack {v : Int16} (hstored : arr.Stores idx .int16 v.toInt) :
    ComesBack libs params lo hi arr idx .int16 (.int16 (some v)) := by
  have harm := stored_scalarOf hstored rfl fun v => some (.i16 (.ofInt v))
  rw [Int16.ofInt_toInt] at harm
  refine comesBack_of_arm .int2 (by rw [intoPgType]) harm trivial fun param hread => ?_
  exact (read_ok hread _).trans (coerceOr_ok (coerceInt_int16 v))

private theorem int32_comesBack {v : Int32} (hstored : arr.Stores idx .int32 v.toInt) :
    ComesBack libs params lo hi arr idx .int32 (.int32 (some v)) := by
  have harm := stored_scalarOf hstored rfl fun v => some (.i32 (.ofInt v))
  rw [Int32.ofInt_toInt] at harm
  refine comesBack_of_arm .int4 (by rw [intoPgType]) harm trivial fun param hread => ?_
  exact (read_ok hread _).trans (coerceOr_ok (coerceInt_int32 v))

private theorem int64_comesBack {v : Int64} (hstored : arr.Stores idx .int64 v.toInt) :
    ComesBack libs params lo hi arr idx .int64 (.int64 (some v)) := by
  have harm := stored_scalarOf hstored rfl fun v => some (.i64 (.ofInt v))
  rw [Int64.ofInt_toInt] at harm
  refine comesBack_of_arm .int8 (by rw [intoPgType]) harm trivial fun param hread => ?_
  exact (read_ok hread _).trans (coerceOr_ok rfl)

private theorem uint8_comesBack {v : UInt8} (hstored : arr.Stores idx .uint8 v.toNat) :
    ComesBack libs params lo hi arr idx .uint8 (.uint8 (some v)) := by
  have harm := stored_scalarOf hstored rfl fun v => some (.i16 (.ofInt v))
  refine comesBack_of_arm .int2 (by rw [intoPgType]) harm trivial fun param hread => ?_
  exact (read_ok hread _).trans (coerceOr_ok (coerceInt_uint8 v))

private theorem uint16_comesBack {v : UInt16} (hstored : arr.Stores idx .uint16 v.toNat) :
    ComesBack libs params lo hi arr idx .uint16 (.uint16 (some v)) := by
  have harm := stored_scalarOf hstored rfl fun v => some (.i32 (.ofInt v))
  refine comesBack_of_arm .int4 (by rw [intoPgType]) harm trivial fun param hread => ?_
  exact (read_ok hread _).trans (coerceOr_ok (coerceInt_uint16 v))

private theorem uint32_comesBack {v : UInt32} (hstored : arr.Stores idx .uint32 v.toNat) :
    ComesBack libs params lo hi arr idx .uint32 (.uint32 (some v)) := by
  have harm := stored_scalarOf hstored rfl fun v => some (.i64 (.ofInt v))
  refine comesBack_of_arm .int8 (by rw [intoPgType]) harm trivial fun param hread => ?_
  exact (read_ok hread _).trans (coerceOr_ok (coerceInt_uint32 v))

private theorem uint64_comesBack (hparams : params.CountsDays) {v : UInt64}
    (hstored : arr.Stores idx .uint64 v.toNat) :
    ComesBack libs params lo hi arr idx .uint64 (.uint64 (some v)) := by
  have hlt := v.toNat_lt
  have harm := stored_scalarOf hstored rfl
    fun v => some (.decimal (.fromU64 (.ofNat v.toNat)))
  rw [Int.toNat_natCast, UInt64.ofNat_toNat] at harm
  refine comesBack_of_arm .numeric (by rw [intoPgType]) harm trivial ?_
  rintro param ⟨d, hnumber, hread⟩
  have hwhole : ((v.toNat : Int) : ℚ) = d.number := by
    rw [hnumber]
    simp [Decimal.number, Decimal.fromU64]
  have hfits : (0 : Int) ≤ v.toNat ∧ (v.toNat : Int) ≤ 2 ^ 64 - 1 := ⟨by omega, by omega⟩
  have hsign : ¬ d.mantissa < 0 := by
    rw [← Decimal.mantissa_of_whole hwhole, not_lt]
    positivity
  have hback : params.toU64 d = some v := by
    rw [hparams.toU64, fitUnsigned, if_neg hsign, fitInteger, toInteger_eq hwhole, if_pos hfits,
      Int.toNat_natCast, UInt64.ofNat_toNat]
  refine (read_ok hread _).trans ?_
  change Except.ok [ScalarValue.uint64 (params.toU64 d)] = _
  rw [hback]

private theorem float32_comesBack {bits : UInt32} (hstored : arr.Stores idx .float32 bits.toNat)
    (hnumber : (Float32.ofBits bits).isNaN = false)
    (hwidened : (Float32.ofBits bits).toFloat.toFloat32 = Float32.ofBits bits) :
    ComesBack libs params lo hi arr idx .float32 (.float32 (some (.ofBits bits))) := by
  have harm := stored_scalarOf hstored rfl fun v => some (.f32 (.ofNat v.toNat))
  rw [Int.toNat_natCast, UInt32.ofNat_toNat] at harm
  refine comesBack_of_arm .float4 (by rw [intoPgType]) harm hnumber fun param hread => ?_
  have hcoerce : coerceFloatValue (some (Float32.ofBits bits).toFloat) .float32 =
      .ok (.float32 (some (.ofBits bits))) := by
    rw [coerceFloatValue, Option.map_some, hwidened]
    rfl
  exact (read_ok hread _).trans (coerceOr_ok hcoerce)

private theorem float64_comesBack {bits : UInt64} (hstored : arr.Stores idx .float64 bits.toNat)
    (hnumber : (Float.ofBits bits).isNaN = false) :
    ComesBack libs params lo hi arr idx .float64 (.float64 (some (.ofBits bits))) := by
  have harm := stored_scalarOf hstored rfl fun v => some (.f64 (.ofNat v.toNat))
  rw [Int.toNat_natCast, UInt64.ofNat_toNat] at harm
  refine comesBack_of_arm .float8 (by rw [intoPgType]) harm hnumber fun param hread => ?_
  exact (read_ok hread _).trans (coerceOr_ok rfl)

private theorem utf8_comesBack {slots : List (Slot String)} {v : String}
    (hslot : slots[idx]? = some ⟨true, v⟩) :
    ComesBack libs params lo hi (.string .utf8 slots) idx .utf8 (.utf8 (some v)) := by
  have hback : BackedBy (.string .utf8 slots) slots := ⟨rfl, fun _ => rfl⟩
  have harm := slots_scalarOf hback hslot fun v => some (.str v)
  refine comesBack_of_arm .text (by rw [intoPgType]) harm trivial fun param hread => ?_
  exact read_ok hread _

private theorem largeUtf8_comesBack {slots : List (Slot String)} {v : String}
    (hslot : slots[idx]? = some ⟨true, v⟩) :
    ComesBack libs params lo hi (.string .largeUtf8 slots) idx .largeUtf8 (.largeUtf8 (some v)) := by
  have hback : BackedBy (.string .largeUtf8 slots) slots := ⟨rfl, fun _ => rfl⟩
  have harm := slots_scalarOf hback hslot fun v => some (.str v)
  refine comesBack_of_arm .text (by rw [intoPgType]) harm trivial fun param hread => ?_
  exact read_ok hread _

private theorem binary_comesBack {slots : List (Slot (List UInt8))} {v : List UInt8}
    (hslot : slots[idx]? = some ⟨true, v⟩) :
    ComesBack libs params lo hi (.binary .binary slots) idx .binary (.binary (some v)) := by
  have hback : BackedBy (.binary .binary slots) slots := ⟨rfl, fun _ => rfl⟩
  have harm := slots_scalarOf hback hslot fun v => some (.bytes v)
  refine comesBack_of_arm .bytea (by rw [intoPgType]) harm trivial fun param hread => ?_
  exact read_ok hread _

private theorem scale_ofNat (d : Decimal) : (Int8.ofNat d.scale).toInt32.toUInt32.toNat = d.scale := by
  have hscale := d.scale_le
  have hint : (Int8.ofNat d.scale).toInt = d.scale := Int8.toInt_ofNat_of_lt (by omega)
  have hnat := (scale_toNat (.ofNat d.scale)).1 (by omega)
  omega

private theorem decimal128_comesBack (hparams : params.CountsDays) {d : Decimal} {p : UInt8}
    (hstored : arr.Stores idx (.decimal128 p (.ofNat d.scale)) d.mantissa) :
    ComesBack libs params lo hi arr idx (.decimal128 p (.ofNat d.scale))
      (.decimal128 (some d.mantissa) p (.ofNat d.scale)) := by
  have harm : scalarValue libs arr idx (.decimal128 p (.ofNat d.scale)) =
      .ok (some (.scalar (some (.decimal d)))) := by
    obtain ⟨⟨dataType, native, hnative⟩, slots, rfl, rfl, hslot⟩ := hstored
    cases hnative
    have hget := getValue_read ⟨.decimal128 p (.ofNat d.scale), .decimal128, rfl⟩ hslot rfl
    have hdecimal : Decimal.tryFromI128WithScale d.mantissa (scaleAsU32 (.ofNat d.scale)) = .ok d := by
      rw [scaleAsU32, scale_ofNat, Decimal.tryFromI128WithScale, dif_pos d.scale_le,
        dif_pos d.mantissa_lt]
    change some <$> numeric128Value libs _ idx (scaleAsU32 (.ofNat d.scale)) = _
    rw [numeric128Value, hget]
    dsimp only [bind, Except.bind]
    rw [hdecimal]
    rfl
  refine comesBack_of_arm .numeric (by rw [intoPgType]) harm trivial ?_
  rintro param ⟨read, hnumber, hread⟩
  have hback : (params.rescale read (Int8.ofNat d.scale).toInt32.toUInt32).mantissa = d.mantissa := by
    refine hparams.rescale_mantissa _ _ _ ?_ d.mantissa_lt ?_
    · rw [scale_ofNat]
      exact d.scale_le
    · rw [scale_ofNat, hnumber]
      rfl
  refine (read_ok hread _).trans ?_
  change Except.ok [rescaledNumeric params (some read) p (.ofNat d.scale)] = _
  rw [rescaledNumeric, Option.map_some, hback]

private theorem date32_comesBack (hlibs : libs.Converts lo hi) (hparams : params.CountsDays)
    {v : Int32} (hstored : arr.Stores idx .date32 v.toInt) (hday : DayInRange lo hi v.toInt) :
    ComesBack libs params lo hi arr idx .date32 (.date32 (some v)) := by
  have harm := stored_scalarOf hstored rfl fun v => (libs.date32AsDate v).map .naiveDate
  rw [hlibs.date32AsDate, if_pos hday] at harm
  refine comesBack_of_arm .date (by rw [intoPgType]) harm hday fun param hread => ?_
  refine (read_ok hread _).trans ?_
  change Except.ok [ScalarValue.date32 (some (params.fromNaiveDate ⟨v.toInt⟩))] = _
  rw [hparams.fromNaiveDate, Int32.ofInt_toInt]

theorem dataType_zonedScalar (unit : TimeUnit) (timezone : String) (v : Int64) :
    (zonedScalar unit timezone v).dataType = .timestamp unit (some timezone) := by
  cases unit <;> rfl

private theorem coerceTimestamptz_eq (unit : TimeUnit) (timezone : Option String)
    (t : NaiveDateTime) (offset : Int) :
    coerceTimestamptzValue params (some ⟨t, offset⟩) (.timestamp unit timezone) =
      (coerceTimestampValue params (some t) (.timestamp unit none)).map
        (ScalarValue.inZone timezone) := by
  cases unit <;> rfl

private theorem timestamptz_comesBack (hlibs : libs.Converts lo hi) (hparams : params.CountsDays)
    {unit : TimeUnit} {timezone : String} {v : Int64}
    (hstored : arr.Stores idx (.timestamp unit (some timezone)) v.toInt)
    (hzone : ZoneKnown libs (some timezone))
    (hwhole : WholeInstant lo hi (nanosecondsOf unit v.toInt)) :
    ComesBack libs params lo hi arr idx (.timestamp unit (some timezone))
      (zonedScalar unit timezone v) := by
  obtain ⟨zone, hparse⟩ := hzone timezone rfl
  have hutc := hlibs.valueAsDatetimeWithTz unit v.toInt zone
  rw [if_pos hwhole.1] at hutc
  obtain ⟨⟨utc, offset⟩, hinstant, rfl⟩ := Option.map_eq_some_iff.mp hutc
  have harm : scalarValue libs arr idx (.timestamp unit (some timezone)) =
      .ok (some (.scalar (some (.dateTime ⟨⟨nanosecondsOf unit v.toInt⟩, offset⟩)))) := by
    obtain ⟨⟨dataType, native, hnative⟩, slots, rfl, rfl, hslot⟩ := hstored
    cases hnative
    have hread : scalarValue libs _ idx (.timestamp unit (some timezone)) = _ :=
      timestampTz_read hslot rfl hparse
    rw [hinstant] at hread
    exact hread
  refine comesBack_of_arm .timestamptz (intoPgType_timestamp _ _) harm hwhole ?_
  rintro param ⟨offset', hread⟩
  refine (read_ok hread _).trans (coerceOr_ok ?_)
  change coerceTimestamptzValue params (some ⟨_, offset'⟩) _ = _
  rw [coerceTimestamptz_eq, timestamp_restored hparams.toReadsClock]
  rfl

theorem dataType_restored (v : TemporalValue) : v.restored.dataType = v.scalar.dataType := by
  cases v <;> rfl

private theorem temporal_comesBack (hlibs : libs.Converts lo hi) (hparams : params.CountsDays)
    {v : TemporalValue} (hstored : v.StoredAt arr idx) (hsend : v.Sendable lo hi) :
    ComesBack libs params lo hi arr idx v.scalar.dataType v.restored := by
  have hwire : Carried lo hi (some v.native) v.pgType := by
    have hwire := native_wire hsend
    cases v <;> exact hwire
  refine comesBack_of_arm v.pgType v.intoPgType_scalar (scalarValue_native hlibs hstored hsend)
    hwire fun param hreturns => ?_
  have hreads : param.Reads v.native v.pgType := by cases v <;> exact hreturns
  exact deserialize_native hparams.toReadsClock hsend hreads

private theorem null_arm {scalar : ScalarValue} (hnull : scalar.PlainNull)
    (htype : arr.dataType = scalar.dataType) (hidx : idx < arr.len)
    (hinvalid : arr.validAt idx = false) :
    scalarValue libs arr idx scalar.dataType = .ok (some (.scalar none)) := by
  have hunit := dataType_timeUnit arr
  rw [htype] at hunit
  apply scalarValue_null (isNull_of_invalid hidx hinvalid) _ _ hunit
  · cases scalar <;> first | exact hnull.elim | exact fun _ => nofun
  · cases scalar <;> first | rfl | exact hnull.elim
  · cases scalar <;> first | rfl | cases hnull

private theorem null_bound {scalar : ScalarValue} (hnull : scalar.PlainNull) {pgType : PgType}
    (htype : intoPgType scalar.dataType = .ok pgType) {param : BoundParameter}
    (hparam : param.isNull = true) :
    deserializeParameter params param pgType (some scalar.dataType) = .ok [scalar] := by
  have hread : ∀ t, param.read t pgType = .ok none := fun t => (param.read_null t pgType).mpr hparam
  cases scalar with
  | intervalYearMonth | intervalDayTime | intervalMonthDayNano | nullList | other =>
    exact hnull.elim
  | list => cases hnull
  | timestampSecond value timezone | timestampMillisecond value timezone
  | timestampMicrosecond value timezone | timestampNanosecond value timezone =>
    obtain rfl := Option.isNone_iff_eq_none.mp hnull
    have hzone := htype.symm.trans (intoPgType_timestamp _ timezone)
    cases timezone <;> cases hzone <;> exact read_ok (hread _) _
  | _ value =>
    obtain rfl := Option.isNone_iff_eq_none.mp hnull
    rw [ScalarValue.dataType, intoPgType] at htype
    cases htype
    exact read_ok (hread _) _

private theorem null_comesBack {scalar : ScalarValue} (hnull : scalar.PlainNull)
    (htype : arr.dataType = scalar.dataType) (hidx : idx < arr.len)
    (hinvalid : arr.validAt idx = false) :
    ComesBack libs params lo hi arr idx scalar.dataType scalar := by
  intro pgType hpgType
  exact ⟨none, null_arm hnull htype hidx hinvalid, trivial,
    fun param hparam => null_bound hnull hpgType hparam⟩

/-- Every value that can be sent comes back. -/
theorem ColumnValue.comesBack (hlibs : libs.Converts lo hi) (hparams : params.CountsDays)
    {v : ColumnValue} (hstored : v.StoredAt arr idx) (hsend : v.Sendable libs lo hi) :
    ComesBack libs params lo hi arr idx v.scalar.dataType v.scalar := by
  cases v with
  | null scalar =>
    obtain ⟨htype, hidx, hinvalid⟩ := hstored
    exact null_comesBack hsend htype hidx hinvalid
  | boolean value =>
    obtain ⟨slots, rfl, hslot⟩ := hstored
    exact boolean_comesBack hslot
  | int16 value => exact int16_comesBack hstored
  | int32 value => exact int32_comesBack hstored
  | int64 value => exact int64_comesBack hstored
  | uint8 value => exact uint8_comesBack hstored
  | uint16 value => exact uint16_comesBack hstored
  | uint32 value => exact uint32_comesBack hstored
  | uint64 value => exact uint64_comesBack hparams hstored
  | float32 bits => exact float32_comesBack hstored hsend.1 hsend.2
  | float64 bits => exact float64_comesBack hstored hsend
  | utf8 value =>
    obtain ⟨slots, rfl, hslot⟩ := hstored
    exact utf8_comesBack hslot
  | largeUtf8 value =>
    obtain ⟨slots, rfl, hslot⟩ := hstored
    exact largeUtf8_comesBack hslot
  | binary value =>
    obtain ⟨slots, rfl, hslot⟩ := hstored
    exact binary_comesBack hslot
  | decimal128 value precision => exact decimal128_comesBack hparams hstored
  | date32 value => exact date32_comesBack hlibs hparams hstored hsend
  | timestamptz unit timezone value =>
    change ComesBack _ _ _ _ _ _ (zonedScalar unit timezone value).dataType _
    rw [dataType_zonedScalar]
    exact timestamptz_comesBack hlibs hparams hstored hsend.1 hsend.2
  | temporal value =>
    change ComesBack _ _ _ _ _ _ value.restored.dataType _
    rw [dataType_restored]
    exact temporal_comesBack hlibs hparams hstored hsend

private theorem isScalarType_of_sendable {v : ColumnValue} (hsend : v.Sendable libs lo hi) :
    isScalarType v.scalar.dataType = true := by
  cases v with
  | null scalar => cases scalar <;> first | rfl | cases hsend
  | timestamptz unit timezone value =>
    change isScalarType (zonedScalar unit timezone value).dataType = true
    rw [dataType_zonedScalar]
    rfl
  | temporal value =>
    change isScalarType value.restored.dataType = true
    rw [dataType_restored]
    exact value.isScalarType_scalar
  | _ => rfl

private theorem fieldCell_of_carried {value : Option Native} {pgField : FieldInfo}
    (hcarried : Carried lo hi value pgField.datatype) :
    fieldCell libs (.scalar value) pgField =
      libs.toSql pgField.format (.scalar value) pgField.datatype pgField.formatOptions := by
  cases value with
  | none => rfl
  | some native =>
    cases native with
    | wrapper bytes quote => exact hcarried.elim
    | _ => rfl

end Values

/-- A column holds the value at a row, is sent as the type that is advertised for its own, and its
cells are bound so that they are read again. -/
structure SendsColumn (libs : EncodeLibraries) (lo hi : Int)
    (bind : FieldInfo → Cell → BoundParameter) (idx : Nat) (column : (Field × ArrowArray) × FieldInfo)
    (v : ColumnValue) : Prop where
  dataType : column.1.1.dataType = v.scalar.dataType
  stored : v.StoredAt column.1.2 idx
  sendable : v.Sendable libs lo hi
  advertised : intoPgType v.scalar.dataType = .ok column.2.datatype
  carries : libs.Carries lo hi column.2 (bind column.2)

/-- The client gives no type of a parameter but the one that was advertised. -/
def HintsAdvertised (hints : List (Option PgType)) (fields : List FieldInfo) : Prop :=
  ∀ (i : Nat) (hint : PgType) (pgField : FieldInfo), hints[i]? = some (some hint) →
    fields[i]? = some pgField → hint = pgField.datatype

section Rows
variable {libs : EncodeLibraries} {params : ParamLibraries} {lo hi : Int}
  {bind : FieldInfo → Cell → BoundParameter} {idx : Nat}

private theorem column_returned (hlibs : libs.Converts lo hi) (hparams : params.CountsDays)
    {column : (Field × ArrowArray) × FieldInfo} {v : ColumnValue}
    (h : SendsColumn libs lo hi bind idx column v) :
    ∃ cell,
      (∀ row, encodeValue libs column.1.2 (dataRowEncoder libs) idx column.1.1 column.2 ⟨row⟩ =
        .ok () ⟨row ++ [cell]⟩) ∧
      deserializeParameter params (bind column.2 cell) column.2.datatype
        (some column.1.1.dataType) = .ok [v.scalar] := by
  obtain ⟨value, harm, hcarried, hbound⟩ :=
    ColumnValue.comesBack hlibs hparams h.stored h.sendable _ h.advertised
  obtain ⟨cell, hcell, hreturns⟩ := h.carries value hcarried
  have hscalar := isScalarType_of_sendable h.sendable
  have hbind := hbound _ hreturns
  rw [← h.dataType] at harm hscalar hbind
  refine ⟨cell, fun row => ?_, hbind⟩
  rw [encodeValue_scalar hscalar, harm]
  exact dataRowEncoder_of_ok ((fieldCell_of_carried hcarried).trans hcell) ⟨row⟩

private theorem columns_returned (hlibs : libs.Converts lo hi) (hparams : params.CountsDays)
    {columns : List ((Field × ArrowArray) × FieldInfo)} {values : List ColumnValue}
    (h : List.Forall₂ (SendsColumn libs lo hi bind idx) columns values) :
    ∃ cells : DataRow,
      (∀ row, encodeColumns libs idx columns ⟨row⟩ = .ok () ⟨row ++ cells⟩) ∧
      List.Forall₂ (fun (part : ((Field × ArrowArray) × FieldInfo) × Cell) (v : ColumnValue) =>
        SendsColumn libs lo hi bind idx part.1 v ∧
        deserializeParameter params (bind part.1.2 part.2) part.1.2.datatype
          (some part.1.1.1.dataType) = .ok [v.scalar]) (columns.zip cells) values ∧
      cells.length = columns.length := by
  induction h with
  | nil => exact ⟨[], fun row => by rw [List.append_nil]; rfl, .nil, rfl⟩
  | @cons column v columns values hcolumn _ ih =>
    obtain ⟨cell, hcell, hbound⟩ := column_returned hlibs hparams hcolumn
    obtain ⟨cells, hcells, hall, hlength⟩ := ih
    refine ⟨cell :: cells, fun row => ?_, .cons ⟨hcolumn, hbound⟩ hall, congrArg (· + 1) hlength⟩
    change EStateM.bind (encodeValue libs column.1.2 (dataRowEncoder libs) idx column.1.1 column.2)
      (fun _ => encodeColumns libs idx columns) ⟨row⟩ = _
    rw [EStateM.bind, hcell]
    dsimp only
    rw [hcells, List.append_assoc]
    rfl

private theorem parameterPgType_advertised {portal : Portal} {inferencedTypes : List (Option DataType)}
    {i : Nat} {type : DataType} {pgField : FieldInfo}
    (hinferenced : inferencedTypes[i]? = some (some type))
    (hadvertised : intoPgType type = .ok pgField.datatype)
    (hhint : ∀ hint, portal.parameterTypes[i]? = some (some hint) → hint = pgField.datatype) :
    parameterPgType portal inferencedTypes i = .ok pgField.datatype := by
  rw [parameterPgType, hinferenced]
  cases hgiven : portal.parameterTypes[i]? with
  | none => exact hadvertised
  | some given =>
    cases given with
    | none => exact hadvertised
    | some hint =>
      rw [hhint hint hgiven]
      rfl

private theorem row_bound {columns : List (Field × ArrowArray)} {fields : List FieldInfo}
    (hlength : columns.length = fields.length) {cells : DataRow} {values : List ColumnValue}
    (hcells : cells.length = (columns.zip fields).length)
    (h : List.Forall₂ (fun (part : ((Field × ArrowArray) × FieldInfo) × Cell) (v : ColumnValue) =>
        SendsColumn libs lo hi bind idx part.1 v ∧
        deserializeParameter params (bind part.1.2 part.2) part.1.2.datatype
          (some part.1.1.1.dataType) = .ok [v.scalar]) ((columns.zip fields).zip cells) values)
    {hints : List (Option PgType)} (hhints : HintsAdvertised hints fields) :
    deserializeParameters params ⟨List.zipWith bind fields cells, hints⟩
        (columns.map fun column => some column.1.dataType) =
      .ok (values.map ColumnValue.scalar) := by
  refine foldlM_singletons (List.forall₂_iff_get.mpr ⟨?_, fun i hi hi' => ?_⟩) []
  · have hvalues := h.length_eq
    simp only [List.length_zip, hcells, hlength] at hvalues
    simp [hcells, hlength, ← hvalues]
  · have hi₁ : i < cells.length := by simpa [hcells, hlength] using hi
    have hi₂ : i < columns.length := by simpa [hcells, hlength] using hi
    have hi₃ : i < fields.length := hlength ▸ hi₂
    obtain ⟨hcolumn, hbound⟩ := h.get (i := i) (by simpa [hcells, hlength] using hi₃)
      (by simpa using hi')
    simp only [List.get_eq_getElem, List.getElem_zip] at hcolumn hbound
    have hinferenced : (columns.map fun column => some column.1.dataType)[i]? =
        some (some columns[i].1.dataType) := by simp [hi₂]
    have hadvertised := hcolumn.advertised
    rw [← hcolumn.dataType] at hadvertised
    have htype : parameterPgType ⟨List.zipWith bind fields cells, hints⟩
        (columns.map fun column => some column.1.dataType) i = .ok fields[i].datatype :=
      parameterPgType_advertised hinferenced hadvertised fun hint hgiven =>
        hhints i hint fields[i] hgiven (List.getElem?_eq_getElem hi₃)
    simp only [List.get_eq_getElem, List.getElem_zipIdx, List.getElem_zipWith, List.getElem_map,
      Nat.zero_add, parameterTurn, htype, hinferenced, Option.join_some]
    exact hbound

end Rows

section Examples

theorem referenceLibraries_countsDays : referenceLibraries.CountsDays where
  toReadsClock := referenceLibraries_readsClock
  toReadsDecimals := referenceLibraries_readsDecimals
  fromNaiveDate _ := rfl

/-- The library with INT4 in the binary form. -/
def binaryIntegers : EncodeLibraries :=
  { referenceEncoding with
    toSql := fun format value type options =>
      match format, value with
      | .binary, .scalar (some (.i32 value)) => .ok (some (bigEndian 4 value.toUInt32.toNat))
      | format, value => referenceEncoding.toSql format value type options }

def BoundParameter.binaryInteger (bytes : List UInt8) : BoundParameter where
  isNull := false
  read
    | .i32, _ =>
      match Reader.i32.whole bytes with
      | some value => .ok (some value)
      | none => .error (.apiError [.text "invalid integer"])
    | _, _ => .error (.apiError [.text "INT4 expected"])
  read_null t pgType := by
    cases t with
    | i32 => cases h : Reader.i32.whole bytes <;> simp
    | _ => simp

def bindInteger (_ : FieldInfo) : Cell → BoundParameter
  | some bytes => .binaryInteger bytes
  | none => .null

theorem binaryIntegers_converts : binaryIntegers.Converts chronoMinDay chronoMaxDay where
  date32AsDate := referenceEncoding_converts.date32AsDate
  date64AsDate := referenceEncoding_converts.date64AsDate
  asTime := referenceEncoding_converts.asTime
  valueAsDatetime := referenceEncoding_converts.valueAsDatetime
  valueAsDatetimeWithTz := referenceEncoding_converts.valueAsDatetimeWithTz
  fromTimestamp := referenceEncoding_converts.fromTimestamp
  withTimezone := referenceEncoding_converts.withTimezone

def integerInfo (name : String) : FieldInfo :=
  ⟨name, .int4, .binary, ⟨"ISO, MDY", "postgres", "hex", 1⟩⟩

theorem binaryIntegers_carries (name : String) :
    binaryIntegers.Carries chronoMinDay chronoMaxDay (integerInfo name)
      (bindInteger (integerInfo name)) := by
  intro value hcarried
  cases value with
  | none => exact ⟨none, rfl, rfl⟩
  | some native =>
    cases native with
    | i32 value =>
      refine ⟨some (bigEndian 4 value.toUInt32.toNat), rfl, ?_⟩
      change (match Reader.i32.whole (bigEndian 4 value.toUInt32.toNat) with
        | some value => Except.ok (some value)
        | none => .error (PgWireError.apiError [.text "invalid integer"])) = _
      rw [(Reader.reads_i32 value).whole]
      rfl
    | _ => exact hcarried.elim

/-- A count that an INT2 has no room for, beside a number that is missing once. -/
def countsBatch : RecordBatch where
  columns := [(.new "visits" .uint16 true, .primitive ⟨.uint16, .uint16, rfl⟩ [⟨true, 65535⟩, ⟨true, 7⟩]),
    (.new "change" .int32 true, .primitive ⟨.int32, .int32, Primitive.of_int32⟩ [⟨false, 0⟩, ⟨true, -1⟩])]
  numRows := 2
  valid column h := by
    rcases List.mem_cons.mp h with rfl | h
    · exact ⟨trivial, rfl, rfl⟩
    · cases List.mem_singleton.mp h
      exact ⟨trivial, rfl, rfl⟩

def countsRow : Nat → List ColumnValue
  | 0 => [.uint16 65535, .null (.int32 none)]
  | _ => [.uint16 7, .int32 (-1)]

end Examples
end DatafusionPostgres.ArrowPg

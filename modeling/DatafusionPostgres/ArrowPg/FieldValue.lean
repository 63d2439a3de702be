import DatafusionPostgres.ArrowPg.ScalarValue

/-! The values that an encoder is given, and the encoders of the wire library. -/
namespace DatafusionPostgres.ArrowPg

/-- The Rust values that implement `ToSql` and `ToSqlText`; `wrapper` is `BytesWrapper`. -/
inductive Native where
  | bool (value : Bool)
  | i8 (value : Int8)
  | i16 (value : Int16)
  | i32 (value : Int32)
  | i64 (value : Int64)
  | f32 (bits : UInt32)
  | f64 (bits : UInt64)
  | decimal (value : Decimal)
  | str (value : String)
  | bytes (value : List UInt8)
  | naiveDate (value : NaiveDate)
  | naiveTime (value : NaiveTime)
  | naiveDateTime (value : NaiveDateTime)
  | dateTime (value : DateTime)
  | interval (value : Interval)
  | wrapper (bytes : List UInt8) (quote : Bool)

/-- What `encode_field` is called with. The type that a `None` is of is left out. -/
inductive FieldValue where
  | scalar (value : Option Native)
  | list (values : List (Option Native))

/-- `rust_decimal::Error`, as far as the conversion of an integer raises it. -/
inductive DecimalError where
  | exceedsMaximumPossibleValue
  | lessThanMinimumPossibleValue
  | scaleExceedsMaximumPrecision (scale : Nat)

/-- `Decimal::try_from_i128_with_scale`. -/
def Decimal.tryFromI128WithScale (value : Int) (scale : Nat) : Except DecimalError Decimal :=
  if hscale : scale ≤ 28 then
    if hvalue : value.natAbs < 2 ^ 96 then .ok ⟨value, scale, hvalue, hscale⟩
    else if value < 0 then .error .lessThanMinimumPossibleValue
    else .error .exceedsMaximumPossibleValue
  else .error (.scaleExceedsMaximumPrecision scale)

/-- `Decimal::from(u64)`. -/
def Decimal.fromU64 (value : UInt64) : Decimal where
  mantissa := value.toNat
  scale := 0
  mantissa_lt := by
    have h := value.toNat_lt
    rw [Int.natAbs_natCast]
    omega
  scale_le := Decimal.whole_scale_le

/-- The count of a unit as nanoseconds. -/
def nanosecondsOf (unit : TimeUnit) (value : Int) : Int :=
  match unit with
  | .second => value * 1000000000
  | .millisecond => value * 1000000
  | .microsecond => value * 1000
  | .nanosecond => value

def nanosecondsPerDay : Int := 86400000000000

/-- What the encoders use of Arrow, `chrono`, `rust_decimal`, `postgres_types` and `pgwire`. -/
structure EncodeLibraries where
  Tz : Type
  /-- `Tz::from_str`. -/
  parseTz : String → Except String Tz
  /-- `as_date` of the days of a Date32 or the milliseconds of a Date64. -/
  date32AsDate : Int → Option NaiveDate
  date64AsDate : Int → Option NaiveDate
  /-- `as_time`, by the unit of the array. -/
  asTime : TimeUnit → Int → Option NaiveTime
  valueAsDatetime : TimeUnit → Int → Option NaiveDateTime
  /-- `value_as_datetime_with_tz`, as a fixed offset. -/
  valueAsDatetimeWithTz : TimeUnit → Int → Tz → Option DateTime
  /-- `DateTime::from_timestamp` and its variants for the other units. -/
  fromTimestamp : TimeUnit → Int → Option NaiveDateTime
  withTimezone : NaiveDateTime → Tz → DateTime
  decimalErrorText : DecimalError → String
  /-- `to_sql_text` or `to_sql`, by the format. -/
  toSql : FieldFormat → FieldValue → PgType → FormatOptions → Except Failure Cell
  /-- `QUOTE_CHECK` and `QUOTE_ESCAPE` on the text of a buffer. -/
  quoteCheck : List UInt8 → Bool
  quoteEscape : List UInt8 → List UInt8

/-- `BytesWrapper`: its bytes as they are, but for the text of a quoted one. -/
def bytesWrapper (libs : EncodeLibraries) (format : FieldFormat) (bytes : List UInt8)
    (quote : Bool) : List UInt8 :=
  match format with
  | .text => if quote then 34 :: libs.quoteEscape bytes ++ [34] else bytes
  | .binary => bytes

/-- The cell of a field. In a list, the library writes the wrappers as well. -/
def fieldCell (libs : EncodeLibraries) (value : FieldValue) (pgField : FieldInfo) :
    Except Failure Cell :=
  match value with
  | .scalar (some (.wrapper bytes quote)) => .ok (some (bytesWrapper libs pgField.format bytes quote))
  | value => libs.toSql pgField.format value pgField.datatype pgField.formatOptions

/-- The trait `Encoder`. `take_row` is left out: the encoding functions do not call it. -/
structure Encoder (σ : Type) where
  encodeField : FieldValue → FieldInfo → EStateM Failure σ Unit

/-- `encoder.encode_field(&value?, pg_field)`. -/
def encodeWith {σ : Type} (encoder : Encoder σ) (pgField : FieldInfo)
    (value : Except Failure FieldValue) : EStateM Failure σ Unit := do
  let value ← liftExcept value
  encoder.encodeField value pgField

/-- The row that a `DataRowEncoder` has built so far. -/
structure DataRowEncoder where
  cells : DataRow

/-- `encode_field_with_type_and_format` appends one field; `take_row` is the cells. -/
def dataRowEncoder (libs : EncodeLibraries) : Encoder DataRowEncoder where
  encodeField value pgField := fun row =>
    match fieldCell libs value pgField with
    | .ok cell => .ok () ⟨row.cells ++ [cell]⟩
    | .error failure => .error failure row

section DataRow
variable {libs : EncodeLibraries} {value : FieldValue} {pgField : FieldInfo}

theorem dataRowEncoder_of_ok {cell : Cell} (h : fieldCell libs value pgField = .ok cell)
    (row : DataRowEncoder) :
    encodeWith (dataRowEncoder libs) pgField (.ok value) row = .ok () ⟨row.cells ++ [cell]⟩ := by
  change (dataRowEncoder libs).encodeField value pgField row = _
  simp only [dataRowEncoder, h]

theorem dataRowEncoder_of_error {failure : Failure}
    (h : fieldCell libs value pgField = .error failure) (row : DataRowEncoder) :
    encodeWith (dataRowEncoder libs) pgField (.ok value) row = .error failure row := by
  change (dataRowEncoder libs).encodeField value pgField row = _
  simp only [dataRowEncoder, h]

end DataRow

end DatafusionPostgres.ArrowPg

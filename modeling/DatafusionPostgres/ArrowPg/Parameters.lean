import DatafusionPostgres.ArrowPg.ScalarValue
import DatafusionPostgres.ArrowPg.TypeMapping
import DatafusionPostgres.Library.Text

/-! `arrow-pg/src/datatypes/df.rs`: the values of bound parameters as DataFusion
scalars. `i64` arithmetic wraps, as in the release profile. -/
namespace DatafusionPostgres.ArrowPg
open Library

/-- The Rust types that a parameter is read as. -/
inductive ParamType where
  | bool | i8 | i16 | i32 | i64 | f32 | f64 | string | bytes
  | decimal | naiveDateTime | dateTime | naiveDate | naiveTime | interval
  | vec (element : ParamType)
  deriving DecidableEq

def ParamType.Value : ParamType → Type
  | .bool => Bool
  | .i8 => Int8
  | .i16 => Int16
  | .i32 => Int32
  | .i64 => Int64
  | .f32 => Float32
  | .f64 => Float
  | .string => String
  | .bytes => List UInt8
  | .decimal => Decimal
  | .naiveDateTime => NaiveDateTime
  | .dateTime => DateTime
  | .naiveDate => NaiveDate
  | .naiveTime => NaiveTime
  | .interval => Interval
  | .vec element => List (Option element.Value)

/-- One value of a Bind message: `read` is `portal.parameter` at its position, which
gives no value exactly when the parameter is NULL. -/
structure BoundParameter where
  isNull : Bool
  read : (t : ParamType) → PgType → PgWireResult (Option t.Value)
  read_null : ∀ t pgType, read t pgType = .ok none ↔ isNull = true

/-- The bound parameters, and the types that the client gave at Parse. -/
structure Portal where
  parameters : List BoundParameter
  parameterTypes : List (Option PgType)

/-- What the conversion uses of `rust_decimal`, `chrono`, Arrow and DataFusion. -/
structure ParamLibraries where
  rescale : Decimal → UInt32 → Decimal
  toU64 : Decimal → Option UInt64
  toU32 : Decimal → Option UInt32
  toI64 : Decimal → Option Int64
  toI32 : Decimal → Option Int32
  toF64 : Decimal → Option Float
  toF32 : Decimal → Option Float32
  /-- `(m as f64).log10().floor() as u8`. -/
  log10Floor : Nat → UInt8
  timestamp : NaiveDateTime → Int64
  timestampMillis : NaiveDateTime → Int64
  timestampMicros : NaiveDateTime → Int64
  timestampNanosOpt : NaiveDateTime → Option Int64
  fromNaiveDate : NaiveDate → Int32
  numSecondsFromMidnight : NaiveTime → UInt32
  nanosecond : NaiveTime → UInt32
  /-- Arrow's `cast` of an element, which `new_list_nullable` calls; none if it fails. -/
  castElement : ScalarValue → DataType → Option ScalarValue
  newListNullable : List ScalarValue → DataType → Except Failure ScalarValue

def invalidParameterError (message : List Fragment) : PgWireError :=
  .userError ⟨"ERROR", "22023", message⟩

def outOfRangeError (source : String) (value : Int64) (target : DataType) : PgWireError :=
  invalidParameterError
    [.text (source ++ " value " ++ toString value.toInt ++ " is out of range for "),
      .debugType target]

/-- `T::try_from(value)` for an integer type of the given range. -/
def tryFromI64 {τ : Type} (low high : Int) (ofInt : Int → τ) (value : Int64) : Option τ :=
  if low ≤ value.toInt ∧ value.toInt ≤ high then some (ofInt value.toInt) else none

def i8TryFrom : Int64 → Option Int8 := tryFromI64 (-2 ^ 7) (2 ^ 7 - 1) Int8.ofInt
def i16TryFrom : Int64 → Option Int16 := tryFromI64 (-2 ^ 15) (2 ^ 15 - 1) Int16.ofInt
def i32TryFrom : Int64 → Option Int32 := tryFromI64 (-2 ^ 31) (2 ^ 31 - 1) Int32.ofInt
def i64TryFrom : Int64 → Option Int64 := some
def u8TryFrom : Int64 → Option UInt8 := tryFromI64 0 (2 ^ 8 - 1) fun n => UInt8.ofNat n.toNat
def u16TryFrom : Int64 → Option UInt16 := tryFromI64 0 (2 ^ 16 - 1) fun n => UInt16.ofNat n.toNat
def u32TryFrom : Int64 → Option UInt32 := tryFromI64 0 (2 ^ 32 - 1) fun n => UInt32.ofNat n.toNat
def u64TryFrom : Int64 → Option UInt64 := tryFromI64 0 (2 ^ 64 - 1) fun n => UInt64.ofNat n.toNat

/-- `map_err` of an optional conversion. -/
def orOutOfRange {τ : Type} (source : String) (value : Int64) (target : DataType) :
    Option τ → PgWireResult τ
  | some t => .ok t
  | none => .error (outOfRangeError source value target)

def checkedIntCast {τ : Type} (tryFrom : Int64 → Option τ) (target : DataType) (value : Int64) :
    PgWireResult τ :=
  orOutOfRange "INT" value target (tryFrom value)

/-- `n as f32` and `n as f64`: the nearest float. -/
def i64AsF32 (n : Int64) : Float32 := .ofModel (.ofInt64 n)
def i64AsF64 (n : Int64) : Float := .ofModel (.ofInt64 n)

def coerceIntValue (value : Option Int64) (target : DataType) : PgWireResult ScalarValue :=
  match target with
  | .int8 => return .int8 (← value.mapM (checkedIntCast i8TryFrom target))
  | .int16 => return .int16 (← value.mapM (checkedIntCast i16TryFrom target))
  | .int32 => return .int32 (← value.mapM (checkedIntCast i32TryFrom target))
  | .int64 => return .int64 value
  | .uint8 => return .uint8 (← value.mapM (checkedIntCast u8TryFrom target))
  | .uint16 => return .uint16 (← value.mapM (checkedIntCast u16TryFrom target))
  | .uint32 => return .uint32 (← value.mapM (checkedIntCast u32TryFrom target))
  | .uint64 => return .uint64 (← value.mapM (checkedIntCast u64TryFrom target))
  | .float32 => return .float32 (value.map i64AsF32)
  | .float64 => return .float64 (value.map i64AsF64)
  | .timestamp .second _ => return .timestampSecond value none
  | .timestamp .millisecond _ => return .timestampMillisecond (value.map (· * 1000)) none
  | .timestamp .microsecond _ => return .timestampMicrosecond (value.map (· * 1000000)) none
  | .timestamp .nanosecond _ => return .timestampNanosecond (value.map (· * 1000000000)) none
  | _ => .error (invalidParameterError [.text "Cannot coerce integer value to ", .debugType target])

/-- `f64::EPSILON`. -/
def floatEpsilon : Float := 2.220446049250313e-16

def checkedFloatCast {τ : Type} (tryFrom : Int64 → Option τ) (target : DataType) (value : Float) :
    PgWireResult τ :=
  if !value.isFinite then
    .error (invalidParameterError
      [.text ("FLOAT value " ++ toString value ++ " is out of range for "), .debugType target])
  else
    let n := value.toInt64
    if (n.toFloat - value).abs > floatEpsilon then .error (outOfRangeError "FLOAT" n target)
    else orOutOfRange "FLOAT" n target (tryFrom n)

def coerceFloatValue (value : Option Float) (target : DataType) : PgWireResult ScalarValue :=
  match target with
  | .int8 => return .int8 (← value.mapM (checkedFloatCast i8TryFrom target))
  | .int16 => return .int16 (← value.mapM (checkedFloatCast i16TryFrom target))
  | .int32 => return .int32 (← value.mapM (checkedFloatCast i32TryFrom target))
  | .int64 => return .int64 (← value.mapM (checkedFloatCast i64TryFrom target))
  | .uint8 => return .uint8 (← value.mapM (checkedFloatCast u8TryFrom target))
  | .uint16 => return .uint16 (← value.mapM (checkedFloatCast u16TryFrom target))
  | .uint32 => return .uint32 (← value.mapM (checkedFloatCast u32TryFrom target))
  | .uint64 => return .uint64 (← value.mapM (checkedFloatCast u64TryFrom target))
  | .float32 => return .float32 (value.map Float.toFloat32)
  | .float64 => return .float64 value
  | _ => .error (invalidParameterError [.text "Cannot coerce float value to ", .debugType target])

section Libraries
variable (libs : ParamLibraries)

def coerceTimestampValue (value : Option NaiveDateTime) (target : DataType) :
    PgWireResult ScalarValue :=
  match target with
  | .timestamp .second _ => return .timestampSecond (value.map libs.timestamp) none
  | .timestamp .millisecond _ => return .timestampMillisecond (value.map libs.timestampMillis) none
  | .timestamp .microsecond _ => return .timestampMicrosecond (value.map libs.timestampMicros) none
  | .timestamp .nanosecond _ => return .timestampNanosecond (value.bind libs.timestampNanosOpt) none
  | _ => .error (invalidParameterError [.text "Cannot coerce TIMESTAMP to ", .debugType target])

def coerceTimestamptzValue (value : Option DateTime) (target : DataType) :
    PgWireResult ScalarValue :=
  match target with
  | .timestamp .second tz => return .timestampSecond (value.map (libs.timestamp ·.utc)) tz
  | .timestamp .millisecond tz =>
    return .timestampMillisecond (value.map (libs.timestampMillis ·.utc)) tz
  | .timestamp .microsecond tz =>
    return .timestampMicrosecond (value.map (libs.timestampMicros ·.utc)) tz
  | .timestamp .nanosecond tz =>
    return .timestampNanosecond (value.bind (libs.timestampNanosOpt ·.utc)) tz
  | _ => .error (invalidParameterError [.text "Cannot coerce TIMESTAMPTZ to ", .debugType target])

def coerceIntervalValue (value : Option Interval) (target : DataType) : PgWireResult ScalarValue :=
  match target with
  | .interval .yearMonth =>
    match value with
    | some i =>
      if i.days ≠ 0 ∨ i.microseconds ≠ 0 then
        .error (invalidParameterError
          [.text "Cannot coerce INTERVAL with days or time components to YearMonth interval"])
      else .ok (.intervalYearMonth (some i.months))
    | none => .ok (.intervalYearMonth none)
  | .interval .dayTime =>
    match value with
    | some i =>
      if i.months ≠ 0 then
        .error (invalidParameterError
          [.text "Cannot coerce INTERVAL with months component to DayTime interval"])
      else if i.microseconds % 1000 ≠ 0 then
        .error (invalidParameterError
          [.text "Cannot coerce INTERVAL with sub-millisecond precision to DayTime interval"])
      else .ok (.newIntervalDt i.days (i.microseconds / 1000).toInt32)
    | none => .ok (.intervalDayTime none)
  | .interval .monthDayNano | .duration _ =>
    match value with
    | some i => .ok (.newIntervalMdn i.months i.days (i.microseconds * 1000))
    | none => .ok (.intervalMonthDayNano none)
  | _ => .error (invalidParameterError [.text "Cannot coerce INTERVAL to ", .debugType target])

/-- `get_pg_type`: the client's type, else that of the inferred type. -/
def getPgType (pgTypeHint : Option PgType) (inferencedType : Option DataType) :
    PgWireResult PgType :=
  match pgTypeHint with
  | some ty => .ok ty
  | none =>
    match inferencedType with
    | some inferType => intoPgType inferType
    | none => .ok .unknown

def orErr {α : Type} : PgWireResult α → Except Failure α := Except.mapError Failure.err

/-- A typed value is coerced to the inferred type, and taken as it is without one. -/
def coerceOr (inferencedType : Option DataType) (coerce : DataType → PgWireResult ScalarValue)
    (untyped : ScalarValue) : Except Failure (List ScalarValue) :=
  match inferencedType with
  | some target => return [← orErr (coerce target)]
  | none => return [untyped]

/-- The scalar of an untyped NUMERIC: precision and scale are those of the value. -/
def untypedNumeric : Option Decimal → ScalarValue
  | none => .decimal128 none 0 0
  | some v =>
    let precision := if v.mantissa = 0 then 1 else libs.log10Floor v.mantissa.natAbs + 1
    .decimal128 (some v.mantissa) precision (.ofNat v.scale)

def rescaledNumeric (value : Option Decimal) (precision : UInt8) (scale : Int8) : ScalarValue :=
  .decimal128 (value.map fun n => (libs.rescale n scale.toInt32.toUInt32).mantissa) precision scale

def numericParameter (value : Option Decimal) (inferencedType : Option DataType) :
    Except Failure (List ScalarValue) :=
  match inferencedType with
  | some (.decimal128 p s) => return [rescaledNumeric libs value p s]
  | some .uint64 => return [.uint64 (value.bind libs.toU64)]
  | some .uint32 => return [.uint32 (value.bind libs.toU32)]
  | some .int64 => return [.int64 (value.bind libs.toI64)]
  | some .int32 => return [.int32 (value.bind libs.toI32)]
  | some .float64 => return [.float64 (value.bind libs.toF64)]
  | some .float32 => return [.float32 (value.bind libs.toF32)]
  | some target =>
    .error (.err (invalidParameterError [.text "Cannot coerce NUMERIC to ", .debugType target]))
  | none => return [untypedNumeric libs value]

def timeParameter (value : Option NaiveTime) (inferencedType : Option DataType) : ScalarValue :=
  let ns := value.map fun t =>
    (libs.numSecondsFromMidnight t).toUInt64.toInt64 * 1000000000 +
      (libs.nanosecond t).toUInt64.toInt64
  match inferencedType with
  | some (.time64 .nanosecond) => .time64Nanosecond ns
  | some (.time64 .microsecond) => .time64Microsecond (ns.map (· / 1000))
  | some (.time32 .millisecond) => .time32Millisecond (ns.map fun ns => (ns / 1000000).toInt32)
  | some (.time32 .second) => .time32Second (ns.map fun ns => (ns / 1000000000).toInt32)
  | _ => .time64Nanosecond ns

def untypedInterval : Option Interval → ScalarValue
  | some i => .newIntervalMdn i.months i.days (i.microseconds * 1000)
  | none => .intervalMonthDayNano none

/-- The array arms: a list of the elements' scalars, or the NULL list. -/
def arrayParameter {α : Type} (value : Option (List (Option α))) (scalar : Option α → ScalarValue)
    (elementType : DataType) : Except Failure (List ScalarValue) :=
  match value with
  | some values => return [← libs.newListNullable (values.map scalar) elementType]
  | none => return [.newNullList elementType true 1]

def numericArrayParameter (value : Option (List (Option Decimal)))
    (inferencedType : Option DataType) : Except Failure (List ScalarValue) :=
  match value with
  | some values =>
    match inferencedType with
    | some (.list field) =>
      match field.dataType with
      | .decimal128 p s =>
        return [← libs.newListNullable (values.map fun n => rescaledNumeric libs n p s)
          (.decimal128 p s)]
      | .uint64 =>
        return [← libs.newListNullable (values.map fun n => .uint64 (n.bind libs.toU64)) .uint64]
      | .float64 =>
        return [← libs.newListNullable (values.map fun n => .float64 (n.bind libs.toF64)) .float64]
      | .float32 =>
        return [← libs.newListNullable (values.map fun n => .float32 (n.bind libs.toF32)) .float32]
      | other =>
        return [← libs.newListNullable (values.map fun n => rescaledNumeric libs n 38 0) other]
    | _ =>
      return [← libs.newListNullable (values.map (untypedNumeric libs)) (.decimal128 38 0)]
  | none => return [.newNullList (.decimal128 38 0) true 1]

/-- A text of an unsupported type: an array of texts when it stands in braces. -/
def textOrArray (value : String) : Except Failure (List ScalarValue) :=
  let cs := value.toList
  if cs.head? = some '{' ∧ cs.getLast? = some '}' then
    let items := (trimMatches (fun c => c == '{' || c == '}' || c == ' ') cs).splitOn ','
    let scalarValues := items.map fun s => .utf8 (some (String.ofList (trimMatches isWhitespace s)))
    return [← libs.newListNullable scalarValues .utf8]
  else return [.utf8 (some value)]

/-- The values that the arm of the type pushes. -/
def deserializeParameter (param : BoundParameter) (pgType : PgType)
    (inferencedType : Option DataType) : Except Failure (List ScalarValue) :=
  match pgType with
  | .bool => do
    let value ← orErr (param.read .bool pgType)
    return [.boolean value]
  | .char => do
    let value ← orErr (param.read .i8 pgType)
    return [.int8 value]
  | .int2 => do
    let value ← orErr (param.read .i16 pgType)
    coerceOr inferencedType (coerceIntValue (value.map Int16.toInt64)) (.int16 value)
  | .int4 => do
    let value ← orErr (param.read .i32 pgType)
    coerceOr inferencedType (coerceIntValue (value.map Int32.toInt64)) (.int32 value)
  | .int8 => do
    let value ← orErr (param.read .i64 pgType)
    coerceOr inferencedType (coerceIntValue value) (.int64 value)
  | .text | .varchar => do
    let value ← orErr (param.read .string pgType)
    match inferencedType with
    | some .largeUtf8 => return [.largeUtf8 value]
    | _ => return [.utf8 value]
  | .bytea => do
    let value ← orErr (param.read .bytes pgType)
    return [.binary value]
  | .float4 => do
    let value ← orErr (param.read .f32 pgType)
    coerceOr inferencedType (coerceFloatValue (value.map Float32.toFloat)) (.float32 value)
  | .float8 => do
    let value ← orErr (param.read .f64 pgType)
    coerceOr inferencedType (coerceFloatValue value) (.float64 value)
  | .numeric => do
    let value ← orErr (param.read .decimal pgType)
    numericParameter libs value inferencedType
  | .timestamp => do
    let value ← orErr (param.read .naiveDateTime pgType)
    coerceOr inferencedType (coerceTimestampValue libs value)
      (.timestampMicrosecond (value.map libs.timestampMicros) none)
  | .timestamptz => do
    let value ← orErr (param.read .dateTime pgType)
    coerceOr inferencedType (coerceTimestamptzValue libs value)
      (.timestampMicrosecond (value.map (libs.timestampMicros ·.utc)) none)
  | .date => do
    let value ← orErr (param.read .naiveDate pgType)
    return [.date32 (value.map libs.fromNaiveDate)]
  | .time => do
    let value ← orErr (param.read .naiveTime pgType)
    return [timeParameter libs value inferencedType]
  | .uuid => do
    let value ← orErr (param.read .string pgType)
    return [.utf8 value]
  | .json | .jsonb => do
    let value ← orErr (param.read .string pgType)
    return [.utf8 value]
  | .interval => do
    let value ← orErr (param.read .interval pgType)
    coerceOr inferencedType (coerceIntervalValue value) (untypedInterval value)
  | .boolArray => do
    let value ← orErr (param.read (.vec .bool) pgType)
    arrayParameter libs value .boolean .boolean
  | .int2Array => do
    let value ← orErr (param.read (.vec .i16) pgType)
    arrayParameter libs value .int16 .int16
  | .int4Array => do
    let value ← orErr (param.read (.vec .i32) pgType)
    arrayParameter libs value .int32 .int32
  | .int8Array => do
    let value ← orErr (param.read (.vec .i64) pgType)
    arrayParameter libs value .int64 .int64
  | .float4Array => do
    let value ← orErr (param.read (.vec .f32) pgType)
    arrayParameter libs value .float32 .float32
  | .float8Array => do
    let value ← orErr (param.read (.vec .f64) pgType)
    arrayParameter libs value .float64 .float64
  | .textArray | .varcharArray => do
    let value ← orErr (param.read (.vec .string) pgType)
    arrayParameter libs value .utf8 .utf8
  | .intervalArray => do
    let value ← orErr (param.read (.vec .interval) pgType)
    arrayParameter libs value untypedInterval (.interval .monthDayNano)
  | .numericArray => do
    let value ← orErr (param.read (.vec .decimal) pgType)
    numericArrayParameter libs value inferencedType
  | .money => do
    let value ← orErr (param.read .i64 pgType)
    return [.int64 value]
  | .inet => do
    let value ← orErr (param.read .string pgType)
    return [.utf8 value]
  | .macaddr => do
    let value ← orErr (param.read .string pgType)
    return [.utf8 value]
  | _ => do
    let value ← orErr (param.read .string pgType)
    match value with
    | some value => textOrArray libs value
    | none => return []

/-- The type of parameter `i`: its own hint, else its own inferred type. -/
def parameterPgType (portal : Portal) (inferencedTypes : List (Option DataType)) (i : Nat) :
    PgWireResult PgType :=
  getPgType portal.parameterTypes[i]?.join inferencedTypes[i]?.join

/-- The turn of the loop for parameter `i`. -/
def parameterTurn (portal : Portal) (inferencedTypes : List (Option DataType))
    (parameter : BoundParameter × Nat) : Except Failure (List ScalarValue) := do
  let (param, i) := parameter
  let pgType ← orErr (parameterPgType portal inferencedTypes i)
  deserializeParameter libs param pgType inferencedTypes[i]?.join

def deserializeParameters (portal : Portal) (inferencedTypes : List (Option DataType)) :
    Except Failure (List ScalarValue) :=
  portal.parameters.zipIdx.foldlM (fun deserializedParams parameter => do
    let pushed ← parameterTurn libs portal inferencedTypes parameter
    return deserializedParams ++ pushed) []

end Libraries
end DatafusionPostgres.ArrowPg

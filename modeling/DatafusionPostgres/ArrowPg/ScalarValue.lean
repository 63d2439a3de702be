import DatafusionPostgres.ArrowPg.PgType
import Mathlib.Algebra.Group.Nat.Defs
import Mathlib.Algebra.Ring.Int.Defs

/-! The values that travel between the wire library and DataFusion: calendar and
decimal types of the client side, and DataFusion's scalars. -/
namespace DatafusionPostgres.ArrowPg

/-- `pg_interval::Interval`. -/
structure Interval where
  months : Int32
  days : Int32
  microseconds : Int64
  deriving DecidableEq, Repr

/-- `chrono::NaiveDate` as the number of days since the epoch. -/
structure NaiveDate where
  days : Int
  deriving DecidableEq, Repr

/-- `chrono::NaiveTime` as the number of nanoseconds since midnight. -/
structure NaiveTime where
  nanoseconds : Nat
  deriving DecidableEq, Repr

/-- `chrono::NaiveDateTime` as the number of nanoseconds since the epoch. -/
structure NaiveDateTime where
  nanoseconds : Int
  deriving DecidableEq, Repr

/-- `chrono::DateTime<FixedOffset>`: the instant, and the offset it is shown at. -/
structure DateTime where
  utc : NaiveDateTime
  offsetSeconds : Int
  deriving DecidableEq, Repr

/-- `rust_decimal::Decimal`: a mantissa of 96 bits and the number of fractional digits. -/
structure Decimal where
  mantissa : Int
  scale : Nat
  mantissa_lt : mantissa.natAbs < 2 ^ 96
  scale_le : scale ≤ 28
  deriving DecidableEq

/-- A whole number has a scale that fits. -/
theorem Decimal.whole_scale_le : 0 ≤ 28 := Nat.zero_le 28

theorem Decimal.hundredths_scale_le : 2 ≤ 28 := by decide

structure IntervalDayTime where
  days : Int32
  milliseconds : Int32
  deriving DecidableEq, Repr

structure IntervalMonthDayNano where
  months : Int32
  days : Int32
  nanoseconds : Int64
  deriving DecidableEq, Repr

/-- The types of list elements that the conversions have no scalar of, but a cast may give. -/
def DataType.castOnly : DataType → Bool
  | .null | .float16 | .date64 | .duration _ | .largeBinary | .binaryView | .fixedSizeBinary _
  | .utf8View | .list _ | .listView _ | .fixedSizeList _ _ | .largeList _ | .largeListView _
  | .struct _ | .union _ _ | .dictionary _ _ | .decimal32 _ _ | .decimal64 _ _ | .decimal256 _ _
  | .map _ _ | .runEndEncoded _ _ => true
  | _ => false

/-- The scalars that parameters become. A list scalar is its element type and its
elements; `nullList` is the list array whose one row is NULL; `other` is an element of any
further type, by the number that it is, if it is one. -/
inductive ScalarValue where
  | boolean (value : Option Bool)
  | int8 (value : Option Int8)
  | int16 (value : Option Int16)
  | int32 (value : Option Int32)
  | int64 (value : Option Int64)
  | uint8 (value : Option UInt8)
  | uint16 (value : Option UInt16)
  | uint32 (value : Option UInt32)
  | uint64 (value : Option UInt64)
  | float32 (value : Option Float32)
  | float64 (value : Option Float)
  | utf8 (value : Option String)
  | largeUtf8 (value : Option String)
  | binary (value : Option (List UInt8))
  | decimal128 (value : Option Int) (precision : UInt8) (scale : Int8)
  | timestampSecond (value : Option Int64) (timezone : Option String)
  | timestampMillisecond (value : Option Int64) (timezone : Option String)
  | timestampMicrosecond (value : Option Int64) (timezone : Option String)
  | timestampNanosecond (value : Option Int64) (timezone : Option String)
  | date32 (value : Option Int32)
  | time32Second (value : Option Int32)
  | time32Millisecond (value : Option Int32)
  | time64Microsecond (value : Option Int64)
  | time64Nanosecond (value : Option Int64)
  | intervalYearMonth (value : Option Int32)
  | intervalDayTime (value : Option IntervalDayTime)
  | intervalMonthDayNano (value : Option IntervalMonthDayNano)
  | list (elementType : DataType) (values : List ScalarValue)
  | nullList (elementType : DataType) (nullable : Bool) (nullLen : Nat)
  | other (type : { type : DataType // type.castOnly }) (value : Option (Option Rat))

namespace ScalarValue

/-- `ScalarValue::is_null`. -/
def isNull : ScalarValue → Bool
  | .boolean v => v.isNone | .int8 v => v.isNone | .int16 v => v.isNone
  | .int32 v => v.isNone | .int64 v => v.isNone | .uint8 v => v.isNone
  | .uint16 v => v.isNone | .uint32 v => v.isNone | .uint64 v => v.isNone
  | .float32 v => v.isNone | .float64 v => v.isNone
  | .utf8 v => v.isNone | .largeUtf8 v => v.isNone | .binary v => v.isNone
  | .decimal128 v _ _ => v.isNone
  | .timestampSecond v _ => v.isNone | .timestampMillisecond v _ => v.isNone
  | .timestampMicrosecond v _ => v.isNone | .timestampNanosecond v _ => v.isNone
  | .date32 v => v.isNone
  | .time32Second v => v.isNone | .time32Millisecond v => v.isNone
  | .time64Microsecond v => v.isNone | .time64Nanosecond v => v.isNone
  | .intervalYearMonth v => v.isNone | .intervalDayTime v => v.isNone
  | .intervalMonthDayNano v => v.isNone
  | .list _ _ => false
  | .nullList _ _ _ => true
  | .other _ v => v.isNone

/-- `ScalarValue::data_type`. -/
def dataType : ScalarValue → DataType
  | .boolean _ => .boolean
  | .int8 _ => .int8 | .int16 _ => .int16 | .int32 _ => .int32 | .int64 _ => .int64
  | .uint8 _ => .uint8 | .uint16 _ => .uint16 | .uint32 _ => .uint32 | .uint64 _ => .uint64
  | .float32 _ => .float32 | .float64 _ => .float64
  | .utf8 _ => .utf8 | .largeUtf8 _ => .largeUtf8 | .binary _ => .binary
  | .decimal128 _ precision scale => .decimal128 precision scale
  | .timestampSecond _ tz => .timestamp .second tz
  | .timestampMillisecond _ tz => .timestamp .millisecond tz
  | .timestampMicrosecond _ tz => .timestamp .microsecond tz
  | .timestampNanosecond _ tz => .timestamp .nanosecond tz
  | .date32 _ => .date32
  | .time32Second _ => .time32 .second | .time32Millisecond _ => .time32 .millisecond
  | .time64Microsecond _ => .time64 .microsecond | .time64Nanosecond _ => .time64 .nanosecond
  | .intervalYearMonth _ => .interval .yearMonth
  | .intervalDayTime _ => .interval .dayTime
  | .intervalMonthDayNano _ => .interval .monthDayNano
  | .list elementType _ => .list (.new "item" elementType true)
  | .nullList elementType nullable _ => .list (.new "item" elementType nullable)
  | .other type _ => type.val

def newIntervalDt (days milliseconds : Int32) : ScalarValue :=
  .intervalDayTime (some ⟨days, milliseconds⟩)

def newIntervalMdn (months days : Int32) (nanoseconds : Int64) : ScalarValue :=
  .intervalMonthDayNano (some ⟨months, days, nanoseconds⟩)

/-- `new_null_list`: a list array of `nullLen` NULL rows. -/
def newNullList (elementType : DataType) (nullable : Bool) (nullLen : Nat) : ScalarValue :=
  .nullList elementType nullable nullLen

end ScalarValue
end DatafusionPostgres.ArrowPg

import DatafusionPostgres.ArrowPg.ArrowArray
import DatafusionPostgres.ArrowPg.FieldValue

/-! `arrow-pg/src/list_encoder.rs`: the elements of a list, for every element type but
struct. `i64` arithmetic wraps, as in the release profile. -/
namespace DatafusionPostgres.ArrowPg

/-- `arr.iter()` of a downcast array, each element mapped on its own. -/
def listElements {α : Type} (slots : Option (List (Slot α))) (element : α → Option Native) :
    Except Failure FieldValue := do
  let slots ← unwrap slots
  return .list (slots.map fun slot => slot.get.bind element)

/-- A text in the place of each element that is not null. -/
def listPlaceholders (arr : ArrowArray) (text : Nat → String) : FieldValue :=
  .list ((List.range arr.len).map fun i => if arr.validAt i then some (.str (text i)) else none)

/-- `*s as u32`: a negative scale wraps around. -/
def scaleAsU32 (scale : Int8) : Nat := scale.toInt32.toUInt32.toNat

/-- The elements of a Decimal128 list: `from_i128_with_scale` panics where it does not fit. -/
def decimalElements (slots : Option (List (Slot Int))) (scale : Int8) :
    Except Failure FieldValue := do
  let slots ← unwrap slots
  let values ← slots.mapM fun slot =>
    match slot.get with
    | none => .ok none
    | some value =>
      match Decimal.tryFromI128WithScale value (scaleAsU32 scale) with
      | .ok decimal => .ok (some (Native.decimal decimal))
      | .error _ => .error .panic
  return .list values

/-- The decimal point put into the digits of a Decimal256, which are text here. -/
def decimal256Text (scale : Nat) (value : Int) : String :=
  let chars := (toString value).toList
  if scale = 0 then String.ofList chars
  else if chars.length ≤ scale then
    let padded := List.replicate (scale - chars.length + 1) '0' ++ chars
    String.ofList (padded.take 1 ++ ['.'] ++ padded.drop 1)
  else
    let pos := chars.length - scale
    String.ofList (chars.take pos ++ ['.'] ++ chars.drop pos)

/-- The error of a time zone that is not known. -/
def timezoneError (text : String) : Failure := .err (.apiError [.text text])

/-- The elements of a timestamp list; the time zone is read before any element. -/
def timestampElements (libs : EncodeLibraries) (unit : TimeUnit) (timezone : Option String)
    (slots : Option (List (Slot Int))) : Except Failure FieldValue := do
  let slots ← unwrap slots
  match timezone with
  | some tz =>
    match libs.parseTz tz with
    | .error text => .error (timezoneError text)
    | .ok tz =>
      return .list (slots.map fun slot => slot.get.bind fun value =>
        (libs.fromTimestamp unit value).map fun dt => .dateTime (libs.withTimezone dt tz))
  | none =>
    return .list (slots.map fun slot => slot.get.bind fun value =>
      (libs.fromTimestamp unit value).map .naiveDateTime)

/-- The microseconds of a duration. -/
def durationMicroseconds (unit : TimeUnit) (value : Int) : Int64 :=
  match unit with
  | .second => Int64.ofInt value * 1000000
  | .millisecond => Int64.ofInt value * 1000
  | .microsecond => Int64.ofInt value
  | .nanosecond => Int64.ofInt value / 1000

def durationInterval (unit : TimeUnit) (value : Int) : Native :=
  .interval ⟨0, 0, durationMicroseconds unit value⟩

def yearMonthInterval (months : Int) : Native := .interval ⟨Int32.ofInt months, 0, 0⟩

def dayTimeInterval (value : IntervalDayTime) : Native :=
  .interval ⟨0, value.days, value.milliseconds.toInt64 * 1000⟩

def monthDayNanoInterval (value : IntervalMonthDayNano) : Native :=
  .interval ⟨value.months, value.days, value.nanoseconds / 1000⟩

def unsupportedListElement (listType : DataType) : Failure :=
  .err (.apiError
    [.text "Unsupported List Datatype ", .displayType listType, .text " and array ", .debugArray])

def unsupportedTimeUnit (width : String) : Failure :=
  .err (.apiError [.text ("Unsupported " ++ width ++ " unit")])

/-- `encode_list` up to its call of `encode_field`, for elements that are no structs. -/
def listValue (libs : EncodeLibraries) (arr : ArrowArray) : Except Failure FieldValue :=
  match arr.dataType with
  | .null => .ok (.list (List.replicate arr.len none))
  | .boolean => listElements arr.asBoolean fun v => some (.bool v)
  | .int8 => listElements (arr.asPrimitive .int8) fun v => some (.i8 (.ofInt v))
  | .int16 => listElements (arr.asPrimitive .int16) fun v => some (.i16 (.ofInt v))
  | .int32 => listElements (arr.asPrimitive .int32) fun v => some (.i32 (.ofInt v))
  | .int64 => listElements (arr.asPrimitive .int64) fun v => some (.i64 (.ofInt v))
  | .uint8 => listElements (arr.asPrimitive .uint8) fun v => some (.i16 (.ofInt v))
  | .uint16 => listElements (arr.asPrimitive .uint16) fun v => some (.i32 (.ofInt v))
  | .uint32 => listElements (arr.asPrimitive .uint32) fun v => some (.i64 (.ofInt v))
  | .uint64 =>
    listElements (arr.asPrimitive .uint64) fun v => some (.decimal (.fromU64 (.ofNat v.toNat)))
  | .float32 => listElements (arr.asPrimitive .float32) fun v => some (.f32 (.ofNat v.toNat))
  | .float64 => listElements (arr.asPrimitive .float64) fun v => some (.f64 (.ofNat v.toNat))
  | .decimal128 _ scale => decimalElements (arr.asPrimitive .decimal128) scale
  | .utf8 => listElements (arr.asString .utf8) fun v => some (.str v)
  | .utf8View => listElements (arr.asString .utf8View) fun v => some (.str v)
  | .largeUtf8 => listElements (arr.asString .largeUtf8) fun v => some (.str v)
  | .binary => listElements (arr.asBinary .binary) fun v => some (.bytes v)
  | .largeBinary => listElements (arr.asBinary .largeBinary) fun v => some (.bytes v)
  | .binaryView => listElements (arr.asBinary .binaryView) fun v => some (.bytes v)
  | .date32 =>
    listElements (arr.asPrimitive .date32) fun v => (libs.date32AsDate v).map .naiveDate
  | .date64 =>
    listElements (arr.asPrimitive .date64) fun v => (libs.date64AsDate v).map .naiveDate
  | .time32 .second =>
    listElements (arr.asPrimitive .time32Second) fun v => (libs.asTime .second v).map .naiveTime
  | .time32 .millisecond =>
    listElements (arr.asPrimitive .time32Millisecond) fun v =>
      (libs.asTime .millisecond v).map .naiveTime
  | .time32 _ => .error (unsupportedTimeUnit "Time32")
  | .time64 .microsecond =>
    listElements (arr.asPrimitive .time64Microsecond) fun v =>
      (libs.asTime .microsecond v).map .naiveTime
  | .time64 .nanosecond =>
    listElements (arr.asPrimitive .time64Nanosecond) fun v =>
      (libs.asTime .nanosecond v).map .naiveTime
  | .time64 _ => .error (unsupportedTimeUnit "Time64")
  | .timestamp unit timezone =>
    timestampElements libs unit timezone (arr.asPrimitive (.timestamp unit))
  | .decimal256 _ scale =>
    listElements (arr.asPrimitive .decimal256) fun v =>
      some (.str (decimal256Text (scaleAsU32 scale) v))
  | .duration unit =>
    listElements (arr.asPrimitive (.duration unit)) fun v => some (durationInterval unit v)
  | .interval .yearMonth =>
    listElements (arr.asPrimitive .intervalYearMonth) fun v => some (yearMonthInterval v)
  | .interval .dayTime =>
    listElements arr.asIntervalDayTime fun v => some (dayTimeInterval v)
  | .interval .monthDayNano =>
    listElements arr.asIntervalMonthDayNano fun v => some (monthDayNanoInterval v)
  | .list _ => .ok (listPlaceholders arr fun i => "[nested_list_" ++ toString i ++ "]")
  | .largeList _ => .ok (listPlaceholders arr fun i => "[large_list_" ++ toString i ++ "]")
  | .map _ _ => .ok (listPlaceholders arr fun i => "\x7bmap_" ++ toString i ++ "\x7d")
  | .union _ _ => .ok (listPlaceholders arr fun i => "union_" ++ toString i)
  | .dictionary _ _ => .ok (listPlaceholders arr fun i => "dict_" ++ toString i)
  | listType => .error (unsupportedListElement listType)

end DatafusionPostgres.ArrowPg

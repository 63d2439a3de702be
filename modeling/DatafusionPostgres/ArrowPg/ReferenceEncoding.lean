import DatafusionPostgres.ArrowPg.FieldValue

/-! The library functions that values are encoded with, by their documentation, so that
encodings can be evaluated. Values are printed as text, the dates and times left out. -/
namespace DatafusionPostgres.ArrowPg

/-- The days of `chrono`: from the first of -262143 to the last of 262142. -/
def chronoMinDay : Int := -96465292
def chronoMaxDay : Int := 95026236

def chronoDate (days : Int) : Option NaiveDate :=
  if chronoMinDay ≤ days ∧ days ≤ chronoMaxDay then some ⟨days⟩ else none

def chronoTime (nanoseconds : Int) : Option NaiveTime :=
  if 0 ≤ nanoseconds ∧ nanoseconds < nanosecondsPerDay then some ⟨nanoseconds.toNat⟩ else none

def chronoDateTime (nanoseconds : Int) : Option NaiveDateTime :=
  let days := nanoseconds / nanosecondsPerDay
  if chronoMinDay ≤ days ∧ days ≤ chronoMaxDay then some ⟨nanoseconds⟩ else none

def utf8Bytes (text : String) : List UInt8 := text.toUTF8.toList

def boolBytes (value : Bool) : List UInt8 := if value then [116] else [102]

/-- The bytes that need a backslash in a quoted text: the quote and the backslash. -/
def escapeByte (byte : UInt8) : List UInt8 :=
  if byte = 34 ∨ byte = 92 then [92, byte] else [byte]

def asciiLower (byte : UInt8) : UInt8 := if 65 ≤ byte ∧ byte ≤ 90 then byte + 32 else byte

/-- A value that is empty, or holds a brace, a comma, a quote, a backslash or a blank, or
is the word NULL in any letter case, needs quotes. -/
def needsQuotes (bytes : List UInt8) : Bool :=
  bytes.isEmpty || bytes.map asciiLower == utf8Bytes "null" ||
    bytes.any fun byte => [123, 125, 44, 34, 92, 32, 9, 10, 11, 12, 13].contains byte

def quoted (bytes : List UInt8) : List UInt8 := 34 :: bytes.flatMap escapeByte ++ [34]

def nativeText : Native → List UInt8
  | .bool value => boolBytes value
  | .i8 value => utf8Bytes (toString value.toInt)
  | .i16 value => utf8Bytes (toString value.toInt)
  | .i32 value => utf8Bytes (toString value.toInt)
  | .i64 value => utf8Bytes (toString value.toInt)
  | .str value => utf8Bytes value
  | .wrapper bytes quote => if quote then quoted bytes else bytes
  | _ => []

def elementText : Option Native → List UInt8
  | none => utf8Bytes "NULL"
  | some (.str value) =>
    if needsQuotes (utf8Bytes value) then quoted (utf8Bytes value) else utf8Bytes value
  | some value => nativeText value

/-- An array in braces. -/
def arrayText (values : List (Option Native)) : List UInt8 :=
  123 :: [44].intercalate (values.map elementText) ++ [125]

def referenceEncoding : EncodeLibraries where
  Tz := Int
  parseTz name := if name = "UTC" then .ok 0 else .error ("Invalid timezone " ++ name)
  date32AsDate := chronoDate
  date64AsDate milliseconds := chronoDate (milliseconds / 86400000)
  asTime unit value := chronoTime (nanosecondsOf unit value)
  valueAsDatetime unit value := chronoDateTime (nanosecondsOf unit value)
  valueAsDatetimeWithTz unit value offset :=
    (chronoDateTime (nanosecondsOf unit value)).map fun utc => ⟨utc, offset⟩
  fromTimestamp unit value := chronoDateTime (nanosecondsOf unit value)
  withTimezone dt offset := ⟨dt, offset⟩
  decimalErrorText
    | .exceedsMaximumPossibleValue => "Number exceeds maximum value that can be represented."
    | .lessThanMinimumPossibleValue => "Number less than minimum value that can be represented."
    | .scaleExceedsMaximumPrecision scale =>
      "Scale exceeds the maximum precision allowed: " ++ toString scale ++ " > 28"
  toSql format value type _ :=
    match value with
    | .scalar value => .ok (value.map nativeText)
    | .list values =>
      match format, type.kind with
      | .text, _ | _, .array _ => .ok (some (arrayText values))
      | _, _ => .error .panic
  quoteCheck := needsQuotes
  quoteEscape bytes := bytes.flatMap escapeByte

end DatafusionPostgres.ArrowPg

import Mathlib.Data.List.Basic

/-! Arrow data types and fields, with the full constructor list of `arrow_schema`. -/
namespace DatafusionPostgres.ArrowPg

inductive TimeUnit where
  | second | millisecond | microsecond | nanosecond
  deriving DecidableEq, Repr

inductive IntervalUnit where
  | yearMonth | dayTime | monthDayNano
  deriving DecidableEq, Repr

inductive UnionMode where
  | sparse | dense
  deriving DecidableEq, Repr

mutual
/-- The type ids of a union are left out: no function here reads them. -/
inductive DataType where
  | null | boolean
  | int8 | int16 | int32 | int64 | uint8 | uint16 | uint32 | uint64
  | float16 | float32 | float64
  | timestamp (unit : TimeUnit) (timezone : Option String)
  | date32 | date64
  | time32 (unit : TimeUnit)
  | time64 (unit : TimeUnit)
  | duration (unit : TimeUnit)
  | interval (unit : IntervalUnit)
  | binary | largeBinary | binaryView
  | fixedSizeBinary (size : Int32)
  | utf8 | largeUtf8 | utf8View
  | list (field : Field)
  | listView (field : Field)
  | fixedSizeList (field : Field) (size : Int32)
  | largeList (field : Field)
  | largeListView (field : Field)
  | struct (fields : List Field)
  | union (fields : List Field) (mode : UnionMode)
  | dictionary (key value : DataType)
  | decimal32 (precision : UInt8) (scale : Int8)
  | decimal64 (precision : UInt8) (scale : Int8)
  | decimal128 (precision : UInt8) (scale : Int8)
  | decimal256 (precision : UInt8) (scale : Int8)
  | map (entries : Field) (sorted : Bool)
  | runEndEncoded (runEnds values : Field)

structure Field where
  name : String
  dataType : DataType
  nullable : Bool
  metadata : List (String × String)
end

/-- `Field::new`: a field without metadata. -/
def Field.new (name : String) (dataType : DataType) (nullable : Bool) : Field :=
  ⟨name, dataType, nullable, []⟩

structure Schema where
  fields : List Field

end DatafusionPostgres.ArrowPg

import DatafusionPostgres.ArrowPg.ScalarValue

/-! Arrow arrays, as far as the encoders read them. -/
namespace DatafusionPostgres.ArrowPg

/-- One slot of a buffer. The value of an invalid slot is arbitrary. -/
structure Slot (α : Type) where
  valid : Bool
  value : α

def Slot.get {α : Type} (slot : Slot α) : Option α := if slot.valid then some slot.value else none

/-- The type parameters of `PrimitiveArray`. A timestamp's time zone and the precision and
scale of a decimal are no part of them. -/
inductive Primitive where
  | int8 | int16 | int32 | int64 | uint8 | uint16 | uint32 | uint64
  | float16 | float32 | float64
  | date32 | date64
  | time32Second | time32Millisecond | time64Microsecond | time64Nanosecond
  | timestamp (unit : TimeUnit)
  | duration (unit : TimeUnit)
  | intervalYearMonth
  | decimal32 | decimal64 | decimal128 | decimal256
  deriving DecidableEq, Repr

def Primitive.of : DataType → Option Primitive
  | .int8 => some .int8 | .int16 => some .int16 | .int32 => some .int32 | .int64 => some .int64
  | .uint8 => some .uint8 | .uint16 => some .uint16 | .uint32 => some .uint32
  | .uint64 => some .uint64
  | .float16 => some .float16 | .float32 => some .float32 | .float64 => some .float64
  | .date32 => some .date32 | .date64 => some .date64
  | .time32 .second => some .time32Second | .time32 .millisecond => some .time32Millisecond
  | .time64 .microsecond => some .time64Microsecond
  | .time64 .nanosecond => some .time64Nanosecond
  | .timestamp unit _ => some (.timestamp unit)
  | .duration unit => some (.duration unit)
  | .interval .yearMonth => some .intervalYearMonth
  | .decimal32 _ _ => some .decimal32 | .decimal64 _ _ => some .decimal64
  | .decimal128 _ _ => some .decimal128 | .decimal256 _ _ => some .decimal256
  | _ => none

theorem Primitive.of_int32 : Primitive.of .int32 = some .int32 := rfl

/-- A data type whose arrays are primitive: in particular, a time is in one of the two
units of its width. -/
structure PrimitiveType where
  dataType : DataType
  native : Primitive
  native_eq : Primitive.of dataType = some native

inductive StringKind where
  | utf8 | largeUtf8 | utf8View
  deriving DecidableEq, Repr

def StringKind.dataType : StringKind → DataType
  | .utf8 => .utf8
  | .largeUtf8 => .largeUtf8
  | .utf8View => .utf8View

inductive BinaryKind where
  | binary | largeBinary | binaryView
  | fixedSize (size : Int32)
  deriving DecidableEq, Repr

def BinaryKind.dataType : BinaryKind → DataType
  | .binary => .binary
  | .largeBinary => .largeBinary
  | .binaryView => .binaryView
  | .fixedSize size => .fixedSizeBinary size

inductive ListKind where
  | list | largeList
  | fixedSizeList (size : Int32)
  | listView | largeListView
  deriving DecidableEq, Repr

def ListKind.dataType (field : Field) : ListKind → DataType
  | .list => .list field
  | .largeList => .largeList field
  | .fixedSizeList size => .fixedSizeList field size
  | .listView => .listView field
  | .largeListView => .largeListView field

/-- The nested types whose children are never read. -/
inductive OpaqueType where
  | map (entries : Field) (sorted : Bool)
  | union (fields : List Field) (mode : UnionMode)
  | runEndEncoded (runEnds values : Field)

def OpaqueType.dataType : OpaqueType → DataType
  | .map entries sorted => .map entries sorted
  | .union fields mode => .union fields mode
  | .runEndEncoded runEnds values => .runEndEncoded runEnds values

/-- An Arrow array. Numbers, dates and times are the integers of their buffer, a float is
its bits. Rows of a list and columns of a struct are given by their position. -/
inductive ArrowArray where
  | null (len : Nat)
  | boolean (slots : List (Slot Bool))
  | primitive (type : PrimitiveType) (slots : List (Slot Int))
  | intervalDayTime (slots : List (Slot IntervalDayTime))
  | intervalMonthDayNano (slots : List (Slot IntervalMonthDayNano))
  | string (kind : StringKind) (slots : List (Slot String))
  | binary (kind : BinaryKind) (slots : List (Slot (List UInt8)))
  | list (kind : ListKind) (field : Field) (len : Nat) (valid : Nat → Bool)
      (value : Nat → ArrowArray)
  | struct (fields : List Field) (len : Nat) (valid : Nat → Bool) (columns : Nat → ArrowArray)
  | dictionary (keyType valueType : DataType) (keys : List (Slot Int)) (values : ArrowArray)
  | other (type : OpaqueType) (len : Nat) (valid : Nat → Bool)

/-- `unwrap` of an optional value. -/
def unwrap {α : Type} : Option α → Except Failure α
  | some a => .ok a
  | none => .error .panic

namespace ArrowArray

def dataType : ArrowArray → DataType
  | null _ => .null
  | boolean _ => .boolean
  | primitive type _ => type.dataType
  | intervalDayTime _ => .interval .dayTime
  | intervalMonthDayNano _ => .interval .monthDayNano
  | string kind _ => kind.dataType
  | binary kind _ => kind.dataType
  | list kind field _ _ _ => kind.dataType field
  | struct fields _ _ _ => .struct fields
  | dictionary keyType valueType _ _ => .dictionary keyType valueType
  | other type _ _ => type.dataType

def len : ArrowArray → Nat
  | null len => len
  | boolean slots => slots.length
  | primitive _ slots => slots.length
  | intervalDayTime slots => slots.length
  | intervalMonthDayNano slots => slots.length
  | string _ slots => slots.length
  | binary _ slots => slots.length
  | list _ _ len _ _ => len
  | struct _ len _ _ => len
  | dictionary _ _ keys _ => keys.length
  | other _ len _ => len

/-- The validity bit of a slot. A null array has no validity buffer, so none of its slots
counts as null. -/
def validAt : ArrowArray → Nat → Bool
  | null _, _ => true
  | boolean slots, idx => (slots[idx]?.map Slot.valid).getD false
  | primitive _ slots, idx => (slots[idx]?.map Slot.valid).getD false
  | intervalDayTime slots, idx => (slots[idx]?.map Slot.valid).getD false
  | intervalMonthDayNano slots, idx => (slots[idx]?.map Slot.valid).getD false
  | string _ slots, idx => (slots[idx]?.map Slot.valid).getD false
  | binary _ slots, idx => (slots[idx]?.map Slot.valid).getD false
  | list _ _ _ valid _, idx => valid idx
  | struct _ _ valid _, idx => valid idx
  | dictionary _ _ keys _, idx => (keys[idx]?.map Slot.valid).getD false
  | other _ _ valid, idx => valid idx

/-- `is_null`, which asserts that the index is inside. -/
def isNull (arr : ArrowArray) (idx : Nat) : Except Failure Bool :=
  if idx < arr.len then .ok (!arr.validAt idx) else .error .panic

theorem isNull_eq {arr : ArrowArray} {idx : Nat} (h : idx < arr.len) :
    arr.isNull idx = .ok !arr.validAt idx := if_pos h

/-! The downcasts, none where the array is of another type. -/

def asBoolean : ArrowArray → Option (List (Slot Bool))
  | boolean slots => some slots
  | _ => none

def asPrimitive (native : Primitive) : ArrowArray → Option (List (Slot Int))
  | primitive type slots => if type.native = native then some slots else none
  | _ => none

def asIntervalDayTime : ArrowArray → Option (List (Slot IntervalDayTime))
  | intervalDayTime slots => some slots
  | _ => none

def asIntervalMonthDayNano : ArrowArray → Option (List (Slot IntervalMonthDayNano))
  | intervalMonthDayNano slots => some slots
  | _ => none

def asString (kind : StringKind) : ArrowArray → Option (List (Slot String))
  | string kind' slots => if kind' = kind then some slots else none
  | _ => none

def asBinary (kind : BinaryKind) : ArrowArray → Option (List (Slot (List UInt8)))
  | binary kind' slots => if kind' = kind then some slots else none
  | _ => none

theorem asPrimitive_self (type : PrimitiveType) (slots : List (Slot Int)) :
    (primitive type slots).asPrimitive type.native = some slots := if_pos rfl

theorem asString_self (kind : StringKind) (slots : List (Slot String)) :
    (string kind slots).asString kind = some slots := if_pos rfl

theorem asBinary_self (kind : BinaryKind) (slots : List (Slot (List UInt8))) :
    (binary kind slots).asBinary kind = some slots := if_pos rfl

/-- `value(idx)` of a downcast array. -/
def valueAt {α : Type} (slots : List (Slot α)) (idx : Nat) : Except Failure α := do
  let slot ← unwrap slots[idx]?
  return slot.value

theorem valueAt_of_getElem? {α : Type} {slots : List (Slot α)} {idx : Nat} {slot : Slot α}
    (h : slots[idx]? = some slot) : valueAt slots idx = .ok slot.value := by
  unfold valueAt
  rw [h]
  rfl

/-- The key types that a dictionary is looked up with. -/
def isKeyType : DataType → Bool
  | .int8 | .int16 | .int32 | .int64 | .uint8 | .uint16 | .uint32 | .uint64 => true
  | _ => false

/-- What Arrow guarantees of its arrays: children of the declared types, columns as long as
their struct, integer keys that point into the dictionary. -/
def Valid : ArrowArray → Prop
  | list _ field len valid value =>
    ∀ i < len, valid i = true → (value i).dataType = field.dataType ∧ (value i).Valid
  | struct fields len _ columns =>
    ∀ i field, fields[i]? = some field →
      (columns i).dataType = field.dataType ∧ (columns i).len = len ∧ (columns i).Valid
  | dictionary keyType valueType keys values =>
    isKeyType keyType = true ∧ values.dataType = valueType ∧ values.Valid ∧
      ∀ key ∈ keys, key.valid = true →
        0 ≤ key.value ∧ key.value < 2 ^ 64 ∧ key.value.toNat < values.len
  | _ => True

end ArrowArray
end DatafusionPostgres.ArrowPg

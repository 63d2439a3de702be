import DatafusionPostgres.ArrowPg.FieldValue
import DatafusionPostgres.ArrowPg.ArrowArray
import DatafusionPostgres.ArrowPg.TypeMapping

/-! `arrow-pg/src/struct_encoder.rs`: composite values. The encoding of a column is a
parameter, since it comes back to these functions. -/
namespace DatafusionPostgres.ArrowPg

structure StructEncoder where
  numCols : Nat
  currCol : Nat
  rowBuffer : List UInt8

def StructEncoder.new (numCols : Nat) : StructEncoder := ⟨numCols, 0, []⟩

/-- Four bytes, the highest first. -/
def putU32 (n : UInt32) : List UInt8 :=
  [(n >>> 24).toUInt8, (n >>> 16).toUInt8, (n >>> 8).toUInt8, n.toUInt8]

/-- A column in the text format, with its parenthesis or comma. -/
def StructEncoder.putText (libs : EncodeLibraries) (enc : StructEncoder) (buf : List UInt8) :
    List UInt8 :=
  let opening := if enc.currCol = 0 then [40] else []
  let value := if libs.quoteCheck buf then 34 :: libs.quoteEscape buf ++ [34] else buf
  let closing := if enc.currCol + 1 = enc.numCols then [41] else [44]
  enc.rowBuffer ++ opening ++ value ++ closing

def putI32 (n : Int32) : List UInt8 := putU32 n.toUInt32

/-- The bytes from a position on, written over. -/
def writeAt (buffer : List UInt8) (pos : Nat) (bytes : List UInt8) : List UInt8 :=
  buffer.take pos ++ bytes ++ buffer.drop (pos + bytes.length)

/-- A column in the binary format: its OID, its length and its bytes. -/
def StructEncoder.putBinary (enc : StructEncoder) (datatype : PgType) (cell : Cell) : List UInt8 :=
  let rowBuffer :=
    if enc.currCol = 0 then enc.rowBuffer ++ putI32 (.ofNat enc.numCols) else enc.rowBuffer
  let rowBuffer := rowBuffer ++ putU32 datatype.typeOid
  let prevIndex := rowBuffer.length
  let rowBuffer := rowBuffer ++ putI32 (-1)
  match cell with
  | none => rowBuffer
  | some bytes =>
    let rowBuffer := rowBuffer ++ bytes
    let valueLength := rowBuffer.length - prevIndex - 4
    writeAt rowBuffer prevIndex (putI32 (.ofNat valueLength))

def structEncoder (libs : EncodeLibraries) : Encoder StructEncoder where
  encodeField value pgField := fun enc =>
    match fieldCell libs value pgField with
    | .error failure => .error failure enc
    | .ok cell =>
      let rowBuffer := match pgField.format with
        | .text => enc.putText libs (cell.getD [])
        | .binary => enc.putBinary pgField.datatype cell
      .ok () { enc with currCol := enc.currCol + 1, rowBuffer }

/-- Encodes one column at a row, under the declared field and as a wire field. -/
abbrev ColumnEncoder := Nat → Nat → Field → FieldInfo → EStateM Failure StructEncoder Unit

/-- The Postgres types of the fields. -/
def structFields (arrowFields : List Field) : PgWireResult (List PgField) :=
  arrowFields.mapM fun f => do
    let type ← fieldIntoPgType f
    return ⟨f.name, type⟩

/-- One turn of the loop over the columns; its `unwrap` turns any failure into a panic. -/
def structColumn (encodeColumn : ColumnEncoder) (row : Nat) (arrowFields : List Field)
    (fields : List PgField) (parent : FieldInfo) (rowEncoder : StructEncoder) (i : Nat) :
    Except Failure StructEncoder := do
  let field ← unwrap fields[i]?
  let arrowField ← unwrap arrowFields[i]?
  let pgField : FieldInfo := ⟨field.name, field.type, parent.format, parent.formatOptions⟩
  match encodeColumn i row arrowField pgField rowEncoder with
  | .ok _ rowEncoder => return rowEncoder
  | .error _ _ => .error .panic

section Column
variable {encodeColumn : ColumnEncoder} {row i : Nat} {arrowFields : List Field}
  {fields : List PgField} {parent : FieldInfo} {enc enc' : StructEncoder} {f : Field}
  {field : PgField}

theorem structColumn_of_ok (hfield : fields[i]? = some field) (hf : arrowFields[i]? = some f)
    (h : encodeColumn i row f ⟨field.name, field.type, parent.format, parent.formatOptions⟩ enc =
      .ok () enc') :
    structColumn encodeColumn row arrowFields fields parent enc i = .ok enc' := by
  unfold structColumn
  rw [hfield, hf]
  simp only [unwrap, bind, Except.bind, h]
  rfl

theorem structColumn_of_error (hfield : fields[i]? = some field) (hf : arrowFields[i]? = some f)
    {failure : Failure}
    (h : encodeColumn i row f ⟨field.name, field.type, parent.format, parent.formatOptions⟩ enc =
      .error failure enc') :
    structColumn encodeColumn row arrowFields fields parent enc i = .error .panic := by
  unfold structColumn
  rw [hfield, hf]
  simp only [unwrap, bind, Except.bind, h]

end Column

/-- The bytes of one row. -/
def structRow (encodeColumn : ColumnEncoder) (numColumns row : Nat) (arrowFields : List Field)
    (fields : List PgField) (parent : FieldInfo) : Except Failure (List UInt8) := do
  let rowEncoder ← (List.range numColumns).foldlM
    (structColumn encodeColumn row arrowFields fields parent) (.new arrowFields.length)
  return rowEncoder.rowBuffer

/-- `encode_structs`, for the struct array of a list. -/
def structsValue (encodeColumn : ColumnEncoder) (numColumns len : Nat) (valid : Nat → Bool)
    (arrowFields : List Field) (parent : FieldInfo) : Except Failure FieldValue := do
  let fields ← (structFields arrowFields).mapError Failure.err
  let values ← (List.range len).mapM fun row =>
    if valid row then do
      let bytes ← structRow encodeColumn numColumns row arrowFields fields parent
      return some (Native.wrapper bytes (parent.format == .text))
    else return none
  return .list values

/-- `encode_struct`, at one row of a struct array. -/
def structValue (encodeColumn : ColumnEncoder) (numColumns idx : Nat) (valid : Nat → Bool)
    (arrowFields : List Field) (parent : FieldInfo) : Except Failure FieldValue := do
  if !valid idx then return .scalar none
  else
    let fields ← (structFields arrowFields).mapError Failure.err
    let bytes ← structRow encodeColumn numColumns idx arrowFields fields parent
    return .scalar (some (.wrapper bytes false))

end DatafusionPostgres.ArrowPg

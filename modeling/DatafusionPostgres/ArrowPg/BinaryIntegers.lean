import DatafusionPostgres.ArrowPg.CompositeBinary
import DatafusionPostgres.ArrowPg.RowShape
import DatafusionPostgres.ArrowPg.TemporalValues

/-! Integers in the binary format: as columns, as elements of lists and as fields of structs. -/
namespace DatafusionPostgres.ArrowPg
open Library

/-- The integer types of Arrow, without UInt64, which is sent as NUMERIC. -/
inductive IntegerType where
  | int8 | int16 | int32 | int64 | uint8 | uint16 | uint32
  deriving DecidableEq, Repr

namespace IntegerType

def dataType : IntegerType → DataType
  | .int8 => .int8 | .int16 => .int16 | .int32 => .int32 | .int64 => .int64
  | .uint8 => .uint8 | .uint16 => .uint16 | .uint32 => .uint32

/-- The values are those from `lowest` on, below `bound`. -/
def lowest : IntegerType → Int
  | .int8 => -2 ^ 7 | .int16 => -2 ^ 15 | .int32 => -2 ^ 31 | .int64 => -2 ^ 63
  | .uint8 | .uint16 | .uint32 => 0

def bound : IntegerType → Int
  | .int8 => 2 ^ 7 | .int16 => 2 ^ 15 | .int32 => 2 ^ 31 | .int64 => 2 ^ 63
  | .uint8 => 2 ^ 8 | .uint16 => 2 ^ 16 | .uint32 => 2 ^ 32

/-- The bytes of the Rust integer that a value is sent as. -/
def sentWidth : IntegerType → Nat
  | .int8 => 1
  | .int16 | .uint8 => 2
  | .int32 | .uint16 => 4
  | .int64 | .uint32 => 8

/-- The Rust integer itself. -/
def native (type : IntegerType) (n : Int) : Native :=
  match type with
  | .int8 => .i8 (.ofInt n)
  | .int16 | .uint8 => .i16 (.ofInt n)
  | .int32 | .uint16 => .i32 (.ofInt n)
  | .int64 | .uint32 => .i64 (.ofInt n)

end IntegerType

/-- The width of the integer types of Postgres. -/
def PgType.width : PgType → Option Nat
  | .int2 => some 2
  | .int4 => some 4
  | .int8 => some 8
  | _ => none

/-- The array has the value of the integer type in the slot. -/
def Holds (arr : ArrowArray) (type : IntegerType) (idx : Nat) (n : Int) : Prop :=
  ∃ primitive slots, arr = .primitive primitive slots ∧ primitive.dataType = type.dataType ∧
    slots[idx]? = some ⟨true, n⟩ ∧ type.lowest ≤ n ∧ n < type.bound

/-- The layout of `array_recv`: a dimension, a NULL flag, the OID of the elements, their
number and their lower bound, and the elements. -/
def readArray : Reader UInt8 (UInt32 × List Cell) := do
  let _ ← Reader.i32
  let _ ← Reader.i32
  let oid ← Reader.u32
  let count ← Reader.i32
  let _ ← Reader.i32
  if count < 0 then failure
  else Prod.mk oid <$> readElement.times count.toNatClampNeg
where
  readElement : Reader UInt8 Cell := do
    let length ← Reader.i32
    if length = -1 then return none
    else if length < 0 then failure
    else some <$> Reader.take length.toNatClampNeg

/-- What is relied on of the binary encoders: a Rust integer is its bytes, the highest first,
and a vector is an array of the member type, with each of its elements encoded as such. -/
structure EncodeLibraries.WritesIntegers (libs : EncodeLibraries) : Prop where
  i8 : ∀ value type options,
    libs.toSql .binary (.scalar (some (.i8 value))) type options =
      .ok (some (twosComplement 1 value.toInt))
  i16 : ∀ value type options,
    libs.toSql .binary (.scalar (some (.i16 value))) type options =
      .ok (some (twosComplement 2 value.toInt))
  i32 : ∀ value type options,
    libs.toSql .binary (.scalar (some (.i32 value))) type options =
      .ok (some (twosComplement 4 value.toInt))
  i64 : ∀ value type options,
    libs.toSql .binary (.scalar (some (.i64 value))) type options =
      .ok (some (twosComplement 8 value.toInt))
  list : ∀ values type options cell,
    libs.toSql .binary (.list values) type options = .ok cell →
      ∃ member bytes cells, type.kind = .array member ∧ cell = some bytes ∧
        readArray.whole bytes = some (member.typeOid, cells) ∧
        List.Forall₂ (fun value cell =>
          libs.toSql .binary (.scalar value) member options = .ok cell) values cells

/-- Where a value or a list is sent to: a column of a row, or a field of a struct, which may
be nested in other structs and lists. -/
inductive Target where
  | column | field
  deriving DecidableEq, Repr

/-- The program for a field sends the bytes. -/
def SendsBytes (libs : EncodeLibraries) (pgField : FieldInfo)
    (prog : (σ : Type) → Encoder σ → EStateM Failure σ Unit) (bytes : List UInt8) : Target → Prop
  | .column => ∃ row : DataRowEncoder,
      prog _ (dataRowEncoder libs) row = .ok () ⟨row.cells ++ [some bytes]⟩
  | .field => ∃ enc enc' : StructEncoder, prog _ (structEncoder libs) enc = .ok () enc' ∧
      enc'.rowBuffer = enc.putBinary pgField.datatype (some bytes)

/-- The positions that a value occurs in: it is sent itself, or in a list. -/
inductive Position where
  | value (target : Target)
  | element (target : Target)
  deriving DecidableEq, Repr

/-- Encoding succeeds, and the bytes are those of the slot of the array; the type is the one
that is advertised for the position. -/
inductive Writes (libs : EncodeLibraries) :
    Position → ArrowArray → Nat → PgType → List UInt8 → Prop
  | value {target : Target} {arr : ArrowArray} {idx : Nat} {arrowField : Field}
      {pgField : FieldInfo} {bytes : List UInt8} (harrow : arrowField.dataType = arr.dataType)
      (htype : intoPgType arr.dataType = .ok pgField.datatype) (hformat : pgField.format = .binary)
      (hsends : SendsBytes libs pgField
        (fun _ encoder => encodeValue libs arr encoder idx arrowField pgField) bytes target) :
      Writes libs (.value target) arr idx pgField.datatype bytes
  | element {target : Target} {arr : ArrowArray} {idx : Nat} {kind : ListKind} {field : Field}
      {pgField : FieldInfo} {member : PgType} {oid : UInt32} {array bytes : List UInt8}
      {cells : List Cell} (harrow : field.dataType = arr.dataType)
      (htype : intoPgType (kind.dataType field) = .ok pgField.datatype)
      (hmember : pgField.datatype.kind = .array member) (hformat : pgField.format = .binary)
      (hsends : SendsBytes libs pgField (fun _ encoder => encodeList libs arr encoder pgField)
        array target)
      (hread : readArray.whole array = some (oid, cells)) (hcell : cells[idx]? = some (some bytes)) :
      Writes libs (.element target) arr idx member bytes

/-- The bytes are those of the value in the integer type. -/
def MatchesType (type : PgType) (bytes : List UInt8) (n : Int) : Prop :=
  type.width = some bytes.length ∧ twosComplementValue bytes = n

section Calls
variable {libs : EncodeLibraries} {pgField : FieldInfo}
  {prog : (σ : Type) → Encoder σ → EStateM Failure σ Unit}

private theorem cellBytes_injective {oid : UInt32} {cell : Cell} {bytes : List UInt8}
    (h : cellBytes (oid, cell) = cellBytes (oid, some bytes)) : cell = some bytes := by
  have htail := List.append_cancel_left h
  cases cell with
  | none =>
    have hlength := congrArg List.length htail
    change 4 = (putI32 _ ++ bytes).length at hlength
    rw [List.length_append] at hlength
    have hnil : bytes = [] := List.length_eq_zero_iff.mp (by change 4 = 4 + _ at hlength; omega)
    rw [hnil] at htail
    change putI32 (-1) = putI32 (.ofNat 0) ++ [] at htail
    exact absurd htail (by decide)
  | some payload =>
    have hlength := congrArg List.length htail
    dsimp only at hlength
    rw [List.length_append, List.length_append] at hlength
    exact congrArg some (List.append_inj_right' htail (Nat.add_left_cancel hlength))

private theorem cell_of_sends {value : FieldValue} (hformat : pgField.format = .binary)
    (hprog : ∀ (σ : Type) (encoder : Encoder σ), prog σ encoder = encoder.encodeField value pgField)
    {bytes : List UInt8} {target : Target} (h : SendsBytes libs pgField prog bytes target) :
    fieldCell libs value pgField = .ok (some bytes) := by
  cases target with
  | column =>
    obtain ⟨row, hrun⟩ := h
    rw [hprog] at hrun
    unfold dataRowEncoder at hrun
    dsimp only at hrun
    split at hrun
    · rename_i cell hcell
      injection hrun with _ hrow
      injection hrow with hcells
      rw [hcell, List.singleton_inj.mp (List.append_cancel_left hcells)]
    · cases hrun
  | field =>
    obtain ⟨enc, enc', hrun, hbuffer⟩ := h
    rw [hprog] at hrun
    unfold structEncoder at hrun
    dsimp only at hrun
    split at hrun
    · cases hrun
    · rename_i cell hcell
      rw [hformat] at hrun
      cases hrun
      rw [putBinary_eq, putBinary_eq] at hbuffer
      rw [hcell, cellBytes_injective (List.append_cancel_left hbuffer)]

end Calls

section Integers
variable {libs : EncodeLibraries} {arr : ArrowArray} {type : IntegerType} {idx : Nat} {n : Int}
  {pgField : FieldInfo}

private theorem encodeValue_integer (h : Holds arr type idx n) {arrowField : Field}
    (harrow : arrowField.dataType = arr.dataType) (σ : Type) (encoder : Encoder σ) :
    encodeValue libs arr encoder idx arrowField pgField =
      encoder.encodeField (.scalar (some (type.native n))) pgField := by
  obtain ⟨⟨dataType, native, hnative⟩, slots, rfl, htype, hslot, -⟩ := h
  change dataType = type.dataType at htype
  change arrowField.dataType = dataType at harrow
  subst htype
  have harm : scalarValue libs (.primitive ⟨type.dataType, native, hnative⟩ slots) idx
      type.dataType = .ok (some (.scalar (some (type.native n)))) := by
    cases type <;> cases hnative <;> exact scalarArm_read hslot rfl _
  have hscalar : isScalarType arrowField.dataType = true := by
    rw [harrow]
    cases type <;> rfl
  rw [encodeValue_scalar hscalar, harrow, harm]
  rfl

private theorem encodeList_integer (h : Holds arr type idx n) :
    ∃ values : List (Option Native), values[idx]? = some (some (type.native n)) ∧
      ∀ (σ : Type) (encoder : Encoder σ),
        encodeList libs arr encoder pgField = encoder.encodeField (.list values) pgField := by
  obtain ⟨⟨dataType, native, hnative⟩, slots, rfl, htype, hslot, -⟩ := h
  change dataType = type.dataType at htype
  subst htype
  refine ⟨slots.map fun slot => slot.get.bind fun v => some (type.native v), ?_, fun σ encoder => ?_⟩
  · rw [List.getElem?_map, hslot]
    rfl
  · have harm : listValue libs (.primitive ⟨type.dataType, native, hnative⟩ slots) =
        .ok (.list (slots.map fun slot => slot.get.bind fun v => some (type.native v))) := by
      cases type <;> cases hnative <;> rfl
    change encodeWith encoder pgField (listValue libs _) = _
    rw [harm]
    rfl

private theorem fieldCell_integer (type : IntegerType) (n : Int) (pgField : FieldInfo) :
    fieldCell libs (.scalar (some (type.native n))) pgField =
      libs.toSql pgField.format (.scalar (some (type.native n))) pgField.datatype
        pgField.formatOptions := by
  cases type <;> rfl

private theorem toSql_integer (hlibs : libs.WritesIntegers) (h : Holds arr type idx n)
    (pgType : PgType) (options : FormatOptions) :
    libs.toSql .binary (.scalar (some (type.native n))) pgType options =
      .ok (some (twosComplement type.sentWidth n)) := by
  obtain ⟨-, -, -, -, -, hlow, hhigh⟩ := h
  cases type <;> simp only [IntegerType.lowest, IntegerType.bound] at hlow hhigh
  case int8 =>
    refine (hlibs.i8 _ _ _).trans ?_
    rw [Int8.toInt_ofInt_of_le hlow hhigh]
    rfl
  case int16 =>
    refine (hlibs.i16 _ _ _).trans ?_
    rw [Int16.toInt_ofInt_of_le hlow hhigh]
    rfl
  case int32 =>
    refine (hlibs.i32 _ _ _).trans ?_
    rw [Int32.toInt_ofInt_of_le hlow hhigh]
    rfl
  case int64 =>
    refine (hlibs.i64 _ _ _).trans ?_
    rw [Int64.toInt_ofInt_of_le hlow hhigh]
    rfl
  case uint8 =>
    refine (hlibs.i16 _ _ _).trans ?_
    rw [Int16.toInt_ofInt_of_le (by omega) (by omega)]
    rfl
  case uint16 =>
    refine (hlibs.i32 _ _ _).trans ?_
    rw [Int32.toInt_ofInt_of_le (by omega) (by omega)]
    rfl
  case uint32 =>
    refine (hlibs.i64 _ _ _).trans ?_
    rw [Int64.toInt_ofInt_of_le (by omega) (by omega)]
    rfl

private theorem bytes_of_writes (hlibs : libs.WritesIntegers) (h : Holds arr type idx n)
    {position : Position} {pgType : PgType} {bytes : List UInt8}
    (hwrites : Writes libs position arr idx pgType bytes) :
    bytes = twosComplement type.sentWidth n := by
  cases hwrites with
  | value harrow htype hformat hsends =>
    have hcell := cell_of_sends hformat (encodeValue_integer h harrow) hsends
    rw [fieldCell_integer, hformat, toSql_integer hlibs h] at hcell
    cases hcell
    rfl
  | element harrow htype hmember hformat hsends hread hcell =>
    obtain ⟨values, hvalue, hlist⟩ := @encodeList_integer libs _ _ _ _ _ h
    have hcells := cell_of_sends hformat hlist hsends
    change libs.toSql _ (.list values) _ _ = _ at hcells
    rw [hformat] at hcells
    obtain ⟨member', array', cells', -, harray, hread', hall⟩ := hlibs.list _ _ _ _ hcells
    cases harray
    cases hread.symm.trans hread'
    obtain ⟨hvalues, hvalue⟩ := List.getElem?_eq_some_iff.mp hvalue
    obtain ⟨hcells', hcell⟩ := List.getElem?_eq_some_iff.mp hcell
    have helement := hall.get hvalues hcells'
    rw [List.get_eq_getElem, List.get_eq_getElem, hvalue, hcell, toSql_integer hlibs h] at helement
    cases helement
    rfl

private theorem width_of_writes {position : Position} {pgType : PgType} {bytes : List UInt8}
    (h : Holds arr type idx n) (hwrites : Writes libs position arr idx pgType bytes) :
    pgType.width = some (if type = .int8 then 2 else type.sentWidth) := by
  obtain ⟨primitive, slots, rfl, hdataType, -⟩ := h
  cases hwrites with
  | @value _ _ _ _ pgField _ harrow htype hformat hsends =>
    change intoPgType primitive.dataType = _ at htype
    rw [hdataType] at htype
    generalize pgField.datatype = datatype at htype ⊢
    cases type <;> cases htype <;> rfl
  | @element _ _ _ kind field pgField _ _ _ _ _ harrow htype hmember hformat hsends hread hcell =>
    change field.dataType = primitive.dataType at harrow
    have hlist : listPgType type.dataType (fieldIntoPgType field) =
        .ok pgField.datatype := by
      rw [← hdataType, ← harrow, ← htype]
      cases kind <;> simp only [ListKind.dataType, intoPgType]
    generalize hdatatype : pgField.datatype = datatype at hlist hmember
    cases type <;> cases hlist <;> cases hmember <;> rfl

/-- An integer that is written has the width and the value of its advertised type exactly
when its Arrow type is not Int8: an Int8 is written as one byte and advertised as INT2. -/
theorem integer_matches_iff (hlibs : libs.WritesIntegers) (h : Holds arr type idx n)
    {position : Position} {pgType : PgType} {bytes : List UInt8}
    (hwrites : Writes libs position arr idx pgType bytes) :
    MatchesType pgType bytes n ↔ type ≠ .int8 := by
  have hwidth := width_of_writes h hwrites
  have hbytes := bytes_of_writes hlibs h hwrites
  obtain ⟨-, -, -, -, -, hlow, hhigh⟩ := h
  rw [MatchesType, hwidth, hbytes, twosComplement_length]
  constructor
  · rintro ⟨hsame, -⟩ rfl
    cases hsame
  · intro hne
    refine ⟨by rw [if_neg hne], twosComplementValue_twosComplement ?_ ?_⟩
    all_goals
      cases type <;> simp only [IntegerType.lowest, IntegerType.bound] at hlow hhigh <;>
        simp only [IntegerType.sentWidth] <;> omega

end Integers

section Examples

/-- The layout that `readArray` reads. -/
def arrayBytes (member : PgType) (cells : List Cell) : List UInt8 :=
  putI32 1 ++ (putI32 (if none ∈ cells then 1 else 0) ++ (putU32 member.typeOid ++
    (putI32 (.ofNat cells.length) ++ (putI32 1 ++ (cells.map sizedBytes).flatten))))

/-- The number of the elements and their lengths are an `i32`. -/
def FitsArray (cells : List Cell) : Prop :=
  cells.length < 2 ^ 31 ∧ ∀ cell ∈ cells, (cell.getD []).length < 2 ^ 31

instance (cells : List Cell) : Decidable (FitsArray cells) := instDecidableAnd

private theorem reads_element {cell : Cell} (hfits : (cell.getD []).length < 2 ^ 31) :
    readArray.readElement.Reads (sizedBytes cell) cell := reads_sized id hfits

theorem readArray_arrayBytes (member : PgType) {cells : List Cell} (hfits : FitsArray cells) :
    readArray.whole (arrayBytes member cells) = some (member.typeOid, cells) := by
  obtain ⟨hlength, hpayloads⟩ := hfits
  obtain ⟨hnonneg, hcount⟩ := ofNat_count hlength
  have hchunks : List.Forall₂ readArray.readElement.Reads (cells.map sizedBytes) cells := by
    rw [List.forall₂_map_left_iff, List.forall₂_same]
    exact fun cell hcell => reads_element (hpayloads cell hcell)
  have hread : readArray.Reads (arrayBytes member cells) (member.typeOid, cells) := by
    refine Reader.Reads.bind (reads_i32 _) (Reader.Reads.bind (reads_i32 _)
      (Reader.Reads.bind (reads_u32 _) (Reader.Reads.bind (reads_i32 _)
        (Reader.Reads.bind (reads_i32 _) ?_))))
    rw [if_neg hnonneg, hcount]
    exact (Reader.reads_times hchunks).map _
  exact hread.whole

/-- The reference library with the binary format of integers and of their arrays. -/
def binaryScalar : Option Native → Except Failure Cell
  | none => .ok none
  | some (.i8 value) => .ok (some (twosComplement 1 value.toInt))
  | some (.i16 value) => .ok (some (twosComplement 2 value.toInt))
  | some (.i32 value) => .ok (some (twosComplement 4 value.toInt))
  | some (.i64 value) => .ok (some (twosComplement 8 value.toInt))
  | some _ => .error .panic

def binaryList (values : List (Option Native)) (type : PgType) : Except Failure Cell :=
  match type.kind, values.mapM binaryScalar with
  | .array member, .ok cells =>
    if FitsArray cells then .ok (some (arrayBytes member cells)) else .error .panic
  | _, _ => .error .panic

def binaryEncoding : EncodeLibraries :=
  { referenceEncoding with
    toSql := fun format value type options =>
      match format, value with
      | .binary, .scalar value => binaryScalar value
      | .binary, .list values => binaryList values type
      | .text, value => referenceEncoding.toSql .text value type options }

theorem binaryEncoding_writesIntegers : binaryEncoding.WritesIntegers where
  i8 _ _ _ := rfl
  i16 _ _ _ := rfl
  i32 _ _ _ := rfl
  i64 _ _ _ := rfl
  list := by
    intro values type options cell h
    change binaryList values type = _ at h
    unfold binaryList at h
    split at h
    · rename_i member cells hkind hcells
      split at h
      · rename_i hfits
        cases h
        exact ⟨member, _, cells, hkind, rfl, readArray_arrayBytes member hfits,
          mapM_eq_ok.mp hcells⟩
      · cases h
    · cases h

/-- A list with one UInt8 in it. -/
def countArray : ArrowArray := .primitive ⟨.uint8, .uint8, rfl⟩ [⟨true, 200⟩]

def countsInfo : FieldInfo := ⟨"counts", .int2Array, .binary, ⟨"ISO, MDY", "postgres", "hex", 1⟩⟩

theorem countArray_matches :
    Writes binaryEncoding (.element .column) countArray 0 .int2 [0, 200] ∧
      MatchesType .int2 [0, 200] 200 := by
  have hholds : Holds countArray .uint8 0 200 := ⟨_, _, rfl, rfl, rfl, by decide, by decide⟩
  have htype : intoPgType (ListKind.list.dataType (.new "item" .uint8 true)) =
      .ok countsInfo.datatype := by
    simp only [ListKind.dataType, intoPgType]
    rfl
  have hsends : SendsBytes binaryEncoding countsInfo
      (fun _ encoder => encodeList binaryEncoding countArray encoder countsInfo)
      (arrayBytes .int2 [some [0, 200]]) .column := ⟨⟨[]⟩, rfl⟩
  have hwrites : Writes binaryEncoding (.element .column) countArray 0 .int2 [0, 200] :=
    .element rfl htype rfl rfl hsends (readArray_arrayBytes .int2 (by decide)) rfl
  exact ⟨hwrites, (integer_matches_iff binaryEncoding_writesIntegers hholds hwrites).mpr (by decide)⟩

def flagArray : ArrowArray := .primitive ⟨.int8, .int8, rfl⟩ [⟨true, 5⟩]

def flagInfo : FieldInfo := ⟨"flag", .int2, .binary, ⟨"ISO, MDY", "postgres", "hex", 1⟩⟩

/-- An Int8 column is advertised as INT2 and sent as one byte. -/
theorem flagArray_not_matches :
    ¬ ∀ (libs : EncodeLibraries), libs.WritesIntegers → ∀ (arr : ArrowArray) (type : IntegerType)
      (idx : Nat) (n : Int) (position : Position) (pgType : PgType) (bytes : List UInt8),
      Holds arr type idx n → Writes libs position arr idx pgType bytes →
        MatchesType pgType bytes n := by
  intro h
  have hholds : Holds flagArray .int8 0 5 := ⟨_, _, rfl, rfl, rfl, by decide, by decide⟩
  have hsends : SendsBytes binaryEncoding flagInfo
      (fun _ encoder => encodeValue binaryEncoding flagArray encoder 0 (.new "flag" .int8 true)
        flagInfo) [5] .column := by
    refine ⟨⟨[]⟩, ?_⟩
    dsimp only
    rw [encodeValue_scalar rfl]
    rfl
  have hwrites : Writes binaryEncoding (.value .column) flagArray 0 .int2 [5] :=
    .value rfl (by simp only [flagArray, ArrowArray.dataType, intoPgType]; rfl) rfl hsends
  obtain ⟨hwidth, -⟩ := h _ binaryEncoding_writesIntegers _ _ _ _ _ _ _ hholds hwrites
  cases hwidth

end Examples
end DatafusionPostgres.ArrowPg

import DatafusionPostgres.ArrowPg.ReferenceEncoding
import DatafusionPostgres.ArrowPg.StructEncoder
import DatafusionPostgres.Library.ByteReader
import DatafusionPostgres.Library.StateProgram

/-! A composite value in the binary format is read back, with the composites in it. -/
namespace DatafusionPostgres.ArrowPg
open Library

/-- The calls of `encode_field` for the fields of one struct. -/
def encodeFields (libs : EncodeLibraries) :
    List (FieldValue × FieldInfo) → EStateM Failure StructEncoder Unit
  | [] => return ()
  | (value, pgField) :: fields => do
    (structEncoder libs).encodeField value pgField
    encodeFields libs fields

theorem encodeFields_cons {libs : EncodeLibraries} {field : FieldValue × FieldInfo}
    {enc enc' : StructEncoder}
    (h : (structEncoder libs).encodeField field.1 field.2 enc = .ok () enc')
    (fields : List (FieldValue × FieldInfo)) :
    encodeFields libs (field :: fields) enc = encodeFields libs fields enc' := by
  obtain ⟨value, pgField⟩ := field
  exact run_bind_ok h _

/-- One field in the layout of `record_send`: its OID, its length or -1, and its payload. -/
def readRecordField : Reader UInt8 (UInt32 × Cell) := do
  let oid ← Reader.u32
  let length ← Reader.i32
  if length = -1 then return (oid, none)
  else if length < 0 then failure
  else (fun payload => (oid, some payload)) <$> Reader.take length.toNatClampNeg

/-- The number of the fields, and the fields. -/
def readRecord : Reader UInt8 (List (UInt32 × Cell)) := do
  let count ← Reader.i32
  if count < 0 then failure
  else readRecordField.times count.toNatClampNeg

/-- A field of a composite value, and what is in it. -/
inductive RecordField where
  | null (oid : UInt32)
  | simple (oid : UInt32) (payload : List UInt8)
  | composite (oid : UInt32) (fields : List RecordField)

/-- Which fields are composites themselves, as the reader knows from their types. -/
inductive Layout where
  | simple
  | composite (fields : List Layout)

mutual
def decodeCell : Layout → UInt32 × Cell → Option RecordField
  | _, (oid, none) => some (.null oid)
  | .simple, (oid, some payload) => some (.simple oid payload)
  | .composite layouts, (oid, some payload) => do
    let cells ← readRecord.whole payload
    let fields ← decodeCells layouts cells
    return .composite oid fields

def decodeCells : List Layout → List (UInt32 × Cell) → Option (List RecordField)
  | [], [] => some []
  | layout :: layouts, cell :: cells => do
    let field ← decodeCell layout cell
    let fields ← decodeCells layouts cells
    return field :: fields
  | _, _ => none
end

/-- The OID and the bytes that a binary field has on the wire. -/
def SendsCell (libs : EncodeLibraries) (field : FieldValue × FieldInfo) (cell : UInt32 × Cell) :
    Prop :=
  field.2.format = .binary ∧ cell.1 = field.2.datatype.typeOid ∧
    fieldCell libs field.1 field.2 = .ok cell.2 ∧
    ∀ payload, cell.2 = some payload → payload.length < 2 ^ 31

mutual
/-- A field with a NULL, with a payload, or with the buffer of a nested encoder. -/
inductive Sends (libs : EncodeLibraries) : FieldValue × FieldInfo → Layout → RecordField → Prop
  | null {field : FieldValue × FieldInfo} (layout : Layout)
      (hcell : SendsCell libs field (field.2.datatype.typeOid, none)) :
      Sends libs field layout (.null field.2.datatype.typeOid)
  | simple {field : FieldValue × FieldInfo} {payload : List UInt8}
      (hcell : SendsCell libs field (field.2.datatype.typeOid, some payload)) :
      Sends libs field .simple (.simple field.2.datatype.typeOid payload)
  | composite {fields : List (FieldValue × FieldInfo)} {layouts : List Layout}
      {content : List RecordField} {enc : StructEncoder} {quote : Bool} {pgField : FieldInfo}
      (hfields : SendsAll libs fields layouts content) (hne : fields ≠ [])
      (hrun : encodeFields libs fields (.new fields.length) = .ok () enc)
      (hcell : SendsCell libs (.scalar (some (.wrapper enc.rowBuffer quote)), pgField)
        (pgField.datatype.typeOid, some enc.rowBuffer)) :
      Sends libs (.scalar (some (.wrapper enc.rowBuffer quote)), pgField) (.composite layouts)
        (.composite pgField.datatype.typeOid content)

inductive SendsAll (libs : EncodeLibraries) :
    List (FieldValue × FieldInfo) → List Layout → List RecordField → Prop
  | nil : SendsAll libs [] [] []
  | cons {field : FieldValue × FieldInfo} {layout : Layout} {content : RecordField}
      {fields : List (FieldValue × FieldInfo)} {layouts : List Layout}
      {contents : List RecordField} (hfield : Sends libs field layout content)
      (hfields : SendsAll libs fields layouts contents) :
      SendsAll libs (field :: fields) (layout :: layouts) (content :: contents)
end

/-- The bytes of one field. -/
def cellBytes (cell : UInt32 × Cell) : List UInt8 :=
  putU32 cell.1 ++ match cell.2 with
    | none => putI32 (-1)
    | some payload => putI32 (.ofNat payload.length) ++ payload

def recordBytes (cells : List (UInt32 × Cell)) : List UInt8 :=
  putI32 (.ofNat cells.length) ++ (cells.map cellBytes).flatten

section Writing

private theorem shifted_byte (n : UInt32) {k : Nat} (hk : k < 32) :
    (n >>> .ofNat k).toUInt8 = .ofNat (n.toNat / 2 ^ k) := by
  apply UInt8.toNat_inj.mp
  rw [UInt32.toNat_toUInt8, UInt32.toNat_shiftRight, UInt8.toNat_ofNat', Nat.shiftRight_eq_div_pow,
    UInt32.toNat_ofNat', Nat.mod_mod_of_dvd _ (by decide), Nat.mod_eq_of_lt hk]

theorem putU32_eq (n : UInt32) : putU32 n = bigEndian 4 n.toNat := by
  have h24 : (n >>> 24).toUInt8 = .ofNat (n.toNat / 16777216) := shifted_byte n (by decide)
  have h16 : (n >>> 16).toUInt8 = .ofNat (n.toNat / 65536) := shifted_byte n (by decide)
  have h8 : (n >>> 8).toUInt8 = .ofNat (n.toNat / 256) := shifted_byte n (by decide)
  have h0 : n.toUInt8 = .ofNat n.toNat := rfl
  simp only [putU32, bigEndian, h24, h16, h8, h0, Nat.div_div_eq_div_mul]
  rfl

private theorem putI32_length (n : Int32) : (putI32 n).length = 4 := rfl

/-- What is written over ends where the buffer ended before the value. -/
theorem writeAt_append {front back bytes patch : List UInt8} (h : patch.length = back.length) :
    writeAt (front ++ back ++ bytes) front.length patch = front ++ patch ++ bytes := by
  unfold writeAt
  have htake : (front ++ back ++ bytes).take front.length = front := by
    rw [List.append_assoc, List.take_left]
  have hdrop : (front ++ back ++ bytes).drop (front.length + patch.length) = bytes := by
    rw [h, ← List.length_append, List.drop_left]
  rw [htake, hdrop]

/-- The length that is patched in is that of the value. -/
theorem putBinary_eq (enc : StructEncoder) (datatype : PgType) (cell : Cell) :
    enc.putBinary datatype cell =
      enc.rowBuffer ++ (if enc.currCol = 0 then putI32 (.ofNat enc.numCols) else []) ++
        cellBytes (datatype.typeOid, cell) := by
  have hstart : (if enc.currCol = 0 then enc.rowBuffer ++ putI32 (.ofNat enc.numCols)
      else enc.rowBuffer) =
      enc.rowBuffer ++ (if enc.currCol = 0 then putI32 (.ofNat enc.numCols) else []) := by
    split
    · rfl
    · rw [List.append_nil]
  unfold StructEncoder.putBinary cellBytes
  rw [hstart]
  generalize enc.rowBuffer ++ (if enc.currCol = 0 then putI32 (.ofNat enc.numCols) else []) = start
  cases cell with
  | none => exact List.append_assoc _ _ _
  | some payload =>
    dsimp only
    have hlength : (start ++ putU32 datatype.typeOid ++ putI32 (-1) ++ payload).length -
        (start ++ putU32 datatype.typeOid).length - 4 = payload.length := by
      simp only [List.length_append, putI32_length]
      omega
    rw [hlength, writeAt_append (putI32_length _)]
    simp only [List.append_assoc]

private theorem encodeField_binary {libs : EncodeLibraries} {field : FieldValue × FieldInfo}
    {cell : UInt32 × Cell} (h : SendsCell libs field cell) (enc : StructEncoder) :
    (structEncoder libs).encodeField field.1 field.2 enc =
      .ok () ⟨enc.numCols, enc.currCol + 1,
        enc.rowBuffer ++ (if enc.currCol = 0 then putI32 (.ofNat enc.numCols) else []) ++
          cellBytes cell⟩ := by
  obtain ⟨hformat, hoid, hcell, -⟩ := h
  have hpair : cell = (field.2.datatype.typeOid, cell.2) := Prod.ext hoid rfl
  rw [hpair, ← putBinary_eq]
  unfold structEncoder
  simp only [hcell, hformat]

private theorem encodeFields_rest {libs : EncodeLibraries} {fields : List (FieldValue × FieldInfo)}
    {cells : List (UInt32 × Cell)} (h : List.Forall₂ (SendsCell libs) fields cells)
    (enc : StructEncoder) (hcol : enc.currCol ≠ 0) :
    encodeFields libs fields enc =
      .ok () ⟨enc.numCols, enc.currCol + fields.length,
        enc.rowBuffer ++ (cells.map cellBytes).flatten⟩ := by
  induction h generalizing enc with
  | nil =>
    rw [List.map_nil, List.flatten_nil, List.append_nil]
    rfl
  | @cons field cell fields cells hfield _ ih =>
    have hstep := encodeField_binary hfield enc
    rw [if_neg hcol, List.append_nil] at hstep
    rw [encodeFields_cons hstep]
    refine (ih _ (Nat.succ_ne_zero _)).trans ?_
    simp only [List.map_cons, List.flatten_cons, List.append_assoc, List.length_cons,
      Nat.add_assoc, Nat.add_comm 1]

/-- The buffer of a struct is the number of its fields and their bytes. -/
theorem encodeFields_binary {libs : EncodeLibraries} {fields : List (FieldValue × FieldInfo)}
    {cells : List (UInt32 × Cell)} (h : List.Forall₂ (SendsCell libs) fields cells)
    (hne : fields ≠ []) :
    encodeFields libs fields (.new fields.length) =
      .ok () ⟨fields.length, fields.length, recordBytes cells⟩ := by
  have hcount := h.length_eq
  cases h with
  | nil => exact absurd rfl hne
  | @cons field cell fields cells hfield hfields =>
    have hstep := encodeField_binary hfield (.new (field :: fields).length)
    rw [encodeFields_cons hstep]
    refine (encodeFields_rest hfields _ (Nat.succ_ne_zero _)).trans ?_
    simp only [recordBytes, ← hcount, StructEncoder.new, if_true, List.nil_append, List.map_cons,
      List.flatten_cons, List.append_assoc, List.length_cons, Nat.zero_add, Nat.add_comm 1]

/-- A record is at least as long as it has fields. -/
theorem recordBytes_length (cells : List (UInt32 × Cell)) :
    cells.length ≤ (recordBytes cells).length := by
  have hcells : cells.length ≤ (cells.map cellBytes).flatten.length := by
    induction cells with
    | nil => exact Nat.le_refl 0
    | cons cell cells ih =>
      have hcell : 4 ≤ (cellBytes cell).length := by
        rw [cellBytes, List.length_append]
        exact Nat.le_add_right 4 _
      simp only [List.map_cons, List.flatten_cons, List.length_append, List.length_cons]
      omega
  rw [recordBytes, List.length_append]
  omega

end Writing

section Reading

theorem reads_u32 (n : UInt32) : Reader.u32.Reads (putU32 n) n := by
  rw [putU32_eq]
  exact Reader.reads_u32 n

theorem reads_i32 (n : Int32) : Reader.i32.Reads (putI32 n) n := by
  rw [putI32, putU32_eq]
  exact Reader.reads_i32 n

theorem ofNat_count {n : Nat} (h : n < 2 ^ 31) :
    ¬ Int32.ofNat n < 0 ∧ (Int32.ofNat n).toNatClampNeg = n := by
  have hint : (Int32.ofNat n).toInt = n := Int32.toInt_ofNat_of_lt h
  constructor
  · rw [Int32.lt_iff_toInt_lt, hint]
    change ¬ (n : Int) < 0
    omega
  · rw [Int32.toNatClampNeg, hint, Int.toNat_natCast]

/-- A value behind its length, or -1 for NULL. -/
def sizedBytes : Cell → List UInt8
  | none => putI32 (-1)
  | some payload => putI32 (.ofNat payload.length) ++ payload

theorem reads_sized {α : Type} (value : Cell → α) {cell : Cell}
    (hfits : (cell.getD []).length < 2 ^ 31) :
    Reader.Reads (do
      let length ← Reader.i32
      if length = -1 then return value none
      else if length < 0 then failure
      else (fun payload => value (some payload)) <$> Reader.take length.toNatClampNeg)
      (sizedBytes cell) (value cell) := by
  cases cell with
  | none =>
    rw [sizedBytes, ← List.append_nil (putI32 (-1))]
    refine Reader.Reads.bind (reads_i32 (-1)) ?_
    exact Reader.reads_pure _
  | some payload =>
    rw [Option.getD_some] at hfits
    obtain ⟨hnonneg, hcount⟩ := ofNat_count hfits
    refine Reader.Reads.bind (reads_i32 (.ofNat payload.length)) ?_
    have hne : Int32.ofNat payload.length ≠ -1 := by
      intro heq
      rw [heq] at hnonneg
      exact hnonneg (by decide)
    rw [if_neg hne, if_neg hnonneg, hcount]
    exact (Reader.reads_take payload).map _

theorem reads_cell {cell : UInt32 × Cell}
    (hfits : ∀ payload, cell.2 = some payload → payload.length < 2 ^ 31) :
    readRecordField.Reads (cellBytes cell) cell := by
  obtain ⟨oid, payload⟩ := cell
  have hsized : (payload.getD []).length < 2 ^ 31 := by
    cases payload with
    | none => decide
    | some payload => exact hfits payload rfl
  have hbytes : cellBytes (oid, payload) = putU32 oid ++ sizedBytes payload := by
    cases payload <;> rfl
  rw [hbytes]
  exact Reader.Reads.bind (reads_u32 oid) (reads_sized (Prod.mk oid) hsized)

/-- A record of fields that are sent is read to its end. -/
theorem readRecord_recordBytes {libs : EncodeLibraries} {fields : List (FieldValue × FieldInfo)}
    {cells : List (UInt32 × Cell)} (h : List.Forall₂ (SendsCell libs) fields cells)
    (hcount : cells.length < 2 ^ 31) : readRecord.whole (recordBytes cells) = some cells := by
  have hchunks : List.Forall₂ readRecordField.Reads (cells.map cellBytes) cells := by
    clear hcount
    induction h with
    | nil => exact .nil
    | cons hcell _ ih => exact .cons (reads_cell hcell.2.2.2) ih
  obtain ⟨hnonneg, hlength⟩ := ofNat_count hcount
  have hread : readRecord.Reads (recordBytes cells) cells := by
    refine Reader.Reads.bind (reads_i32 (.ofNat cells.length)) ?_
    rw [if_neg hnonneg, hlength]
    exact Reader.reads_times hchunks
  exact hread.whole

end Reading

section RoundTrip
variable {libs : EncodeLibraries}

mutual
/-- The cell of a field decodes to what the field is. -/
theorem Sends.decodeCell {field : FieldValue × FieldInfo} {layout : Layout} {content : RecordField}
    (h : Sends libs field layout content) :
    ∃ cell, SendsCell libs field cell ∧ decodeCell layout cell = some content := by
  cases h with
  | null layout hcell =>
    refine ⟨_, hcell, ?_⟩
    cases layout <;> rfl
  | simple hcell => exact ⟨_, hcell, rfl⟩
  | composite hfields hne hrun hcell =>
    obtain ⟨cells, hcells, hdecode⟩ := hfields.decodeCells
    have hbytes := encodeFields_binary hcells hne
    rw [hrun] at hbytes
    cases hbytes
    refine ⟨_, hcell, ?_⟩
    have hcount : cells.length < 2 ^ 31 :=
      Nat.lt_of_le_of_lt (recordBytes_length cells) (hcell.2.2.2 _ rfl)
    simp only [ArrowPg.decodeCell, readRecord_recordBytes hcells hcount, Option.bind_eq_bind,
      Option.bind_some, hdecode]
    rfl

theorem SendsAll.decodeCells {fields : List (FieldValue × FieldInfo)} {layouts : List Layout}
    {contents : List RecordField} (h : SendsAll libs fields layouts contents) :
    ∃ cells, List.Forall₂ (SendsCell libs) fields cells ∧
      decodeCells layouts cells = some contents := by
  cases h with
  | nil => exact ⟨[], .nil, rfl⟩
  | cons hfield hfields =>
    obtain ⟨cell, hcell, hdecode⟩ := hfield.decodeCell
    obtain ⟨cells, hcells, hdecodes⟩ := hfields.decodeCells
    refine ⟨cell :: cells, .cons hcell hcells, ?_⟩
    simp only [ArrowPg.decodeCells, hdecode, hdecodes, Option.bind_eq_bind, Option.bind_some]
    rfl
end

/-- A struct of fewer than 2 ^ 31 fields is read back: the cells of its fields, none left
over, and from these its fields and all that is in them. -/
theorem record_roundTrip {fields : List (FieldValue × FieldInfo)} {layouts : List Layout}
    {contents : List RecordField} (h : SendsAll libs fields layouts contents)
    (hcount : 1 ≤ fields.length ∧ fields.length < 2 ^ 31) :
    ∃ enc cells, encodeFields libs fields (.new fields.length) = .ok () enc ∧
      readRecord.whole enc.rowBuffer = some cells ∧
      List.Forall₂ (SendsCell libs) fields cells ∧ decodeCells layouts cells = some contents := by
  obtain ⟨cells, hcells, hdecode⟩ := h.decodeCells
  have hne : fields ≠ [] := List.length_pos_iff.mp hcount.1
  have hlength : cells.length < 2 ^ 31 := hcells.length_eq ▸ hcount.2
  exact ⟨_, cells, encodeFields_binary hcells hne, readRecord_recordBytes hcells hlength, hcells,
    hdecode⟩

end RoundTrip

section Examples

private theorem readRecord_negative {count : Int32} (h : count < 0) (bytes : List UInt8) :
    readRecord.whole (putI32 count ++ bytes) = none := by
  have hread : readRecord (putI32 count ++ bytes) = none := by
    change ((Reader.i32 (putI32 count ++ bytes)).bind fun read =>
      (if read.1 < 0 then failure else readRecordField.times read.1.toNatClampNeg) read.2) = _
    rw [reads_i32 count bytes, Option.bind_some, if_pos h]
    rfl
  unfold Reader.whole
  rw [hread]

/-- A text in the binary format. -/
def noteInfo : FieldInfo := ⟨"note", .text, .binary, ⟨"ISO, MDY", "postgres", "hex", 1⟩⟩

def pairInfo : FieldInfo :=
  ⟨"pair", .other "(note, note)" PgType.recordOid (.composite [⟨"note", .text⟩, ⟨"note", .text⟩])
    PgType.catalogSchema, .binary, ⟨"ISO, MDY", "postgres", "hex", 1⟩⟩

private theorem sendsCell_null :
    SendsCell referenceEncoding (.scalar none, noteInfo) (25, none) := by
  refine ⟨rfl, rfl, rfl, fun payload h => ?_⟩
  cases h

private theorem sends_null : Sends referenceEncoding (.scalar none, noteInfo) .simple (.null 25) :=
  .null .simple sendsCell_null

private theorem sendsAll_replicate (n : Nat) :
    SendsAll referenceEncoding (List.replicate n (.scalar none, noteInfo))
      (List.replicate n .simple) (List.replicate n (.null 25)) := by
  induction n with
  | zero => exact .nil
  | succ n ih => exact .cons sends_null ih

private theorem replicate_not_read {n : Nat} (hpos : 1 ≤ n) (hnegative : Int32.ofNat n < 0)
    {enc : StructEncoder} (hrun : encodeFields referenceEncoding
      (List.replicate n (.scalar none, noteInfo)) (.new n) = .ok () enc) :
    readRecord.whole enc.rowBuffer = none := by
  obtain ⟨cells, hcells, -⟩ := (sendsAll_replicate n).decodeCells
  have hlength : (List.replicate n (FieldValue.scalar none, noteInfo)).length = n :=
    List.length_replicate
  have hne : List.replicate n (FieldValue.scalar none, noteInfo) ≠ [] :=
    List.length_pos_iff.mp (by rw [hlength]; exact hpos)
  have hbytes := encodeFields_binary hcells hne
  rw [hlength, hrun] at hbytes
  cases hbytes
  rw [recordBytes, ← hcells.length_eq, hlength]
  exact readRecord_negative hnegative _

/-- 2 ^ 31 fields are more than an `i32` counts. -/
theorem tooManyFields_not_read :
    ¬ ∀ (libs : EncodeLibraries) (fields : List (FieldValue × FieldInfo)) (layouts : List Layout)
      (contents : List RecordField), SendsAll libs fields layouts contents → 1 ≤ fields.length →
        ∃ enc cells, encodeFields libs fields (.new fields.length) = .ok () enc ∧
          readRecord.whole enc.rowBuffer = some cells ∧
          List.Forall₂ (SendsCell libs) fields cells ∧
          decodeCells layouts cells = some contents := by
  intro h
  have hmany : ∀ n, 1 ≤ n → Int32.ofNat n < 0 → False := by
    intro n hpos hnegative
    have hlength : (List.replicate n (FieldValue.scalar none, noteInfo)).length = n :=
      List.length_replicate
    obtain ⟨enc, cells, hrun, hread, -⟩ := h _ _ _ _ (sendsAll_replicate n) (by rwa [hlength])
    rw [hlength] at hrun
    rw [replicate_not_read hpos hnegative hrun] at hread
    cases hread
  exact hmany 2147483648 (by decide) (by decide)

/-- Of a pair of a text and a NULL. -/
def pairFields : List (FieldValue × FieldInfo) :=
  [(.scalar (some (.str "ab")), noteInfo), (.scalar none, noteInfo)]

def pairEncoder : StructEncoder := ⟨2, 2, recordBytes [(25, some [97, 98]), (25, none)]⟩

private theorem sends_note : SendsCell referenceEncoding (.scalar (some (.str "ab")), noteInfo)
    (25, some [97, 98]) := by
  have hbytes : utf8Bytes "ab" = [97, 98] := by decide +kernel
  refine ⟨rfl, rfl, ?_, fun payload h => ?_⟩
  · change Except.ok (some (utf8Bytes "ab")) = _
    rw [hbytes]
  · cases h
    decide

/-- A struct with the pair in it, and a NULL after it. -/
def nestedFields : List (FieldValue × FieldInfo) :=
  [(.scalar (some (.wrapper pairEncoder.rowBuffer false)), pairInfo), (.scalar none, noteInfo)]

theorem nestedFields_roundTrip :
    ∃ enc cells, encodeFields referenceEncoding nestedFields (.new 2) = .ok () enc ∧
      readRecord.whole enc.rowBuffer = some cells ∧
      List.Forall₂ (SendsCell referenceEncoding) nestedFields cells ∧
      decodeCells [.composite [.simple, .simple], .simple] cells =
        some [.composite 2249 [.simple 25 [97, 98], .null 25], .null 25] := by
  have hpair : SendsCell referenceEncoding
      (.scalar (some (.wrapper pairEncoder.rowBuffer false)), pairInfo)
      (2249, some pairEncoder.rowBuffer) := by
    refine ⟨rfl, rfl, rfl, fun payload h => ?_⟩
    cases h
    decide
  have hcells : List.Forall₂ (SendsCell referenceEncoding) pairFields
      [(25, some [97, 98]), (25, none)] := .cons sends_note (.cons sendsCell_null .nil)
  have hrun : encodeFields referenceEncoding pairFields (.new 2) = .ok () pairEncoder :=
    encodeFields_binary hcells nofun
  have hnested : SendsAll referenceEncoding nestedFields
      [.composite [.simple, .simple], .simple]
      [.composite 2249 [.simple 25 [97, 98], .null 25], .null 25] :=
    .cons (.composite (.cons (.simple sends_note) (.cons sends_null .nil)) nofun hrun hpair)
      (.cons sends_null .nil)
  exact record_roundTrip hnested (by decide)

end Examples

end DatafusionPostgres.ArrowPg

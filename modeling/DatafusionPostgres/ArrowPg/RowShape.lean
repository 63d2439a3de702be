import DatafusionPostgres.ArrowPg.Encoder
import DatafusionPostgres.ArrowPg.ReferenceEncoding
import DatafusionPostgres.Library.Success

/-! Each value is one call of `encode_field`, and so each row has one field for each column. -/
namespace DatafusionPostgres.ArrowPg

/-- For every encoder alike the program is one call of `encode_field`, or a failure
before it. -/
def EncodesOnce (pgField : FieldInfo)
    (prog : (σ : Type) → Encoder σ → EStateM Failure σ Unit) : Prop :=
  ∃ value : Except Failure FieldValue, ∀ σ encoder, prog σ encoder = encodeWith encoder pgField value

/-- The units that no time array has. -/
def badTimeUnit : DataType → Bool
  | .time32 .microsecond | .time32 .nanosecond | .time64 .second | .time64 .millisecond => true
  | _ => false

theorem dataType_timeUnit (arr : ArrowArray) : badTimeUnit arr.dataType = false := by
  cases arr with
  | primitive type slots =>
    obtain ⟨dataType, native, hnative⟩ := type
    change badTimeUnit dataType = false
    unfold badTimeUnit
    split <;> first | cases hnative | rfl
  | string kind slots => cases kind <;> rfl
  | binary kind slots => cases kind <;> rfl
  | list kind field len valid value => cases kind <;> rfl
  | other type len valid => cases type <;> rfl
  | _ => rfl

section Values
variable {libs : EncodeLibraries} {pgField : FieldInfo}

private theorem scalarValue_some (libs : EncodeLibraries) (arr : ArrowArray) (idx : Nat)
    {arrowType : DataType} (h : badTimeUnit arrowType = false) :
    ∃ value : Except Failure FieldValue, scalarValue libs arr idx arrowType = some <$> value := by
  unfold scalarValue
  split
  case h_1 => exact ⟨.ok (.scalar none), rfl⟩
  case h_26 unit hsecond hmillisecond =>
    cases unit
    case second => exact absurd rfl hsecond
    case millisecond => exact absurd rfl hmillisecond
    all_goals cases h
  case h_27 unit hmicrosecond hnanosecond =>
    cases unit
    case microsecond => exact absurd rfl hmicrosecond
    case nanosecond => exact absurd rfl hnanosecond
    all_goals cases h
  case h_33 => exact ⟨.error (unsupportedScalar arr), rfl⟩
  all_goals exact ⟨_, rfl⟩

private theorem encodesOnce_liftExcept {α : Type} (first : Except Failure α)
    {next : α → (σ : Type) → Encoder σ → EStateM Failure σ Unit}
    (hnext : ∀ a, first = .ok a → EncodesOnce pgField (next a)) :
    EncodesOnce pgField fun σ encoder => (do
      let a ← liftExcept first
      next a σ encoder) := by
  cases first with
  | error failure => exact ⟨.error failure, fun _ _ => rfl⟩
  | ok a =>
    obtain ⟨value, hvalue⟩ := hnext a rfl
    exact ⟨value, fun σ encoder => hvalue σ encoder⟩

private theorem encodesOnce_throw (failure : Failure) :
    EncodesOnce pgField fun _ _ => throw failure := ⟨.error failure, fun _ _ => rfl⟩

private theorem encodesOnce_encodeField (value : FieldValue) :
    EncodesOnce pgField fun _ encoder => encoder.encodeField value pgField :=
  ⟨.ok value, fun _ _ => rfl⟩

theorem encodeList_once (arr : ArrowArray) :
    EncodesOnce pgField fun _ encoder => encodeList libs arr encoder pgField := by
  cases arr <;> exact ⟨_, fun _ _ => rfl⟩

private theorem scalar_once {arr : ArrowArray} {arrowField : Field}
    (htype : arrowField.dataType = arr.dataType) (hscalar : isScalarType arr.dataType = true)
    (idx : Nat) :
    EncodesOnce pgField fun _ encoder => encodeValue libs arr encoder idx arrowField pgField := by
  obtain ⟨value, hvalue⟩ := scalarValue_some libs arr idx (dataType_timeUnit arr)
  rw [← htype] at hscalar hvalue
  refine ⟨value, fun σ encoder => ?_⟩
  dsimp only
  rw [encodeValue_scalar hscalar, hvalue]
  cases value <;> rfl

private theorem encodesOnce_encodeValue {arr : ArrowArray} (hvalid : arr.Valid) {arrowField : Field}
    (htype : arrowField.dataType = arr.dataType) (idx : Nat) :
    EncodesOnce pgField fun _ encoder => encodeValue libs arr encoder idx arrowField pgField := by
  induction arr generalizing idx arrowField with
  | list kind field len valid value _ =>
    cases hkind : kind.hasListArm with
    | false => exact scalar_once htype (by cases kind <;> first | rfl | cases hkind) idx
    | true =>
      simp only [encodeValue_list hkind htype]
      apply encodesOnce_liftExcept
      intro isNull _
      cases isNull with
      | true => exact encodesOnce_encodeField (.scalar none)
      | false =>
        cases kind with
        | list => exact encodeList_once (value idx)
        | _ => exact encodesOnce_throw .panic
  | struct fields len valid columns _ =>
    simp only [encodeValue_struct htype]
    exact ⟨_, fun _ _ => rfl⟩
  | dictionary keyType valueType keys values ih =>
    obtain ⟨-, hvalues, hvalid, -⟩ := hvalid
    simp only [encodeValue_dictionary htype]
    apply encodesOnce_liftExcept
    intro isNull _
    cases isNull with
    | true => exact encodesOnce_encodeField (.scalar none)
    | false =>
      apply encodesOnce_liftExcept
      intro key _
      exact ih hvalid hvalues.symm key
  | string kind slots => exact scalar_once htype (by cases kind <;> rfl) idx
  | binary kind slots => exact scalar_once htype (by cases kind <;> rfl) idx
  | other type len valid => exact scalar_once htype (by cases type <;> rfl) idx
  | primitive type slots =>
    refine scalar_once htype ?_ idx
    obtain ⟨dataType, native, hnative⟩ := type
    change isScalarType dataType = true
    unfold isScalarType
    split <;> first | cases hnative | rfl
  | _ => exact scalar_once htype rfl idx

/-- Every value is encoded by one call, the nested ones by the call for the outermost. -/
theorem encodeValue_once (libs : EncodeLibraries) (pgField : FieldInfo) {arr : ArrowArray}
    (hvalid : arr.Valid) {arrowField : Field} (htype : arrowField.dataType = arr.dataType) (idx : Nat) :
    ∃ value : Except Failure FieldValue, ∀ (σ : Type) (encoder : Encoder σ),
      encodeValue libs arr encoder idx arrowField pgField = encodeWith encoder pgField value :=
  encodesOnce_encodeValue hvalid htype idx

end Values

section Calls
variable {libs : EncodeLibraries} {σ : Type}

/-- The encoder with a log of all its calls. -/
def Encoder.recording (encoder : Encoder σ) : Encoder (σ × List (FieldValue × FieldInfo)) where
  encodeField value pgField := fun s =>
    match encoder.encodeField value pgField s.1 with
    | .ok _ s' => .ok () (s', s.2 ++ [(value, pgField)])
    | .error failure s' => .error failure (s', s.2 ++ [(value, pgField)])

/-- Whenever a value is encoded, the encoder has been called exactly once, for the field. -/
def CallsOnce (libs : EncodeLibraries) : Prop :=
  ∀ (arr : ArrowArray) (arrowField : Field), arr.Valid → arrowField.dataType = arr.dataType →
    ∀ idx, idx < arr.len → ∀ (pgField : FieldInfo) (σ : Type) (encoder : Encoder σ) s calls s' calls',
      encodeValue libs arr encoder.recording idx arrowField pgField (s, calls) =
        .ok () (s', calls') →
      ∃ value, calls' = calls ++ [(value, pgField)]

private theorem encodeWith_recording {encoder : Encoder σ} {pgField : FieldInfo}
    {value : Except Failure FieldValue} {s s' : σ} {calls calls' : List (FieldValue × FieldInfo)}
    (h : encodeWith encoder.recording pgField value (s, calls) = .ok () (s', calls')) :
    ∃ value, calls' = calls ++ [(value, pgField)] := by
  cases value with
  | error failure => cases h
  | ok value =>
    change encoder.recording.encodeField value pgField (s, calls) = _ at h
    unfold Encoder.recording at h
    dsimp only at h
    split at h
    · cases h
      exact ⟨value, rfl⟩
    · cases h

private theorem encodeValue_callsOnce (libs : EncodeLibraries) : CallsOnce libs := by
  intro arr arrowField hvalid htype idx _ pgField σ encoder s calls s' calls' hrun
  obtain ⟨value, hvalue⟩ := encodeValue_once libs pgField hvalid htype idx
  rw [hvalue] at hrun
  exact encodeWith_recording hrun

end Calls

section Rows
variable {libs : EncodeLibraries}

/-- The encoder after a number of calls of `next_row`. -/
def RowEncoder.after (libs : EncodeLibraries) : Nat → RowEncoder → RowEncoder
  | 0, enc => enc
  | n + 1, enc => ((enc.after libs n).nextRow libs).2

/-- Each row that a fresh encoder yields has the cells of the columns, in their order. -/
def RowsComplete (libs : EncodeLibraries) : Prop :=
  ∀ (rb : RecordBatch) (fields : List FieldInfo) (enc : RowEncoder),
    RowEncoder.new rb fields = .ok enc → ∀ n row,
      ((enc.after libs n).nextRow libs).1 = some (.ok row) →
        row.length = rb.columns.length ∧
          ∀ (j : Nat) column pgField, rb.columns[j]? = some column → fields[j]? = some pgField →
            ∃ cell, row[j]? = some cell ∧
              encodeValue libs column.2 (dataRowEncoder libs) (enc.after libs n).currIdx column.1
                pgField ⟨[]⟩ = .ok () ⟨[cell]⟩

private theorem encodeValue_cell (libs : EncodeLibraries) {arr : ArrowArray}
    (hvalid : arr.Valid) {arrowField : Field}
    (htype : arrowField.dataType = arr.dataType) (idx : Nat) (pgField : FieldInfo) :
    (∃ cell, ∀ row : DataRowEncoder,
      encodeValue libs arr (dataRowEncoder libs) idx arrowField pgField row =
        .ok () ⟨row.cells ++ [cell]⟩) ∨
    ∃ failure, ∀ row : DataRowEncoder,
      encodeValue libs arr (dataRowEncoder libs) idx arrowField pgField row =
        .error failure row := by
  obtain ⟨value, hvalue⟩ := encodeValue_once libs pgField hvalid htype idx
  simp only [hvalue]
  cases value with
  | error failure => exact .inr ⟨failure, fun _ => rfl⟩
  | ok value =>
    cases hcell : fieldCell libs value pgField with
    | ok cell => exact .inl ⟨cell, dataRowEncoder_of_ok hcell⟩
    | error failure => exact .inr ⟨failure, dataRowEncoder_of_error hcell⟩

/-- One row: the cells of all columns, or a failure whatever the row held before. -/
theorem encodeColumns_cells (libs : EncodeLibraries) {idx : Nat}
    {columns : List ((Field × ArrowArray) × FieldInfo)}
    (hvalid : ∀ c ∈ columns, c.1.2.Valid ∧ c.1.1.dataType = c.1.2.dataType) :
    (∃ cells : DataRow, (∀ row : DataRowEncoder,
        encodeColumns libs idx columns row = .ok () ⟨row.cells ++ cells⟩) ∧
      List.Forall₂ (fun c cell => encodeValue libs c.1.2 (dataRowEncoder libs) idx c.1.1 c.2 ⟨[]⟩ =
        .ok () ⟨[cell]⟩) columns cells) ∨
    (∃ c ∈ columns, ∀ row',
      encodeValue libs c.1.2 (dataRowEncoder libs) idx c.1.1 c.2 ⟨[]⟩ ≠ .ok () row') ∧
    ∃ failure, ∀ row : DataRowEncoder, ∃ row',
      encodeColumns libs idx columns row = .error failure row' := by
  induction columns with
  | nil =>
    refine .inl ⟨[], fun row => ?_, .nil⟩
    rw [List.append_nil]
    rfl
  | cons column columns ih =>
    obtain ⟨⟨arrowField, array⟩, pgField⟩ := column
    obtain ⟨hcolumn, htype⟩ := hvalid _ List.mem_cons_self
    have hstep : ∀ row : DataRowEncoder,
        encodeColumns libs idx (((arrowField, array), pgField) :: columns) row =
          EStateM.bind (encodeValue libs array (dataRowEncoder libs) idx arrowField pgField)
            (fun _ => encodeColumns libs idx columns) row := fun _ => rfl
    simp only [hstep, EStateM.bind]
    rcases encodeValue_cell libs hcolumn htype idx pgField with
      ⟨cell, hcell⟩ | ⟨failure, hfailure⟩
    · simp only [hcell]
      rcases ih fun c hc => hvalid c (List.mem_cons_of_mem _ hc) with
        ⟨cells, hcells, hall⟩ | ⟨⟨c, hc, hfails⟩, failure, hfailure⟩
      · refine .inl ⟨cell :: cells, fun row => ?_, .cons (hcell ⟨[]⟩) hall⟩
        rw [hcells, List.append_assoc]
        rfl
      · exact .inr ⟨⟨c, List.mem_cons_of_mem _ hc, hfails⟩, failure, fun row => hfailure _⟩
    · refine .inr ⟨⟨_, List.mem_cons_self, fun row' => ?_⟩, failure, fun row => ⟨row, ?_⟩⟩
      · rw [hfailure]
        exact nofun
      · rw [hfailure]

/-- An encoder between two rows, or before a row that it can never finish. -/
structure RowEncoder.Ready (libs : EncodeLibraries) (rb : RecordBatch) (fields : List FieldInfo)
    (enc : RowEncoder) : Prop where
  rb_eq : enc.rb = rb
  fields_eq : enc.fields = fields
  row : enc.rowEncoder.cells = [] ∨ ∃ failure, ∀ row : DataRowEncoder, ∃ row',
    encodeColumns libs enc.currIdx (rb.columns.zip fields) row = .error failure row'

theorem mem_columns {rb : RecordBatch} {fields : List FieldInfo} :
    ∀ c ∈ rb.columns.zip fields, c.1.2.Valid ∧ c.1.1.dataType = c.1.2.dataType := by
  rintro ⟨column, pgField⟩ hc
  obtain ⟨hvalid, htype, -⟩ := rb.valid column (List.of_mem_zip hc).1
  exact ⟨hvalid, htype⟩

private theorem ready_new (rb : RecordBatch) (fields : List FieldInfo) :
    RowEncoder.Ready libs rb fields ⟨rb, 0, fields, ⟨[]⟩⟩ := ⟨rfl, rfl, .inl rfl⟩

private theorem ready_nextRow {rb : RecordBatch} {fields : List FieldInfo} {enc : RowEncoder}
    (h : enc.Ready libs rb fields) : (enc.nextRow libs).2.Ready libs rb fields := by
  obtain ⟨hrb, hfields, hrow⟩ := h
  unfold RowEncoder.nextRow
  split
  · exact ⟨hrb, hfields, hrow⟩
  · rw [hrb, hfields]
    rcases encodeColumns_cells libs mem_columns with ⟨cells, hcells, -⟩ | ⟨-, failure, hfailure⟩
    · rw [hcells]
      exact ⟨rfl, rfl, .inl rfl⟩
    · obtain ⟨row', hrow'⟩ := hfailure enc.rowEncoder
      rw [hrow']
      exact ⟨rfl, rfl, .inr ⟨failure, hfailure⟩⟩

private theorem ready_after {rb : RecordBatch} {fields : List FieldInfo} {enc : RowEncoder}
    (h : enc.Ready libs rb fields) (n : Nat) : (enc.after libs n).Ready libs rb fields := by
  induction n with
  | zero => exact h
  | succ n ih => exact ready_nextRow ih

private theorem nextRow_cells {rb : RecordBatch} {fields : List FieldInfo} {enc : RowEncoder}
    (h : enc.Ready libs rb fields) {row : DataRow} (hrow : (enc.nextRow libs).1 = some (.ok row)) :
    List.Forall₂ (fun c cell =>
      encodeValue libs c.1.2 (dataRowEncoder libs) enc.currIdx c.1.1 c.2 ⟨[]⟩ = .ok () ⟨[cell]⟩)
      (rb.columns.zip fields) row := by
  obtain ⟨hrb, hfields, hready⟩ := h
  unfold RowEncoder.nextRow at hrow
  split at hrow
  · cases hrow
  · rw [hrb, hfields] at hrow
    rcases encodeColumns_cells libs mem_columns with ⟨cells, hcells, hall⟩ | ⟨-, failure, hfailure⟩
    · have hempty : enc.rowEncoder.cells = [] := by
        rcases hready with hempty | ⟨failure, hstuck⟩
        · exact hempty
        · obtain ⟨row', hrow'⟩ := hstuck enc.rowEncoder
          rw [hcells] at hrow'
          cases hrow'
      rw [hcells, hempty] at hrow
      cases hrow
      exact hall
    · obtain ⟨row', hrow'⟩ := hfailure enc.rowEncoder
      rw [hrow'] at hrow
      cases hrow

private theorem nextRow_rowsComplete (libs : EncodeLibraries) : RowsComplete libs := by
  intro rb fields enc hnew n row hrow
  unfold RowEncoder.new at hnew
  split at hnew
  · rename_i hlength
    cases hnew
    have hcells := nextRow_cells (ready_after (ready_new rb fields) n) hrow
    constructor
    · have hrowLength := hcells.length_eq
      rw [List.length_zip, ← hlength, Nat.min_self] at hrowLength
      exact hrowLength.symm
    · intro j column pgField hcolumn hpgField
      have hzip : (rb.columns.zip fields)[j]? = some (column, pgField) :=
        List.getElem?_zip_eq_some.mpr ⟨hcolumn, hpgField⟩
      obtain ⟨cell, hcell, hencode⟩ := Library.forall₂_getElem? hcells hzip
      exact ⟨cell, hcell, hencode⟩
  · cases hnew

end Rows

/-- One call of `encode_field` for a value, and so one field for each column of a row. -/
theorem encodeValue_rowShape (libs : EncodeLibraries) : CallsOnce libs ∧ RowsComplete libs :=
  ⟨encodeValue_callsOnce libs, nextRow_rowsComplete libs⟩


section Examples

def pointField : Field := .new "point" (.struct [.new "x" .int32 true]) true

/-- One row: a NULL struct over a column that is not NULL. -/
def nullPoint : ArrowArray :=
  .struct [.new "x" .int32 true] 1 (fun _ => false)
    fun _ => .primitive ⟨.int32, .int32, Primitive.of_int32⟩ [⟨true, 1⟩]

def flagField : Field := .new "flag" .boolean true

def nullPointBatch : RecordBatch where
  columns := [(pointField, nullPoint), (flagField, .boolean [⟨true, true⟩])]
  numRows := 1
  valid column h := by
    rcases List.mem_cons.mp h with rfl | h
    · refine ⟨fun i field hfield => ?_, rfl, rfl⟩
      cases i with
      | zero =>
        cases hfield
        exact ⟨rfl, rfl, trivial⟩
      | succ i => cases hfield
    · cases List.mem_singleton.mp h
      exact ⟨trivial, rfl, rfl⟩

def textInfo (name : String) (datatype : PgType) : FieldInfo :=
  ⟨name, datatype, .text, ⟨"ISO", "postgres", "hex", 1⟩⟩

def nullPointEncoder : RowEncoder :=
  ⟨nullPointBatch, 0, [textInfo "point" .unknown, textInfo "flag" .bool], ⟨[]⟩⟩

theorem nullPoint_row : ∃ row,
    (nullPointEncoder.nextRow referenceEncoding).1 = some (.ok row) ∧ row.length = 2 := by
  have hrow : (nullPointEncoder.nextRow referenceEncoding).1 = some (.ok [none, some [116]]) := rfl
  have hnew : RowEncoder.new nullPointBatch nullPointEncoder.fields = .ok nullPointEncoder := rfl
  exact ⟨_, hrow, ((encodeValue_rowShape referenceEncoding).2 _ _ _ hnew 0 _ hrow).1⟩

end Examples
end DatafusionPostgres.ArrowPg

import DatafusionPostgres.ArrowPg.RowShape

/-! The iterator over the rows of a batch, which stays at a row that it cannot encode. -/
namespace DatafusionPostgres.ArrowPg

/-- `encode_recordbatch`: what the calls of `next` return, by their position. -/
def encodeRecordbatch (libs : EncodeLibraries) (fields : List FieldInfo) (rb : RecordBatch) :
    Except Failure (Nat → Option (Except Failure DataRow)) := do
  let rowStream ← RowEncoder.new rb fields
  return fun n => ((rowStream.after libs n).nextRow libs).1

/-- A row on its own. -/
def rowItem (libs : EncodeLibraries) (rb : RecordBatch) (fields : List FieldInfo) (row : Nat) :
    Except Failure DataRow :=
  match encodeColumns libs row (rb.columns.zip fields) ⟨[]⟩ with
  | .ok _ rowEncoder => .ok rowEncoder.cells
  | .error failure _ => .error failure

/-- The iterator ends after as many items as there are rows, or before, and each item is
that of its row. -/
def IteratesRows (libs : EncodeLibraries) (rb : RecordBatch) (fields : List FieldInfo)
    (items : Nat → Option (Except Failure DataRow)) : Prop :=
  ∃ m ≤ rb.numRows, ∀ n, items n = if n < m then some (rowItem libs rb fields n) else none

/-- Every value of the row is encoded. -/
def RowEncodes (libs : EncodeLibraries) (rb : RecordBatch) (fields : List FieldInfo) (row : Nat) :
    Prop :=
  ∀ column ∈ rb.columns.zip fields, ∃ rowEncoder,
    encodeValue libs column.1.2 (dataRowEncoder libs) row column.1.1 column.2 ⟨[]⟩ =
      .ok () rowEncoder

section Rows
variable {libs : EncodeLibraries} {rb : RecordBatch} {fields : List FieldInfo}

private theorem row_cases (libs : EncodeLibraries) (rb : RecordBatch) (fields : List FieldInfo)
    (row : Nat) :
    (RowEncodes libs rb fields row ∧ ∃ cells : DataRow, ∀ rowEncoder : DataRowEncoder,
      encodeColumns libs row (rb.columns.zip fields) rowEncoder =
        .ok () ⟨rowEncoder.cells ++ cells⟩) ∨
    (¬ RowEncodes libs rb fields row ∧ ∃ failure, ∀ rowEncoder : DataRowEncoder, ∃ rowEncoder',
      encodeColumns libs row (rb.columns.zip fields) rowEncoder = .error failure rowEncoder') := by
  rcases encodeColumns_cells libs mem_columns with
    ⟨cells, hcells, hall⟩ | ⟨⟨column, hcolumn, hfails⟩, failure, hfailure⟩
  · refine .inl ⟨fun column hcolumn => ?_, cells, hcells⟩
    obtain ⟨j, hj⟩ := List.getElem?_of_mem hcolumn
    obtain ⟨cell, -, hcell⟩ := Library.forall₂_getElem? hall hj
    exact ⟨_, hcell⟩
  · refine .inr ⟨fun h => ?_, failure, hfailure⟩
    obtain ⟨rowEncoder, hrun⟩ := h column hcolumn
    exact hfails rowEncoder hrun

/-- One call at a row that encodes, with nothing left of an earlier one. -/
theorem nextRow_encodes {row : Nat} (hrow : row < rb.numRows)
    (h : RowEncodes libs rb fields row) :
    RowEncoder.nextRow libs ⟨rb, row, fields, ⟨[]⟩⟩ =
      (some (rowItem libs rb fields row), ⟨rb, row + 1, fields, ⟨[]⟩⟩) := by
  rcases row_cases libs rb fields row with ⟨-, cells, hcells⟩ | ⟨hfails, -⟩
  · unfold RowEncoder.nextRow rowItem
    rw [if_neg (Nat.ne_of_lt hrow)]
    dsimp only
    rw [hcells]
  · exact absurd h hfails

private theorem nextRow_fails {enc : RowEncoder} (hrb : enc.rb = rb) (hfields : enc.fields = fields)
    (hrow : enc.currIdx < rb.numRows) (h : ¬ RowEncodes libs rb fields enc.currIdx) :
    (∃ item, (enc.nextRow libs).1 = some item) ∧ (enc.nextRow libs).2.rb = rb ∧
      (enc.nextRow libs).2.fields = fields ∧ (enc.nextRow libs).2.currIdx = enc.currIdx := by
  rcases row_cases libs rb fields enc.currIdx with ⟨hencodes, -⟩ | ⟨-, failure, hfailure⟩
  · exact absurd hencodes h
  · obtain ⟨rowEncoder, hrun⟩ := hfailure enc.rowEncoder
    unfold RowEncoder.nextRow
    rw [hrb, hfields, if_neg (Nat.ne_of_lt hrow), hrun]
    exact ⟨⟨_, rfl⟩, rfl, rfl, rfl⟩

/-- Up to the first row that does not encode, the encoder is at the row of the call. -/
theorem after_encodes {n : Nat} (hn : n ≤ rb.numRows)
    (h : ∀ row < n, RowEncodes libs rb fields row) :
    RowEncoder.after libs n ⟨rb, 0, fields, ⟨[]⟩⟩ = ⟨rb, n, fields, ⟨[]⟩⟩ := by
  induction n with
  | zero => rfl
  | succ n ih =>
    have hbefore := ih (Nat.le_of_succ_le hn) fun row hrow => h row (Nat.lt_succ_of_lt hrow)
    unfold RowEncoder.after
    rw [hbefore, nextRow_encodes hn (h n (Nat.lt_succ_self n))]

/-- Behind the last row the encoder stays as it is. -/
theorem after_last (k : Nat) (h : ∀ row < rb.numRows, RowEncodes libs rb fields row) :
    RowEncoder.after libs (rb.numRows + k) ⟨rb, 0, fields, ⟨[]⟩⟩ =
      ⟨rb, rb.numRows, fields, ⟨[]⟩⟩ := by
  induction k with
  | zero => exact after_encodes (Nat.le_refl _) h
  | succ k ih =>
    rw [← Nat.add_assoc]
    unfold RowEncoder.after RowEncoder.nextRow
    rw [ih]
    exact congrArg Prod.snd (if_pos rfl)

private theorem after_fails {row : Nat} (hrow : row < rb.numRows)
    (hbefore : ∀ r < row, RowEncodes libs rb fields r) (h : ¬ RowEncodes libs rb fields row)
    (k : Nat) :
    (RowEncoder.after libs (row + k) ⟨rb, 0, fields, ⟨[]⟩⟩).rb = rb ∧
      (RowEncoder.after libs (row + k) ⟨rb, 0, fields, ⟨[]⟩⟩).fields = fields ∧
      (RowEncoder.after libs (row + k) ⟨rb, 0, fields, ⟨[]⟩⟩).currIdx = row := by
  induction k with
  | zero =>
    rw [Nat.add_zero, after_encodes (Nat.le_of_lt hrow) hbefore]
    exact ⟨rfl, rfl, rfl⟩
  | succ k ih =>
    obtain ⟨hrb, hfields, hidx⟩ := ih
    rw [← hidx] at hrow h
    obtain ⟨-, hstay⟩ := nextRow_fails hrb hfields hrow h
    rw [hidx] at hstay
    exact hstay

end Rows

/-- The iterator is right exactly if every value of every row is encoded: it never leaves a
row that it cannot encode. -/
theorem encodeRecordbatch_iterates_iff (libs : EncodeLibraries) {rb : RecordBatch}
    {fields : List FieldInfo} {items : Nat → Option (Except Failure DataRow)}
    (hitems : encodeRecordbatch libs fields rb = .ok items) :
    IteratesRows libs rb fields items ↔ ∀ row < rb.numRows, RowEncodes libs rb fields row := by
  have hrun : ∀ n, items n =
      ((RowEncoder.after libs n ⟨rb, 0, fields, ⟨[]⟩⟩).nextRow libs).1 := by
    unfold encodeRecordbatch RowEncoder.new at hitems
    split at hitems
    · cases hitems
      exact fun _ => rfl
    · cases hitems
  constructor
  · rintro ⟨m, -, hm⟩ row
    induction row using Nat.strongRecOn with
    | ind row ih =>
      intro hrow
      by_contra hfails
      have hbefore : ∀ r < row, RowEncodes libs rb fields r :=
        fun r hr => ih r hr (Nat.lt_trans hr hrow)
      obtain ⟨hrb, hfields, hidx⟩ := after_fails hrow hbefore hfails m
      rw [← hidx] at hrow hfails
      obtain ⟨⟨item, hitem⟩, -⟩ := nextRow_fails hrb hfields hrow hfails
      have hend := hm (row + m)
      rw [if_neg (by omega), hrun, hitem] at hend
      cases hend
  · intro h
    refine ⟨rb.numRows, Nat.le_refl _, fun n => ?_⟩
    rw [hrun]
    by_cases hn : n < rb.numRows
    · rw [if_pos hn, after_encodes (Nat.le_of_lt hn) fun row hrow => h row (Nat.lt_trans hrow hn),
        nextRow_encodes hn (h n hn)]
    · obtain ⟨k, rfl⟩ := Nat.exists_eq_add_of_le (Nat.le_of_not_lt hn)
      rw [if_neg hn, after_last k h]
      exact congrArg Prod.fst (if_pos rfl)

section Examples

theorem nullPoint_iterates : ∃ items,
    encodeRecordbatch referenceEncoding nullPointEncoder.fields nullPointBatch = .ok items ∧
      IteratesRows referenceEncoding nullPointBatch nullPointEncoder.fields items := by
  have hitems : encodeRecordbatch referenceEncoding nullPointEncoder.fields nullPointBatch =
      .ok fun n => ((nullPointEncoder.after referenceEncoding n).nextRow referenceEncoding).1 := rfl
  refine ⟨_, hitems, (encodeRecordbatch_iterates_iff referenceEncoding hitems).mpr ?_⟩
  intro row hrow column hcolumn
  obtain rfl : row = 0 := Nat.lt_one_iff.mp hrow
  rcases List.mem_cons.mp hcolumn with rfl | hcolumn
  · exact ⟨⟨[none]⟩, rfl⟩
  · cases List.mem_singleton.mp hcolumn
    exact ⟨⟨[some [116]]⟩, rfl⟩

def amountField : Field := .new "amount" (.decimal128 38 0) true

/-- One row: the first number that has more than 96 bits. -/
def largeAmountBatch : RecordBatch where
  columns := [(amountField, .primitive ⟨.decimal128 38 0, .decimal128, rfl⟩ [⟨true, 2 ^ 96⟩])]
  numRows := 1
  valid column h := by
    cases List.mem_singleton.mp h
    exact ⟨trivial, rfl, rfl⟩

theorem largeAmount_not_iterates : ∃ items,
    encodeRecordbatch referenceEncoding [textInfo "amount" .numeric] largeAmountBatch = .ok items ∧
      ¬ IteratesRows referenceEncoding largeAmountBatch [textInfo "amount" .numeric] items := by
  refine ⟨_, rfl, ?_⟩
  rintro ⟨m, hm, hitems⟩
  have hend := (hitems 1).trans (if_neg (Nat.not_lt.mpr hm))
  cases hend

end Examples
end DatafusionPostgres.ArrowPg

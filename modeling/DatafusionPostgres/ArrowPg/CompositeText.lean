import DatafusionPostgres.ArrowPg.CompositeBinary
import Mathlib.Data.List.TakeWhile

/-! A composite value in the text format: a NULL in it is written as the empty string is. -/
namespace DatafusionPostgres.ArrowPg
open Library

/-- `isspace`. -/
def isBlank (byte : UInt8) : Bool := byte == 32 || (9 ≤ byte && byte ≤ 13)

def skipBlanks : Reader UInt8 Unit := fun bytes => some ((), bytes.dropWhile isBlank)

def expectByte (byte : UInt8) : Reader UInt8 Unit
  | [] => none
  | first :: rest => if first = byte then some ((), rest) else none

/-- The bytes of a value, up to the comma or the parenthesis that is not quoted. A backslash
escapes any byte, and a quote that is quoted is doubled. -/
def readValue : Bool → Reader UInt8 (List UInt8)
  | _, [] => none
  | quoted, byte :: rest =>
    if !quoted && (byte == 44 || byte == 41) then some ([], byte :: rest)
    else if byte = 92 then
      match rest with
      | [] => none
      | escaped :: rest => (readValue quoted rest).map (Prod.map (List.cons escaped) id)
    else if byte = 34 then
      match quoted, rest with
      | true, 34 :: rest => (readValue true rest).map (Prod.map (List.cons 34) id)
      | quoted, rest => readValue (!quoted) rest
    else (readValue quoted rest).map (Prod.map (List.cons byte) id)

/-- Nothing between the delimiters is NULL. -/
def readColumn : Reader UInt8 Cell := fun bytes =>
  if bytes.head? = some 44 ∨ bytes.head? = some 41 then some (none, bytes)
  else (readValue false bytes).map (Prod.map some id)

/-- The columns after the first one, and the end. -/
def readColumns : Nat → Reader UInt8 (List Cell)
  | 0 => do
    expectByte 41
    skipBlanks
    return []
  | n + 1 => do
    expectByte 44
    let column ← readColumn
    List.cons column <$> readColumns n

/-- `record_in` for a type of `n` columns, which there are. -/
def recordIn (n : Nat) (text : List UInt8) : Option (List Cell) :=
  let reader : Reader UInt8 (List Cell) := do
    skipBlanks
    expectByte 40
    let column ← readColumn
    List.cons column <$> readColumns (n - 1)
  reader.whole text

/-- What is relied on of the quoting of the wire library: the empty text is quoted, as is one
with a comma, a quote or a backslash; an escaped text has a backslash before the last two. -/
structure EncodeLibraries.Quotes (libs : EncodeLibraries) : Prop where
  quoteCheck_nil : libs.quoteCheck [] = true
  quoteCheck_of_mem : ∀ bytes, ∀ byte ∈ bytes, byte = 34 ∨ byte = 44 ∨ byte = 92 →
    libs.quoteCheck bytes = true
  quoteEscape : ∀ bytes, ∃ text : List UInt8, libs.quoteEscape bytes = text.flatMap escapeByte

/-- The text of one column. -/
def columnText (libs : EncodeLibraries) (buf : List UInt8) : List UInt8 :=
  if libs.quoteCheck buf then 34 :: libs.quoteEscape buf ++ [34] else buf

/-- The text after the first column. -/
def laterText (libs : EncodeLibraries) (bufs : List (List UInt8)) : List UInt8 :=
  (bufs.flatMap fun buf => 44 :: columnText libs buf) ++ [41]

/-- The bytes that the value encoder leaves in the intermediate buffer of a text field. -/
def SendsText (libs : EncodeLibraries) (field : FieldValue × FieldInfo) (buf : List UInt8) : Prop :=
  field.2.format = .text ∧ ∃ cell, fieldCell libs field.1 field.2 = .ok cell ∧ buf = cell.getD []

/-- The text that the encoder leaves for the fields of a struct. -/
def TextOf (libs : EncodeLibraries) (fields : List (FieldValue × FieldInfo)) (text : List UInt8) :
    Prop :=
  ∃ enc, encodeFields libs fields (.new fields.length) = .ok () enc ∧ enc.rowBuffer = text

/-- The text is read back with a NULL at the position. -/
def ReadsNull (libs : EncodeLibraries) (fields : List (FieldValue × FieldInfo)) (p : Nat) : Prop :=
  ∀ text, TextOf libs fields text →
    ∃ columns, recordIn fields.length text = some columns ∧ columns[p]? = some none

/-- The text is not the one of the struct with the other field at the position. -/
def DiffersFrom (libs : EncodeLibraries) (fields : List (FieldValue × FieldInfo)) (p : Nat)
    (field : FieldValue × FieldInfo) : Prop :=
  ∀ text text', TextOf libs fields text → TextOf libs (fields.set p field) text' → text ≠ text'

section Writing
variable {libs : EncodeLibraries}

private theorem encodeField_text {field : FieldValue × FieldInfo} {buf : List UInt8}
    (h : SendsText libs field buf) (enc : StructEncoder) :
    (structEncoder libs).encodeField field.1 field.2 enc =
      .ok () ⟨enc.numCols, enc.currCol + 1,
        enc.rowBuffer ++ (if enc.currCol = 0 then [40] else []) ++ columnText libs buf ++
          if enc.currCol + 1 = enc.numCols then [41] else [44]⟩ := by
  obtain ⟨hformat, cell, hcell, rfl⟩ := h
  unfold structEncoder
  simp only [hcell, hformat]
  rfl

/-- The text of a struct: its columns between parentheses, with commas. -/
theorem encodeFields_text {fields : List (FieldValue × FieldInfo)} {buf : List UInt8}
    {bufs : List (List UInt8)} (h : List.Forall₂ (SendsText libs) fields (buf :: bufs))
    (enc : StructEncoder) (hcols : enc.currCol + fields.length = enc.numCols) :
    encodeFields libs fields enc =
      .ok () ⟨enc.numCols, enc.numCols,
        enc.rowBuffer ++ (if enc.currCol = 0 then [40] else []) ++ columnText libs buf ++
          laterText libs bufs⟩ := by
  induction bufs generalizing fields buf enc with
  | nil =>
    obtain ⟨field, fields, hfield, hfields, rfl⟩ := List.forall₂_cons_right_iff.mp h
    cases hfields
    have hlast : enc.currCol + 1 = enc.numCols := hcols
    have hstep := encodeField_text hfield enc
    rw [if_pos hlast, hlast] at hstep
    rw [encodeFields_cons hstep]
    rfl
  | cons next bufs ih =>
    obtain ⟨field, fields, hfield, hfields, rfl⟩ := List.forall₂_cons_right_iff.mp h
    have hlength := hfields.length_eq
    rw [List.length_cons] at hcols hlength
    have hmore : enc.currCol + 1 ≠ enc.numCols := by omega
    have hstep := encodeField_text hfield enc
    rw [if_neg hmore] at hstep
    rw [encodeFields_cons hstep]
    refine (ih hfields _ (by dsimp only; omega)).trans ?_
    simp only [Nat.succ_ne_zero, if_false, laterText, List.flatMap_cons, List.append_assoc,
      List.cons_append, List.nil_append]

end Writing

section Reading
variable {libs : EncodeLibraries}

private theorem readValue_stop {next : UInt8} (hnext : next = 44 ∨ next = 41)
    (rest : List UInt8) : readValue false (next :: rest) = some ([], next :: rest) := by
  unfold readValue
  rcases hnext with rfl | rfl <;> exact if_pos rfl

private theorem readValue_escape (quoted : Bool) (byte : UInt8) (rest : List UInt8) :
    readValue quoted (92 :: byte :: rest) =
      (readValue quoted rest).map (Prod.map (List.cons byte) id) := by
  conv_lhs => unfold readValue
  rw [if_neg (by cases quoted <;> decide), if_pos rfl]

theorem readValue_open (rest : List UInt8) :
    readValue false (34 :: rest) = readValue true rest := by
  conv_lhs => unfold readValue
  rw [if_neg (by decide), if_neg (by decide), if_pos rfl]
  rfl

private theorem readValue_close {next : UInt8} (hnext : next = 44 ∨ next = 41)
    (rest : List UInt8) : readValue true (34 :: next :: rest) = some ([], next :: rest) := by
  rw [← readValue_stop hnext rest]
  conv_lhs => unfold readValue
  rw [if_neg (by decide), if_neg (by decide), if_pos rfl]
  rcases hnext with rfl | rfl <;> rfl

private theorem readValue_byte {quoted : Bool} {byte : UInt8} (hquote : byte ≠ 34)
    (hescape : byte ≠ 92) (hinside : quoted = true ∨ byte ≠ 44 ∧ byte ≠ 41) (rest : List UInt8) :
    readValue quoted (byte :: rest) = (readValue quoted rest).map (Prod.map (List.cons byte) id) := by
  have hgo : ¬ (!quoted && (byte == 44 || byte == 41)) = true := by
    rcases hinside with rfl | ⟨hcomma, hparen⟩
    · exact Bool.false_ne_true
    · simp [hcomma, hparen]
  conv_lhs => unfold readValue
  rw [if_neg hgo, if_neg hescape, if_neg hquote]

/-- An escaped text in quotes is read to its closing quote. -/
theorem readValue_escaped {next : UInt8} (hnext : next = 44 ∨ next = 41)
    (text rest : List UInt8) :
    readValue true (text.flatMap escapeByte ++ 34 :: next :: rest) = some (text, next :: rest) := by
  induction text with
  | nil => exact readValue_close hnext rest
  | cons byte text ih =>
    rw [List.flatMap_cons, List.append_assoc]
    by_cases hbyte : byte = 34 ∨ byte = 92
    · have hone : escapeByte byte = [92, byte] := if_pos hbyte
      rw [hone, List.cons_append, List.singleton_append, readValue_escape, ih]
      rfl
    · have hone : escapeByte byte = [byte] := if_neg hbyte
      have hquote : byte ≠ 34 := fun h => hbyte (.inl h)
      have hescape : byte ≠ 92 := fun h => hbyte (.inr h)
      rw [hone, List.singleton_append, readValue_byte hquote hescape (.inl rfl), ih]
      rfl

private theorem readValue_plain {next : UInt8} (hnext : next = 44 ∨ next = 41)
    (rest : List UInt8) {text : List UInt8}
    (hplain : ∀ byte ∈ text, (byte ≠ 34 ∧ byte ≠ 44 ∧ byte ≠ 92) ∧ byte ≠ 41) :
    readValue false (text ++ next :: rest) = some (text, next :: rest) := by
  induction text with
  | nil => exact readValue_stop hnext rest
  | cons byte text ih =>
    obtain ⟨⟨hquote, hcomma, hescape⟩, hparen⟩ := hplain byte List.mem_cons_self
    rw [List.cons_append, readValue_byte hquote hescape (.inr ⟨hcomma, hparen⟩),
      ih fun byte hbyte => hplain byte (List.mem_cons_of_mem _ hbyte)]
    rfl

theorem readColumn_value {bytes : List UInt8} {byte : UInt8} (hcomma : byte ≠ 44)
    (hparen : byte ≠ 41) :
    readColumn (byte :: bytes) = (readValue false (byte :: bytes)).map (Prod.map some id) := by
  refine if_neg ?_
  rintro (h | h) <;> cases h
  · exact hcomma rfl
  · exact hparen rfl

theorem readColumn_plain {next : UInt8} (hnext : next = 44 ∨ next = 41)
    (rest : List UInt8) {text : List UInt8} (hne : text ≠ [])
    (hplain : ∀ byte ∈ text, (byte ≠ 34 ∧ byte ≠ 44 ∧ byte ≠ 92) ∧ byte ≠ 41) :
    readColumn (text ++ next :: rest) = some (some text, next :: rest) := by
  have hvalue := readValue_plain hnext rest hplain
  cases text with
  | nil => exact absurd rfl hne
  | cons byte text =>
    obtain ⟨⟨-, hcomma, -⟩, hparen⟩ := hplain byte List.mem_cons_self
    rw [List.cons_append] at hvalue ⊢
    rw [readColumn_value hcomma hparen, hvalue]
    rfl

private theorem readColumn_columnText (hquotes : libs.Quotes) (buf : List UInt8) {next : UInt8}
    (hnext : next = 44 ∨ next = 41) (rest : List UInt8) :
    (∃ value, readColumn (columnText libs buf ++ next :: rest) = some (some value, next :: rest)) ∨
      ∃ cell tail, readColumn (columnText libs buf ++ next :: rest) =
        some (cell, 41 :: (tail ++ next :: rest)) := by
  unfold columnText
  split
  · obtain ⟨text, htext⟩ := hquotes.quoteEscape buf
    left
    refine ⟨text, ?_⟩
    rw [htext, List.append_assoc, List.singleton_append, List.cons_append,
      readColumn_value (by decide) (by decide), readValue_open, readValue_escaped hnext]
    rfl
  · rename_i hcheck
    have hplain : ∀ byte ∈ buf, byte ≠ 34 ∧ byte ≠ 44 ∧ byte ≠ 92 := by
      intro byte hbyte
      have hquote := fun h => hcheck (hquotes.quoteCheck_of_mem buf byte hbyte h)
      exact ⟨fun h => hquote (.inl h), fun h => hquote (.inr (.inl h)),
        fun h => hquote (.inr (.inr h))⟩
    by_cases hparen : 41 ∈ buf
    · right
      obtain ⟨front, tail, rfl, hfront⟩ := List.eq_append_cons_of_mem hparen
      rw [List.append_assoc, List.cons_append]
      by_cases hnil : front = []
      · rw [hnil]
        exact ⟨none, tail, if_pos (.inr rfl)⟩
      · refine ⟨some front, tail, readColumn_plain (.inr rfl) _ hnil fun byte hbyte => ?_⟩
        exact ⟨hplain byte (List.mem_append_left _ hbyte), fun h => hfront (h ▸ hbyte)⟩
    · left
      have hne : buf ≠ [] := by
        rintro rfl
        exact hcheck hquotes.quoteCheck_nil
      exact ⟨buf, readColumn_plain hnext rest hne fun byte hbyte =>
        ⟨hplain byte hbyte, fun h => hparen (h ▸ hbyte)⟩⟩

private theorem expectByte_eq_some {byte first : UInt8} {rest rest' : List UInt8} {u : Unit}
    (h : expectByte byte (first :: rest) = some (u, rest')) : first = byte ∧ rest' = rest := by
  change (if first = byte then some ((), rest) else none) = _ at h
  split at h
  · rename_i heq
    cases h
    exact ⟨heq, rfl⟩
  · cases h

private theorem readColumns_end {bytes : List UInt8} {columns : List Cell}
    (h : readColumns 0 (41 :: bytes) = some (columns, [])) :
    columns = [] ∧ bytes.dropWhile isBlank = [] := by
  change (expectByte 41 >>= fun _ => skipBlanks >>= fun _ => pure []) _ = _ at h
  obtain ⟨u, mid, hend, hrest⟩ := Reader.bind_eq_some h
  cases (expectByte_eq_some hend).2
  obtain ⟨u', mid', hblanks, hnil⟩ := Reader.bind_eq_some hrest
  cases hblanks
  have hpair := Option.some.inj hnil
  exact ⟨(congrArg Prod.fst hpair).symm, congrArg Prod.snd hpair⟩

private theorem readColumns_next {n : Nat} {byte : UInt8} {bytes : List UInt8}
    {columns : List Cell} (h : readColumns (n + 1) (byte :: bytes) = some (columns, [])) :
    byte = 44 ∧ ∃ column mid columns', readColumn bytes = some (column, mid) ∧
      readColumns n mid = some (columns', []) ∧ columns = column :: columns' := by
  change (expectByte 44 >>= fun _ => readColumn >>= fun column =>
    List.cons column <$> readColumns n) _ = _ at h
  obtain ⟨u, mid, hcomma, hrest⟩ := Reader.bind_eq_some h
  obtain ⟨hbyte, rfl⟩ := expectByte_eq_some hcomma
  obtain ⟨column, mid', hcolumn, hmap⟩ := Reader.bind_eq_some hrest
  obtain ⟨columns', hcolumns, rfl⟩ := Reader.map_eq_some hmap
  exact ⟨hbyte, column, mid', columns', hcolumn, hcolumns, rfl⟩

private theorem readColumns_early (n : Nat) {tail : List UInt8} (hmore : 41 ∈ tail)
    {columns : List Cell} : readColumns n (41 :: tail) ≠ some (columns, []) := by
  intro h
  cases n with
  | zero =>
    have hblank := List.dropWhile_eq_nil_iff.mp (readColumns_end h).2 41 hmore
    cases hblank
  | succ n => cases (readColumns_next h).1

theorem laterText_head (libs : EncodeLibraries) (bufs : List (List UInt8)) :
    ∃ next rest, (next = 44 ∨ next = 41) ∧ laterText libs bufs = next :: rest := by
  cases bufs with
  | nil => exact ⟨41, [], .inr rfl, rfl⟩
  | cons buf bufs => exact ⟨44, _, .inl rfl, rfl⟩

private theorem readColumn_first (hquotes : libs.Quotes) (buf : List UInt8)
    (bufs : List (List UInt8)) {column : Cell} {mid : List UInt8} {columns : List Cell}
    (hcolumn : readColumn (columnText libs buf ++ laterText libs bufs) = some (column, mid))
    (hcolumns : readColumns bufs.length mid = some (columns, [])) :
    column ≠ none ∧ mid = laterText libs bufs := by
  obtain ⟨next, rest, hnext, htext⟩ := laterText_head libs bufs
  rw [htext] at hcolumn ⊢
  rcases readColumn_columnText hquotes buf hnext rest with ⟨value, hvalue⟩ | ⟨cell, tail, hearly⟩
  · cases hvalue.symm.trans hcolumn
    exact ⟨nofun, rfl⟩
  · cases hearly.symm.trans hcolumn
    have hmore : 41 ∈ tail ++ next :: rest := by
      rw [← htext]
      exact List.mem_append_right _ (List.mem_append_right _ List.mem_cons_self)
    exact absurd hcolumns (readColumns_early _ hmore)

private theorem readColumns_laterText (hquotes : libs.Quotes) {bufs : List (List UInt8)}
    {columns : List Cell} (h : readColumns bufs.length (laterText libs bufs) = some (columns, [])) :
    none ∉ columns := by
  induction bufs generalizing columns with
  | nil =>
    rw [(readColumns_end h).1]
    exact List.not_mem_nil
  | cons buf bufs ih =>
    have htext : laterText libs (buf :: bufs) =
        44 :: (columnText libs buf ++ laterText libs bufs) := by
      simp only [laterText, List.flatMap_cons, List.cons_append, List.append_assoc]
    rw [htext] at h
    obtain ⟨-, column, mid, columns', hcolumn, hcolumns, rfl⟩ := readColumns_next h
    obtain ⟨hvalue, rfl⟩ := readColumn_first hquotes buf bufs hcolumn hcolumns
    rw [List.mem_cons, not_or]
    exact ⟨hvalue.symm, ih hcolumns⟩

end Reading

section Nulls
variable {libs : EncodeLibraries} {fields : List (FieldValue × FieldInfo)}

theorem textOf_columns {buf : List UInt8} {bufs : List (List UInt8)}
    (h : List.Forall₂ (SendsText libs) fields (buf :: bufs)) :
    TextOf libs fields (40 :: (columnText libs buf ++ laterText libs bufs)) := by
  refine ⟨_, encodeFields_text h (.new fields.length) (Nat.zero_add _), ?_⟩
  simp only [StructEncoder.new, if_true, List.nil_append, List.cons_append]

private theorem exists_bufs (htext : ∀ field ∈ fields, field.2.format = .text ∧
    ∃ cell, fieldCell libs field.1 field.2 = .ok cell) :
    ∃ bufs, List.Forall₂ (SendsText libs) fields bufs := by
  induction fields with
  | nil => exact ⟨[], .nil⟩
  | cons field fields ih =>
    obtain ⟨hformat, cell, hcell⟩ := htext field List.mem_cons_self
    obtain ⟨bufs, hbufs⟩ := ih fun field hfield => htext field (List.mem_cons_of_mem _ hfield)
    exact ⟨_, .cons ⟨hformat, cell, hcell, rfl⟩ hbufs⟩

private theorem sendsText_set {bufs : List (List UInt8)}
    (h : List.Forall₂ (SendsText libs) fields bufs) {p : Nat} {null empty : FieldValue}
    {pgField : FieldInfo} (hfield : fields[p]? = some (null, pgField))
    (hnull : fieldCell libs null pgField = .ok none)
    (hempty : fieldCell libs empty pgField = .ok (some [])) :
    List.Forall₂ (SendsText libs) (fields.set p (empty, pgField)) bufs := by
  induction h generalizing p with
  | nil => exact .nil
  | cons hsends hrest ih =>
    cases p with
    | zero =>
      cases hfield
      obtain ⟨hformat, cell, hcell, rfl⟩ := hsends
      cases hnull.symm.trans hcell
      exact .cons ⟨hformat, some [], hempty, rfl⟩ hrest
    | succ p => exact .cons hsends (ih hfield)

/-- A record that is read at all has no NULL in it. -/
theorem recordIn_columns (hquotes : libs.Quotes) {buf : List UInt8} {bufs : List (List UInt8)}
    {columns : List Cell} (h : recordIn (bufs.length + 1)
      (40 :: (columnText libs buf ++ laterText libs bufs)) = some columns) :
    none ∉ columns := by
  have hread := Reader.whole_eq_some h
  change (skipBlanks >>= fun _ => expectByte 40 >>= fun _ => readColumn >>= fun column =>
    List.cons column <$> readColumns bufs.length) _ = _ at hread
  obtain ⟨u, mid, hblanks, hrest⟩ := Reader.bind_eq_some hread
  cases hblanks
  obtain ⟨u', mid', hopen, hrest⟩ := Reader.bind_eq_some hrest
  obtain ⟨-, rfl⟩ := expectByte_eq_some hopen
  obtain ⟨column, mid'', hcolumn, hmap⟩ := Reader.bind_eq_some hrest
  obtain ⟨columns', hcolumns, rfl⟩ := Reader.map_eq_some hmap
  obtain ⟨hvalue, rfl⟩ := readColumn_first hquotes buf bufs hcolumn hcolumns
  rw [List.mem_cons, not_or]
  exact ⟨hvalue.symm, readColumns_laterText hquotes hcolumns⟩

/-- A NULL in a struct is never read back from its text, which is the one of the struct with
the empty string in its place. -/
theorem nullColumn_lost (hquotes : libs.Quotes)
    (htext : ∀ field ∈ fields, field.2.format = .text ∧
      ∃ cell, fieldCell libs field.1 field.2 = .ok cell) {p : Nat} {null empty : FieldValue}
    {pgField : FieldInfo} (hfield : fields[p]? = some (null, pgField))
    (hnull : fieldCell libs null pgField = .ok none)
    (hempty : fieldCell libs empty pgField = .ok (some [])) :
    ¬ ReadsNull libs fields p ∧ ¬ DiffersFrom libs fields p (empty, pgField) := by
  obtain ⟨bufs, hbufs⟩ := exists_bufs htext
  have hset := sendsText_set hbufs hfield hnull hempty
  cases bufs with
  | nil =>
    cases hbufs
    cases hfield
  | cons buf bufs =>
    have hsame := textOf_columns hbufs
    constructor
    · intro hreads
      obtain ⟨columns, hcolumns, hcolumn⟩ := hreads _ hsame
      rw [hbufs.length_eq] at hcolumns
      exact recordIn_columns hquotes hcolumns (List.mem_of_getElem? hcolumn)
    · intro hdiffers
      exact hdiffers _ _ hsame (textOf_columns hset) rfl

end Nulls

section Examples

theorem referenceEncoding_quotes : referenceEncoding.Quotes where
  quoteCheck_nil := rfl
  quoteCheck_of_mem := by
    intro bytes byte hbyte hspecial
    have hany : bytes.any (fun byte =>
        [123, 125, 44, 34, 92, 32, 9, 10, 11, 12, 13].contains byte) = true := by
      refine List.any_eq_true.mpr ⟨byte, hbyte, ?_⟩
      rcases hspecial with rfl | rfl | rfl <;> decide
    change (_ || _ || bytes.any _) = true
    rw [hany, Bool.or_true]
  quoteEscape bytes := ⟨bytes, rfl⟩

/-- A text in the text format. -/
def remarkInfo : FieldInfo := ⟨"remark", .text, .text, ⟨"ISO, MDY", "postgres", "hex", 1⟩⟩

private theorem emptyString_cell :
    fieldCell referenceEncoding (.scalar (some (.str ""))) remarkInfo = .ok (some []) := by
  have hbytes : utf8Bytes "" = [] := by decide +kernel
  change Except.ok (some (utf8Bytes "")) = _
  rw [hbytes]

theorem remarks_null_lost :
    ¬ ReadsNull referenceEncoding
        [(.scalar (some (.str "ab")), remarkInfo), (.scalar none, remarkInfo)] 1 ∧
      ¬ DiffersFrom referenceEncoding
        [(.scalar (some (.str "ab")), remarkInfo), (.scalar none, remarkInfo)] 1
        (.scalar (some (.str "")), remarkInfo) := by
  refine nullColumn_lost referenceEncoding_quotes ?_ rfl rfl emptyString_cell
  intro field hfield
  rw [List.mem_cons, List.mem_singleton] at hfield
  rcases hfield with rfl | rfl <;> exact ⟨rfl, _, rfl⟩

/-- The struct of one NULL has the text of one empty string. -/
theorem oneNull_not_kept :
    ¬ ∀ (libs : EncodeLibraries), libs.Quotes → ∀ (fields : List (FieldValue × FieldInfo))
      (p : Nat) (null empty : FieldValue) (pgField : FieldInfo),
      (∀ field ∈ fields, field.2.format = .text ∧
        ∃ cell, fieldCell libs field.1 field.2 = .ok cell) →
      fields[p]? = some (null, pgField) → fieldCell libs null pgField = .ok none →
      fieldCell libs empty pgField = .ok (some []) →
        ReadsNull libs fields p ∧ DiffersFrom libs fields p (empty, pgField) := by
  intro h
  have htext : ∀ field ∈ [(FieldValue.scalar none, remarkInfo)], field.2.format = .text ∧
      ∃ cell, fieldCell referenceEncoding field.1 field.2 = .ok cell := by
    intro field hfield
    rw [List.mem_singleton] at hfield
    rw [hfield]
    exact ⟨rfl, none, rfl⟩
  obtain ⟨hreads, -⟩ := h referenceEncoding referenceEncoding_quotes _ 0 _ _ remarkInfo htext rfl
    rfl emptyString_cell
  obtain ⟨columns, hcolumns, hcolumn⟩ := hreads [40, 34, 34, 41] ⟨_, rfl, rfl⟩
  have hempty : recordIn 1 [40, 34, 34, 41] = some [some []] := by decide
  cases hempty.symm.trans hcolumns
  cases hcolumn

end Examples
end DatafusionPostgres.ArrowPg

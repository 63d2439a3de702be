import DatafusionPostgres.ArrowPg.CompositeText
import DatafusionPostgres.Library.Text

/-! A tree of structs with strings in it is read back from its text, at any depth. -/
namespace DatafusionPostgres.ArrowPg
open Library

/-- A tree of structs, with strings as its leaves. -/
inductive TextTree where
  | leaf (text : String)
  | node (fields : List TextTree)

mutual
/-- Every struct of the tree has a field. -/
def TextTree.Full : TextTree → Prop
  | .leaf _ => True
  | .node fields => fields ≠ [] ∧ AllFull fields

def TextTree.AllFull : List TextTree → Prop
  | [] => True
  | tree :: trees => tree.Full ∧ AllFull trees
end

mutual
/-- The reader knows from the types which fields are structs. -/
def TextTree.layout : TextTree → Layout
  | .leaf _ => .simple
  | .node fields => .composite (layouts fields)

def TextTree.layouts : List TextTree → List Layout
  | [] => []
  | tree :: trees => tree.layout :: layouts trees
end

mutual
/-- A cell read as a string, or as a record of cells that are read in turn. -/
def readTree : Layout → Cell → Option TextTree
  | _, none => none
  | .simple, some bytes => .leaf <$> String.fromUTF8? bytes.toByteArray
  | .composite layouts, some bytes => do
    let columns ← recordIn layouts.length bytes
    .node <$> readTrees layouts columns

def readTrees : List Layout → List Cell → Option (List TextTree)
  | [], [] => some []
  | layout :: layouts, column :: columns => do
    let tree ← readTree layout column
    List.cons tree <$> readTrees layouts columns
  | _, _ => none
end

/-- What is relied on of the wire library: a text that is empty or has one of the characters
of the record syntax is quoted, and escaped are its quotes and its backslashes. -/
structure EncodeLibraries.QuotesText (libs : EncodeLibraries) : Prop where
  quoteCheck_empty : libs.quoteCheck (utf8Bytes "") = true
  quoteCheck_of_mem : ∀ text : String, ∀ byte ∈ utf8Bytes text,
    byte ∈ [34, 40, 41, 44, 92] → libs.quoteCheck (utf8Bytes text) = true
  quoteEscape : ∀ text : String,
    libs.quoteEscape (utf8Bytes text) = (utf8Bytes text).flatMap escapeByte

mutual
/-- A string that is sent as its bytes, or the buffer of a nested encoder. -/
inductive SendsTree (libs : EncodeLibraries) : FieldValue × FieldInfo → TextTree → Prop
  | leaf {field : FieldValue × FieldInfo} {text : String} (hformat : field.2.format = .text)
      (hcell : fieldCell libs field.1 field.2 = .ok (some (utf8Bytes text))) :
      SendsTree libs field (.leaf text)
  | node {fields : List (FieldValue × FieldInfo)} {trees : List TextTree} {enc : StructEncoder}
      {pgField : FieldInfo} (hfields : SendsTrees libs fields trees) (hne : fields ≠ [])
      (hrun : encodeFields libs fields (.new fields.length) = .ok () enc)
      (hformat : pgField.format = .text) :
      SendsTree libs (.scalar (some (.wrapper enc.rowBuffer false)), pgField) (.node trees)

inductive SendsTrees (libs : EncodeLibraries) :
    List (FieldValue × FieldInfo) → List TextTree → Prop
  | nil : SendsTrees libs [] []
  | cons {field : FieldValue × FieldInfo} {tree : TextTree}
      {fields : List (FieldValue × FieldInfo)} {trees : List TextTree}
      (hfield : SendsTree libs field tree) (hfields : SendsTrees libs fields trees) :
      SendsTrees libs (field :: fields) (tree :: trees)
end

section Utf8

theorem utf8Bytes_eq (text : String) :
    utf8Bytes text = text.toList.flatMap String.utf8EncodeChar := by
  rw [utf8Bytes, toList_byteArray, String.toUTF8_eq_toByteArray, ← String.utf8Encode_toList,
    List.utf8Encode, List.toList_data_toByteArray]

theorem utf8Bytes_append (text text' : String) :
    utf8Bytes (text ++ text') = utf8Bytes text ++ utf8Bytes text' := by
  rw [utf8Bytes_eq, String.toList_append, List.flatMap_append, ← utf8Bytes_eq, ← utf8Bytes_eq]

theorem utf8Bytes_ofList (cs : List Char) :
    utf8Bytes (String.ofList cs) = cs.flatMap String.utf8EncodeChar := by
  rw [utf8Bytes_eq, String.toList_ofList]

theorem fromUTF8_utf8Bytes (text : String) :
    String.fromUTF8? (utf8Bytes text).toByteArray = some text := by
  have hbytes : (utf8Bytes text).toByteArray = text.toByteArray := by
    rw [utf8Bytes_eq]
    exact String.utf8Encode_toList
  rw [String.fromUTF8?, hbytes, dif_pos text.isValidUTF8]
  rfl

/-- The bytes are a text in UTF-8. -/
def IsText (bytes : List UInt8) : Prop := ∃ text : String, utf8Bytes text = bytes

theorem IsText.append {bytes bytes' : List UInt8} (h : IsText bytes) (h' : IsText bytes') :
    IsText (bytes ++ bytes') := by
  obtain ⟨text, rfl⟩ := h
  obtain ⟨text', rfl⟩ := h'
  exact ⟨text ++ text', utf8Bytes_append text text'⟩

theorem isText_char {c : Char} {byte : UInt8} (h : String.utf8EncodeChar c = [byte]) :
    IsText [byte] :=
  ⟨String.ofList [c], by rw [utf8Bytes_ofList, List.flatMap_singleton, h]⟩

def escapeChar (c : Char) : List Char := if c = '"' ∨ c = '\\' then ['\\', c] else [c]

private theorem escapeByte_char (c : Char) :
    (String.utf8EncodeChar c).flatMap escapeByte =
      (escapeChar c).flatMap String.utf8EncodeChar := by
  by_cases hc : c = '"' ∨ c = '\\'
  · rcases hc with rfl | rfl <;> decide
  · have hplain : ∀ byte ∈ String.utf8EncodeChar c, escapeByte byte = [byte] := by
      intro byte hbyte
      apply if_neg
      by_cases hascii : c.val.toNat < 128
      · have hone : String.utf8EncodeChar c = [.ofNat c.val.toNat] := if_pos (by omega)
        rw [hone, List.mem_singleton] at hbyte
        have hval : byte.toNat = c.val.toNat := by
          rw [hbyte]
          exact UInt8.toNat_ofNat_of_lt' (Nat.lt_trans hascii (by decide))
        rintro (rfl | rfl)
        · exact hc (.inl (Char.ext (UInt32.toNat_inj.mp hval.symm)))
        · exact hc (.inr (Char.ext (UInt32.toNat_inj.mp hval.symm)))
      · have hhigh := utf8EncodeChar_high (Nat.le_of_not_lt hascii) byte hbyte
        rintro (rfl | rfl) <;> exact absurd hhigh (by decide)
    rw [escapeChar, if_neg hc, List.flatMap_singleton, List.flatMap_congr hplain,
      List.flatMap_singleton']

theorem IsText.escape {bytes : List UInt8} (h : IsText bytes) :
    IsText (bytes.flatMap escapeByte) := by
  obtain ⟨text, rfl⟩ := h
  refine ⟨String.ofList (text.toList.flatMap escapeChar), ?_⟩
  rw [utf8Bytes_ofList, utf8Bytes_eq, List.flatMap_assoc, List.flatMap_assoc]
  exact List.flatMap_congr fun c _ => (escapeByte_char c).symm

end Utf8

section Reading
variable {libs : EncodeLibraries}

private theorem isText_columnText (hquotes : libs.QuotesText) {buf : List UInt8}
    (h : IsText buf) : IsText (columnText libs buf) := by
  unfold columnText
  split
  · have hquote : IsText [34] := isText_char (c := '"') rfl
    obtain ⟨text, rfl⟩ := h
    rw [hquotes.quoteEscape]
    exact (hquote.append (IsText.escape ⟨text, rfl⟩)).append hquote
  · exact h

private theorem readColumn_text (hquotes : libs.QuotesText) {buf : List UInt8} (h : IsText buf)
    {next : UInt8} (hnext : next = 44 ∨ next = 41) (rest : List UInt8) :
    readColumn (columnText libs buf ++ next :: rest) = some (some buf, next :: rest) := by
  obtain ⟨text, rfl⟩ := h
  unfold columnText
  split
  · rw [hquotes.quoteEscape, List.append_assoc, List.singleton_append, List.cons_append,
      readColumn_value (by decide) (by decide), readValue_open, readValue_escaped hnext]
    rfl
  · rename_i hcheck
    apply readColumn_plain hnext
    · intro hnil
      have hempty : utf8Bytes "" = [] := by
        rw [utf8Bytes_eq]
        rfl
      rw [hnil, ← hempty] at hcheck
      exact hcheck hquotes.quoteCheck_empty
    · intro byte hbyte
      have hplain : byte ∉ [34, 40, 41, 44, 92] := fun hmem =>
        hcheck (hquotes.quoteCheck_of_mem text byte hbyte hmem)
      simp only [List.mem_cons, not_or] at hplain
      obtain ⟨hquote, -, hclose, hcomma, hescape, -⟩ := hplain
      exact ⟨⟨hquote, hcomma, hescape⟩, hclose⟩

private theorem readColumns_laterTree (hquotes : libs.QuotesText) {bufs : List (List UInt8)}
    (h : ∀ buf ∈ bufs, IsText buf) :
    readColumns bufs.length (laterText libs bufs) = some (bufs.map some, []) := by
  induction bufs with
  | nil => rfl
  | cons buf bufs ih =>
    obtain ⟨hbuf, hbufs⟩ := List.forall_mem_cons.mp h
    have htext : laterText libs (buf :: bufs) =
        44 :: (columnText libs buf ++ laterText libs bufs) := by
      simp only [laterText, List.flatMap_cons, List.cons_append, List.append_assoc]
    obtain ⟨next, rest, hnext, hlater⟩ := laterText_head libs bufs
    have hcolumn := readColumn_text hquotes hbuf hnext rest
    rw [← hlater] at hcolumn
    rw [htext, List.length_cons, readColumns]
    refine (Reader.bind_run (a := ()) rfl _).trans ((Reader.bind_run hcolumn _).trans ?_)
    rw [map_eq_pure_bind]
    exact Reader.bind_run (ih hbufs) _

/-- The text of a record is read as its columns. -/
theorem recordIn_text (hquotes : libs.QuotesText) {buf : List UInt8} {bufs : List (List UInt8)}
    (h : ∀ column ∈ buf :: bufs, IsText column) :
    recordIn (bufs.length + 1) (40 :: (columnText libs buf ++ laterText libs bufs)) =
      some ((buf :: bufs).map some) := by
  obtain ⟨hbuf, hbufs⟩ := List.forall_mem_cons.mp h
  obtain ⟨next, rest, hnext, hlater⟩ := laterText_head libs bufs
  have hcolumn := readColumn_text hquotes hbuf hnext rest
  rw [← hlater] at hcolumn
  have hread : (do
      skipBlanks
      expectByte 40
      let column ← readColumn
      List.cons column <$> readColumns bufs.length : Reader UInt8 (List Cell))
      (40 :: (columnText libs buf ++ laterText libs bufs)) =
        some ((buf :: bufs).map some, []) := by
    refine (Reader.bind_run (a := ()) rfl _).trans ((Reader.bind_run (a := ()) rfl _).trans
      ((Reader.bind_run hcolumn _).trans ?_))
    rw [map_eq_pure_bind]
    exact Reader.bind_run (readColumns_laterTree hquotes hbufs) _
  exact Reader.whole_of_run hread

end Reading

section RoundTrip
variable {libs : EncodeLibraries}

theorem SendsTrees.length_layouts {fields : List (FieldValue × FieldInfo)}
    {trees : List TextTree} (h : SendsTrees libs fields trees) :
    (TextTree.layouts trees).length = fields.length := by
  induction trees generalizing fields with
  | nil =>
    cases h
    rfl
  | cons tree trees ih =>
    cases h with
    | cons hfield hfields => exact congrArg Nat.succ (ih hfields)

private theorem isText_record (hquotes : libs.QuotesText) {buf : List UInt8}
    {bufs : List (List UInt8)} (h : ∀ column ∈ buf :: bufs, IsText column) :
    IsText (40 :: (columnText libs buf ++ laterText libs bufs)) := by
  obtain ⟨hbuf, hbufs⟩ := List.forall_mem_cons.mp h
  have hopen : IsText [40] := isText_char (c := '(') rfl
  have hcomma : IsText [44] := isText_char (c := ',') rfl
  have hclose : IsText [41] := isText_char (c := ')') rfl
  have hlater : IsText (laterText libs bufs) := by
    clear h
    induction bufs with
    | nil => exact hclose
    | cons buf bufs ih =>
      obtain ⟨hnext, hrest⟩ := List.forall_mem_cons.mp hbufs
      have htail := (hcomma.append (isText_columnText hquotes hnext)).append (ih hrest)
      simpa only [laterText, List.flatMap_cons, List.append_assoc, List.cons_append,
        List.nil_append] using htail
  exact hopen.append ((isText_columnText hquotes hbuf).append hlater)

mutual
/-- The text of a field is read as what the field is. -/
theorem SendsTree.readTree (hquotes : libs.QuotesText) {field : FieldValue × FieldInfo}
    {tree : TextTree} (h : SendsTree libs field tree) :
    ∃ buf, field.2.format = .text ∧ fieldCell libs field.1 field.2 = .ok (some buf) ∧
      IsText buf ∧ readTree tree.layout (some buf) = some tree := by
  cases h with
  | leaf hformat hcell =>
    refine ⟨_, hformat, hcell, ⟨_, rfl⟩, ?_⟩
    rw [TextTree.layout, ArrowPg.readTree, fromUTF8_utf8Bytes]
    rfl
  | @node fields trees enc pgField hfields hne hrun hformat =>
    obtain ⟨bufs, hbufs, htexts, hread⟩ := hfields.readTrees hquotes
    have hcount : (TextTree.layouts trees).length = bufs.length := by
      rw [← hbufs.length_eq]
      exact hfields.length_layouts
    cases bufs with
    | nil =>
      cases hbufs
      exact absurd rfl hne
    | cons buf bufs =>
      obtain ⟨enc', hrun', hbuffer⟩ := textOf_columns hbufs
      rw [hrun] at hrun'
      cases hrun'
      refine ⟨enc.rowBuffer, hformat, ?_, ?_, ?_⟩
      · change Except.ok (some (bytesWrapper libs pgField.format enc.rowBuffer false)) = _
        rw [hformat]
        rfl
      · rw [hbuffer]
        exact isText_record hquotes htexts
      · rw [TextTree.layout, ArrowPg.readTree, hcount, hbuffer, List.length_cons,
          recordIn_text hquotes htexts]
        simp only [Option.bind_eq_bind, Option.bind_some, hread]
        rfl

theorem SendsTrees.readTrees (hquotes : libs.QuotesText) {fields : List (FieldValue × FieldInfo)}
    {trees : List TextTree} (h : SendsTrees libs fields trees) :
    ∃ bufs, List.Forall₂ (SendsText libs) fields bufs ∧ (∀ buf ∈ bufs, IsText buf) ∧
      readTrees (TextTree.layouts trees) (bufs.map some) = some trees := by
  cases h with
  | nil => exact ⟨[], .nil, nofun, rfl⟩
  | cons hfield hfields =>
    obtain ⟨buf, hformat, hcell, htext, hread⟩ := hfield.readTree hquotes
    obtain ⟨bufs, hbufs, htexts, hreads⟩ := hfields.readTrees hquotes
    refine ⟨buf :: bufs, .cons ⟨hformat, _, hcell, rfl⟩ hbufs,
      List.forall_mem_cons.mpr ⟨htext, htexts⟩, ?_⟩
    rw [TextTree.layouts, List.map_cons, ArrowPg.readTrees, hread]
    simp only [Option.bind_eq_bind, Option.bind_some, hreads]
    rfl
end

/-- A tree of structs is read back from the text that is sent for it. -/
theorem tree_roundTrip (hquotes : libs.QuotesText) {field : FieldValue × FieldInfo}
    {tree : TextTree} (h : SendsTree libs field tree) :
    ∃ bytes, fieldCell libs field.1 field.2 = .ok (some bytes) ∧
      readTree tree.layout (some bytes) = some tree := by
  obtain ⟨buf, -, hcell, -, hread⟩ := h.readTree hquotes
  exact ⟨buf, hcell, hread⟩

mutual
/-- Every tree of structs with fields is sent by a library that sends a string as its bytes. -/
theorem exists_sendsTree (hquotes : libs.QuotesText) {pgField : FieldInfo}
    (hformat : pgField.format = .text)
    (hstring : ∀ text, fieldCell libs (.scalar (some (.str text))) pgField =
      .ok (some (utf8Bytes text))) :
    ∀ tree : TextTree, tree.Full → ∃ value, SendsTree libs (value, pgField) tree
  | .leaf text, _ => ⟨_, .leaf hformat (hstring text)⟩
  | .node trees, hfull => by
    obtain ⟨hne, hall⟩ := hfull
    obtain ⟨fields, hfields⟩ := exists_sendsTrees hquotes hformat hstring trees hall
    obtain ⟨bufs, hbufs, -, -⟩ := hfields.readTrees hquotes
    have hne' : fields ≠ [] := by
      rintro rfl
      cases hfields
      exact hne rfl
    cases bufs with
    | nil =>
      cases hbufs
      exact absurd rfl hne'
    | cons buf bufs =>
      obtain ⟨enc, hrun, -⟩ := textOf_columns hbufs
      exact ⟨_, .node hfields hne' hrun hformat⟩

theorem exists_sendsTrees (hquotes : libs.QuotesText) {pgField : FieldInfo}
    (hformat : pgField.format = .text)
    (hstring : ∀ text, fieldCell libs (.scalar (some (.str text))) pgField =
      .ok (some (utf8Bytes text))) :
    ∀ trees : List TextTree, TextTree.AllFull trees → ∃ fields, SendsTrees libs fields trees
  | [], _ => ⟨[], .nil⟩
  | tree :: trees, hfull => by
    obtain ⟨value, htree⟩ := exists_sendsTree hquotes hformat hstring tree hfull.1
    obtain ⟨fields, hfields⟩ := exists_sendsTrees hquotes hformat hstring trees hfull.2
    exact ⟨(value, pgField) :: fields, .cons htree hfields⟩
end

end RoundTrip

section Examples

/-- The reference library, with the quoting of records. -/
def recordEncoding : EncodeLibraries :=
  { referenceEncoding with
    quoteCheck := fun bytes => bytes.isEmpty || bytes.any fun byte =>
      [34, 40, 41, 44, 92, 32, 9, 10, 11, 12, 13].contains byte }

theorem recordEncoding_quotesText : recordEncoding.QuotesText where
  quoteCheck_empty := by
    rw [utf8Bytes_eq]
    rfl
  quoteCheck_of_mem := by
    intro text byte hbyte hspecial
    have hany : (utf8Bytes text).any (fun byte =>
        [34, 40, 41, 44, 92, 32, 9, 10, 11, 12, 13].contains byte) = true := by
      refine List.any_eq_true.mpr ⟨byte, hbyte, List.contains_iff_mem.mpr ?_⟩
      exact List.mem_append_left [32, 9, 10, 11, 12, 13] hspecial
    change (_ || (utf8Bytes text).any _) = true
    rw [hany, Bool.or_true]
  quoteEscape _ := rfl

/-- A string with a quote in it, and a struct of an empty string and one with a comma. -/
def nestedTree : TextTree := .node [.leaf "a\"b", .node [.leaf "", .leaf "x, y"]]

theorem nestedTree_roundTrip :
    ∃ value bytes, fieldCell recordEncoding value remarkInfo = .ok (some bytes) ∧
      readTree (.composite [.simple, .composite [.simple, .simple]]) (some bytes) =
        some nestedTree := by
  have hfull : nestedTree.Full := ⟨nofun, trivial, ⟨nofun, trivial, trivial, trivial⟩, trivial⟩
  have hexists : ∃ value, SendsTree recordEncoding (value, remarkInfo) nestedTree :=
    exists_sendsTree recordEncoding_quotesText rfl (fun _ => rfl) nestedTree hfull
  obtain ⟨value, hsends⟩ := hexists
  exact ⟨value, tree_roundTrip recordEncoding_quotesText hsends⟩

end Examples
end DatafusionPostgres.ArrowPg

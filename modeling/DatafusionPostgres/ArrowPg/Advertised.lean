import DatafusionPostgres.ArrowPg.Encodable
import DatafusionPostgres.ArrowPg.ReferenceEncoding

/-! Every value of a type that is advertised has an encoding, but for those that
`Encodable` leaves out. -/
namespace DatafusionPostgres.ArrowPg
open Library (Succeeds SucceedsAs)

/-- What is relied on of the wire library: it writes every scalar, and the lists of which
it takes the type, as every array type. -/
structure EncodeLibraries.Writes (libs : EncodeLibraries)
    (takesLists : FieldFormat → PgType → Bool) : Prop where
  scalar : ∀ format value type options, Succeeds (libs.toSql format (.scalar value) type options)
  list : ∀ format values type options,
    Succeeds (libs.toSql format (.list values) type options) ↔ takesLists format type = true
  array : ∀ format type member, type.kind = .array member → takesLists format type = true

/-- The program returns from `s`. -/
def Encodes {σ : Type} (prog : EStateM Failure σ Unit) (s : σ) : Prop := ∃ s', prog s = .ok () s'

/-- An encoder that only fails where the cell of the field cannot be written. -/
def Encoder.Follows {σ : Type} (libs : EncodeLibraries) (encoder : Encoder σ) : Prop :=
  ∀ value pgField s,
    Encodes (encoder.encodeField value pgField) s ↔ Succeeds (fieldCell libs value pgField)

theorem dataRowEncoder_follows (libs : EncodeLibraries) : (dataRowEncoder libs).Follows libs := by
  intro value pgField row
  unfold Encodes dataRowEncoder
  dsimp only
  cases fieldCell libs value pgField with
  | ok cell => exact iff_of_true ⟨_, rfl⟩ (Succeeds.ok cell)
  | error failure => exact iff_of_false (fun h => nomatch h) (Succeeds.not_error failure)

theorem structEncoder_follows (libs : EncodeLibraries) : (structEncoder libs).Follows libs := by
  intro value pgField enc
  unfold Encodes structEncoder
  dsimp only
  cases fieldCell libs value pgField with
  | ok cell => exact iff_of_true ⟨_, rfl⟩ (Succeeds.ok cell)
  | error failure => exact iff_of_false (fun h => nomatch h) (Succeeds.not_error failure)

section Fields
variable {libs : EncodeLibraries} {takesLists : FieldFormat → PgType → Bool} {σ : Type}
  {encoder : Encoder σ} {pgField : FieldInfo} {value : Except Failure FieldValue} {p : Prop}

private theorem fieldCell_scalar (hlibs : libs.Writes takesLists) (value : Option Native)
    (pgField : FieldInfo) : Succeeds (fieldCell libs (.scalar value) pgField) := by
  unfold fieldCell
  split
  · exact Succeeds.ok _
  · exact hlibs.scalar ..

private theorem fieldCell_list (hlibs : libs.Writes takesLists) (values : List (Option Native))
    (pgField : FieldInfo) :
    Succeeds (fieldCell libs (.list values) pgField) ↔
      takesLists pgField.format pgField.datatype = true := hlibs.list ..

private theorem encodes_scalar (hlibs : libs.Writes takesLists) (hencoder : encoder.Follows libs)
    (h : SucceedsAs FieldValue.scalar value p) (s : σ) :
    Encodes (encodeWith encoder pgField value) s ↔ p := by
  obtain ⟨scalar, hvalue, hp⟩ := h
  rw [hvalue, ← hp]
  cases scalar with
  | ok v =>
    refine iff_of_true ?_ (Succeeds.ok v)
    exact (hencoder (.scalar v) pgField s).mpr (fieldCell_scalar hlibs v pgField)
  | error failure => exact iff_of_false (fun h => nomatch h) (Succeeds.not_error failure)

private theorem encodes_list (hlibs : libs.Writes takesLists) (hencoder : encoder.Follows libs)
    (h : SucceedsAs FieldValue.list value p) (s : σ) :
    Encodes (encodeWith encoder pgField value) s ↔
      p ∧ takesLists pgField.format pgField.datatype = true := by
  obtain ⟨list, hvalue, hp⟩ := h
  rw [hvalue, ← hp]
  cases list with
  | ok values =>
    have hcell := fieldCell_list hlibs values pgField
    rw [← hcell, and_iff_right (Succeeds.ok values)]
    exact hencoder (.list values) pgField s
  | error failure =>
    exact iff_of_false (fun h => nomatch h) (fun h => Succeeds.not_error failure h.1)

end Fields

section Structs
variable {takes : PgType → Bool} {encodeColumn : ColumnEncoder} {row : Nat}
  {arrowFields : List Field} {fields : List PgField} {parent : FieldInfo}
  {encodable yieldsList : Nat → Prop}

private theorem structFields_succeeds :
    Succeeds (structFields arrowFields) ↔ ∀ f ∈ arrowFields, Succeeds (fieldIntoPgType f) := by
  unfold structFields
  rw [Succeeds.mapM]
  exact forall₂_congr fun f _ => by rw [bind_pure_comp, Succeeds.map]

private theorem structFields_getElem? (h : structFields arrowFields = .ok fields) {i : Nat}
    {f : Field} (hf : arrowFields[i]? = some f) :
    ∃ type, fieldIntoPgType f = .ok type ∧ fields[i]? = some ⟨f.name, type⟩ := by
  obtain ⟨field, hfield, hok⟩ := Library.forall₂_getElem? (Library.mapM_eq_ok.mp h) hf
  cases htype : fieldIntoPgType f with
  | error e =>
    rw [htype] at hok
    cases hok
  | ok type =>
    rw [htype] at hok
    cases hok
    exact ⟨type, rfl, hfield⟩

/-- The columns under the types of their fields, whatever the buffer holds by then. -/
def ColumnsMeet (takes : PgType → Bool) (encodeColumn : ColumnEncoder) (row : Nat)
    (arrowFields : List Field) (parent : FieldInfo) (encodable yieldsList : Nat → Prop) : Prop :=
  ∀ i f type, arrowFields[i]? = some f → fieldIntoPgType f = .ok type → ∀ enc,
    Encodes (encodeColumn i row f ⟨f.name, type, parent.format, parent.formatOptions⟩) enc ↔
      encodable i ∧ (yieldsList i → takes type = true)

private theorem structColumn_succeeds {i : Nat} {f : Field} {field : PgField}
    (hf : arrowFields[i]? = some f) (hfield : fields[i]? = some field) (enc : StructEncoder) :
    Succeeds (structColumn encodeColumn row arrowFields fields parent enc i) ↔
      Encodes (encodeColumn i row f ⟨field.name, field.type, parent.format, parent.formatOptions⟩)
        enc := by
  cases henc : encodeColumn i row f
    ⟨field.name, field.type, parent.format, parent.formatOptions⟩ enc with
  | ok u enc' =>
    rw [structColumn_of_ok hfield hf henc]
    exact iff_of_true (Succeeds.ok enc') ⟨enc', henc⟩
  | error failure enc' =>
    rw [structColumn_of_error hfield hf henc]
    refine iff_of_false (Succeeds.not_error _) ?_
    rintro ⟨enc'', hok⟩
    rw [henc] at hok
    cases hok

private theorem structRow_succeeds (hfields : structFields arrowFields = .ok fields)
    (hcolumns : ColumnsMeet takes encodeColumn row arrowFields parent encodable yieldsList) :
    Succeeds (structRow encodeColumn arrowFields.length row arrowFields fields parent) ↔
      ColumnsEncodable takes arrowFields encodable yieldsList := by
  have hstep : ∀ i ∈ List.range arrowFields.length, ∀ enc,
      Succeeds (structColumn encodeColumn row arrowFields fields parent enc i) ↔
        ∃ f type, arrowFields[i]? = some f ∧ fieldIntoPgType f = .ok type ∧
          encodable i ∧ (yieldsList i → takes type = true) := by
    intro i hi enc
    obtain ⟨f, hf⟩ : ∃ f, arrowFields[i]? = some f :=
      ⟨_, List.getElem?_eq_getElem (List.mem_range.mp hi)⟩
    obtain ⟨type, htype, hfield⟩ := structFields_getElem? hfields hf
    rw [structColumn_succeeds hf hfield, hcolumns i f type hf htype]
    constructor
    · exact fun h => ⟨f, type, hf, htype, h⟩
    · rintro ⟨f', type', hf', htype', h⟩
      cases hf.symm.trans hf'
      cases htype.symm.trans htype'
      exact h
  unfold structRow
  rw [bind_pure_comp, Succeeds.map, Succeeds.foldlM hstep]
  constructor
  · intro h i f hf
    have hi := List.mem_range.mpr (List.getElem?_eq_some_iff.mp hf).1
    obtain ⟨f', type, hf', htype, hcolumn⟩ := h i hi
    cases hf.symm.trans hf'
    exact ⟨type, htype, hcolumn⟩
  · intro h i hi
    obtain ⟨f, hf⟩ : ∃ f, arrowFields[i]? = some f :=
      ⟨_, List.getElem?_eq_getElem (List.mem_range.mp hi)⟩
    obtain ⟨type, htype, hcolumn⟩ := h i f hf
    exact ⟨f, type, hf, htype, hcolumn⟩

private theorem columnsEncodable_types
    (h : ColumnsEncodable takes arrowFields encodable yieldsList) :
    ∀ f ∈ arrowFields, Succeeds (fieldIntoPgType f) := by
  intro f hf
  obtain ⟨i, hi⟩ := List.getElem?_of_mem hf
  obtain ⟨type, htype, -⟩ := h i f hi
  exact ⟨type, htype⟩

private theorem structValue_succeeds {valid : Nat → Bool}
    (hcolumns : ColumnsMeet takes encodeColumn row arrowFields parent encodable yieldsList) :
    SucceedsAs FieldValue.scalar
      (structValue encodeColumn arrowFields.length row valid arrowFields parent)
      (valid row = true → ColumnsEncodable takes arrowFields encodable yieldsList) := by
  unfold structValue
  cases hvalid : valid row with
  | false => exact .ok none fun h => nomatch h
  | true =>
    cases hfields : structFields arrowFields with
    | error e =>
      refine .error (Failure.err e) fun h => ?_
      have htypes := structFields_succeeds.mpr (columnsEncodable_types (h rfl))
      rw [hfields] at htypes
      exact Succeeds.not_error e htypes
    | ok fields =>
      have hrow := structRow_succeeds hfields hcolumns
      have hbytes := @SucceedsAs.bind_pure _ _ _
        (fun bytes => FieldValue.scalar (some (.wrapper bytes false)))
        (structRow encodeColumn arrowFields.length row arrowFields fields parent)
      refine (hbytes.of_comp fun bytes => some (.wrapper bytes false)).congr ?_
      rw [hrow]
      exact ⟨fun h _ => h, fun h => h rfl⟩

private theorem structsValue_succeeds {len : Nat} {valid : Nat → Bool}
    {encodable yieldsList : Nat → Nat → Prop}
    (hcolumns : ∀ row < len,
      ColumnsMeet takes encodeColumn row arrowFields parent (encodable row) (yieldsList row)) :
    SucceedsAs FieldValue.list
      (structsValue encodeColumn arrowFields.length len valid arrowFields parent)
      ((∀ f ∈ arrowFields, Succeeds (fieldIntoPgType f)) ∧ ∀ row < len, valid row = true →
        ColumnsEncodable takes arrowFields (encodable row) (yieldsList row)) := by
  unfold structsValue
  rw [← structFields_succeeds]
  cases hfields : structFields arrowFields with
  | error e => exact .error (Failure.err e) fun h => Succeeds.not_error e h.1
  | ok fields =>
    have hrow : ∀ row ∈ List.range len,
        (Succeeds (if valid row then do
            let bytes ← structRow encodeColumn arrowFields.length row arrowFields fields parent
            return some (Native.wrapper bytes (parent.format == .text))
          else return none) ↔
          (valid row = true → ColumnsEncodable takes arrowFields (encodable row) (yieldsList row))) := by
      intro row hmem
      cases valid row with
      | false => exact iff_of_true (Succeeds.ok none) (fun h => nomatch h)
      | true =>
        have h := structRow_succeeds hfields (hcolumns row (List.mem_range.mp hmem))
        rw [if_pos rfl, bind_pure_comp, Succeeds.map, h]
        exact ⟨fun h _ => h, fun h => h rfl⟩
    refine (SucceedsAs.bind_pure _).congr ?_
    rw [Succeeds.mapM, and_iff_right (Succeeds.ok fields), forall₂_congr hrow]
    simp only [List.mem_range]

end Structs

section Values
variable {libs : EncodeLibraries} {takesLists : FieldFormat → PgType → Bool}

/-- The outcome of `encode_value` at every row of an array, by any encoder. -/
def ValuesMeet (libs : EncodeLibraries) (takesLists : FieldFormat → PgType → Bool)
    (arr : ArrowArray) : Prop :=
  ∀ (σ : Type) (encoder : Encoder σ), encoder.Follows libs →
    ∀ arrowField : Field, arrowField.dataType = arr.dataType → ∀ idx, idx < arr.len →
      ∀ pgField s, Encodes (encodeValue libs arr encoder idx arrowField pgField) s ↔
        Encodable libs (takesLists pgField.format) arr idx ∧
          (YieldsList arr idx → takesLists pgField.format pgField.datatype = true)

/-- The outcome of `encode_list` on an array. -/
def ElementsMeet (libs : EncodeLibraries) (takesLists : FieldFormat → PgType → Bool)
    (arr : ArrowArray) : Prop :=
  ∀ (σ : Type) (encoder : Encoder σ), encoder.Follows libs →
    ∀ pgField s, Encodes (encodeList libs arr encoder pgField) s ↔
      ListEncodable libs (takesLists pgField.format) arr ∧
        takesLists pgField.format pgField.datatype = true

private theorem scalar_meets (hlibs : libs.Writes takesLists) {arr : ArrowArray}
    (hscalar : isScalarType arr.dataType = true)
    (hencodable : ∀ takes idx, Encodable libs takes arr idx ↔ ScalarEncodable libs arr idx)
    (hyields : ∀ takes idx, Encodable libs takes arr idx → ¬ YieldsList arr idx) :
    ValuesMeet libs takesLists arr := by
  intro σ encoder hencoder arrowField htype idx hidx pgField s
  obtain ⟨value, hvalue, hp⟩ := scalarValue_succeeds libs hscalar hidx
  have hrun : encodeValue libs arr encoder idx arrowField pgField =
      encodeWith encoder pgField (FieldValue.scalar <$> value) := by
    rw [← htype] at hscalar hvalue
    rw [encodeValue_scalar hscalar, hvalue]
    cases value <;> rfl
  rw [hrun, encodes_scalar hlibs hencoder ⟨value, rfl, hp⟩, ← hencodable]
  exact ⟨fun h => ⟨h, fun hlist => absurd hlist (hyields _ idx h)⟩, fun h => h.1⟩

private theorem columns_meet {fields : List Field} {len : Nat} {valid : Nat → Bool}
    {columns : Nat → ArrowArray} (hvalid : (ArrowArray.struct fields len valid columns).Valid)
    (ih : ∀ i, (columns i).Valid → ValuesMeet libs takesLists (columns i)) {row : Nat}
    (hrow : row < len) (parent : FieldInfo) :
    ColumnsMeet (takesLists parent.format)
      (fun i row arrowField pgField =>
        encodeValue libs (columns i) (structEncoder libs) row arrowField pgField)
      row fields parent
      (fun i => Encodable libs (takesLists parent.format) (columns i) row)
      (fun i => YieldsList (columns i) row) := by
  intro i f type hf _ enc
  obtain ⟨htype, hlen, hcolumn⟩ := hvalid i f hf
  exact ih i hcolumn _ _ (structEncoder_follows libs) f htype.symm row (hlen ▸ hrow) _ enc

private theorem struct_meets (hlibs : libs.Writes takesLists) {fields : List Field} {len : Nat}
    {valid : Nat → Bool} {columns : Nat → ArrowArray}
    (hvalid : (ArrowArray.struct fields len valid columns).Valid)
    (ih : ∀ i, (columns i).Valid → ValuesMeet libs takesLists (columns i)) :
    ValuesMeet libs takesLists (.struct fields len valid columns) := by
  intro σ encoder hencoder arrowField htype idx hidx pgField s
  rw [encodeValue_struct htype,
    encodes_scalar hlibs hencoder (structValue_succeeds (columns_meet hvalid ih hidx pgField)),
    Encodable]
  exact (and_iff_left fun h => h.elim).symm

private theorem structs_meet (hlibs : libs.Writes takesLists) {fields : List Field} {len : Nat}
    {valid : Nat → Bool} {columns : Nat → ArrowArray}
    (hvalid : (ArrowArray.struct fields len valid columns).Valid)
    (ih : ∀ i, (columns i).Valid → ValuesMeet libs takesLists (columns i)) :
    ElementsMeet libs takesLists (.struct fields len valid columns) := by
  intro σ encoder hencoder pgField s
  rw [ListEncodable]
  exact encodes_list hlibs hencoder
    (structsValue_succeeds fun row hrow => columns_meet hvalid ih hrow pgField) s

private theorem elements_meet (hlibs : libs.Writes takesLists) {arr : ArrowArray}
    (hstruct : ∀ fields, arr.dataType ≠ .struct fields)
    (hencodable : ∀ takes, ListEncodable libs takes arr ↔ ElementsEncodable libs arr)
    (hrun : ∀ {σ : Type} (encoder : Encoder σ) pgField,
      encodeList libs arr encoder pgField = encodeWith encoder pgField (listValue libs arr)) :
    ElementsMeet libs takesLists arr := by
  intro σ encoder hencoder pgField s
  rw [hrun, hencodable]
  exact encodes_list hlibs hencoder (listValue_succeeds arr hstruct) s

private theorem list_meets (hlibs : libs.Writes takesLists) {kind : ListKind} {field : Field}
    {len : Nat} {valid : Nat → Bool} {value : Nat → ArrowArray} (hkind : kind.hasListArm = true)
    (hvalid : (ArrowArray.list kind field len valid value).Valid)
    (ih : ∀ i, (value i).Valid → ElementsMeet libs takesLists (value i)) :
    ValuesMeet libs takesLists (.list kind field len valid value) := by
  intro σ encoder hencoder arrowField htype idx hidx pgField s
  rw [encodeValue_list hkind htype, Encodable, YieldsList, and_iff_right hkind]
  rw [ArrowArray.isNull_eq hidx]
  change Encodes (if !valid idx then encoder.encodeField (.scalar none) pgField
    else if kind = .list then encodeList libs (value idx) encoder pgField
    else throw .panic) s ↔ _
  cases hslot : valid idx with
  | false =>
    refine iff_of_true ?_ ⟨(fun h => nomatch h), (fun h => nomatch h)⟩
    exact (hencoder (.scalar none) pgField s).mpr (fieldCell_scalar hlibs none pgField)
  | true =>
    obtain ⟨-, hchild⟩ := hvalid idx hidx hslot
    have hlist := ih idx hchild σ encoder hencoder pgField s
    by_cases hk : kind = .list
    · rw [if_neg (by decide), if_pos hk, hlist]
      exact ⟨fun h => ⟨fun _ => ⟨hk, h.1⟩, fun _ => h.2⟩, fun h => ⟨(h.1 rfl).2, h.2 rfl⟩⟩
    · rw [if_neg (by decide), if_neg hk]
      exact iff_of_false (fun h => nomatch h) (fun h => hk (h.1 rfl).1)

private theorem dictionary_meets (hlibs : libs.Writes takesLists) {keyType valueType : DataType}
    {keys : List (Slot Int)} {values : ArrowArray}
    (hvalid : (ArrowArray.dictionary keyType valueType keys values).Valid)
    (ih : values.Valid → ValuesMeet libs takesLists values) :
    ValuesMeet libs takesLists (.dictionary keyType valueType keys values) := by
  intro σ encoder hencoder arrowField htype idx hidx pgField s
  have ⟨_, hvalues, hchild, hkeys⟩ := hvalid
  obtain ⟨⟨valid, key⟩, hslot⟩ : ∃ slot, keys[idx]? = some slot :=
    ⟨_, List.getElem?_eq_getElem hidx⟩
  rw [Encodable, YieldsList, hslot]
  cases valid with
  | false =>
    rw [encodeValue_dictionary_null htype hslot rfl]
    refine iff_of_true ?_ ⟨?_, ?_⟩
    · exact (hencoder (.scalar none) pgField s).mpr (fieldCell_scalar hlibs none pgField)
    · rintro key hkey' hvalid
      cases hkey'
      cases hvalid
    · rintro ⟨key, hkey', hvalid, -⟩
      cases hkey'
      cases hvalid
  | true =>
    obtain ⟨-, -, hinside⟩ := hkeys _ (List.mem_of_getElem? hslot) rfl
    rw [encodeValue_dictionary_key hvalid htype hslot rfl]
    have hfield : (Field.new pgField.name valueType true).dataType = values.dataType :=
      hvalues.symm
    have hvalue := ih hchild σ encoder hencoder _ hfield _ hinside pgField s
    refine hvalue.trans (and_congr ?_ (imp_congr_left ?_))
    · constructor
      · rintro h key' hkey' -
        cases hkey'
        exact h
      · exact fun h => h _ rfl rfl
    · constructor
      · exact fun h => ⟨_, rfl, rfl, h⟩
      · rintro ⟨key', hkey', -, h⟩
        cases hkey'
        exact h

private theorem primitive_meets (hlibs : libs.Writes takesLists) (type : PrimitiveType)
    (slots : List (Slot Int)) : ValuesMeet libs takesLists (.primitive type slots) := by
  refine scalar_meets hlibs ?_ (fun _ _ => Iff.rfl) (fun _ _ _ h => h)
  obtain ⟨dataType, native, hnative⟩ := type
  change isScalarType dataType = true
  unfold isScalarType
  split <;> first | cases hnative | rfl

private theorem encoders_meet (hlibs : libs.Writes takesLists) {arr : ArrowArray}
    (hvalid : arr.Valid) : ValuesMeet libs takesLists arr ∧ ElementsMeet libs takesLists arr := by
  induction arr with
  | list kind field len valid value ih =>
    have helements : ElementsMeet libs takesLists (.list kind field len valid value) := by
      refine elements_meet hlibs ?_ (fun _ => Iff.rfl) (fun _ _ => rfl)
      cases kind <;> exact fun _ h => nomatch h
    refine ⟨?_, helements⟩
    cases hkind : kind.hasListArm with
    | true => exact list_meets hlibs hkind hvalid fun i hchild => (ih i hchild).2
    | false =>
      refine scalar_meets hlibs ?_ ?_ ?_
      · cases kind <;> first | cases hkind; done | rfl
      · intro takes idx
        rw [Encodable, hkind]
        refine iff_of_false (fun h => nomatch h.1) ?_
        cases kind <;> first | cases hkind; done | exact fun h => nomatch h
      · intro takes idx h
        rw [Encodable, hkind] at h
        exact nomatch h.1
  | struct fields len valid columns ih =>
    have hvalues : ∀ i, (columns i).Valid → ValuesMeet libs takesLists (columns i) :=
      fun i hchild => (ih i hchild).1
    exact ⟨struct_meets hlibs hvalid hvalues, structs_meet hlibs hvalid hvalues⟩
  | dictionary keyType valueType keys values ih =>
    refine ⟨dictionary_meets hlibs hvalid fun hchild => (ih hchild).1, ?_⟩
    exact elements_meet hlibs (fun _ => nofun) (fun _ => Iff.rfl)
      (fun _ _ => rfl)
  | primitive type slots =>
    refine ⟨primitive_meets hlibs type slots, ?_⟩
    refine elements_meet hlibs ?_ (fun _ => Iff.rfl) (fun _ _ => rfl)
    obtain ⟨dataType, native, hnative⟩ := type
    rintro fields (rfl : dataType = .struct fields)
    cases hnative
  | string kind slots | binary kind slots =>
    constructor
    · refine scalar_meets hlibs ?_ (fun _ _ => Iff.rfl) (fun _ _ _ h => h)
      cases kind <;> rfl
    · refine elements_meet hlibs ?_ (fun _ => Iff.rfl) (fun _ _ => rfl)
      cases kind <;> exact fun _ h => nomatch h
  | other type len valid =>
    constructor
    · refine scalar_meets hlibs ?_ (fun _ _ => Iff.rfl) (fun _ _ _ h => h)
      cases type <;> rfl
    · refine elements_meet hlibs ?_ (fun _ => Iff.rfl) (fun _ _ => rfl)
      cases type <;> exact fun _ h => nomatch h
  | _ =>
    constructor
    · exact scalar_meets hlibs rfl (fun _ _ => Iff.rfl) (fun _ _ _ h => h)
    · exact elements_meet hlibs (fun _ => nofun) (fun _ => Iff.rfl)
        (fun _ _ => rfl)

private theorem listPgType_kind {elementType : DataType} {member : PgWireResult PgType}
    {type : PgType} (h : listPgType elementType member = .ok type) :
    ∃ member, type.kind = .array member := by
  cases elementType
  case timestamp unit timezone =>
    cases timezone <;>
    · cases h
      exact ⟨_, rfl⟩
  case struct fields =>
    cases member with
    | error e => cases h
    | ok member =>
      cases h
      exact ⟨member, rfl⟩
  all_goals first
    | cases h; done
    | cases h
      exact ⟨_, rfl⟩

private theorem yieldsList_kind {arr : ArrowArray} (hvalid : arr.Valid) {idx : Nat}
    (hlist : YieldsList arr idx) {type : PgType} (htype : intoPgType arr.dataType = .ok type) :
    ∃ member, type.kind = .array member := by
  induction arr generalizing idx with
  | list kind field len valid value _ =>
    cases kind <;>
      exact listPgType_kind htype
  | dictionary keyType valueType keys values ih =>
    obtain ⟨-, hvalues, hchild, -⟩ := hvalid
    obtain ⟨key, -, -, hlist⟩ := hlist
    change intoPgType (.dictionary keyType valueType) = .ok type at htype
    rw [intoPgType, ← hvalues] at htype
    exact ih hchild hlist htype
  | _ => exact hlist.elim

end Values

/-- `encode_value` neither panics nor fails. Whatever type is advertised has a representation
of every value of the Arrow type. -/
def EncodesValue (libs : EncodeLibraries) (arr : ArrowArray) {σ : Type} (encoder : Encoder σ)
    (idx : Nat) (arrowField : Field) (pgField : FieldInfo) (s : σ) : Prop :=
  (∀ s', encodeValue libs arr encoder idx arrowField pgField s ≠ .error .panic s') ∧
    Encodes (encodeValue libs arr encoder idx arrowField pgField) s

/-- A value of an advertised type is encoded exactly if it is `Encodable`. -/
theorem encodeValue_encodes_iff {libs : EncodeLibraries} {takesLists : FieldFormat → PgType → Bool}
    (hlibs : libs.Writes takesLists) {σ : Type} {encoder : Encoder σ}
    (hencoder : encoder.Follows libs) {arr : ArrowArray} (hvalid : arr.Valid) {arrowField : Field}
    (htype : arrowField.dataType = arr.dataType) {idx : Nat} (hidx : idx < arr.len)
    {pgField : FieldInfo} (hpg : intoPgType arrowField.dataType = .ok pgField.datatype) (s : σ) :
    EncodesValue libs arr encoder idx arrowField pgField s ↔
      Encodable libs (takesLists pgField.format) arr idx := by
  have hmeets := (encoders_meet hlibs hvalid).1 σ encoder hencoder arrowField htype idx hidx pgField s
  have hlist : YieldsList arr idx → takesLists pgField.format pgField.datatype = true := by
    intro hyields
    obtain ⟨member, hmember⟩ := yieldsList_kind hvalid hyields (htype ▸ hpg)
    exact hlibs.array pgField.format pgField.datatype member hmember
  constructor
  · exact fun h => (hmeets.mp h.2).1
  · intro h
    obtain ⟨s', hrun⟩ := hmeets.mpr ⟨h, hlist⟩
    refine ⟨fun s'' hpanic => ?_, s', hrun⟩
    rw [hrun] at hpanic
    cases hpanic

section Examples

def referenceTakesLists (format : FieldFormat) (type : PgType) : Bool :=
  match format, type.kind with
  | .text, _ | _, .array _ => true
  | _, _ => false

theorem referenceEncoding_writes : referenceEncoding.Writes referenceTakesLists where
  scalar _ value _ _ := ⟨value.map nativeText, rfl⟩
  list format values type options := by
    unfold referenceTakesLists
    change Succeeds (match format, type.kind with
      | .text, _ | _, .array _ => .ok (some (arrayText values))
      | _, _ => .error Failure.panic) ↔ _
    cases format <;> cases type.kind <;> first
      | exact iff_of_true (Succeeds.ok _) rfl
      | exact iff_of_false (Succeeds.not_error _) (fun h => nomatch h)
  array format type member h := by
    unfold referenceTakesLists
    rw [h]
    cases format <;> rfl

/-- One row, a list of the number 1. -/
def listOfOne (kind : ListKind) : ArrowArray :=
  .list kind (.new "item" .int32 true) 1 (fun _ => true)
    fun _ => .primitive ⟨.int32, .int32, Primitive.of_int32⟩ [⟨true, 1⟩]

private theorem listOfOne_valid (kind : ListKind) : (listOfOne kind).Valid :=
  fun _ _ _ => ⟨rfl, trivial⟩

def listField (kind : ListKind) : Field := .new "numbers" (listOfOne kind).dataType true

def numbersInfo : FieldInfo := ⟨"numbers", .int4Array, .text, ⟨"ISO", "postgres", "hex", 1⟩⟩

theorem listOfOne_encoded :
    EncodesValue referenceEncoding (listOfOne .list) (dataRowEncoder referenceEncoding) 0
      (listField .list) numbersInfo ⟨[]⟩ :=
  (encodeValue_encodes_iff referenceEncoding_writes (dataRowEncoder_follows _)
    (listOfOne_valid .list) rfl (by decide) rfl _).mpr ⟨rfl, fun _ => ⟨rfl, rfl, trivial⟩⟩

theorem largeListOfOne_not_encoded :
    (listOfOne .largeList).Valid ∧ 0 < (listOfOne .largeList).len ∧
      intoPgType (listField .largeList).dataType = .ok numbersInfo.datatype ∧
      ¬ EncodesValue referenceEncoding (listOfOne .largeList) (dataRowEncoder referenceEncoding) 0
        (listField .largeList) numbersInfo ⟨[]⟩ := by
  refine ⟨listOfOne_valid .largeList, by decide, rfl, fun h => ?_⟩
  exact h.1 ⟨[]⟩ rfl

end Examples
end DatafusionPostgres.ArrowPg

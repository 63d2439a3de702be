import DatafusionPostgres.ArrowPg.Encodable
import DatafusionPostgres.ArrowPg.ReferenceEncoding
import DatafusionPostgres.ArrowPg.RowShape

/-! A NULL slot is encoded as NULL, but for the interval arms, which read it. -/
namespace DatafusionPostgres.ArrowPg

/-- The types that `encode_value` supports, at the values of a dictionary for one. -/
def isSupported : DataType → Bool
  | .dictionary _ valueType => isSupported valueType
  | type => !lacksArm type

/-- The slot is NULL: of a dictionary the key or what it refers to. -/
def NullAt : ArrowArray → Nat → Prop
  | .null _, _ => True
  | .dictionary _ _ keys values, idx =>
    ∀ key, keys[idx]? = some key → key.valid = true → NullAt values key.value.toNat
  | arr, idx => arr.validAt idx = false

/-- The slot is one of an interval array, or a key of such a slot. -/
def IntervalAt : ArrowArray → Nat → Prop
  | .primitive type _, _ => type.native = .intervalYearMonth
  | .intervalDayTime _, _ | .intervalMonthDayNano _, _ => True
  | .dictionary _ _ keys values, idx =>
    ∃ key, keys[idx]? = some key ∧ key.valid = true ∧ IntervalAt values key.value.toNat
  | _, _ => False

/-- Whatever the encoder does, it is called once, with NULL. -/
def EncodesNull (libs : EncodeLibraries) (arr : ArrowArray) (idx : Nat) (arrowField : Field)
    (pgField : FieldInfo) : Prop :=
  ∀ (σ : Type) (encoder : Encoder σ),
    encodeValue libs arr encoder idx arrowField pgField = encoder.encodeField (.scalar none) pgField

/-- The encoder that collects the values it is called with, the last one first. -/
def Encoder.collecting : Encoder (List FieldValue) :=
  ⟨fun value _ values => .ok () (value :: values)⟩

section Null
variable {libs : EncodeLibraries} {arr : ArrowArray} {idx : Nat}

theorem isNull_of_invalid (hidx : idx < arr.len) (hnull : arr.validAt idx = false) :
    arr.isNull idx = .ok true := by
  rw [ArrowArray.isNull_eq hidx, hnull]
  rfl

private theorem getValue_null {α : Type} (h : arr.isNull idx = .ok true)
    (slots : Option (List (Slot α))) : getValue arr idx slots = .ok none := by
  unfold getValue
  rw [h]
  rfl

private theorem scalarOf_null {α : Type} (h : arr.isNull idx = .ok true)
    (slots : Option (List (Slot α))) (native : α → Option Native) :
    scalarOf arr idx slots native = .ok (.scalar none) := by
  unfold scalarOf
  rw [getValue_null h]
  rfl

private theorem numeric128Value_null (h : arr.isNull idx = .ok true) (scale : Nat) :
    numeric128Value libs arr idx scale = .ok (.scalar none) := by
  unfold numeric128Value
  rw [getValue_null h]
  rfl

private theorem timestampValue_null (h : arr.isNull idx = .ok true) (unit : TimeUnit)
    (timezone : Option String) :
    timestampValue libs arr idx unit timezone = .ok (.scalar none) := by
  unfold timestampValue
  rw [getValue_null h]
  rfl

/-- Every arm with a NULL test of its own. -/
theorem scalarValue_null (h : arr.isNull idx = .ok true) {arrowType : DataType}
    (harm : lacksArm arrowType = false) (hscalar : isScalarType arrowType = true)
    (hunit : badTimeUnit arrowType = false) (hinterval : ∀ unit, arrowType ≠ .interval unit) :
    scalarValue libs arr idx arrowType = .ok (some (.scalar none)) := by
  cases arrowType
  case interval unit => exact absurd rfl (hinterval unit)
  case time32 unit =>
    cases unit <;> first
      | cases hunit; done
      | exact congrArg (some <$> ·) (scalarOf_null h ..)
  case time64 unit =>
    cases unit <;> first
      | cases hunit; done
      | exact congrArg (some <$> ·) (scalarOf_null h ..)
  case decimal128 precision scale => exact congrArg (some <$> ·) (numeric128Value_null h ..)
  case timestamp unit timezone => exact congrArg (some <$> ·) (timestampValue_null h ..)
  all_goals first
    | rfl
    | cases harm; done
    | cases hscalar; done
    | exact congrArg (some <$> ·) (scalarOf_null h ..)

private theorem scalar_encodesNull {arrowField : Field} (htype : arrowField.dataType = arr.dataType)
    (hscalar : isScalarType arr.dataType = true)
    (hvalue : scalarValue libs arr idx arr.dataType = .ok (some (.scalar none)))
    (pgField : FieldInfo) : EncodesNull libs arr idx arrowField pgField := by
  intro σ encoder
  rw [← htype] at hscalar hvalue
  rw [encodeValue_scalar hscalar, hvalue]
  rfl

private theorem interval_not_encodesNull {arrowField : Field} {pgField : FieldInfo}
    (htype : arrowField.dataType = arr.dataType) (hscalar : isScalarType arr.dataType = true)
    {value : Native} (hvalue : scalarValue libs arr idx arr.dataType = .ok (some (.scalar (some value)))) :
    ¬ EncodesNull libs arr idx arrowField pgField := by
  intro h
  rw [← htype] at hscalar hvalue
  have hrun := congrFun (h _ .collecting) []
  rw [encodeValue_scalar hscalar, hvalue] at hrun
  cases hrun

private theorem intervalValue_read {α : Type} {slots : List (Slot α)} (hidx : idx < slots.length)
    (interval : α → Native) :
    ∃ value, intervalValue idx (some slots) interval = .ok (.scalar (some value)) := by
  refine ⟨interval slots[idx].value, ?_⟩
  change (do
    let value ← ArrowArray.valueAt slots idx
    return FieldValue.scalar (some (interval value))) = _
  rw [ArrowArray.valueAt_of_getElem? (List.getElem?_eq_getElem hidx)]
  rfl

private theorem primitive_encodesNull_iff {type : PrimitiveType} {slots : List (Slot Int)}
    {arrowField : Field} (htype : arrowField.dataType = (ArrowArray.primitive type slots).dataType)
    (hidx : idx < slots.length) (hnull : (ArrowArray.primitive type slots).validAt idx = false)
    (hsupported : isSupported type.dataType = true) (pgField : FieldInfo) :
    EncodesNull libs (.primitive type slots) idx arrowField pgField ↔
      ¬ IntervalAt (.primitive type slots) idx := by
  have hself := ArrowArray.asPrimitive_self type slots
  have hisNull := isNull_of_invalid hidx hnull
  by_cases hnative : type.native = .intervalYearMonth
  · refine iff_of_false ?_ (fun h => h hnative)
    obtain ⟨value, hvalue⟩ := intervalValue_read hidx yearMonthInterval
    obtain ⟨dataType, native, heq⟩ := type
    cases hnative
    have hdataType : dataType = .interval .yearMonth := by
      unfold Primitive.of at heq
      split at heq <;> first | rfl | cases heq
    cases hdataType
    apply interval_not_encodesNull htype rfl
    change some <$> intervalValue idx
      ((ArrowArray.primitive _ slots).asPrimitive .intervalYearMonth) yearMonthInterval = .ok (some (.scalar (some value)))
    rw [hself, hvalue]
    rfl
  · refine iff_of_true ?_ hnative
    have hunit := dataType_timeUnit (.primitive type slots)
    obtain ⟨dataType, native, heq⟩ := type
    have hscalar : isScalarType (ArrowArray.primitive ⟨dataType, native, heq⟩ slots).dataType := by
      change isScalarType dataType = true
      unfold isScalarType
      split <;> first | cases heq | rfl
    refine scalar_encodesNull htype hscalar ?_ pgField
    refine scalarValue_null hisNull ?_ hscalar hunit ?_
    · change isSupported dataType = true at hsupported
      unfold isSupported at hsupported
      split at hsupported
      · cases heq
      · exact Bool.not_eq_true' _ ▸ hsupported
    · rintro unit (rfl : dataType = .interval unit)
      cases unit <;> cases heq
      exact hnative rfl

private theorem encodesNull_iff (hvalid : arr.Valid) {arrowField : Field}
    (htype : arrowField.dataType = arr.dataType) (hidx : idx < arr.len) (hnull : NullAt arr idx)
    (hsupported : isSupported arr.dataType = true) (pgField : FieldInfo) :
    EncodesNull libs arr idx arrowField pgField ↔ ¬ IntervalAt arr idx := by
  induction arr generalizing idx arrowField with
  | null len => exact iff_of_true (scalar_encodesNull htype rfl rfl pgField) id
  | primitive type slots => exact primitive_encodesNull_iff htype hidx hnull hsupported pgField
  | intervalDayTime slots =>
    obtain ⟨value, hvalue⟩ := intervalValue_read hidx dayTimeInterval
    refine iff_of_false ?_ (fun h => h trivial)
    exact interval_not_encodesNull htype rfl (congrArg (some <$> ·) hvalue)
  | intervalMonthDayNano slots =>
    obtain ⟨value, hvalue⟩ := intervalValue_read hidx monthDayNanoInterval
    refine iff_of_false ?_ (fun h => h trivial)
    exact interval_not_encodesNull htype rfl (congrArg (some <$> ·) hvalue)
  | list kind field len valid value _ =>
    refine iff_of_true (fun σ encoder => ?_) id
    have hkind : kind.hasListArm = true := by cases kind <;> first | rfl | cases hsupported
    rw [encodeValue_list hkind htype, isNull_of_invalid hidx hnull]
    rfl
  | struct fields len valid columns _ =>
    refine iff_of_true (fun σ encoder => ?_) id
    have hvalue : valid idx = false := hnull
    rw [encodeValue_struct htype]
    unfold structValue
    rw [hvalue]
    rfl
  | dictionary keyType valueType keys values ih =>
    have ⟨_, hvalues, hchild, hkeys⟩ := hvalid
    obtain ⟨⟨valid, key⟩, hslot⟩ : ∃ slot, keys[idx]? = some slot :=
      ⟨_, List.getElem?_eq_getElem hidx⟩
    cases valid with
    | false =>
      refine iff_of_true (fun σ encoder => encodeValue_dictionary_null htype hslot rfl) ?_
      rintro ⟨key', hkey', hvalid, -⟩
      cases hslot.symm.trans hkey'
      cases hvalid
    | true =>
      obtain ⟨-, -, hinside⟩ := hkeys _ (List.mem_of_getElem? hslot) rfl
      have hfield : (Field.new pgField.name valueType true).dataType = values.dataType :=
        hvalues.symm
      have hchildSupported : isSupported values.dataType = true := by
        rw [hvalues]
        exact hsupported
      have hvalue := ih hchild hfield hinside (hnull _ hslot rfl) hchildSupported
      unfold EncodesNull at hvalue ⊢
      simp only [encodeValue_dictionary_key hvalid htype hslot rfl]
      refine hvalue.trans (not_congr ⟨fun h => ⟨_, hslot, rfl, h⟩, ?_⟩)
      rintro ⟨key', hkey', -, h⟩
      cases hslot.symm.trans hkey'
      exact h
  | string kind slots =>
    refine iff_of_true (scalar_encodesNull htype ?_ ?_ pgField) id
    · cases kind <;> rfl
    · refine scalarValue_null (isNull_of_invalid hidx hnull) ?_ ?_ ?_ ?_ <;>
        cases kind <;> first | rfl | exact fun _ => nofun
  | binary kind slots =>
    refine iff_of_true (scalar_encodesNull htype ?_ ?_ pgField) id
    · cases kind <;> rfl
    · refine scalarValue_null (isNull_of_invalid hidx hnull) ?_ ?_ ?_ ?_ <;>
        cases kind <;> first | cases hsupported; done | rfl | exact fun _ => nofun
  | boolean slots =>
    refine iff_of_true (scalar_encodesNull htype rfl ?_ pgField) id
    exact scalarValue_null (isNull_of_invalid hidx hnull) rfl rfl rfl fun _ => nofun
  | other type len valid => cases type <;> cases hsupported

end Null

/-- A NULL slot is encoded as one NULL exactly if it is no slot of an interval array. -/
theorem encodeValue_null_iff (libs : EncodeLibraries) {arr : ArrowArray} (hvalid : arr.Valid)
    {arrowField : Field} (htype : arrowField.dataType = arr.dataType)
    (hsupported : isSupported arr.dataType = true) {idx : Nat} (hidx : idx < arr.len)
    (hnull : NullAt arr idx) (pgField : FieldInfo) :
    EncodesNull libs arr idx arrowField pgField ↔ ¬ IntervalAt arr idx :=
  encodesNull_iff hvalid htype hidx hnull hsupported pgField

section Examples

def wordField : Field := .new "word" (.dictionary .int8 .utf8) true

/-- A key that is not NULL, of a word that is. -/
def nullWord : ArrowArray := .dictionary .int8 .utf8 [⟨true, 0⟩] (.string .utf8 [⟨false, "left"⟩])

theorem nullWord_encodesNull :
    EncodesNull referenceEncoding nullWord 0 wordField (textInfo "word" .text) := by
  have hvalid : nullWord.Valid := ⟨rfl, rfl, trivial, by simp [ArrowArray.len]⟩
  have hnull : NullAt nullWord 0 := by
    rintro key hkey -
    cases hkey
    rfl
  refine (encodeValue_null_iff referenceEncoding hvalid rfl rfl (by decide) hnull _).mpr ?_
  rintro ⟨key, hkey, -, h⟩
  exact h

def periodField : Field := .new "period" (.interval .yearMonth) true

/-- A NULL over the bytes of fourteen months. -/
def nullPeriod : ArrowArray := .primitive ⟨.interval .yearMonth, .intervalYearMonth, rfl⟩ [⟨false, 14⟩]

theorem nullPeriod_not_encodesNull :
    nullPeriod.Valid ∧ 0 < nullPeriod.len ∧ NullAt nullPeriod 0 ∧
      ¬ EncodesNull referenceEncoding nullPeriod 0 periodField (textInfo "period" .interval) := by
  refine ⟨trivial, by decide, rfl, fun h => ?_⟩
  have hrun := congrFun (h _ .collecting) []
  cases hrun

end Examples
end DatafusionPostgres.ArrowPg

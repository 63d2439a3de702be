import DatafusionPostgres.ArrowPg.Encodable
import DatafusionPostgres.ArrowPg.NullValues

/-! A date, a time or a timestamp is encoded as the value it is, but for those outside the
range of the conversion, which become NULL. -/
namespace DatafusionPostgres.ArrowPg
open Library (Succeeds)

def isTemporal : DataType → Bool
  | .date32 | .date64 | .time32 _ | .time64 _ | .timestamp _ _ => true
  | _ => false

/-- The value that a slot stores, as what is sent for it. The days of a Date64 are its
milliseconds rounded down. -/
def Denotes : DataType → Int → Native → Prop
  | .date32, v, .naiveDate date => date.days = v
  | .date64, v, .naiveDate date => date.days = v / 86400000
  | .time32 unit, v, .naiveTime time => (time.nanoseconds : Int) = nanosecondsOf unit v
  | .time64 unit, v, .naiveTime time => (time.nanoseconds : Int) = nanosecondsOf unit v
  | .timestamp unit none, v, .naiveDateTime dt => dt.nanoseconds = nanosecondsOf unit v
  | .timestamp unit (some _), v, .dateTime dt => dt.utc.nanoseconds = nanosecondsOf unit v
  | _, _, _ => False

def DayInRange (lo hi days : Int) : Prop := lo ≤ days ∧ days ≤ hi

instance (lo hi days : Int) : Decidable (DayInRange lo hi days) := instDecidableAnd

def TimeInRange (nanoseconds : Int) : Prop := 0 ≤ nanoseconds ∧ nanoseconds < nanosecondsPerDay

instance (nanoseconds : Int) : Decidable (TimeInRange nanoseconds) := instDecidableAnd

/-- The value is within one day, or within `chrono`'s days. -/
def InRange (lo hi : Int) : DataType → Int → Prop
  | .date32, v => DayInRange lo hi v
  | .date64, v => DayInRange lo hi (v / 86400000)
  | .time32 unit, v | .time64 unit, v => TimeInRange (nanosecondsOf unit v)
  | .timestamp unit _, v => DayInRange lo hi (nanosecondsOf unit v / nanosecondsPerDay)
  | _, _ => False

/-- What is relied on of Arrow and `chrono`: a conversion returns the value, or nothing
exactly where it is out of range. -/
structure EncodeLibraries.Converts (libs : EncodeLibraries) (lo hi : Int) : Prop where
  date32AsDate : ∀ v, libs.date32AsDate v = if DayInRange lo hi v then some ⟨v⟩ else none
  date64AsDate : ∀ v, libs.date64AsDate v =
    if DayInRange lo hi (v / 86400000) then some ⟨v / 86400000⟩ else none
  asTime : ∀ unit v, libs.asTime unit v =
    if TimeInRange (nanosecondsOf unit v) then some ⟨(nanosecondsOf unit v).toNat⟩ else none
  valueAsDatetime : ∀ unit v, libs.valueAsDatetime unit v =
    if DayInRange lo hi (nanosecondsOf unit v / nanosecondsPerDay) then some ⟨nanosecondsOf unit v⟩
    else none
  valueAsDatetimeWithTz : ∀ unit v tz, (libs.valueAsDatetimeWithTz unit v tz).map DateTime.utc =
    if DayInRange lo hi (nanosecondsOf unit v / nanosecondsPerDay) then some ⟨nanosecondsOf unit v⟩
    else none
  fromTimestamp : ∀ unit v, libs.fromTimestamp unit v =
    if DayInRange lo hi (nanosecondsOf unit v / nanosecondsPerDay) then some ⟨nanosecondsOf unit v⟩
    else none
  withTimezone : ∀ dt tz, (libs.withTimezone dt tz).utc = dt

/-- The time zone of the type is known, if it has one. -/
def TypeZoneKnown (libs : EncodeLibraries) : DataType → Prop
  | .timestamp _ timezone => ZoneKnown libs timezone
  | _ => True

/-- One call of the encoder with the value, or an error. -/
def KeepsValue (libs : EncodeLibraries) (arr : ArrowArray) (idx : Nat) (arrowField : Field)
    (pgField : FieldInfo) (value : Int) : Prop :=
  (∃ native, Denotes arr.dataType value native ∧ ∀ (σ : Type) (encoder : Encoder σ),
    encodeValue libs arr encoder idx arrowField pgField =
      encoder.encodeField (.scalar (some native)) pgField) ∨
  ∃ e, ∀ (σ : Type) (encoder : Encoder σ),
    encodeValue libs arr encoder idx arrowField pgField = throw (.err e)

/-- One call of the encoder with all values that are not NULL, or an error. -/
def KeepsElements (libs : EncodeLibraries) (arr : ArrowArray) (slots : List (Slot Int))
    (pgField : FieldInfo) : Prop :=
  (∃ values, List.Forall₂ (fun (slot : Slot Int) value => slot.valid = true →
      ∃ native, value = some native ∧ Denotes arr.dataType slot.value native) slots values ∧
    ∀ (σ : Type) (encoder : Encoder σ),
      encodeList libs arr encoder pgField = encoder.encodeField (.list values) pgField) ∨
  ∃ e, ∀ (σ : Type) (encoder : Encoder σ), encodeList libs arr encoder pgField = throw (.err e)

/-- What calls any encoder once is no error, and calls it with nothing else. -/
theorem oneCall_or_error_iff {ι : Type} {run : (σ : Type) → Encoder σ → EStateM Failure σ Unit}
    {field : ι → FieldValue} {P : ι → Prop} {value : FieldValue} {pgField : FieldInfo}
    (h : ∀ σ encoder, run σ encoder = encoder.encodeField value pgField) :
    ((∃ i, P i ∧ ∀ σ encoder, run σ encoder = encoder.encodeField (field i) pgField) ∨
      ∃ e, ∀ σ encoder, run σ encoder = throw (.err e)) ↔ ∃ i, field i = value ∧ P i := by
  constructor
  · rintro (⟨i, hi, hrun⟩ | ⟨e, hrun⟩)
    · have hsame := (h _ .collecting).symm.trans (hrun _ .collecting)
      cases congrFun hsame []
      exact ⟨i, rfl, hi⟩
    · have hsame := (h _ .collecting).symm.trans (hrun _ .collecting)
      cases congrFun hsame []
  · rintro ⟨i, rfl, hi⟩
    exact .inl ⟨i, hi, h⟩

/-- A conversion finds a value for the slots in range, and no others. -/
def Exact (lo hi : Int) (type : DataType) (convert : Int → Option Native) : Prop :=
  ∀ v, (∃ native, convert v = some native ∧ Denotes type v native) ↔ InRange lo hi type v

section Conversions
variable {libs : EncodeLibraries} {lo hi : Int}

private theorem exists_of_ite {τ : Type} {p : Prop} [Decidable p] {x : τ} {wrap : τ → Native}
    {denotes : Native → Prop} (h : p → denotes (wrap x)) :
    (∃ native, (if p then some x else none).map wrap = some native ∧ denotes native) ↔ p := by
  by_cases hp : p
  · rw [if_pos hp]
    exact iff_of_true ⟨wrap x, rfl, h hp⟩ hp
  · rw [if_neg hp]
    refine iff_of_false ?_ hp
    rintro ⟨native, hnative, -⟩
    cases hnative

private theorem date32_exact (hlibs : libs.Converts lo hi) :
    Exact lo hi .date32 fun v => (libs.date32AsDate v).map .naiveDate := by
  intro v
  dsimp only
  rw [hlibs.date32AsDate]
  exact exists_of_ite fun _ => rfl

private theorem date64_exact (hlibs : libs.Converts lo hi) :
    Exact lo hi .date64 fun v => (libs.date64AsDate v).map .naiveDate := by
  intro v
  dsimp only
  rw [hlibs.date64AsDate]
  exact exists_of_ite fun _ => rfl

private theorem time32_exact (hlibs : libs.Converts lo hi) (unit : TimeUnit) :
    Exact lo hi (.time32 unit) fun v => (libs.asTime unit v).map .naiveTime := by
  intro v
  dsimp only
  rw [hlibs.asTime]
  exact exists_of_ite fun h => Int.toNat_of_nonneg h.1

private theorem time64_exact (hlibs : libs.Converts lo hi) (unit : TimeUnit) :
    Exact lo hi (.time64 unit) fun v => (libs.asTime unit v).map .naiveTime := by
  intro v
  dsimp only
  rw [hlibs.asTime]
  exact exists_of_ite fun h => Int.toNat_of_nonneg h.1

private theorem datetime_exact (hlibs : libs.Converts lo hi) (unit : TimeUnit) :
    Exact lo hi (.timestamp unit none)
      fun v => (libs.valueAsDatetime unit v).map .naiveDateTime := by
  intro v
  dsimp only
  rw [hlibs.valueAsDatetime]
  exact exists_of_ite fun _ => rfl

private theorem datetimeWithTz_exact (hlibs : libs.Converts lo hi) (unit : TimeUnit)
    (name : String) (tz : libs.Tz) :
    Exact lo hi (.timestamp unit (some name))
      fun v => (libs.valueAsDatetimeWithTz unit v tz).map .dateTime := by
  intro v
  have hutc := hlibs.valueAsDatetimeWithTz unit v tz
  dsimp only
  cases hdt : libs.valueAsDatetimeWithTz unit v tz with
  | none =>
    rw [hdt] at hutc
    refine iff_of_false ?_ fun hrange => ?_
    · rintro ⟨native, hnative, -⟩
      cases hnative
    · have hday : DayInRange lo hi (nanosecondsOf unit v / nanosecondsPerDay) := hrange
      rw [if_pos hday] at hutc
      cases hutc
  | some dt =>
    rw [hdt] at hutc
    by_cases hrange : DayInRange lo hi (nanosecondsOf unit v / nanosecondsPerDay)
    · rw [if_pos hrange] at hutc
      refine iff_of_true ⟨.dateTime dt, rfl, ?_⟩ hrange
      exact congrArg NaiveDateTime.nanoseconds (Option.some.inj hutc)
    · rw [if_neg hrange] at hutc
      cases hutc

private theorem fromTimestamp_exact (hlibs : libs.Converts lo hi) (unit : TimeUnit) :
    Exact lo hi (.timestamp unit none)
      fun v => (libs.fromTimestamp unit v).map .naiveDateTime := by
  intro v
  dsimp only
  rw [hlibs.fromTimestamp]
  exact exists_of_ite fun _ => rfl

private theorem withTimezone_exact (hlibs : libs.Converts lo hi) (unit : TimeUnit)
    (name : String) (tz : libs.Tz) :
    Exact lo hi (.timestamp unit (some name))
      fun v => (libs.fromTimestamp unit v).map fun dt => .dateTime (libs.withTimezone dt tz) := by
  intro v
  dsimp only
  rw [hlibs.fromTimestamp]
  refine exists_of_ite fun _ => ?_
  change (libs.withTimezone _ tz).utc.nanoseconds = _
  rw [hlibs.withTimezone]

end Conversions

section Slots
variable {libs : EncodeLibraries} {lo hi : Int} {type : PrimitiveType} {slots : List (Slot Int)}
  {idx : Nat} {slot : Slot Int} {arrowField : Field} {pgField : FieldInfo}

private theorem keepsValue_of_field {value : Option Native}
    (h : ∀ (σ : Type) (encoder : Encoder σ),
      encodeValue libs (.primitive type slots) encoder idx arrowField pgField =
        encoder.encodeField (.scalar value) pgField) (v : Int) :
    KeepsValue libs (.primitive type slots) idx arrowField pgField v ↔
      ∃ native, value = some native ∧ Denotes type.dataType v native := by
  refine (oneCall_or_error_iff h).trans (exists_congr fun native => and_congr_left' ?_)
  rw [FieldValue.scalar.injEq, eq_comm]

private theorem keepsElements_of_field {values : List (Option Native)}
    (h : ∀ (σ : Type) (encoder : Encoder σ),
      encodeList libs (.primitive type slots) encoder pgField =
        encoder.encodeField (.list values) pgField) :
    KeepsElements libs (.primitive type slots) slots pgField ↔
      List.Forall₂ (fun (slot : Slot Int) value => slot.valid = true →
        ∃ native, value = some native ∧ Denotes type.dataType slot.value native) slots values := by
  refine (oneCall_or_error_iff h).trans ?_
  simp only [FieldValue.list.injEq, exists_eq_left]
  rfl

theorem getValue_read (type : PrimitiveType) (hslot : slots[idx]? = some slot) (hvalid : slot.valid = true) :
    getValue (.primitive type slots) idx
      ((ArrowArray.primitive type slots).asPrimitive type.native) = .ok (some slot.value) := by
  have hidx : idx < slots.length := (List.getElem?_eq_some_iff.mp hslot).1
  obtain ⟨slot', hslot', hget⟩ := (primitive_backedBy type slots).getValue hidx
  cases hslot.symm.trans hslot'
  rw [ArrowArray.asPrimitive_self, hget]
  unfold Slot.get
  rw [if_pos hvalid]

theorem scalarArm_read (hslot : slots[idx]? = some slot) (hvalid : slot.valid = true)
    (convert : Int → Option Native) :
    some <$> scalarOf (.primitive type slots) idx
        ((ArrowArray.primitive type slots).asPrimitive type.native) convert =
      .ok (some (.scalar (convert slot.value))) := by
  unfold scalarOf
  rw [getValue_read type hslot hvalid]
  rfl

private theorem keepsValue_iff (htype : arrowField.dataType = type.dataType)
    (hscalar : isScalarType type.dataType = true) {convert : Int → Option Native}
    (harm : scalarValue libs (.primitive type slots) idx type.dataType =
      .ok (some (.scalar (convert slot.value))))
    (hexact : Exact lo hi type.dataType convert) :
    KeepsValue libs (.primitive type slots) idx arrowField pgField slot.value ↔
      InRange lo hi type.dataType slot.value := by
  rw [← hexact slot.value]
  refine keepsValue_of_field (fun σ encoder => ?_) slot.value
  rw [← htype] at hscalar harm
  rw [encodeValue_scalar hscalar, harm]
  rfl

private theorem keepsElements_iff {convert : Int → Option Native}
    (harm : listValue libs (.primitive type slots) =
      .ok (.list (slots.map fun slot => slot.get.bind convert)))
    (hexact : Exact lo hi type.dataType convert) :
    KeepsElements libs (.primitive type slots) slots pgField ↔
      ∀ slot ∈ slots, slot.valid = true → InRange lo hi type.dataType slot.value := by
  have hfield : ∀ (σ : Type) (encoder : Encoder σ),
      encodeList libs (.primitive type slots) encoder pgField =
        encoder.encodeField (.list (slots.map fun slot => slot.get.bind convert)) pgField := by
    intro σ encoder
    change encodeWith encoder pgField (listValue libs (.primitive type slots)) = _
    rw [harm]
    rfl
  rw [keepsElements_of_field hfield, List.forall₂_map_right_iff, List.forall₂_same]
  refine forall₂_congr fun slot _ => forall_congr' fun hvalid => ?_
  unfold Slot.get
  rw [if_pos hvalid]
  exact hexact slot.value

theorem listElements_read (convert : Int → Option Native) :
    listElements ((ArrowArray.primitive type slots).asPrimitive type.native) convert =
      .ok (.list (slots.map fun slot => slot.get.bind convert)) := by
  rw [ArrowArray.asPrimitive_self]
  rfl

/-- When the values of an array are kept, and when its elements are. -/
def TemporalKept (libs : EncodeLibraries) (lo hi : Int) (type : PrimitiveType)
    (slots : List (Slot Int)) (arrowField : Field) (pgField : FieldInfo) : Prop :=
  (∀ (idx : Nat) (slot : Slot Int), slots[idx]? = some slot → slot.valid = true →
    (KeepsValue libs (.primitive type slots) idx arrowField pgField slot.value ↔
      InRange lo hi type.dataType slot.value ∨ ¬ TypeZoneKnown libs type.dataType)) ∧
  (KeepsElements libs (.primitive type slots) slots pgField ↔
    (∀ slot ∈ slots, slot.valid = true → InRange lo hi type.dataType slot.value) ∨
      ¬ TypeZoneKnown libs type.dataType)

private theorem kept_of_exact (htype : arrowField.dataType = type.dataType)
    (hscalar : isScalarType type.dataType = true) (hzone : TypeZoneKnown libs type.dataType)
    {scalarConvert listConvert : Int → Option Native}
    (hscalarExact : Exact lo hi type.dataType scalarConvert)
    (hlistExact : Exact lo hi type.dataType listConvert)
    (hscalarArm : ∀ idx slot, slots[idx]? = some slot → slot.valid = true →
      scalarValue libs (.primitive type slots) idx type.dataType =
        .ok (some (.scalar (scalarConvert slot.value))))
    (hlistArm : listValue libs (.primitive type slots) =
      .ok (.list (slots.map fun slot => slot.get.bind listConvert))) :
    TemporalKept libs lo hi type slots arrowField pgField := by
  constructor
  · intro idx slot hslot hvalid
    rw [keepsValue_iff htype hscalar (hscalarArm idx slot hslot hvalid) hscalarExact]
    exact ⟨.inl, fun h => h.resolve_right fun hunknown => hunknown hzone⟩
  · rw [keepsElements_iff hlistArm hlistExact]
    exact ⟨.inl, fun h => h.resolve_right fun hunknown => hunknown hzone⟩

end Slots

section Timestamps
variable {libs : EncodeLibraries} {lo hi : Int} {slots : List (Slot Int)} {idx : Nat}
  {slot : Slot Int} {arrowField : Field} {pgField : FieldInfo} {unit : TimeUnit}

/-- The type of the timestamps of a unit and time zone. -/
def timestampType (unit : TimeUnit) (timezone : Option String) : PrimitiveType :=
  ⟨.timestamp unit timezone, .timestamp unit, rfl⟩

theorem timestamp_read (hslot : slots[idx]? = some slot) (hvalid : slot.valid = true) :
    scalarValue libs (.primitive (timestampType unit none) slots) idx (.timestamp unit none) =
      .ok (some (.scalar ((libs.valueAsDatetime unit slot.value).map .naiveDateTime))) := by
  have hget := getValue_read (timestampType unit none) hslot hvalid
  change some <$> timestampValue libs _ idx unit none = _
  unfold timestampValue
  change some <$> (getValue _ idx ((ArrowArray.primitive (timestampType unit none) slots).asPrimitive
    (timestampType unit none).native) >>= _) = _
  rw [hget]
  rfl

private theorem timestampTz_arm (unit : TimeUnit) (name : String) (hslot : slots[idx]? = some slot)
    (hvalid : slot.valid = true) :
    scalarValue libs (.primitive (timestampType unit (some name)) slots) idx
        (.timestamp unit (some name)) =
      some <$> (match libs.parseTz name with
        | .error text => Except.error (timezoneError text)
        | .ok tz =>
          .ok (FieldValue.scalar ((libs.valueAsDatetimeWithTz unit slot.value tz).map .dateTime))) := by
  have hget := getValue_read (timestampType unit (some name)) hslot hvalid
  change some <$> (getValue _ idx ((ArrowArray.primitive (timestampType unit (some name))
    slots).asPrimitive (timestampType unit (some name)).native) >>= _) = _
  rw [hget]
  rfl

theorem timestampTz_read (hslot : slots[idx]? = some slot) (hvalid : slot.valid = true)
    {name : String} {tz : libs.Tz} (hparse : libs.parseTz name = .ok tz) :
    scalarValue libs (.primitive (timestampType unit (some name)) slots) idx
        (.timestamp unit (some name)) =
      .ok (some (.scalar ((libs.valueAsDatetimeWithTz unit slot.value tz).map .dateTime))) := by
  rw [timestampTz_arm unit name hslot hvalid, hparse]
  rfl

private theorem timestampTz_unknown (unit : TimeUnit) (hslot : slots[idx]? = some slot)
    (hvalid : slot.valid = true) {name text : String} (hparse : libs.parseTz name = .error text) :
    scalarValue libs (.primitive (timestampType unit (some name)) slots) idx
      (.timestamp unit (some name)) = .error (timezoneError text) := by
  rw [timestampTz_arm unit name hslot hvalid, hparse]
  rfl

private theorem timestampElementsTz_arm (unit : TimeUnit) (name : String) :
    listValue libs (.primitive (timestampType unit (some name)) slots) =
      match libs.parseTz name with
      | .error text => .error (timezoneError text)
      | .ok tz => .ok (.list (slots.map fun slot => slot.get.bind fun v =>
          (libs.fromTimestamp unit v).map fun dt => .dateTime (libs.withTimezone dt tz))) := by
  change timestampElements libs unit (some name)
    ((ArrowArray.primitive (timestampType unit (some name)) slots).asPrimitive
      (timestampType unit (some name)).native) = _
  rw [ArrowArray.asPrimitive_self]
  rfl

private theorem timestampElementsTz_read {name : String} {tz : libs.Tz}
    (hparse : libs.parseTz name = .ok tz) :
    listValue libs (.primitive (timestampType unit (some name)) slots) =
      .ok (.list (slots.map fun slot => slot.get.bind fun v =>
        (libs.fromTimestamp unit v).map fun dt => .dateTime (libs.withTimezone dt tz))) := by
  rw [timestampElementsTz_arm, hparse]

private theorem timestampElementsTz_unknown {name text : String}
    (hparse : libs.parseTz name = .error text) :
    listValue libs (.primitive (timestampType unit (some name)) slots) =
      .error (timezoneError text) := by
  rw [timestampElementsTz_arm, hparse]

private theorem timestamp_kept (hlibs : libs.Converts lo hi)
    (htype : arrowField.dataType = .timestamp unit none) :
    TemporalKept libs lo hi (timestampType unit none) slots arrowField pgField := by
  refine kept_of_exact htype rfl (fun _ => nofun) (datetime_exact hlibs unit)
    (fromTimestamp_exact hlibs unit) (fun idx slot => timestamp_read) ?_
  change timestampElements libs unit none
    ((ArrowArray.primitive (timestampType unit none) slots).asPrimitive
      (timestampType unit none).native) = _
  rw [ArrowArray.asPrimitive_self]
  rfl

private theorem timestampTz_kept (hlibs : libs.Converts lo hi) {name : String}
    (htype : arrowField.dataType = .timestamp unit (some name)) :
    TemporalKept libs lo hi (timestampType unit (some name)) slots arrowField pgField := by
  cases hparse : libs.parseTz name with
  | ok tz =>
    refine kept_of_exact htype rfl ?_ (datetimeWithTz_exact hlibs unit name tz)
      (withTimezone_exact hlibs unit name tz)
      (fun idx slot hslot hvalid => timestampTz_read hslot hvalid hparse)
      (timestampElementsTz_read hparse)
    rintro name' hname
    cases hname
    exact ⟨tz, hparse⟩
  | error text =>
    have hunknown : ¬ TypeZoneKnown libs (.timestamp unit (some name)) := by
      intro h
      obtain ⟨tz, hok⟩ := h name rfl
      rw [hparse] at hok
      cases hok
    have hscalar : isScalarType arrowField.dataType = true := by
      rw [htype]
      rfl
    constructor
    · intro idx slot hslot hvalid
      refine iff_of_true (.inr ⟨.apiError [.text text], fun σ encoder => ?_⟩) (.inr hunknown)
      have harm := timestampTz_unknown unit hslot hvalid hparse
      rw [← htype] at harm
      rw [encodeValue_scalar hscalar, harm]
      rfl
    · refine iff_of_true (.inr ⟨.apiError [.text text], fun σ encoder => ?_⟩) (.inr hunknown)
      change encodeWith encoder pgField (listValue libs _) = _
      rw [timestampElementsTz_unknown hparse]
      rfl

end Timestamps

private theorem temporal_kept {libs : EncodeLibraries} {lo hi : Int} (hlibs : libs.Converts lo hi)
    {type : PrimitiveType} (htemporal : isTemporal type.dataType = true) (slots : List (Slot Int))
    {arrowField : Field} (htype : arrowField.dataType = type.dataType) (pgField : FieldInfo) :
    TemporalKept libs lo hi type slots arrowField pgField := by
  obtain ⟨dataType, native, hnative⟩ := type
  cases dataType
  case date32 =>
    cases hnative
    exact kept_of_exact htype rfl trivial (date32_exact hlibs) (date32_exact hlibs)
      (fun idx slot hslot hvalid => scalarArm_read hslot hvalid _) (listElements_read _)
  case date64 =>
    cases hnative
    exact kept_of_exact htype rfl trivial (date64_exact hlibs) (date64_exact hlibs)
      (fun idx slot hslot hvalid => scalarArm_read hslot hvalid _) (listElements_read _)
  case time32 unit =>
    have hexact := time32_exact hlibs unit
    cases unit <;> cases hnative <;>
    · exact kept_of_exact htype rfl trivial hexact hexact
        (fun idx slot hslot hvalid => scalarArm_read hslot hvalid _) (listElements_read _)
  case time64 unit =>
    have hexact := time64_exact hlibs unit
    cases unit <;> cases hnative <;>
    · exact kept_of_exact htype rfl trivial hexact hexact
        (fun idx slot hslot hvalid => scalarArm_read hslot hvalid _) (listElements_read _)
  case timestamp unit timezone =>
    cases hnative
    cases timezone with
    | none => exact timestamp_kept hlibs htype
    | some name => exact timestampTz_kept hlibs htype
  all_goals cases htemporal

/-- A date, time or timestamp that is not NULL is kept, or is an error, exactly if the
conversion has it in its range or its time zone is not known. -/
theorem encodeValue_temporal_iff {libs : EncodeLibraries} {lo hi : Int}
    (hlibs : libs.Converts lo hi) {type : PrimitiveType}
    (htemporal : isTemporal type.dataType = true) (slots : List (Slot Int)) {arrowField : Field}
    (htype : arrowField.dataType = type.dataType) (pgField : FieldInfo) :
    (∀ (idx : Nat) (slot : Slot Int), slots[idx]? = some slot → slot.valid = true →
      (KeepsValue libs (.primitive type slots) idx arrowField pgField slot.value ↔
        InRange lo hi type.dataType slot.value ∨ ¬ TypeZoneKnown libs type.dataType)) ∧
    (KeepsElements libs (.primitive type slots) slots pgField ↔
      (∀ slot ∈ slots, slot.valid = true → InRange lo hi type.dataType slot.value) ∨
        ¬ TypeZoneKnown libs type.dataType) :=
  temporal_kept hlibs htemporal slots htype pgField

section Examples

theorem referenceEncoding_converts : referenceEncoding.Converts chronoMinDay chronoMaxDay where
  date32AsDate _ := rfl
  date64AsDate _ := rfl
  asTime _ _ := rfl
  valueAsDatetime _ _ := rfl
  valueAsDatetimeWithTz unit v tz := by
    change ((chronoDateTime (nanosecondsOf unit v)).map _).map DateTime.utc = _
    rw [Option.map_map]
    exact Option.map_id'
  fromTimestamp _ _ := rfl
  withTimezone _ _ := rfl

def dateType : PrimitiveType := ⟨.date32, .date32, rfl⟩

def dueField : Field := .new "due" .date32 true

theorem firstDay_kept :
    KeepsValue referenceEncoding (.primitive dateType [⟨true, 0⟩]) 0 dueField
      (textInfo "due" .date) 0 := by
  have htemporal : isTemporal dateType.dataType = true := rfl
  have htype : dueField.dataType = dateType.dataType := rfl
  have hrange : DayInRange chronoMinDay chronoMaxDay 0 := by decide
  exact ((encodeValue_temporal_iff referenceEncoding_converts htemporal [⟨true, 0⟩] htype
    (textInfo "due" .date)).1 0 ⟨true, 0⟩ rfl rfl).mpr (.inl hrange)

/-- The last day of a Date32 is far behind the last day of `chrono`. -/
theorem lastDay_not_kept :
    ¬ KeepsValue referenceEncoding (.primitive dateType [⟨true, 2147483647⟩]) 0 dueField
      (textInfo "due" .date) 2147483647 := by
  rintro (⟨native, -, hrun⟩ | ⟨e, hrun⟩)
  · cases congrFun (hrun _ .collecting) []
  · cases congrFun (hrun _ .collecting) []

end Examples
end DatafusionPostgres.ArrowPg

import DatafusionPostgres.ArrowPg.IntegerParameters
import DatafusionPostgres.ArrowPg.TemporalValues

/-! Intervals that are bound and durations that are encoded: exact, or rejected. -/
namespace DatafusionPostgres.ArrowPg

/-- A scalar of the same months, days and time. -/
def Interval.DenotedBy (i : Interval) : ScalarValue → Prop
  | .intervalYearMonth value => ∃ months, value = some months ∧ i = ⟨months, 0, 0⟩
  | .intervalDayTime value => ∃ v, value = some v ∧ i.months = 0 ∧ i.days = v.days ∧
    i.microseconds.toInt = v.milliseconds.toInt * 1000
  | .intervalMonthDayNano value => ∃ v, value = some v ∧ i.months = v.months ∧ i.days = v.days ∧
    i.microseconds.toInt * 1000 = v.nanoseconds.toInt
  | _ => False

/-- The target has room for the time: the nanoseconds of an `i64`, or the milliseconds of an
`i32` where there are no months and nothing below a millisecond. -/
def Interval.Fits (i : Interval) : Option DataType → Prop
  | none | some (.interval .monthDayNano) | some (.duration _) =>
    fitsI64 (i.microseconds.toInt * 1000)
  | some (.interval .dayTime) => i.months = 0 → ∀ ms : Int, i.microseconds.toInt = ms * 1000 →
    -2 ^ 31 ≤ ms ∧ ms ≤ 2 ^ 31 - 1
  | _ => True

section Parameters
variable {i : Interval}

private theorem monthDayNano_iff :
    i.DenotedBy (.newIntervalMdn i.months i.days (i.microseconds * 1000)) ↔
      fitsI64 (i.microseconds.toInt * 1000) := by
  refine Iff.trans ?_ (Int64.toInt_mul_iff i.microseconds 1000)
  constructor
  · rintro ⟨_, heq, -, -, htime⟩
    cases heq
    exact htime.symm
  · intro htime
    exact ⟨_, rfl, rfl, rfl, htime.symm⟩

private theorem yearMonth_kept (i : Interval) :
    PushedOrRejected i.DenotedBy (coerceOr (some (.interval .yearMonth))
      (coerceIntervalValue (some i)) (untypedInterval (some i))) := by
  by_cases htime : i.days ≠ 0 ∨ i.microseconds ≠ 0
  · have hrun : coerceOr (some (.interval .yearMonth)) (coerceIntervalValue (some i))
        (untypedInterval (some i)) = .error (.err (invalidParameterError
          [.text "Cannot coerce INTERVAL with days or time components to YearMonth interval"])) := by
      simp only [coerceOr, coerceIntervalValue, if_pos htime]
      rfl
    rw [hrun]
    exact ⟨_, rfl⟩
  · have hrun : coerceOr (some (.interval .yearMonth)) (coerceIntervalValue (some i))
        (untypedInterval (some i)) = .ok [.intervalYearMonth (some i.months)] := by
      simp only [coerceOr, coerceIntervalValue, if_neg htime]
      rfl
    obtain ⟨hdays, hmicros⟩ := not_or.mp htime
    obtain ⟨months, days, microseconds⟩ := i
    cases not_not.mp hdays
    cases not_not.mp hmicros
    rw [hrun, pushedOrRejected_ok]
    exact ⟨months, rfl, rfl⟩

private theorem milliseconds_iff {t : Int64} (hmod : t % 1000 = 0) :
    t.toInt = (t / 1000).toInt32.toInt * 1000 ↔
      ∀ ms : Int, t.toInt = ms * 1000 → -2 ^ 31 ≤ ms ∧ ms ≤ 2 ^ 31 - 1 := by
  have hrest : t.toInt.tmod 1000 = 0 := by
    have htmod := congrArg Int64.toInt hmod
    rwa [Int64.toInt_mod] at htmod
  obtain ⟨q, hq⟩ := Int.dvd_of_tmod_eq_zero hrest
  have hdiv : (t / 1000).toInt = q := by
    rw [Int64.toInt_div_of_ne_right _ _ (by decide), hq]
    exact Int.mul_tdiv_cancel_left q (by decide)
  rw [Int64.toInt_toInt32, hdiv, hq]
  constructor
  · intro hcast ms hms
    have hms' : ms = q.bmod (2 ^ 32) := by omega
    rw [hms']
    have hlow := Int.le_bmod (x := q) (m := 2 ^ 32) (by decide)
    have hhigh := Int.bmod_lt (x := q) (m := 2 ^ 32) (by decide)
    omega
  · intro hrange
    obtain ⟨hlow, hhigh⟩ := hrange q (by omega)
    rw [Int.bmod_eq_of_le (by omega) (by omega), Int.mul_comm]

private theorem dayTime_iff (i : Interval) :
    PushedOrRejected i.DenotedBy (coerceOr (some (.interval .dayTime))
      (coerceIntervalValue (some i)) (untypedInterval (some i))) ↔ i.Fits (some (.interval .dayTime)) := by
  by_cases hmonths : i.months ≠ 0
  · have hrun : coerceOr (some (.interval .dayTime)) (coerceIntervalValue (some i))
        (untypedInterval (some i)) = .error (.err (invalidParameterError
          [.text "Cannot coerce INTERVAL with months component to DayTime interval"])) := by
      simp only [coerceOr, coerceIntervalValue, if_pos hmonths]
      rfl
    rw [hrun]
    exact iff_of_true ⟨_, rfl⟩ fun hzero => absurd hzero hmonths
  by_cases hmod : i.microseconds % 1000 ≠ 0
  · have hrun : coerceOr (some (.interval .dayTime)) (coerceIntervalValue (some i))
        (untypedInterval (some i)) = .error (.err (invalidParameterError
          [.text "Cannot coerce INTERVAL with sub-millisecond precision to DayTime interval"])) := by
      simp only [coerceOr, coerceIntervalValue, if_neg hmonths, if_pos hmod]
      rfl
    rw [hrun]
    refine iff_of_true ⟨_, rfl⟩ fun _ ms hms => absurd ?_ hmod
    apply Int64.toInt_inj.mp
    rw [Int64.toInt_mod, hms]
    exact Int.mul_tmod_left ms 1000
  · have hrun : coerceOr (some (.interval .dayTime)) (coerceIntervalValue (some i))
        (untypedInterval (some i)) =
          .ok [.newIntervalDt i.days (i.microseconds / 1000).toInt32] := by
      simp only [coerceOr, coerceIntervalValue, if_neg hmonths, if_neg hmod]
      rfl
    rw [hrun, pushedOrRejected_ok]
    have hcast := milliseconds_iff (not_not.mp hmod)
    constructor
    · rintro ⟨_, heq, -, -, htime⟩ -
      cases heq
      exact hcast.mp htime
    · intro hfits
      exact ⟨_, rfl, not_not.mp hmonths, rfl, hcast.mpr (hfits (not_not.mp hmonths))⟩

/-- The arm of INTERVAL is exact, or an error, exactly if the target has room. -/
theorem coerceInterval_kept_iff (i : Interval) (inferencedType : Option DataType) :
    PushedOrRejected i.DenotedBy (coerceOr inferencedType (coerceIntervalValue (some i))
      (untypedInterval (some i))) ↔ i.Fits inferencedType := by
  cases inferencedType with
  | none => exact pushedOrRejected_ok.trans monthDayNano_iff
  | some target =>
    cases target with
    | interval unit =>
      cases unit with
      | yearMonth => exact iff_true_intro (yearMonth_kept i)
      | dayTime => exact dayTime_iff i
      | monthDayNano => exact pushedOrRejected_ok.trans monthDayNano_iff
    | duration unit => exact pushedOrRejected_ok.trans monthDayNano_iff
    | _ => exact iff_true_intro ⟨_, rfl⟩

/-- A turn of the loop for an interval. -/
theorem intervalParameter_kept_iff {libs : ParamLibraries} {portal : Portal}
    {inferencedTypes : List (Option DataType)} {idx : Nat} {param : BoundParameter}
    (hread : param.read .interval .interval = .ok (some i))
    (htype : parameterPgType portal inferencedTypes idx = .ok .interval) :
    PushedOrRejected i.DenotedBy (parameterTurn libs portal inferencedTypes (param, idx)) ↔
      i.Fits inferencedTypes[idx]?.join := by
  have hturn : parameterTurn libs portal inferencedTypes (param, idx) =
      deserializeParameter libs param .interval inferencedTypes[idx]?.join := by
    simp only [parameterTurn, htype]
    rfl
  have harm : deserializeParameter libs param .interval inferencedTypes[idx]?.join =
      coerceOr inferencedTypes[idx]?.join (coerceIntervalValue (some i))
        (untypedInterval (some i)) := read_ok hread _
  rw [hturn, harm]
  exact coerceInterval_kept_iff i inferencedTypes[idx]?.join

end Parameters

/-- So many units in microseconds, cut off toward zero. -/
def TimeUnit.inMicroseconds (n : Int) : TimeUnit → Int
  | .second => n * 1000000
  | .millisecond => n * 1000
  | .microsecond => n
  | .nanosecond => n.tdiv 1000

/-- An interval of the duration and nothing else. -/
def DenotesDuration (unit : TimeUnit) (n : Int) : Native → Prop
  | .interval i => i.months = 0 ∧ i.days = 0 ∧ i.microseconds.toInt = unit.inMicroseconds n
  | _ => False

/-- One call of the encoder with the duration, or an error. -/
def KeepsDuration (libs : EncodeLibraries) (arr : ArrowArray) (idx : Nat) (arrowField : Field)
    (pgField : FieldInfo) (unit : TimeUnit) (n : Int) : Prop :=
  (∃ native, DenotesDuration unit n native ∧ ∀ (σ : Type) (encoder : Encoder σ),
    encodeValue libs arr encoder idx arrowField pgField =
      encoder.encodeField (.scalar (some native)) pgField) ∨
  ∃ e, ∀ (σ : Type) (encoder : Encoder σ),
    encodeValue libs arr encoder idx arrowField pgField = throw (.err e)

/-- One call of the encoder with all durations that are not NULL, or an error. -/
def KeepsDurations (libs : EncodeLibraries) (arr : ArrowArray) (slots : List (Slot Int))
    (pgField : FieldInfo) (unit : TimeUnit) : Prop :=
  (∃ values, List.Forall₂ (fun (slot : Slot Int) value => slot.valid = true →
      ∃ native, value = some native ∧ DenotesDuration unit slot.value native) slots values ∧
    ∀ (σ : Type) (encoder : Encoder σ),
      encodeList libs arr encoder pgField = encoder.encodeField (.list values) pgField) ∨
  ∃ e, ∀ (σ : Type) (encoder : Encoder σ), encodeList libs arr encoder pgField = throw (.err e)

section Durations
variable {libs : EncodeLibraries} {type : PrimitiveType} {unit : TimeUnit}
  {slots : List (Slot Int)} {arrowField : Field} {pgField : FieldInfo}

theorem durationMicroseconds_iff (unit : TimeUnit) (n : Int64) :
    DenotesDuration unit n.toInt (durationInterval unit n.toInt) ↔
      fitsI64 (unit.inMicroseconds n.toInt) := by
  have hfits : fitsI64 n.toInt := ⟨n.le_toInt, Int.le_sub_one_of_lt n.toInt_lt⟩
  refine Iff.trans (and_iff_right rfl) ((and_iff_right rfl).trans ?_)
  change (durationMicroseconds unit n.toInt).toInt = _ ↔ _
  unfold durationMicroseconds
  rw [Int64.ofInt_toInt]
  cases unit with
  | second => exact Int64.toInt_mul_iff n 1000000
  | millisecond => exact Int64.toInt_mul_iff n 1000
  | microsecond => exact iff_of_true rfl hfits
  | nanosecond =>
    have hdiv : (n / 1000).toInt = n.toInt.tdiv 1000 :=
      Int64.toInt_div_of_ne_right _ _ (by decide)
    refine iff_of_true hdiv ?_
    change fitsI64 (n.toInt.tdiv 1000)
    rw [← hdiv]
    exact ⟨(n / 1000).le_toInt, Int.le_sub_one_of_lt (n / 1000).toInt_lt⟩

private theorem duration_read (htype : type.dataType = .duration unit) {idx : Nat} {n : Int64}
    (hslot : slots[idx]? = some ⟨true, n.toInt⟩) :
    scalarValue libs (.primitive type slots) idx (.duration unit) =
      .ok (some (.scalar (some (durationInterval unit n.toInt)))) := by
  obtain ⟨dataType, native, hnative⟩ := type
  cases htype
  cases hnative
  exact scalarArm_read hslot rfl fun v => some (durationInterval unit v)

private theorem keepsDuration_iff (htype : type.dataType = .duration unit)
    (hfield : arrowField.dataType = .duration unit) {idx : Nat} {n : Int64}
    (hslot : slots[idx]? = some ⟨true, n.toInt⟩) :
    KeepsDuration libs (.primitive type slots) idx arrowField pgField unit n.toInt ↔
      fitsI64 (unit.inMicroseconds n.toInt) := by
  have hscalar : isScalarType arrowField.dataType = true := by
    rw [hfield]
    rfl
  have hrun : ∀ (σ : Type) (encoder : Encoder σ),
      encodeValue libs (.primitive type slots) encoder idx arrowField pgField =
        encoder.encodeField (.scalar (some (durationInterval unit n.toInt))) pgField := by
    intro σ encoder
    rw [encodeValue_scalar hscalar, hfield, duration_read htype hslot]
    rfl
  rw [← durationMicroseconds_iff]
  refine (oneCall_or_error_iff hrun).trans ?_
  simp only [FieldValue.scalar.injEq, Option.some.injEq, exists_eq_left]

private theorem durations_read (htype : type.dataType = .duration unit) :
    listValue libs (.primitive type slots) =
      .ok (.list (slots.map fun slot => slot.get.bind fun n => some (durationInterval unit n))) := by
  obtain ⟨dataType, native, hnative⟩ := type
  cases htype
  cases hnative
  exact listElements_read fun n => some (durationInterval unit n)

private theorem keepsDurations_iff (htype : type.dataType = .duration unit)
    (hslots : ∀ slot ∈ slots, ∃ n : Int64, slot.value = n.toInt) :
    KeepsDurations libs (.primitive type slots) slots pgField unit ↔
      ∀ slot ∈ slots, slot.valid = true → fitsI64 (unit.inMicroseconds slot.value) := by
  have hrun : ∀ (σ : Type) (encoder : Encoder σ),
      encodeList libs (.primitive type slots) encoder pgField =
        encoder.encodeField (.list (slots.map fun slot =>
          slot.get.bind fun n => some (durationInterval unit n))) pgField := by
    intro σ encoder
    change encodeWith encoder pgField (listValue libs (.primitive type slots)) = _
    rw [durations_read htype]
    rfl
  have hvalues : List.Forall₂ (fun (slot : Slot Int) value => slot.valid = true →
      ∃ native, value = some native ∧ DenotesDuration unit slot.value native) slots
        (slots.map fun slot => slot.get.bind fun n => some (durationInterval unit n)) ↔
      ∀ slot ∈ slots, slot.valid = true → fitsI64 (unit.inMicroseconds slot.value) := by
    rw [List.forall₂_map_right_iff, List.forall₂_same]
    refine forall₂_congr fun slot hslot => forall_congr' fun hvalid => ?_
    obtain ⟨n, hn⟩ := hslots slot hslot
    rw [Slot.get, if_pos hvalid, hn, ← durationMicroseconds_iff]
    constructor
    · rintro ⟨native, hnative, hdenotes⟩
      cases hnative
      exact hdenotes
    · intro hdenotes
      exact ⟨_, rfl, hdenotes⟩
  rw [← hvalues]
  refine (oneCall_or_error_iff hrun).trans ?_
  simp only [FieldValue.list.injEq, exists_eq_left]

end Durations

/-- An interval is bound, and a duration encoded, exactly or not at all, exactly if the type that
it becomes has room for its time. -/
theorem intervals_exact_iff (libs : ParamLibraries) (encodeLibs : EncodeLibraries) :
    (∀ (portal : Portal) (inferencedTypes : List (Option DataType)) (idx : Nat)
        (param : BoundParameter) (i : Interval),
      param.read .interval .interval = .ok (some i) →
      parameterPgType portal inferencedTypes idx = .ok .interval →
      (PushedOrRejected i.DenotedBy (parameterTurn libs portal inferencedTypes (param, idx)) ↔
        i.Fits inferencedTypes[idx]?.join)) ∧
    ∀ (type : PrimitiveType) (unit : TimeUnit) (slots : List (Slot Int)) (arrowField : Field)
        (pgField : FieldInfo),
      type.dataType = .duration unit → arrowField.dataType = .duration unit →
      (∀ slot ∈ slots, ∃ n : Int64, slot.value = n.toInt) →
      (∀ (idx : Nat) (slot : Slot Int), slots[idx]? = some slot → slot.valid = true →
        (KeepsDuration encodeLibs (.primitive type slots) idx arrowField pgField unit slot.value ↔
          fitsI64 (unit.inMicroseconds slot.value))) ∧
      (KeepsDurations encodeLibs (.primitive type slots) slots pgField unit ↔
        ∀ slot ∈ slots, slot.valid = true → fitsI64 (unit.inMicroseconds slot.value)) := by
  constructor
  · intro portal inferencedTypes idx param i hread htype
    exact intervalParameter_kept_iff hread htype
  · intro type unit slots arrowField pgField htype hfield hslots
    constructor
    · rintro idx ⟨valid, value⟩ hslot hvalid
      cases hvalid
      obtain ⟨n, hn⟩ := hslots _ (List.mem_of_getElem? hslot)
      cases hn
      exact keepsDuration_iff htype hfield hslot
    · exact keepsDurations_iff htype hslots

section Examples

/-- An INTERVAL on the wire. -/
def BoundParameter.interval (i : Interval) : BoundParameter where
  isNull := false
  read
    | .interval, _ => .ok (some i)
    | _, _ => .error (.apiError [.text "INTERVAL expected"])
  read_null t pgType := by cases t <;> simp

def hour : Interval := ⟨0, 0, 3600000000⟩

theorem hour_kept :
    PushedOrRejected hour.DenotedBy (parameterTurn referenceLibraries
      ⟨[.interval hour], [some .interval]⟩ [some (.interval .dayTime)] (.interval hour, 0)) := by
  apply ((intervals_exact_iff referenceLibraries referenceEncoding).1
    ⟨[.interval hour], [some .interval]⟩ [some (.interval .dayTime)] 0 (.interval hour) hour
    rfl rfl).mpr
  intro _ ms hms
  have hmicros : hour.microseconds.toInt = 3600000000 := by decide
  omega

/-- Some 317 years. -/
def centuries : Interval := ⟨0, 0, 10000000000000000⟩

theorem centuries_not_kept :
    ¬ PushedOrRejected centuries.DenotedBy (parameterTurn referenceLibraries
      ⟨[.interval centuries], [some .interval]⟩ [none] (.interval centuries, 0)) := by
  intro hkept
  have hread : (BoundParameter.interval centuries).read .interval .interval =
      .ok (some centuries) := rfl
  have htype : parameterPgType ⟨[.interval centuries], [some .interval]⟩ [none] 0 =
      .ok .interval := rfl
  have hfits := (intervalParameter_kept_iff hread htype).mp hkept
  exact absurd hfits.2 (by decide)

end Examples
end DatafusionPostgres.ArrowPg

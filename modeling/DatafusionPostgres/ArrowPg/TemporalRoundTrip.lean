import DatafusionPostgres.ArrowPg.BoundValues
import DatafusionPostgres.ArrowPg.TemporalValues
import DatafusionPostgres.Library.ByteReader

/-! An interval, a time or a timestamp without a time zone that is encoded, sent and bound
as a parameter of its own type is the value that it was, up to the microsecond. -/
namespace DatafusionPostgres.ArrowPg
open Library

inductive TemporalValue where
  | yearMonth (months : Int32)
  | dayTime (value : IntervalDayTime)
  | monthDayNano (value : IntervalMonthDayNano)
  | time32Second (value : Int32)
  | time32Millisecond (value : Int32)
  | time64Microsecond (value : Int64)
  | time64Nanosecond (value : Int64)
  | timestamp (unit : TimeUnit) (value : Int64)

/-- A slot of a primitive array that holds the number and is not NULL. -/
def ArrowArray.Stores (arr : ArrowArray) (idx : Nat) (dataType : DataType) (n : Int) : Prop :=
  ∃ type slots, arr = .primitive type slots ∧ type.dataType = dataType ∧
    slots[idx]? = some ⟨true, n⟩

/-- Cut off after the microseconds, toward zero. -/
def wholeMicroseconds (nanoseconds : Int64) : Int64 := .ofInt (nanoseconds.toInt.tdiv 1000 * 1000)

/-- A time within the day, of whole microseconds. -/
def WholeTime (nanoseconds : Int) : Prop := TimeInRange nanoseconds ∧ nanoseconds % 1000 = 0

/-- An instant within `chrono`'s days, of whole microseconds. -/
def WholeInstant (lo hi nanoseconds : Int) : Prop :=
  DayInRange lo hi (nanoseconds / nanosecondsPerDay) ∧ nanoseconds % 1000 = 0

namespace TemporalValue

def scalar : TemporalValue → ScalarValue
  | .yearMonth months => .intervalYearMonth (some months)
  | .dayTime value => .intervalDayTime (some value)
  | .monthDayNano value => .intervalMonthDayNano (some value)
  | .time32Second value => .time32Second (some value)
  | .time32Millisecond value => .time32Millisecond (some value)
  | .time64Microsecond value => .time64Microsecond (some value)
  | .time64Nanosecond value => .time64Nanosecond (some value)
  | .timestamp .second value => .timestampSecond (some value) none
  | .timestamp .millisecond value => .timestampMillisecond (some value) none
  | .timestamp .microsecond value => .timestampMicrosecond (some value) none
  | .timestamp .nanosecond value => .timestampNanosecond (some value) none

/-- The value up to the part of a MonthDayNano below a microsecond. -/
def restored : TemporalValue → ScalarValue
  | .monthDayNano value =>
    .newIntervalMdn value.months value.days (wholeMicroseconds value.nanoseconds)
  | v => v.scalar

/-- The value is the one at the position of an array. -/
def StoredAt (arr : ArrowArray) (idx : Nat) : TemporalValue → Prop
  | .yearMonth months => arr.Stores idx (.interval .yearMonth) months.toInt
  | .dayTime value => ∃ slots, arr = .intervalDayTime slots ∧ slots[idx]? = some ⟨true, value⟩
  | .monthDayNano value =>
    ∃ slots, arr = .intervalMonthDayNano slots ∧ slots[idx]? = some ⟨true, value⟩
  | .time32Second value => arr.Stores idx (.time32 .second) value.toInt
  | .time32Millisecond value => arr.Stores idx (.time32 .millisecond) value.toInt
  | .time64Microsecond value => arr.Stores idx (.time64 .microsecond) value.toInt
  | .time64Nanosecond value => arr.Stores idx (.time64 .nanosecond) value.toInt
  | .timestamp unit value => arr.Stores idx (.timestamp unit none) value.toInt

/-- In the range of `chrono`, and of whole microseconds. Every interval is. -/
def Sendable (lo hi : Int) : TemporalValue → Prop
  | .yearMonth _ | .dayTime _ | .monthDayNano _ => True
  | .time32Second value => WholeTime (nanosecondsOf .second value.toInt)
  | .time32Millisecond value => WholeTime (nanosecondsOf .millisecond value.toInt)
  | .time64Microsecond value => WholeTime (nanosecondsOf .microsecond value.toInt)
  | .time64Nanosecond value => WholeTime (nanosecondsOf .nanosecond value.toInt)
  | .timestamp unit value => WholeInstant lo hi (nanosecondsOf unit value.toInt)

/-- The type that is advertised for the value's type. -/
def pgType : TemporalValue → PgType
  | .yearMonth _ | .dayTime _ | .monthDayNano _ => .interval
  | .time32Second _ | .time32Millisecond _ | .time64Microsecond _ | .time64Nanosecond _ => .time
  | .timestamp _ _ => .timestamp

theorem dataType_timestamp (unit : TimeUnit) (value : Int64) :
    (timestamp unit value).scalar.dataType = .timestamp unit none := by
  cases unit <;> rfl

theorem intoPgType_scalar (v : TemporalValue) : intoPgType v.scalar.dataType = .ok v.pgType := by
  cases v with
  | yearMonth | dayTime | monthDayNano => exact intoPgType_interval _
  | time32Second | time32Millisecond => exact intoPgType_time32 _
  | time64Microsecond | time64Nanosecond => exact intoPgType_time64 _
  | timestamp unit value =>
    rw [dataType_timestamp, intoPgType_timestamp]
    rfl

/-- The value that is sent. -/
def native : TemporalValue → Native
  | .yearMonth months => .interval ⟨months, 0, 0⟩
  | .dayTime value => dayTimeInterval value
  | .monthDayNano value => monthDayNanoInterval value
  | .time32Second value => .naiveTime ⟨(nanosecondsOf .second value.toInt).toNat⟩
  | .time32Millisecond value => .naiveTime ⟨(nanosecondsOf .millisecond value.toInt).toNat⟩
  | .time64Microsecond value => .naiveTime ⟨(nanosecondsOf .microsecond value.toInt).toNat⟩
  | .time64Nanosecond value => .naiveTime ⟨(nanosecondsOf .nanosecond value.toInt).toNat⟩
  | .timestamp unit value => .naiveDateTime ⟨nanosecondsOf unit value.toInt⟩

theorem isScalarType_scalar (v : TemporalValue) : isScalarType v.scalar.dataType = true := by
  cases v with
  | timestamp unit => cases unit <;> rfl
  | _ => rfl

theorem fieldCell_native (v : TemporalValue) (libs : EncodeLibraries) (pgField : FieldInfo) :
    fieldCell libs (.scalar (some v.native)) pgField =
      libs.toSql pgField.format (.scalar (some v.native)) pgField.datatype pgField.formatOptions := by
  cases v <;> rfl

end TemporalValue

/-- The parameter is read as the value that was sent, by its type. -/
def BoundParameter.Reads (param : BoundParameter) : Native → PgType → Prop
  | .interval value, .interval => param.read .interval .interval = .ok (some value)
  | .naiveTime value, .time => param.read .naiveTime .time = .ok (some value)
  | .naiveDateTime value, .timestamp => param.read .naiveDateTime .timestamp = .ok (some value)
  | _, _ => False

/-- What is sent as it is: intervals, and times and timestamps of whole microseconds. -/
def Wire (lo hi : Int) : Native → PgType → Prop
  | .interval _, .interval => True
  | .naiveTime value, .time => WholeTime value.nanoseconds
  | .naiveDateTime value, .timestamp => WholeInstant lo hi value.nanoseconds
  | _, _ => False

/-- What is assumed of the codecs of a wire field: `bind` is the cell as a parameter. -/
def EncodeLibraries.Transmits (libs : EncodeLibraries) (lo hi : Int) (pgField : FieldInfo)
    (bind : Cell → BoundParameter) : Prop :=
  ∀ native, Wire lo hi native pgField.datatype → ∃ cell,
    libs.toSql pgField.format (.scalar (some native)) pgField.datatype pgField.formatOptions =
      .ok cell ∧ (bind cell).Reads native pgField.datatype

section Arithmetic

private theorem units_restored {n u : Int} {k : Int64} (hunit : k.toInt = u) (hpos : 0 < u)
    (hlow : -2 ^ 63 ≤ n * u) (hhigh : n * u < 2 ^ 63) : (Int64.ofInt (n * u) / k).toInt = n := by
  have hne : k ≠ -1 := by
    rintro rfl
    rw [← hunit] at hpos
    exact absurd hpos (by decide)
  rw [Int64.toInt_div_of_ne_right _ _ hne, Int64.toInt_ofInt_of_le hlow hhigh, hunit]
  exact Int.mul_tdiv_cancel n hpos.ne'

private theorem int32_restored {a : Int64} {n : Int32} (h : a.toInt = n.toInt) : a.toInt32 = n := by
  have hlow := n.le_toInt
  have hhigh := n.toInt_lt
  apply Int32.toInt_inj.mp
  rw [Int64.toInt_toInt32, h]
  exact Int.bmod_eq_of_le (by omega) (by omega)

private theorem milliseconds_scaled (n : Int32) : n.toInt64 * 1000 = .ofInt (n.toInt * 1000) := by
  rw [Int64.ofInt_mul, Int64.ofInt_int32ToInt]
  rfl

private theorem milliseconds_mod (n : Int32) : n.toInt64 * 1000 % 1000 = 0 := by
  have hlow := n.le_toInt
  have hhigh := n.toInt_lt
  apply Int64.toInt_inj.mp
  rw [milliseconds_scaled, Int64.toInt_mod, Int64.toInt_ofInt_of_le (by omega) (by omega)]
  exact Int.mul_tmod_left _ _

private theorem milliseconds_restored (n : Int32) : (n.toInt64 * 1000 / 1000).toInt32 = n := by
  have hlow := n.le_toInt
  have hhigh := n.toInt_lt
  rw [milliseconds_scaled]
  exact int32_restored (units_restored rfl (by decide) (by omega) (by omega))

private theorem nanoseconds_restored (n : Int64) : n / 1000 * 1000 = wholeMicroseconds n := by
  have hdiv : (n / 1000).toInt = n.toInt.tdiv 1000 :=
    Int64.toInt_div_of_ne_right n 1000 (by decide)
  rw [wholeMicroseconds, Int64.ofInt_mul, ← hdiv, Int64.ofInt_toInt]
  rfl

private theorem uint32_widened {n : Nat} (h : n < 2 ^ 32) :
    (UInt32.ofNat n).toUInt64 = UInt64.ofNat n := by
  apply UInt64.toNat_inj.mp
  rw [UInt32.toNat_toUInt64, UInt32.toNat_ofNat_of_lt' h, UInt64.toNat_ofNat_of_lt']
  exact h.trans (by decide)

private theorem clock_restored {libs : ParamLibraries} (hlibs : libs.ReadsClock) {n : Int}
    (hday : TimeInRange n) :
    (libs.numSecondsFromMidnight ⟨n.toNat⟩).toUInt64.toInt64 * 1000000000 +
      (libs.nanosecond ⟨n.toNat⟩).toUInt64.toInt64 = .ofInt n := by
  obtain ⟨k, rfl⟩ := Int.eq_ofNat_of_zero_le hday.1
  have hlt : (k : Int) < 86400000000000 := hday.2
  have hseconds : (UInt32.ofNat (k / 1000000000)).toUInt64 = .ofNat (k / 1000000000) :=
    uint32_widened (by omega)
  have hnanos : (UInt32.ofNat (k % 1000000000)).toUInt64 = .ofNat (k % 1000000000) :=
    uint32_widened (by omega)
  have hunit : (1000000000 : Int64) = Int64.ofNat 1000000000 := rfl
  rw [Int.toNat_natCast, hlibs.numSecondsFromMidnight, hlibs.nanosecond, hseconds, hnanos,
    UInt64.toInt64_ofNat', UInt64.toInt64_ofNat', hunit, ← Int64.ofNat_mul, ← Int64.ofNat_add,
    Nat.div_add_mod', Int64.ofInt_eq_ofNat]

end Arithmetic

section Sending
variable {libs : EncodeLibraries} {lo hi : Int} {arr : ArrowArray} {idx : Nat}

theorem stored_scalarOf {dataType : DataType} {primitive : Primitive} {n : Int}
    (hstores : arr.Stores idx dataType n) (hprimitive : Primitive.of dataType = some primitive)
    (convert : Int → Option Native) :
    some <$> scalarOf arr idx (arr.asPrimitive primitive) convert =
      .ok (some (.scalar (convert n))) := by
  obtain ⟨⟨dataType, native, hnative⟩, slots, rfl, rfl, hslot⟩ := hstores
  cases hprimitive.symm.trans hnative
  exact scalarArm_read hslot rfl convert

private theorem stored_intervalValue {α : Type} {slots : List (Slot α)} {value : α}
    (hslot : slots[idx]? = some ⟨true, value⟩) (interval : α → Native) :
    some <$> intervalValue idx (some slots) interval =
      .ok (some (.scalar (some (interval value)))) := by
  change some <$> (do
    let value ← ArrowArray.valueAt slots idx
    return FieldValue.scalar (some (interval value))) = _
  rw [ArrowArray.valueAt_of_getElem? hslot]
  rfl

private theorem stored_time (hlibs : libs.Converts lo hi) {dataType : DataType}
    {primitive : Primitive} {unit : TimeUnit} {n : Int} (hstores : arr.Stores idx dataType n)
    (hprimitive : Primitive.of dataType = some primitive)
    (hwhole : WholeTime (nanosecondsOf unit n)) :
    some <$> scalarOf arr idx (arr.asPrimitive primitive)
        (fun v => (libs.asTime unit v).map .naiveTime) =
      .ok (some (.scalar (some (.naiveTime ⟨(nanosecondsOf unit n).toNat⟩)))) := by
  rw [stored_scalarOf hstores hprimitive, hlibs.asTime, if_pos hwhole.1]
  rfl

/-- What is encoded is the value. -/
theorem scalarValue_native (hlibs : libs.Converts lo hi) {v : TemporalValue}
    (hstored : v.StoredAt arr idx) (hsend : v.Sendable lo hi) :
    scalarValue libs arr idx v.scalar.dataType = .ok (some (.scalar (some v.native))) := by
  cases v with
  | yearMonth months =>
    obtain ⟨⟨dataType, native, hnative⟩, slots, rfl, htype, hslot⟩ := hstored
    cases htype
    cases hnative
    have harm := stored_intervalValue hslot yearMonthInterval
    rw [yearMonthInterval, Int32.ofInt_toInt] at harm
    exact harm
  | dayTime value =>
    obtain ⟨slots, rfl, hslot⟩ := hstored
    exact stored_intervalValue hslot dayTimeInterval
  | monthDayNano value =>
    obtain ⟨slots, rfl, hslot⟩ := hstored
    exact stored_intervalValue hslot monthDayNanoInterval
  | time32Second value => exact stored_time hlibs hstored rfl hsend
  | time32Millisecond value => exact stored_time hlibs hstored rfl hsend
  | time64Microsecond value => exact stored_time hlibs hstored rfl hsend
  | time64Nanosecond value => exact stored_time hlibs hstored rfl hsend
  | timestamp unit value =>
    obtain ⟨⟨dataType, native, hnative⟩, slots, rfl, htype, hslot⟩ := hstored
    cases htype
    cases hnative
    have harm : scalarValue libs _ idx (.timestamp unit none) = _ := timestamp_read hslot rfl
    rw [hlibs.valueAsDatetime, if_pos hsend.1] at harm
    cases unit <;> exact harm

end Sending

section Binding
variable {libs : ParamLibraries} {lo hi : Int} {param : BoundParameter}

private theorem deserialize_interval {value : Interval} {target : DataType} {scalar : ScalarValue}
    (hread : param.read .interval .interval = .ok (some value))
    (hcoerce : coerceIntervalValue (some value) target = .ok scalar) :
    deserializeParameter libs param .interval (some target) = .ok [scalar] := by
  refine (read_ok hread _).trans ?_
  change (do return [← orErr (coerceIntervalValue (some value) target)]) = _
  rw [hcoerce]
  rfl

private theorem deserialize_timestamp {value : NaiveDateTime} {target : DataType}
    {scalar : ScalarValue} (hread : param.read .naiveDateTime .timestamp = .ok (some value))
    (hcoerce : coerceTimestampValue libs (some value) target = .ok scalar) :
    deserializeParameter libs param .timestamp (some target) = .ok [scalar] := by
  refine (read_ok hread _).trans ?_
  change (do return [← orErr (coerceTimestampValue libs (some value) target)]) = _
  rw [hcoerce]
  rfl

private theorem deserialize_time (hlibs : libs.ReadsClock) {n : Int} (hwhole : WholeTime n)
    (hread : param.read .naiveTime .time = .ok (some ⟨n.toNat⟩)) {target : DataType}
    (arm : Int64 → ScalarValue)
    (harm : ∀ t, timeParameter libs (some t) (some target) =
      arm ((libs.numSecondsFromMidnight t).toUInt64.toInt64 * 1000000000 +
        (libs.nanosecond t).toUInt64.toInt64)) :
    deserializeParameter libs param .time (some target) = .ok [arm (.ofInt n)] := by
  refine (read_ok hread _).trans ?_
  change Except.ok [timeParameter libs (some ⟨n.toNat⟩) (some target)] = _
  rw [harm, clock_restored hlibs hwhole.1]

private theorem coerceInterval_dayTime {i : Interval} (hmonths : i.months = 0)
    (hmod : i.microseconds % 1000 = 0) :
    coerceIntervalValue (some i) (.interval .dayTime) =
      .ok (.newIntervalDt i.days (i.microseconds / 1000).toInt32) := by
  simp only [coerceIntervalValue, hmonths, hmod, ne_eq, not_true_eq_false, if_false]

theorem timestamp_restored (hlibs : libs.ReadsClock) (unit : TimeUnit) (value : Int64) :
    coerceTimestampValue libs (some ⟨nanosecondsOf unit value.toInt⟩) (.timestamp unit none) =
      .ok (TemporalValue.timestamp unit value).scalar := by
  have hunits : ∀ u : Int, u ≠ 0 → Int64.ofInt ((value.toInt * u).fdiv u) = value := by
    intro u hu
    rw [Int.mul_fdiv_cancel _ hu, Int64.ofInt_toInt]
  cases unit with
  | second =>
    change Except.ok (ScalarValue.timestampSecond (some (libs.timestamp _)) none) = _
    rw [hlibs.timestamp, nanosecondsOf, hunits _ (by decide)]
    rfl
  | millisecond =>
    change Except.ok (ScalarValue.timestampMillisecond (some (libs.timestampMillis _)) none) = _
    rw [hlibs.timestampMillis, nanosecondsOf, hunits _ (by decide)]
    rfl
  | microsecond =>
    change Except.ok (ScalarValue.timestampMicrosecond (some (libs.timestampMicros _)) none) = _
    rw [hlibs.timestampMicros, nanosecondsOf, hunits _ (by decide)]
    rfl
  | nanosecond =>
    have hlow := value.le_toInt
    have hhigh := value.toInt_lt
    have hfits : -2 ^ 63 ≤ value.toInt ∧ value.toInt ≤ 2 ^ 63 - 1 := ⟨hlow, by omega⟩
    change Except.ok (ScalarValue.timestampNanosecond (libs.timestampNanosOpt ⟨value.toInt⟩) none) = _
    rw [hlibs.timestampNanosOpt, fitInteger, if_pos hfits, Int64.ofInt_toInt]
    rfl

/-- What is bound is the value, up to the microsecond. -/
theorem deserialize_native (hlibs : libs.ReadsClock) {v : TemporalValue}
    (hsend : v.Sendable lo hi) (hread : param.Reads v.native v.pgType) :
    deserializeParameter libs param v.pgType (some v.scalar.dataType) = .ok [v.restored] := by
  have hday : nanosecondsPerDay = 86400000000000 := rfl
  cases v with
  | yearMonth months => exact deserialize_interval hread rfl
  | dayTime value =>
    have hcoerce := coerceInterval_dayTime (i := ⟨0, value.days, value.milliseconds.toInt64 * 1000⟩)
      rfl (milliseconds_mod _)
    rw [milliseconds_restored] at hcoerce
    exact deserialize_interval hread hcoerce
  | monthDayNano value =>
    refine deserialize_interval hread ?_
    change Except.ok (ScalarValue.newIntervalMdn value.months value.days
      (value.nanoseconds / 1000 * 1000)) = _
    rw [nanoseconds_restored]
    rfl
  | time32Second value =>
    obtain ⟨hlow, hhigh⟩ : TimeInRange (value.toInt * 1000000000) := hsend.1
    have hunits : (Int64.ofInt (value.toInt * 1000000000) / 1000000000).toInt = value.toInt :=
      units_restored rfl (by decide) (by omega) (by omega)
    refine (deserialize_time hlibs hsend hread
      (fun ns => .time32Second (some (ns / 1000000000).toInt32)) fun _ => rfl).trans ?_
    rw [nanosecondsOf, int32_restored hunits]
    rfl
  | time32Millisecond value =>
    obtain ⟨hlow, hhigh⟩ : TimeInRange (value.toInt * 1000000) := hsend.1
    have hunits : (Int64.ofInt (value.toInt * 1000000) / 1000000).toInt = value.toInt :=
      units_restored rfl (by decide) (by omega) (by omega)
    refine (deserialize_time hlibs hsend hread
      (fun ns => .time32Millisecond (some (ns / 1000000).toInt32)) fun _ => rfl).trans ?_
    rw [nanosecondsOf, int32_restored hunits]
    rfl
  | time64Microsecond value =>
    obtain ⟨hlow, hhigh⟩ : TimeInRange (value.toInt * 1000) := hsend.1
    have hunits : Int64.ofInt (value.toInt * 1000) / 1000 = value :=
      Int64.toInt_inj.mp (units_restored rfl (by decide) (by omega) (by omega))
    refine (deserialize_time hlibs hsend hread
      (fun ns => .time64Microsecond (some (ns / 1000))) fun _ => rfl).trans ?_
    rw [nanosecondsOf, hunits]
    rfl
  | time64Nanosecond value =>
    refine (deserialize_time hlibs hsend hread
      (fun ns => .time64Nanosecond (some ns)) fun _ => rfl).trans ?_
    rw [nanosecondsOf, Int64.ofInt_toInt]
    rfl
  | timestamp unit value =>
    rw [TemporalValue.dataType_timestamp]
    exact deserialize_timestamp hread (timestamp_restored hlibs unit value)

end Binding

theorem native_wire {lo hi : Int} {v : TemporalValue} (hsend : v.Sendable lo hi) :
    Wire lo hi v.native v.pgType := by
  have hnat : ∀ {n : Int}, WholeTime n → Wire lo hi (.naiveTime ⟨n.toNat⟩) .time := by
    intro n hwhole
    have hcast : (n.toNat : Int) = n := Int.toNat_of_nonneg hwhole.1.1
    change WholeTime (n.toNat : Int)
    rwa [hcast]
  cases v with
  | yearMonth | dayTime | monthDayNano => trivial
  | time32Second | time32Millisecond | time64Microsecond | time64Nanosecond => exact hnat hsend
  | timestamp => exact hsend

/-- A temporal value that is encoded and bound again, at its type, is the value. -/
theorem temporal_roundTrip {libs : EncodeLibraries} {lo hi : Int} (hlibs : libs.Converts lo hi)
    {params : ParamLibraries} (hparams : params.ReadsClock) {v : TemporalValue}
    (hsend : v.Sendable lo hi) {arr : ArrowArray} {idx : Nat} (hstored : v.StoredAt arr idx)
    {arrowField : Field} (htype : arrowField.dataType = v.scalar.dataType) {pgField : FieldInfo}
    (hadvertised : intoPgType v.scalar.dataType = .ok pgField.datatype)
    {bind : Cell → BoundParameter} (htransmits : libs.Transmits lo hi pgField bind)
    (row : DataRow) :
    ∃ cell,
      encodeValue libs arr (dataRowEncoder libs) idx arrowField pgField ⟨row⟩ =
        .ok () ⟨row ++ [cell]⟩ ∧
      (∀ (portal : Portal) (inferencedTypes : List (Option DataType)) (i : Nat),
        parameterPgType portal inferencedTypes i = .ok pgField.datatype →
        inferencedTypes[i]? = some (some v.scalar.dataType) →
          parameterTurn params portal inferencedTypes (bind cell, i) = .ok [v.restored]) ∧
      ∀ hint, hint = none ∨ hint = some pgField.datatype →
        deserializeParameters params ⟨[bind cell], [hint]⟩ [some v.scalar.dataType] =
          .ok [v.restored] := by
  have hpgType : v.pgType = pgField.datatype :=
    Except.ok.inj (v.intoPgType_scalar.symm.trans hadvertised)
  obtain ⟨cell, hcell, hreads⟩ := htransmits v.native (hpgType ▸ native_wire hsend)
  have hturn : ∀ (portal : Portal) (inferencedTypes : List (Option DataType)) (i : Nat),
      parameterPgType portal inferencedTypes i = .ok pgField.datatype →
      inferencedTypes[i]? = some (some v.scalar.dataType) →
        parameterTurn params portal inferencedTypes (bind cell, i) = .ok [v.restored] := by
    intro portal inferencedTypes i hpg hinferenced
    rw [← hpgType] at hpg hreads
    simp only [parameterTurn, hpg, hinferenced]
    exact deserialize_native hparams hsend hreads
  refine ⟨cell, ?_, hturn, ?_⟩
  · have hscalar : isScalarType arrowField.dataType = true := by
      rw [htype]
      exact v.isScalarType_scalar
    have harm := scalarValue_native hlibs hstored hsend
    rw [← htype] at harm
    rw [encodeValue_scalar hscalar, harm]
    have hfieldCell : fieldCell libs (.scalar (some v.native)) pgField = .ok cell := by
      rw [v.fieldCell_native, hcell]
    exact dataRowEncoder_of_ok hfieldCell ⟨row⟩
  · intro hint hhint
    have hpg : parameterPgType ⟨[bind cell], [hint]⟩ [some v.scalar.dataType] 0 =
        .ok pgField.datatype := by
      rcases hhint with rfl | rfl
      · exact hadvertised
      · rfl
    have hfirst := hturn ⟨[bind cell], [hint]⟩ [some v.scalar.dataType] 0 hpg rfl
    simp only [deserializeParameters, List.zipIdx_cons, List.zipIdx_nil, List.foldlM_cons,
      List.foldlM_nil, hfirst]
    rfl

section Examples

/-- The binary form of an interval: its microseconds, days and months. -/
def intervalBytes (value : Interval) : List UInt8 :=
  bigEndian 8 value.microseconds.toUInt64.toNat ++
    (bigEndian 4 value.days.toUInt32.toNat ++ bigEndian 4 value.months.toUInt32.toNat)

def readInterval : Reader UInt8 Interval := do
  let microseconds ← Reader.i64
  let days ← Reader.i32
  (fun months => ⟨months, days, microseconds⟩) <$> Reader.i32

private theorem reads_interval (value : Interval) :
    readInterval.Reads (intervalBytes value) value := by
  refine Reader.Reads.bind (Reader.reads_i64 value.microseconds) ?_
  refine Reader.Reads.bind (Reader.reads_i32 value.days) ?_
  exact (Reader.reads_i32 value.months).map _

/-- The library with intervals in the binary form. -/
def binaryIntervals : EncodeLibraries :=
  { referenceEncoding with
    toSql := fun format value type options =>
      match format, value with
      | .binary, .scalar (some (.interval value)) => .ok (some (intervalBytes value))
      | format, value => referenceEncoding.toSql format value type options }

def BoundParameter.binary (bytes : List UInt8) : BoundParameter where
  isNull := false
  read
    | .interval, _ =>
      match readInterval.whole bytes with
      | some value => .ok (some value)
      | none => .error (.apiError [.text "invalid interval"])
    | _, _ => .error (.apiError [.text "INTERVAL expected"])
  read_null t pgType := by
    cases t with
    | interval => cases h : readInterval.whole bytes <;> simp
    | _ => simp

def bindBinary : Cell → BoundParameter
  | some bytes => .binary bytes
  | none => .null

theorem binaryIntervals_converts : binaryIntervals.Converts chronoMinDay chronoMaxDay where
  date32AsDate := referenceEncoding_converts.date32AsDate
  date64AsDate := referenceEncoding_converts.date64AsDate
  asTime := referenceEncoding_converts.asTime
  valueAsDatetime := referenceEncoding_converts.valueAsDatetime
  valueAsDatetimeWithTz := referenceEncoding_converts.valueAsDatetimeWithTz
  fromTimestamp := referenceEncoding_converts.fromTimestamp
  withTimezone := referenceEncoding_converts.withTimezone

def periodInfo : FieldInfo :=
  ⟨"period", .interval, .binary, ⟨"ISO, MDY", "postgres", "hex", 1⟩⟩

theorem binaryIntervals_transmits :
    binaryIntervals.Transmits chronoMinDay chronoMaxDay periodInfo bindBinary := by
  intro native hwire
  cases native with
  | interval value =>
    refine ⟨some (intervalBytes value), rfl, ?_⟩
    change (match readInterval.whole (intervalBytes value) with
      | some value => Except.ok (some value)
      | none => .error (PgWireError.apiError [.text "invalid interval"])) = _
    rw [(reads_interval value).whole]
    rfl
  | _ => exact hwire.elim

def period : IntervalMonthDayNano := ⟨1, -2, -1500⟩

def preciseField : Field := .new "period" (.interval .monthDayNano) true

def periodArray : ArrowArray := .intervalMonthDayNano [⟨true, period⟩]

/-- Of minus 1500 nanoseconds, one microsecond comes back. -/
theorem period_roundTrip :
    ∃ cell,
      encodeValue binaryIntervals periodArray (dataRowEncoder binaryIntervals) 0
          preciseField periodInfo ⟨[]⟩ = .ok () ⟨[cell]⟩ ∧
      deserializeParameters referenceLibraries ⟨[bindBinary cell], [none]⟩
          [some (.interval .monthDayNano)] =
        .ok [.newIntervalMdn 1 (-2) (-1000)] := by
  have hstored : (TemporalValue.monthDayNano period).StoredAt periodArray 0 := ⟨_, rfl, rfl⟩
  have htype : preciseField.dataType = (TemporalValue.monthDayNano period).scalar.dataType := rfl
  have hadvertised : intoPgType (.interval .monthDayNano) = .ok periodInfo.datatype :=
    TemporalValue.intoPgType_scalar (.monthDayNano period)
  obtain ⟨cell, hsent, -, hbound⟩ := temporal_roundTrip binaryIntervals_converts
    referenceLibraries_readsClock (v := .monthDayNano period) trivial hstored htype hadvertised
    binaryIntervals_transmits []
  exact ⟨cell, hsent, hbound none (.inl rfl)⟩

end Examples
end DatafusionPostgres.ArrowPg

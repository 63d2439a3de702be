import DatafusionPostgres.PgCatalog.Builders

/-! The type of a column in `pg_attribute` against the one on the wire. -/
namespace DatafusionPostgres.PgCatalog
open ArrowPg
namespace PgAttributeTable

/-- The types that `pg_attribute` shows by their own OID; it shows all others as text. -/
def reportedAsIs : DataType → Bool
  | .null | .duration _ | .interval _ | .struct _ => false
  | .list _ | .fixedSizeList _ _ | .largeList _ | .listView _ | .largeListView _ => false
  | .timestamp _ timezone => timezone.isNone
  | .dictionary _ valueType => reportedAsIs valueType
  | _ => true

def catalogOids : List UInt32 := [16, 18, 21, 23, 20, 700, 701, 25, 17, 1082, 1083, 1114, 1700]

theorem datafusionToPgType_mem (dataType : DataType) :
    (datafusionToPgType dataType).1 ∈ catalogOids := by
  unfold datafusionToPgType
  split <;> decide

theorem pgAliasType_notMem {field : Field} {type : PgType} (h : pgAliasType field = some type) :
    type.typeOid ∉ catalogOids := by
  unfold pgAliasType at h
  obtain ⟨kind, -, h⟩ := Option.bind_eq_some_iff.mp h
  split at h <;> cases h <;> decide

theorem listPgType_notMem {elementType : DataType} {member : PgWireResult PgType} {type : PgType}
    (h : listPgType elementType member = .ok type) : type.typeOid ∉ catalogOids := by
  cases elementType with
  | timestamp unit timezone =>
    cases timezone <;> cases h <;> decide
  | struct fields =>
    cases member with
    | ok member =>
      cases h
      change PgType.recordArrayOid ∉ catalogOids
      decide
    | error error => cases h
  | _ => cases h <;> decide

private theorem structPgType_notMem {fields : List Field} {type : PgType}
    (h : intoPgType (.struct fields) = .ok type) : type.typeOid ∉ catalogOids := by
  rw [intoPgType] at h
  cases hfields : compositeFields fields with
  | ok columns =>
    rw [hfields] at h
    cases h
    change PgType.recordOid ∉ catalogOids
    decide
  | error error =>
    rw [hfields] at h
    cases h

private theorem ne_of_notMem {dataType : DataType} {type : PgType} (h : type.typeOid ∉ catalogOids) :
    ¬ (datafusionToPgType dataType).1 = type.typeOid :=
  fun heq => h (heq ▸ datafusionToPgType_mem dataType)

private theorem reportedAsIs_plain {dataType : DataType} {type : PgType}
    (hplain : ∀ key value, dataType ≠ .dictionary key value) (h : intoPgType dataType = .ok type) :
    (datafusionToPgType dataType).1 = type.typeOid ↔ reportedAsIs dataType := by
  cases dataType with
  | dictionary key value => exact absurd rfl (hplain key value)
  | struct fields => exact iff_of_false (ne_of_notMem (structPgType_notMem h)) Bool.false_ne_true
  | list field | fixedSizeList field size | largeList field | listView field | largeListView field =>
    rw [intoPgType] at h
    exact iff_of_false (ne_of_notMem (listPgType_notMem h)) Bool.false_ne_true
  | timestamp unit timezone =>
    rw [intoPgType_timestamp] at h
    cases h
    cases timezone with
    | none => exact iff_of_true (by rw [datafusionToPgType, intoPgType_timestamp]; rfl) rfl
    | some zone =>
      refine iff_of_false (ne_of_notMem ?_) Bool.false_ne_true
      change PgType.timestamptz.typeOid ∉ catalogOids
      decide
  | null | duration unit | interval unit =>
    rw [intoPgType] at h
    cases h
    exact iff_of_false (ne_of_notMem (by decide)) Bool.false_ne_true
  | union | decimal32 | decimal64 | decimal256 | map | runEndEncoded =>
    simp only [intoPgType] at h
    cases h
  | _ =>
    simp only [intoPgType] at h
    cases h
    exact iff_of_true (by rw [datafusionToPgType, intoPgType]) rfl

/-- A dictionary is shown as its values are. -/
theorem reportedAsIs_iff {dataType : DataType} {type : PgType} (h : intoPgType dataType = .ok type) :
    (datafusionToPgType dataType).1 = type.typeOid ↔ reportedAsIs dataType := by
  by_cases hdictionary : ∃ key value, dataType = .dictionary key value
  · obtain ⟨key, value, rfl⟩ := hdictionary
    rw [intoPgType] at h
    rw [datafusionToPgType, intoPgType, reportedAsIs]
    exact reportedAsIs_iff h
  · exact reportedAsIs_plain (fun key value heq => hdictionary ⟨key, value, heq⟩) h

theorem fieldIntoPgType_of_alias {field : Field} {aliasType : PgType}
    (h : pgAliasType field = some aliasType) : fieldIntoPgType field = .ok aliasType := by
  cases field
  rw [fieldIntoPgType, h]

theorem fieldIntoPgType_of_none {field : Field} (h : pgAliasType field = none) :
    fieldIntoPgType field = intoPgType field.dataType := by
  cases field
  rw [fieldIntoPgType, h]

theorem toInt32_injective {a b : UInt32} : a.toInt32 = b.toInt32 ↔ a = b :=
  ⟨fun h => by rw [← UInt32.toUInt32_toInt32 a, h, UInt32.toUInt32_toInt32], congrArg _⟩

/-- The catalog and the wire show a column of an accepted field by the same type exactly if the
field has no alias of the OIDs and its type is one that the catalog knows. -/
theorem atttypid_eq_iff (catalogName schemaName tableName : String) (tableOid : Oid)
    (columnIdx : Nat) {field : Field} {type : PgType} (h : fieldIntoPgType field = .ok type) :
    (attributeRow catalogName schemaName tableName tableOid columnIdx field).atttypid =
        type.typeOid.toInt32 ↔
      pgAliasType field = none ∧ reportedAsIs field.dataType := by
  change (datafusionToPgType field.dataType).1.toInt32 = _ ↔ _
  rw [toInt32_injective]
  cases halias : pgAliasType field with
  | some aliasType =>
    cases (fieldIntoPgType_of_alias halias).symm.trans h
    exact iff_of_false (ne_of_notMem (pgAliasType_notMem halias)) fun h => nomatch h.1
  | none =>
    rw [fieldIntoPgType_of_none halias] at h
    rw [reportedAsIs_iff h, and_iff_right rfl]

/-- `timestamp`, without a time zone. -/
theorem timestamp_agrees :
    (attributeRow "datafusion" "public" "t" 16384 0
        (.new "at" (.timestamp .microsecond none) true)).atttypid =
        PgType.timestamp.typeOid.toInt32 ↔
      pgAliasType (.new "at" (.timestamp .microsecond none) true) = none ∧
        reportedAsIs (.timestamp .microsecond none) :=
  atttypid_eq_iff _ _ _ _ _ ((fieldIntoPgType_of_none rfl).trans (intoPgType_timestamp _ _))

/-- `timestamptz` is text in the catalog. -/
theorem timestamptz_differs :
    fieldIntoPgType (.new "at" (.timestamp .microsecond (some "UTC")) true) = .ok .timestamptz ∧
      (attributeRow "datafusion" "public" "t" 16384 0
        (.new "at" (.timestamp .microsecond (some "UTC")) true)).atttypid ≠
          PgType.timestamptz.typeOid.toInt32 := by
  have h : fieldIntoPgType (.new "at" (.timestamp .microsecond (some "UTC")) true) =
      .ok .timestamptz := (fieldIntoPgType_of_none rfl).trans (intoPgType_timestamp _ _)
  refine ⟨h, ?_⟩
  change (datafusionToPgType (.timestamp .microsecond (some "UTC"))).1.toInt32 ≠ _
  rw [datafusionToPgType, intoPgType_timestamp]
  decide

end PgAttributeTable
end DatafusionPostgres.PgCatalog

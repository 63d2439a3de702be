import DatafusionPostgres.ArrowPg.PgType

/-! `arrow-pg/src/datatypes.rs`: the Postgres type advertised for an Arrow type. -/
namespace DatafusionPostgres.ArrowPg

def unsupportedListDatatype (listType : DataType) : PgWireError :=
  .userError ⟨"ERROR", "XX000", [.text "Unsupported List Datatype ", .displayType listType]⟩

def unsupportedDatatype (arrowType : DataType) : PgWireError :=
  .userError ⟨"ERROR", "XX000", [.text "Unsupported Datatype ", .displayType arrowType]⟩

/-- Field metadata key marking an `Int32` field as an oid or oid-alias column. -/
def pgOidAliasKey : String := "pg.oid_alias"

def pgAliasType (field : Field) : Option PgType := do
  let kind ← field.metadata.lookup pgOidAliasKey
  match kind with
  | "oid" => some .oid
  | "regproc" => some .regproc
  | "regprocedure" => some .regprocedure
  | "regoper" => some .regoper
  | "regoperator" => some .regoperator
  | "regclass" => some .regclass
  | "regtype" => some .regtype
  | "regnamespace" => some .regnamespace
  | "regrole" => some .regrole
  | "regconfig" => some .regconfig
  | "regdictionary" => some .regdictionary
  | "regcollation" => some .regcollation
  | _ => none

/-- The name of a composite type: its column names in parentheses. -/
def compositeName (fields : List Field) : String :=
  match fields with
  | [] => "()"
  | f :: fs => "(" ++ fs.foldl (fun a b => a ++ ", " ++ b.name) f.name ++ ")"

/-- The inner match of the list arms. `member` is the type of the element field,
which only a struct element uses. -/
def listPgType (elementType : DataType) (member : PgWireResult PgType) : PgWireResult PgType :=
  match elementType with
  | .null => .ok .textArray
  | .boolean => .ok .boolArray
  | .int8 => .ok .int2Array
  | .int16 | .uint8 => .ok .int2Array
  | .int32 | .uint16 => .ok .int4Array
  | .int64 | .uint32 => .ok .int8Array
  | .uint64 | .decimal128 _ _ => .ok .numericArray
  | .timestamp _ tz => if tz.isSome then .ok .timestamptzArray else .ok .timestampArray
  | .time32 _ | .time64 _ => .ok .timeArray
  | .date32 | .date64 => .ok .dateArray
  | .interval _ | .duration _ => .ok .intervalArray
  | .fixedSizeBinary _ | .binary | .largeBinary | .binaryView => .ok .byteaArray
  | .float16 | .float32 => .ok .float4Array
  | .float64 => .ok .float8Array
  | .utf8 | .largeUtf8 | .utf8View => .ok .textArray
  | .struct _ => do
    let member ← member
    .ok (.other PgType.recordArrayName PgType.recordArrayOid (.array member) PgType.catalogSchema)
  | listType => .error (unsupportedListDatatype listType)

mutual
def intoPgType : DataType → PgWireResult PgType
  | .null => .ok .unknown
  | .boolean => .ok .bool
  | .int8 => .ok .int2
  | .int16 | .uint8 => .ok .int2
  | .int32 | .uint16 => .ok .int4
  | .int64 | .uint32 => .ok .int8
  | .uint64 => .ok .numeric
  | .timestamp _ tz => if tz.isSome then .ok .timestamptz else .ok .timestamp
  | .time32 _ | .time64 _ => .ok .time
  | .date32 | .date64 => .ok .date
  | .interval _ | .duration _ => .ok .interval
  | .binary | .fixedSizeBinary _ | .largeBinary | .binaryView => .ok .bytea
  | .float16 | .float32 => .ok .float4
  | .float64 => .ok .float8
  | .decimal128 _ _ => .ok .numeric
  | .utf8 | .largeUtf8 | .utf8View => .ok .text
  | .list field | .fixedSizeList field _ | .largeList field | .listView field
  | .largeListView field => listPgType field.dataType (fieldIntoPgType field)
  | .dictionary _ valueType => intoPgType valueType
  | .struct fields => do
    let columns ← compositeFields fields
    .ok (.other (compositeName fields) PgType.recordOid (.composite columns) PgType.catalogSchema)
  | arrowType => .error (unsupportedDatatype arrowType)

def fieldIntoPgType (field : Field) : PgWireResult PgType :=
  match pgAliasType field with
  | some aliasType => .ok aliasType
  | none => match field with
    | ⟨_, arrowType, _, _⟩ => intoPgType arrowType

def compositeFields : List Field → PgWireResult (List PgField)
  | [] => .ok []
  | field :: fields => do
    let type ← fieldIntoPgType field
    let columns ← compositeFields fields
    .ok (⟨field.name, type⟩ :: columns)
end

theorem intoPgType_interval (unit : IntervalUnit) : intoPgType (.interval unit) = .ok .interval := by
  simp only [intoPgType]

theorem intoPgType_time32 (unit : TimeUnit) : intoPgType (.time32 unit) = .ok .time := by
  simp only [intoPgType]

theorem intoPgType_time64 (unit : TimeUnit) : intoPgType (.time64 unit) = .ok .time := by
  simp only [intoPgType]

theorem intoPgType_timestamp (unit : TimeUnit) (timezone : Option String) :
    intoPgType (.timestamp unit timezone) =
      .ok (if timezone.isSome then .timestamptz else .timestamp) := by
  simp only [intoPgType]
  split <;> rfl

end DatafusionPostgres.ArrowPg

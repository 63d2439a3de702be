import DatafusionPostgres.ArrowPg.DataType

/-! Postgres types as `postgres_types` names them, wire field descriptions, and the
errors of the wire library. -/
namespace DatafusionPostgres.ArrowPg

mutual
/-- The named constants are those the source names. Every other built-in type and
every type built with `Type::new` is `other`. -/
inductive PgType where
  | bool | bytea | char | int8 | int2 | int4 | text | json | float4 | float8 | unknown
  | money | macaddr | inet | varchar | date | time | timestamp | timestamptz | interval
  | numeric | uuid | jsonb
  | oid | regproc | regprocedure | regoper | regoperator | regclass | regtype
  | regnamespace | regrole | regconfig | regdictionary | regcollation
  | boolArray | byteaArray | int2Array | int4Array | int8Array | textArray | varcharArray
  | float4Array | float8Array | timestampArray | timestamptzArray | dateArray | timeArray
  | intervalArray | numericArray
  | other (name : String) (oid : UInt32) (kind : Kind) (schema : String)

inductive Kind where
  | simple
  | pseudo
  | array (member : PgType)
  | composite (fields : List PgField)

structure PgField where
  name : String
  type : PgType
end

namespace PgType

/-- The OID that RowDescription carries for the type. -/
def typeOid : PgType → UInt32
  | .bool => 16 | .bytea => 17 | .char => 18 | .int8 => 20 | .int2 => 21 | .int4 => 23
  | .text => 25 | .json => 114 | .float4 => 700 | .float8 => 701 | .unknown => 705
  | .money => 790 | .macaddr => 829 | .inet => 869 | .varchar => 1043 | .date => 1082
  | .time => 1083 | .timestamp => 1114 | .timestamptz => 1184 | .interval => 1186
  | .numeric => 1700 | .uuid => 2950 | .jsonb => 3802
  | .oid => 26 | .regproc => 24 | .regprocedure => 2202 | .regoper => 2203
  | .regoperator => 2204 | .regclass => 2205 | .regtype => 2206 | .regnamespace => 4089
  | .regrole => 4096 | .regconfig => 3734 | .regdictionary => 3769 | .regcollation => 4191
  | .boolArray => 1000 | .byteaArray => 1001 | .int2Array => 1005 | .int4Array => 1007
  | .int8Array => 1016 | .textArray => 1009 | .varcharArray => 1015 | .float4Array => 1021
  | .float8Array => 1022 | .timestampArray => 1115 | .timestamptzArray => 1185
  | .dateArray => 1182 | .timeArray => 1183 | .intervalArray => 1187 | .numericArray => 1231
  | .other _ id _ _ => id

def kind : PgType → Kind
  | .boolArray => .array .bool | .byteaArray => .array .bytea | .int2Array => .array .int2
  | .int4Array => .array .int4 | .int8Array => .array .int8 | .textArray => .array .text
  | .varcharArray => .array .varchar | .float4Array => .array .float4
  | .float8Array => .array .float8 | .timestampArray => .array .timestamp
  | .timestamptzArray => .array .timestamptz | .dateArray => .array .date
  | .timeArray => .array .time | .intervalArray => .array .interval
  | .numericArray => .array .numeric
  | .other _ _ k _ => k
  | _ => .simple

/-- `Type::RECORD` and `Type::RECORD_ARRAY` are used for their parts only. -/
def recordOid : UInt32 := 2249
def recordArrayOid : UInt32 := 2287
def recordArrayName : String := "_record"
def catalogSchema : String := "pg_catalog"

end PgType

inductive FieldFormat where
  | text | binary
  deriving DecidableEq, Repr

/-- The session settings that change how a value is printed. -/
structure FormatOptions where
  dateStyle : String
  intervalStyle : String
  byteaOutput : String
  extraFloatDigits : Int8
  deriving DecidableEq, Repr

structure FieldInfo where
  name : String
  datatype : PgType
  format : FieldFormat
  formatOptions : FormatOptions

/-- A piece of an error text. Types and arrays are printed by Arrow's own
`Display` and `Debug`, which stay unexpanded. -/
inductive Fragment where
  | text (s : String)
  | displayType (t : DataType)
  | debugType (t : DataType)
  | debugArray

structure ErrorInfo where
  severity : String
  code : String
  message : List Fragment

/-- `apiError` wraps an error of another library by its text; `ioError` is a failed
send on the connection. -/
inductive PgWireError where
  | userError (info : ErrorInfo)
  | apiError (message : List Fragment)
  | ioError (message : String)

abbrev PgWireResult (α : Type) := Except PgWireError α

/-- What ends a call without a value: a returned error, or a panic, which aborts the
process in the release profile. -/
inductive Failure where
  | err (error : PgWireError)
  | panic

/-- A field of a row on the wire, none for NULL. -/
abbrev Cell := Option (List UInt8)

/-- One cell for each column. -/
abbrev DataRow := List Cell

/-- `PgWireError::UserError` of severity `ERROR`. -/
def userError (code message : String) : PgWireError :=
  .userError ⟨"ERROR", code, [.text message]⟩

end DatafusionPostgres.ArrowPg

import DatafusionPostgres.ArrowPg.Parameters
import DatafusionPostgres.Library.HashMap
import DatafusionPostgres.PgCatalog.CatalogInfo
import DatafusionPostgres.Session.Statement

/-! DataFusion and the wire library, as far as a session uses them, and the state of
a session. -/
namespace DatafusionPostgres.Session
open ArrowPg Library PgCatalog

/-- A row stream, as the rows and errors that it yields. -/
abbrev RowStream := List (PgWireResult DataRow)

/-- `Format::format_for`. -/
abbrev Format := Nat → FieldFormat

def unifiedText : Format := fun _ => .text

inductive SqlFailure where
  | timeout
  | error (error : DataFusionError)

/-- What a statement does that is run on the context: its frame, the context after it,
and whether running it has already read a registered table. -/
structure SqlRun (Context DataFrame : Type) where
  result : Except SqlFailure DataFrame
  context : Context
  scanned : Bool

/-- An expression that `plan.apply` and `expr.apply` come to. -/
inductive PlaceholderVisit where
  | cast (id : String) (dataType : DataType)
  | placeholder (id : String)

/-- A `ParameterStatus` message. -/
structure ParameterStatus where
  name : String
  value : String
  deriving DecidableEq, Repr

structure Engine where
  Context : Type
  Plan : Type
  DataFrame : Type
  /-- `SessionContext::sql`, cut off after the given number of milliseconds. -/
  sql : Option Nat → String → Context → SqlRun Context DataFrame
  statementToPlan : Statement → Context → Except DataFusionError Plan
  optimize : Plan → Context → Except DataFusionError Plan
  executeLogicalPlan : Option Nat → Plan → Context → SqlRun Context DataFrame
  replaceParamsWithValues : Plan → List ScalarValue → Except DataFusionError Plan
  getParameterTypes : Plan → Except DataFusionError (HashMap String (Option DataType))
  placeholderVisits : Plan → Except DataFusionError (List PlaceholderVisit)
  emptyRelation : Bool → Schema → Plan
  schema : DataFrame → Schema
  /-- The plan of the frame reads a registered table. -/
  scans : DataFrame → Bool
  executeStream : DataFrame → List FieldInfo → Context → Except DataFusionError RowStream × Context
  /-- `collect`, and the `count` of the first batch if it has one. -/
  collectCount : DataFrame → Context → Except DataFusionError (Option Nat) × Context
  catalogNames : Context → List String
  version : Context → String
  params : ParamLibraries
  /-- `str::to_lowercase`; beyond ASCII it follows the Unicode tables. -/
  toLowercase : String → String
  formatOptionsFromMetadata : HashMap String String → FormatOptions
  defaultFormatOptions : FormatOptions
  defaultApplicationName : Option String
  defaultSearchPath : String
  /-- Sending a message after those already sent. -/
  send : List ParameterStatus → ParameterStatus → Except String Unit
  /-- `portal.fetch` on the rows of a started portal: those taken and those left. -/
  fetchRows : Option RowStream → Nat → PgWireResult (RowStream × RowStream)

inductive TransactionStatus where
  | idle | transaction | error
  deriving DecidableEq, Repr

structure Tag where
  command : String
  oid : Option Nat
  rows : Option Nat
  deriving DecidableEq, Repr

def Tag.new (command : String) : Tag := ⟨command, none, none⟩

/-- `scans` is a ghost: the rows come from a frame that reads a registered table. -/
structure QueryResponse where
  fields : List FieldInfo
  rows : RowStream
  scans : Bool

inductive Response where
  | emptyQuery
  | query (response : QueryResponse)
  | execution (tag : Tag)
  | transactionStart (tag : Tag)
  | transactionEnd (tag : Tag)

/-- The text of a statement, and what it parsed and planned to. -/
abbrev DfStatement (E : Engine) := String × Option (Statement × E.Plan)

/-- A portal of the store; `response` holds what a started one has not yet given. -/
structure StoredPortal (E : Engine) where
  name : String
  statement : DfStatement E
  bound : Portal
  resultColumnFormat : Format
  response : Option QueryResponse

/-- One connection, with the context it shares. `executed` is a ghost: for every query
run so far, whether it read a registered table. -/
structure Connection (E : Engine) where
  metadata : HashMap String String
  transactionStatus : TransactionStatus
  portals : HashMap String (Option (StoredPortal E))
  sent : List ParameterStatus
  context : E.Context
  executed : List Bool

/-- A call that never returns: the recursion of the permission check has no end. -/
inductive Diverged where
  | recursion

abbrev Handler (E : Engine) := EStateM Diverged (Connection E)

/-- What a hook or a handler answers: a response, an error, or a panic. -/
abbrev Answer := Except Failure Response

namespace Handler
variable {E : Engine}

def metadata : Handler E (HashMap String String) := modifyGet fun s => (s.metadata, s)

def transactionStatus : Handler E TransactionStatus := modifyGet fun s => (s.transactionStatus, s)

def portals : Handler E (HashMap String (Option (StoredPortal E))) :=
  modifyGet fun s => (s.portals, s)

def context : Handler E E.Context := modifyGet fun s => (s.context, s)

def setMetadata (metadata : HashMap String String) : Handler E PUnit :=
  modifyGet fun s => (⟨⟩, { s with metadata })

def setPortals (portals : HashMap String (Option (StoredPortal E))) : Handler E PUnit :=
  modifyGet fun s => (⟨⟩, { s with portals })

def setTransactionStatus (transactionStatus : TransactionStatus) : Handler E PUnit :=
  modifyGet fun s => (⟨⟩, { s with transactionStatus })

theorem run_metadata (s : Connection E) : metadata s = .ok s.metadata s := rfl

theorem run_portals (s : Connection E) : portals s = .ok s.portals s := rfl

theorem run_context (s : Connection E) : context s = .ok s.context s := rfl

/-- `send_message`: a message that could not be sent is an I/O error. -/
def sendMessage (message : ParameterStatus) : Handler E (PgWireResult Unit) :=
  modifyGet fun s =>
    match E.send s.sent message with
    | .ok _ => (.ok (), { s with sent := s.sent ++ [message] })
    | .error text => (.error (.ioError text), s)

/-- Runs a statement or a plan on the shared context. -/
def runOnContext (run : E.Context → SqlRun E.Context E.DataFrame) :
    Handler E (Except SqlFailure E.DataFrame) :=
  modifyGet fun s =>
    let done := run s.context
    (done.result, { s with context := done.context, executed := s.executed ++ [done.scanned] })

/-- Executes a frame, which is where a table is read. -/
def runFrame {α : Type} (frame : E.DataFrame)
    (execute : E.Context → Except DataFusionError α × E.Context) :
    Handler E (Except DataFusionError α) :=
  modifyGet fun s =>
    let done := execute s.context
    (done.1, { s with context := done.2, executed := s.executed ++ [E.scans frame] })

end Handler

def apiError (error : DataFusionError) : PgWireError := .apiError [.text error.message]

/-- The error of a statement that was cut off, or that DataFusion refused. -/
def sqlError : SqlFailure → PgWireError
  | .timeout => userError "57014" "canceling statement due to statement timeout"
  | .error error => apiError error

/-- `arrow_schema_to_pg_fields`. -/
def arrowSchemaToPgFields (schema : Schema) (format : Format) (formatOptions : FormatOptions) :
    PgWireResult (List FieldInfo) :=
  schema.fields.zipIdx.mapM fun (field, idx) => do
    let pgType ← fieldIntoPgType field
    return ⟨field.name, pgType, format idx, formatOptions⟩

/-- `df::encode_dataframe`: the result fields, then the execution. -/
def encodeDataframe {E : Engine} (frame : E.DataFrame) (format : Format)
    (formatOptions : Option FormatOptions) : Handler E (PgWireResult QueryResponse) := do
  match arrowSchemaToPgFields (E.schema frame) format
      (formatOptions.getD E.defaultFormatOptions) with
  | .error error => return .error error
  | .ok fields =>
    match ← Handler.runFrame frame (E.executeStream frame fields) with
    | .error error => return .error (apiError error)
    | .ok rows => return .ok ⟨fields, rows, E.scans frame⟩

end DatafusionPostgres.Session

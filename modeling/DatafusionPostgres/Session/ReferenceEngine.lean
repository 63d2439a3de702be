import DatafusionPostgres.ArrowPg.ReferenceLibraries
import DatafusionPostgres.Session.Handlers

/-! An engine over one registered table, so that sessions can be evaluated. -/
namespace DatafusionPostgres.Session
open ArrowPg Library PgCatalog

/-- The frames it can build: a constant row, and the registered table. -/
inductive ReferenceFrame where
  | one
  | secret
  deriving DecidableEq, Repr

def planText (text : String) : Except DataFusionError ReferenceFrame :=
  if text = "SELECT 1" then .ok .one
  else if text = "SELECT * FROM secret" then .ok .secret
  else .error ⟨"SQL error: ParserError"⟩

def ReferenceFrame.row : ReferenceFrame → DataRow
  | .one => [some [49]]
  | .secret => [some [52, 50]]

/-- The rows that a fetch takes, all of them when it asks for none. -/
def fetchReferenceRows : Option RowStream → Nat → PgWireResult (RowStream × RowStream)
  | none, _ => .error (.apiError [.text "portal not started"])
  | some rows, 0 => .ok (rows, [])
  | some rows, maxRows => .ok (rows.splitAt maxRows)

def referenceEngine : Engine where
  Context := Unit
  Plan := Option ReferenceFrame
  DataFrame := ReferenceFrame
  sql _ text _ := ⟨(planText text).mapError .error, (), false⟩
  statementToPlan statement _ := some <$> planText statement.text
  optimize plan _ := .ok plan
  executeLogicalPlan _ plan _ := ⟨.ok (plan.getD .one), (), false⟩
  replaceParamsWithValues plan _ := .ok plan
  getParameterTypes _ := .ok .empty
  placeholderVisits _ := .ok []
  emptyRelation _ _ := none
  schema _ := ⟨[.new "v" .int64 false]⟩
  scans frame := frame = .secret
  executeStream frame _ _ := (.ok [.ok frame.row], ())
  collectCount _ _ := (.ok none, ())
  catalogNames _ := ["datafusion"]
  version _ := "52.0.0"
  params := referenceLibraries
  toLowercase text := String.ofList (text.toList.map Char.toLower)
  formatOptionsFromMetadata _ := ⟨"hex", "ISO, MDY", "postgres", 1⟩
  defaultFormatOptions := ⟨"hex", "ISO, MDY", "postgres", 1⟩
  defaultApplicationName := none
  defaultSearchPath := "public"
  send _ _ := .ok ()
  fetchRows := fetchReferenceRows

instance : WireLoop referenceEngine := documentedLoop referenceEngine

/-- A connection in the given status that has done nothing yet. -/
def referenceConnection (status : TransactionStatus) : Connection referenceEngine :=
  ⟨.empty, status, .empty, [], (), []⟩

end DatafusionPostgres.Session

import DatafusionPostgres.Session.Hooks
import DatafusionPostgres.Session.Planner

/-! `datafusion-postgres/src/handlers.rs`: the simple and the extended query handler, and what is
assumed of the wire library that calls them. -/
namespace DatafusionPostgres.Session
open ArrowPg Library Auth PgCatalog

section Handlers
variable {E : Engine}

/-- The hooks of `DfSessionService::new`. -/
def defaultHooks : List (QueryHook E) :=
  [cursorStatementHook, setShowHook, transactionStatementHook]

/-- The default hooks behind a permission check. -/
def permissionHooks (authManager : AuthManager) (fuel : Nat) : List (QueryHook E) :=
  permissionsHook authManager fuel :: defaultHooks

/-- `map_rows_affected_for_insert`. -/
def mapRowsAffectedForInsert (frame : E.DataFrame) : Handler E Answer := do
  match ← Handler.runFrame frame (E.collectCount frame) with
  | .error error => return .error (.err (apiError error))
  | .ok count => return .ok (.execution ⟨"INSERT", some 0, some (count.getD 0)⟩)

/-- The response for a frame: a row count for INSERT, rows for everything else. -/
def respondWithFrame (statement : Statement) (frame : E.DataFrame) (format : Format) :
    Handler E Answer :=
  match statement.kind with
  | .insert => mapRowsAffectedForInsert frame
  | _ => do
    let metadata ← Handler.metadata
    match ← encodeDataframe frame format (some (E.formatOptionsFromMetadata metadata)) with
    | .error error => return .error (.err error)
    | .ok response => return .ok (.query response)

/-- The first answer that a hook gives. -/
def firstSimpleAnswer (statement : Statement) : List (QueryHook E) → Handler E (Option Answer)
  | [] => return none
  | hook :: hooks => do
    match ← hook.handleSimpleQuery statement with
    | some answer => return some answer
    | none => firstSimpleAnswer statement hooks

/-- A statement that no hook answers. -/
def runStatement (statement : Statement) : Handler E Answer := do
  let metadata ← Handler.metadata
  match ← Handler.runOnContext (E.sql (getStatementTimeout metadata) statement.text) with
  | .error failure => return .error (.err (sqlError failure))
  | .ok frame => respondWithFrame statement frame unifiedText

def answerStatement (hooks : List (QueryHook E)) (statement : Statement) : Handler E Answer := do
  match ← firstSimpleAnswer statement hooks with
  | some answer => return answer
  | none => runStatement statement

/-- The loop over the statements: the first error takes the place of all results. -/
def answerStatements (hooks : List (QueryHook E)) :
    List Response → List Statement → Handler E (Except Failure (List Response))
  | results, [] => return .ok results
  | results, statement :: statements => do
    match ← answerStatement hooks statement with
    | .error error => return .error error
    | .ok response => answerStatements hooks (results ++ [response]) statements

/-- `SimpleQueryHandler::do_query`, from what the query text parses to. -/
def doSimpleQuery (hooks : List (QueryHook E))
    (parsed : Except DataFusionError (List Statement)) :
    Handler E (Except Failure (List Response)) :=
  match parsed with
  | .error error => return .error (.err (apiError error))
  | .ok [] => return .ok [.emptyQuery]
  | .ok statements => answerStatements hooks [] statements

/-- `parse_sql`, from what the query text parses to. -/
def parseSql (hooks : List (QueryHook E)) (parsed : Except DataFusionError (List Statement)) :
    Handler E (PgWireResult (Option (DfStatement E))) := do
  match parsed with
  | .error error => return .error (apiError error)
  | .ok [] => return .ok none
  | .ok (statement :: _) =>
    let planned : Option (PgWireResult E.Plan) :=
      hooks.findSome? fun hook => hook.handleExtendedParseQuery statement
    match planned with
    | some (.error error) => return .error error
    | some (.ok plan) => return .ok (some (statement.text, some (statement, plan)))
    | none =>
      let context ← Handler.context
      match E.statementToPlan statement context with
      | .error error => return .error (apiError error)
      | .ok plan => return .ok (some (statement.text, some (statement, plan)))

/-- The values of a portal, by the types of its own plan. -/
def portalParams (portal : StoredPortal E) (plan : E.Plan) : Except Failure (List ScalarValue) :=
  match getInferredParameterTypes E plan with
  | .error error => .error (.err (apiError error))
  | .ok paramTypes => deserializeParameters E.params portal.bound (orderedParamTypes paramTypes)

def firstExtendedAnswer (statement : Statement) (plan : E.Plan) (params : List ScalarValue) :
    List (QueryHook E) → Handler E (Option Answer)
  | [] => return none
  | hook :: hooks => do
    match ← hook.handleExtendedQuery statement plan params with
    | some answer => return some answer
    | none => firstExtendedAnswer statement plan params hooks

/-- The plan of a portal that no hook answers. -/
def runPlan (portal : StoredPortal E) (statement : Statement) (plan : E.Plan) :
    Handler E Answer := do
  match portalParams portal plan with
  | .error error => return .error error
  | .ok params =>
    let context ← Handler.context
    match E.replaceParamsWithValues plan params >>= fun plan => E.optimize plan context with
    | .error error => return .error (.err (apiError error))
    | .ok optimised =>
      let metadata ← Handler.metadata
      match ← Handler.runOnContext
          (E.executeLogicalPlan (getStatementTimeout metadata) optimised) with
      | .error failure => return .error (.err (sqlError failure))
      | .ok frame => respondWithFrame statement frame portal.resultColumnFormat

/-- The answer of the hooks to a portal. Without hooks the parameters are not decoded. -/
def hooksAnswer (hooks : List (QueryHook E)) (portal : StoredPortal E) (statement : Statement)
    (plan : E.Plan) : Handler E (Option Answer) :=
  if hooks.isEmpty then return none
  else
    match portalParams portal plan with
    | .error error => return some (.error error)
    | .ok params => firstExtendedAnswer statement plan params hooks

/-- `ExtendedQueryHandler::do_query`. -/
def doExtendedQuery (hooks : List (QueryHook E)) (portal : StoredPortal E) : Handler E Answer :=
  match portal.statement.2 with
  | none => return .ok .emptyQuery
  | some (statement, plan) => do
    match ← hooksAnswer hooks portal statement plan with
    | some answer => return answer
    | none => runPlan portal statement plan

end Handlers

section Wire
variable {E : Engine}

/-- A response changes the status after the handler has returned. -/
def TransactionStatus.afterResponse (status : TransactionStatus) : Response → TransactionStatus
  | .transactionStart _ => .transaction
  | .transactionEnd _ => .idle
  | _ => status

def TransactionStatus.afterError : TransactionStatus → TransactionStatus
  | .transaction => .error
  | status => status

def TransactionStatus.after (status : TransactionStatus) :
    Except Failure (List Response) → TransactionStatus
  | .ok responses => responses.foldl afterResponse status
  | .error _ => status.afterError

namespace DocumentedLoop

/-- What has been answered changes the status. -/
def settle (answer : Except Failure (List Response)) : Handler E PUnit := do
  let status ← Handler.transactionStatus
  Handler.setTransactionStatus (status.after answer)

def onQuery (doQuery : Handler E (Except Failure (List Response))) :
    Handler E (Except Failure (List Response)) := do
  let answer ← doQuery
  settle answer
  return answer

/-- The portal is stored under its name, for what a Parse message gave. -/
def onBind (portal : StoredPortal E) : Handler E PUnit := do
  let portals ← Handler.portals
  let stored := match portal.statement.2 with
    | some _ => some { portal with response := none }
    | none => none
  Handler.setPortals (portals.insert portal.name stored)

def onClose (portalName : String) : Handler E PUnit := do
  let portals ← Handler.portals
  Handler.setPortals (portals.remove portalName)

/-- A started portal gives its next rows, any other one is run, and with a row limit it is started
on its response. -/
def onExecute (doQuery : StoredPortal E → Handler E Answer) (portalName : String)
    (maxRows : Nat) : Handler E Answer := do
  let portals ← Handler.portals
  match portals.get portalName with
  | none => return .error (.err (.apiError [.text ("Portal not found for name: " ++ portalName)]))
  | some none => return .ok .emptyQuery
  | some (some portal) =>
    match portal.response with
    | some _ => fetchPortal { portal with name := portalName } maxRows
    | none => do
      let answer ← doQuery portal
      settle (answer.map fun response => [response])
      match answer with
      | .ok (.query response) =>
        if maxRows = 0 then return answer
        else fetchPortal { portal with name := portalName, response := some response } maxRows
      | _ => return answer

end DocumentedLoop

/-- The loop of the wire library around the handlers. Its code is not part of the repository: what is
assumed is that at each message it does as it documents, for the `do_query` that it calls there. -/
class WireLoop (E : Engine) where
  settle : Except Failure (List Response) → Handler E PUnit
  query : Handler E (Except Failure (List Response)) → Handler E (Except Failure (List Response))
  bind : StoredPortal E → Handler E PUnit
  close : String → Handler E PUnit
  execute : (StoredPortal E → Handler E Answer) → String → Nat → Handler E Answer
  settles : settle = DocumentedLoop.settle
  queries : query = DocumentedLoop.onQuery
  binds : bind = DocumentedLoop.onBind
  closes : close = DocumentedLoop.onClose
  executes : execute = DocumentedLoop.onExecute

@[reducible] def documentedLoop (E : Engine) : WireLoop E :=
  ⟨_, _, _, _, _, rfl, rfl, rfl, rfl, rfl⟩

variable [WireLoop E]

/-- One Query message. -/
def onQuery (hooks : List (QueryHook E)) (parsed : Except DataFusionError (List Statement)) :
    Handler E (Except Failure (List Response)) :=
  WireLoop.query (doSimpleQuery hooks parsed)

/-- One Bind message, for what a Parse message gave. -/
def onBind (portal : StoredPortal E) : Handler E PUnit := WireLoop.bind portal

/-- One Close message for a portal. -/
def onClose (portalName : String) : Handler E PUnit := WireLoop.close portalName

/-- One Execute message. -/
def onExecute (hooks : List (QueryHook E)) (portalName : String) (maxRows : Nat) :
    Handler E Answer :=
  WireLoop.execute (doExtendedQuery hooks) portalName maxRows

theorem onQuery_documented (hooks : List (QueryHook E))
    (parsed : Except DataFusionError (List Statement)) :
    onQuery hooks parsed = DocumentedLoop.onQuery (doSimpleQuery hooks parsed) :=
  congrFun WireLoop.queries _

theorem onBind_documented (portal : StoredPortal E) :
    onBind portal = DocumentedLoop.onBind portal := congrFun WireLoop.binds portal

theorem onClose_documented (portalName : String) :
    onClose (E := E) portalName = DocumentedLoop.onClose portalName :=
  congrFun WireLoop.closes portalName

theorem onExecute_documented (hooks : List (QueryHook E)) (portalName : String) (maxRows : Nat) :
    onExecute hooks portalName maxRows =
      DocumentedLoop.onExecute (doExtendedQuery hooks) portalName maxRows :=
  congrFun (congrFun (congrFun WireLoop.executes _) portalName) maxRows

end Wire
end DatafusionPostgres.Session

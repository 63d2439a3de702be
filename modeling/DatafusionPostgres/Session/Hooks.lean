import DatafusionPostgres.Auth.Manager
import DatafusionPostgres.Library.StateProgram
import DatafusionPostgres.Session.Engine

/-! `datafusion-postgres/src/hooks`: the hooks that may answer a statement before the
engine sees it. -/
namespace DatafusionPostgres.Session
open ArrowPg Library Auth PgCatalog

structure QueryHook (E : Engine) where
  handleSimpleQuery : Statement → Handler E (Option Answer)
  handleExtendedParseQuery : Statement → Option (PgWireResult E.Plan)
  handleExtendedQuery : Statement → E.Plan → List ScalarValue → Handler E (Option Answer)

section Client

/-- `client.rs`. -/
def metadataStatementTimeout : String := "statement_timeout_ms"
def metadataTimezone : String := "timezone"

/-- The timeout in milliseconds. -/
def getStatementTimeout (metadata : HashMap String String) : Option Nat := do
  let text ← metadata.get metadataStatementTimeout
  parseUnsigned UInt64.size text.toList

def setStatementTimeout (metadata : HashMap String String) : Option Nat → HashMap String String
  | some timeout => metadata.insert metadataStatementTimeout (toString timeout)
  | none => metadata.remove metadataStatementTimeout

def getTimezone (metadata : HashMap String String) : Option String := metadata.get metadataTimezone

def setTimezone (metadata : HashMap String String) : Option String → HashMap String String
  | some timezone => metadata.insert metadataTimezone timezone
  | none => metadata.remove metadataTimezone

end Client

section Cursor
variable {E : Engine}

def debugDeclareType : Option DeclareType → String
  | some .cursor => "Some(Cursor)"
  | some .resultSet => "Some(ResultSet)"
  | some .exception => "Some(Exception)"
  | none => "None"

/-- `store.put_portal` of a portal that has been started with the response. -/
def putCursor (name forQuery : String) (response : QueryResponse) : Handler E PUnit := do
  let portals ← Handler.portals
  Handler.setPortals (portals.insert name
    (some ⟨name, (forQuery, none), ⟨[], []⟩, unifiedText, some response⟩))

/-- One turn of the loop of `handle_declare`: none when the cursor was opened. -/
def declareCursor (declare : Declare) : Handler E (Option PgWireError) := do
  if declare.declareType ≠ some .cursor then
    return some (userError "42601"
      ("unsupported DECLARE type: " ++ debugDeclareType declare.declareType))
  else
    match declare.names.head? with
    | none => return some (userError "42601" "cursor name is required")
    | some cursorName =>
      match declare.forQuery with
      | none => return some (userError "42601" "DECLARE CURSOR requires a FOR query")
      | some forQuery =>
        match ← Handler.runOnContext (E.sql none forQuery) with
        | .error failure => return some (sqlError failure)
        | .ok frame =>
          match ← encodeDataframe frame unifiedText none with
          | .error error => return some error
          | .ok response => do
            putCursor cursorName forQuery response
            return none

def handleDeclare : List Declare → Handler E Answer
  | [] => return .ok (.execution (.new "DECLARE CURSOR"))
  | declare :: stmts => do
    match ← declareCursor declare with
    | some error => return .error (.err error)
    | none => handleDeclare stmts

def parseValueAsUsize : SqlValue → Option Nat
  | .number text => parseUnsigned (2 ^ 64) text.toList
  | .other => none

def cursorCanOnlyScanForward : PgWireError := userError "42000" "cursor can only scan forward"

/-- How many rows a FETCH asks for, none for all of them. -/
def fetchMaxRows : FetchDirection → PgWireResult (Option Nat)
  | .next | .forward none => .ok (some 1)
  | .forward (some limit) | .count limit => .ok (parseValueAsUsize limit)
  | .forwardAll | .all => .ok none
  | .prior | .backward _ | .backwardAll => .error cursorCanOnlyScanForward
  | .first | .last | .absolute _ | .relative _ => .error cursorCanOnlyScanForward

/-- `portal.fetch`. A portal that has not been started has run no query. -/
def fetchPortal (portal : StoredPortal E) (maxRows : Nat) : Handler E Answer := do
  match E.fetchRows (portal.response.map QueryResponse.rows) maxRows with
  | .error error => return .error (.err error)
  | .ok (taken, left) =>
    let started := portal.response.getD ⟨[], [], false⟩
    let portals ← Handler.portals
    Handler.setPortals
      (portals.insert portal.name (some { portal with response := some { started with rows := left } }))
    return .ok (.query { started with rows := taken })

def handleFetch (cursorName : String) (direction : FetchDirection) : Handler E Answer := do
  match fetchMaxRows direction with
  | .error error => return .error (.err error)
  | .ok maxRows =>
    let portals ← Handler.portals
    match portals.get cursorName with
    | some (some portal) => fetchPortal { portal with name := cursorName } (maxRows.getD 0)
    | some none => return .error (.err (userError "XX000" "unsupported portal strategy"))
    | none =>
      return .error (.err (userError "34000" ("cursor \"" ++ cursorName ++ "\" does not exist")))

theorem fetchPortal_of_ok {portal : StoredPortal E} {response : QueryResponse}
    (hresponse : portal.response = some response) {maxRows : Nat}
    {taken left : List (PgWireResult DataRow)}
    (hfetched : E.fetchRows (some response.rows) maxRows = .ok (taken, left))
    (s : Connection E) :
    fetchPortal portal maxRows s =
      .ok (.ok (.query { response with rows := taken }))
        { s with
          portals := s.portals.insert portal.name
            (some { portal with response := some { response with rows := left } }) } := by
  unfold fetchPortal
  rw [hresponse, Option.map_some, hfetched]
  rfl

theorem fetchPortal_of_error {portal : StoredPortal E} {response : QueryResponse}
    (hresponse : portal.response = some response) {maxRows : Nat} {error : PgWireError}
    (hfetched : E.fetchRows (some response.rows) maxRows = .error error) (s : Connection E) :
    fetchPortal portal maxRows s = .ok (.error (.err error)) s := by
  unfold fetchPortal
  rw [hresponse, Option.map_some, hfetched]
  rfl

theorem handleFetch_of_get {direction : FetchDirection} {maxRows : Option Nat}
    (hmax : fetchMaxRows direction = .ok maxRows) {s : Connection E} {cursorName : String}
    {portal : StoredPortal E} (hportal : s.portals.get cursorName = some (some portal)) :
    handleFetch cursorName direction s =
      fetchPortal { portal with name := cursorName } (maxRows.getD 0) s := by
  have hportals : Handler.portals s = .ok s.portals s := rfl
  rw [handleFetch, hmax]
  dsimp only
  rw [run_bind_ok hportals, hportal]

def handleClose (cursor : CloseCursor) : Handler E Answer := do
  match cursor with
  | .all => Handler.setPortals .empty
  | .specific name => do
    let portals ← Handler.portals
    Handler.setPortals (portals.remove name)
  return .ok (.execution (.new "CLOSE CURSOR"))

def cursorAnswer (statement : Statement) : Handler E (Option Answer) :=
  match statement.kind with
  | .declare stmts => some <$> handleDeclare stmts
  | .fetch name direction => some <$> handleFetch name direction
  | .close cursor => some <$> handleClose cursor
  | _ => return none

def cursorStatementHook : QueryHook E where
  handleSimpleQuery := cursorAnswer
  handleExtendedParseQuery statement :=
    match statement.kind with
    | .declare _ | .fetch _ _ | .close _ => some (.ok (E.emptyRelation false ⟨[]⟩))
    | _ => none
  handleExtendedQuery statement _ _ := cursorAnswer statement

end Cursor

section SetShow
variable {E : Engine}

/-- A response of one text column and one row. -/
def mockShowResponse (E : Engine) (name value : String) : QueryResponse where
  fields := [⟨name, .varchar, .text, E.defaultFormatOptions⟩]
  rows := [.ok [some value.toUTF8.toList]]
  scans := false

def isQuote (c : Char) : Bool := c.toNat == 0x22
def isApostrophe (c : Char) : Bool := c.toNat == 0x27

/-- The text of a value without the quotes around it. -/
def unquoted (text : String) : List Char := trimMatches isApostrophe (trimMatches isQuote text.toList)

/-- Milliseconds, from a number with the unit `ms`, `s`, `min` or none. The product
wraps at 64 bits. -/
def parseTimeout (timeoutStr : List Char) : Option Nat :=
  if endsWith timeoutStr ['m', 's'] then
    parseUnsigned UInt64.size (trimEndMatches ['m', 's'] timeoutStr)
  else if endsWith timeoutStr ['s'] then
    (parseUnsigned UInt64.size (trimEndMatches ['s'] timeoutStr)).map fun s =>
      s * 1000 % UInt64.size
  else if endsWith timeoutStr ['m', 'i', 'n'] then
    (parseUnsigned UInt64.size (trimEndMatches ['m', 'i', 'n'] timeoutStr)).map fun m =>
      m * 60 * 1000 % UInt64.size
  else parseUnsigned UInt64.size timeoutStr

def timeoutOf (value : String) : Option Nat :=
  let timeoutStr := unquoted value
  if timeoutStr = ['0'] ∨ timeoutStr.isEmpty then none
  else (parseTimeout timeoutStr).filter (0 < ·)

/-- The configuration variables that are kept in the metadata of the client. -/
def postgresVariables : List String :=
  ["datestyle", "bytea_output", "intervalstyle", "application_name", "extra_float_digits",
    "search_path"]

def parameterStatusForVar (var : String) (metadata : HashMap String String) :
    Option ParameterStatus := do
  let displayName ← match var with
    | "datestyle" => some "DateStyle"
    | "intervalstyle" => some "IntervalStyle"
    | "bytea_output" => some "bytea_output"
    | "application_name" => some "application_name"
    | "extra_float_digits" => some "extra_float_digits"
    | "search_path" => some "search_path"
    | _ => none
  let value ← metadata.get var
  return ⟨displayName, value⟩

def setResponse : Response := .execution (.new "SET")

/-- Sends a status if there is one, then answers the SET. -/
def announce (status : Option ParameterStatus) : Handler E Answer := do
  match status with
  | none => return .ok setResponse
  | some status =>
    match ← Handler.sendMessage status with
    | .error error => return .error (.err error)
    | .ok _ => return .ok setResponse

/-- `execute_set_statement`. -/
def executeSetStatement (statement : Statement) : Handler E (Except SqlFailure PUnit) := do
  let context ← Handler.context
  match E.statementToPlan statement context >>= fun plan => E.optimize plan context with
  | .error error => return .error (.error error)
  | .ok plan =>
    match ← Handler.runOnContext (E.executeLogicalPlan none plan) with
    | .error failure => return .error failure
    | .ok _ => return .ok ⟨⟩

/-- A SET that is left to DataFusion; its errors are ignored. -/
def fallbackSet (statement : Statement) : Handler E Answer := do
  let _ ← executeSetStatement statement
  return .ok setResponse

def setVariable (var value : String) : Handler E Answer := do
  let metadata ← Handler.metadata
  let metadata := metadata.insert var value
  Handler.setMetadata metadata
  announce (parameterStatusForVar var metadata)

/-- SET TIME ZONE sets the zone in what `state()` returns, a copy: no context changes. -/
def tryRespondSetStatements (statement : Statement) (set : SetStatement) : Handler E Answer :=
  match set with
  | .singleAssignment false false variableName values => do
    let var := E.toLowercase variableName
    if var = "statement_timeout" then
      match values with
      | [] => return .error .panic
      | value :: _ => do
        let metadata ← Handler.metadata
        Handler.setMetadata (setStatementTimeout metadata (timeoutOf value.text))
        return .ok setResponse
    else if postgresVariables.contains var then
      match values with
      | .stringLiteral content _ :: _ => setVariable var content
      | .otherLiteral _ :: _ => setVariable var ""
      | _ => fallbackSet statement
    else fallbackSet statement
  | .setTimeZone false value => do
    let tz := String.ofList (unquoted value.text)
    let metadata ← Handler.metadata
    let metadata := setTimezone metadata (some tz)
    Handler.setMetadata metadata
    announce (some ⟨"TimeZone", (getTimezone metadata).getD "UTC"⟩)
  | _ => fallbackSet statement

def cargoPkgName : String := "datafusion-postgres"
def cargoPkgVersion : String := "0.18.0"

/-- What SHOW falls back to for a variable that was not set. -/
def defaultShowValue (E : Engine) (name : String) : Option String :=
  match name with
  | "bytea_output" => some E.defaultFormatOptions.byteaOutput
  | "datestyle" => some E.defaultFormatOptions.dateStyle
  | "intervalstyle" => some E.defaultFormatOptions.intervalStyle
  | "extra_float_digits" => some (toString E.defaultFormatOptions.extraFloatDigits.toInt)
  | "application_name" => some (E.defaultApplicationName.getD "")
  | "search_path" => some E.defaultSearchPath
  | _ => none

/-- The column and the value that answer SHOW, none for the panic on an empty name. -/
def showValue (E : Engine) (names : List String) (metadata : HashMap String String)
    (context : E.Context) : Option (String × String) :=
  match names with
  | ["time", "zone"] => some ("TimeZone", (getTimezone metadata).getD "UTC")
  | ["server_version"] =>
    some ("server_version",
      "datafusion " ++ E.version context ++ " on " ++ cargoPkgName ++ " " ++ cargoPkgVersion)
  | ["transaction_isolation"] => some ("transaction_isolation", "read uncommitted")
  | ["catalogs"] => some ("Catalogs", String.intercalate ", " (E.catalogNames context))
  | ["statement_timeout"] =>
    some ("statement_timeout",
      match getStatementTimeout metadata with
      | some duration => toString duration ++ "ms"
      | none => "0")
  | ["transaction", "isolation", "level"] => some ("transaction_isolation", "read_committed")
  | [] => none
  | name :: _ =>
    match (metadata.get name).or (defaultShowValue E name) with
    | some val => some (name, val)
    | none => some ("unsupported_show_statement", "")

def tryRespondShowVariable (variableNames : List String) : Handler E Answer := do
  let metadata ← Handler.metadata
  let context ← Handler.context
  match showValue E (variableNames.map E.toLowercase) metadata context with
  | some (name, value) => return .ok (.query (mockShowResponse E name value))
  | none => return .error .panic

def tryRespondShowCatalogs : Handler E Answer := do
  let context ← Handler.context
  return .ok (.query (mockShowResponse E "Catalogs"
    (String.intercalate ", " (E.catalogNames context))))

/-- SHOW STATUS comes here too, and is left to the others. -/
def setShowAnswer (statement : Statement) : Handler E (Option Answer) :=
  match statement.kind with
  | .set set => some <$> tryRespondSetStatements statement set
  | .showCatalogs => some <$> tryRespondShowCatalogs
  | .showVariable variableNames => some <$> tryRespondShowVariable variableNames
  | _ => return none

def showSchema : Schema := ⟨[.new "show" .utf8 false]⟩

def setShowHook : QueryHook E where
  handleSimpleQuery := setShowAnswer
  handleExtendedParseQuery statement :=
    match statement.kind with
    | .set _ => some (.ok (E.emptyRelation true ⟨[]⟩))
    | .showVariable _ | .showStatus | .showCatalogs => some (.ok (E.emptyRelation true showSchema))
    | _ => none
  handleExtendedQuery statement _ _ := setShowAnswer statement

end SetShow

section Transactions
variable {E : Engine}

def transactionAborted : PgWireError :=
  userError "25P01"
    "current transaction is aborted, commands ignored until end of transaction block"

def tryRespondTransactionStatements (transactionStatus : TransactionStatus)
    (statement : Statement) : PgWireResult (Option Response) :=
  match statement.kind with
  | .startTransaction =>
    match transactionStatus with
    | .idle => .ok (some (.transactionStart (.new "BEGIN")))
    | .transaction => .ok (some (.execution (.new "BEGIN")))
    | .error => .error transactionAborted
  | .commit =>
    match transactionStatus with
    | .idle | .transaction => .ok (some (.transactionEnd (.new "COMMIT")))
    | .error => .ok (some (.transactionEnd (.new "ROLLBACK")))
  | .rollback => .ok (some (.transactionEnd (.new "ROLLBACK")))
  | _ => .ok none

/-- The answer of the hook in the given status. -/
def transactionAnswer (transactionStatus : TransactionStatus) (statement : Statement) :
    Option Answer :=
  match tryRespondTransactionStatements transactionStatus statement with
  | .error error => some (.error (.err error))
  | .ok (some response) => some (.ok response)
  | .ok none =>
    if transactionStatus = .error then some (.error (.err transactionAborted)) else none

def transactionStatementAnswer (statement : Statement) : Handler E (Option Answer) := do
  let transactionStatus ← Handler.transactionStatus
  return transactionAnswer transactionStatus statement

def transactionStatementHook : QueryHook E where
  handleSimpleQuery := transactionStatementAnswer
  handleExtendedParseQuery statement :=
    match statement.kind with
    | .startTransaction | .commit | .rollback => some (.ok (E.emptyRelation false ⟨[]⟩))
    | _ => none
  handleExtendedQuery statement _ _ := transactionStatementAnswer statement

end Transactions

section Permissions
variable {E : Engine}

/-- The permission that a statement needs, none for a statement open to all users. -/
def requiredPermission : StatementKind → Option Permission
  | .query => some .select
  | .insert => some .insert
  | .update => some .update
  | .delete => some .delete
  | .createTable | .createView => some .create
  | .drop => some .drop
  | .alterTable => some .alter
  | _ => none

def shouldSkipPermissionCheck : StatementKind → Bool
  | .set _ | .showVariable _ | .showStatus | .showCatalogs | .startTransaction | .commit
  | .rollback | .savepoint | .releaseSavepoint => true
  | _ => false

def clientUser (metadata : HashMap String String) : String :=
  (metadata.get "user").getD "anonymous"

def permissionDenied (username : String) : PgWireError :=
  userError "42501" ("permission denied for user \"" ++ username ++ "\"")

/-- `check_statement_permission`, with the depth bound of the check. -/
def checkStatementPermission (authManager : AuthManager) (fuel : Nat) (statement : Statement) :
    Handler E (PgWireResult Unit) := do
  let metadata ← Handler.metadata
  let username := clientUser metadata
  match requiredPermission statement.kind with
  | none => return .ok ()
  | some permission =>
    match authManager.checkPermission fuel username permission .all with
    | none => throw .recursion
    | some true => return .ok ()
    | some false => return .error (permissionDenied username)

def permissionsAnswer (authManager : AuthManager) (fuel : Nat) (statement : Statement) :
    Handler E (Option Answer) := do
  if shouldSkipPermissionCheck statement.kind then return none
  else
    match ← checkStatementPermission authManager fuel statement with
    | .error error => return some (.error (.err error))
    | .ok _ => return none

def permissionsHook (authManager : AuthManager) (fuel : Nat) : QueryHook E where
  handleSimpleQuery := permissionsAnswer authManager fuel
  handleExtendedParseQuery _ := none
  handleExtendedQuery statement _ _ := permissionsAnswer authManager fuel statement

end Permissions
end DatafusionPostgres.Session

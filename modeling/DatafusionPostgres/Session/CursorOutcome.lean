import DatafusionPostgres.Session.Aborted
import DatafusionPostgres.Session.StatusFrame
import DatafusionPostgres.Sql.DeclaredQuery

/-! A cursor against its query: DECLARE and FETCH ALL, and the query sent by itself. -/
namespace DatafusionPostgres.Session
open ArrowPg Library PgCatalog

section Statements
variable (display : Sql.Query → String)

/-- The text of a query sent by itself, as it is parsed, rewritten and printed. -/
def queryText (query : Sql.Query) : String :=
  (Sql.query? (Sql.PostgresCompatibilityParser.rewrite (.mk (.statementQuery query)))).elim
    "" display

/-- The text of the query after FOR, of a DECLARE that is parsed, rewritten and printed. -/
def forQueryText (cursorName : String) (query : Sql.Query) : Option String :=
  (Sql.forQuery? (Sql.PostgresCompatibilityParser.rewrite
    (Sql.declareStatement ("DECLARE " ++ cursorName ++ " CURSOR FOR ") query))).map display

def querySent (query : Sql.Query) : Statement := ⟨.query, queryText display query⟩

def declareSent (cursorName : String) (query : Sql.Query) : Statement :=
  ⟨.declare [⟨some .cursor, [cursorName], forQueryText display cursorName query⟩],
    "DECLARE " ++ cursorName ++ " CURSOR FOR " ++ (forQueryText display cursorName query).getD ""⟩

def fetchAllSent (cursorName : String) : Statement :=
  ⟨.fetch cursorName .all, "FETCH ALL FROM " ++ cursorName⟩

end Statements

section Outcomes
variable {E : Engine}

/-- The rows of a stream, or its first error. -/
def collect : RowStream → PgWireResult (List DataRow)
  | [] => .ok []
  | .ok row :: rows => (row :: ·) <$> collect rows
  | .error error :: _ => .error error

/-- What a client gets of an answer: the error, or the rows with their texts. -/
def outcome : Answer → Except Failure (List DataRow)
  | .error failure => .error failure
  | .ok (.query response) => (collect response.rows).mapError .err
  | .ok _ => .ok []

/-- The DECLARE, and FETCH ALL if it succeeds. -/
def throughCursor (display : Sql.Query → String) (cursorName : String) (query : Sql.Query) :
    Handler E Answer := do
  match ← answerStatement defaultHooks (declareSent display cursorName query) with
  | .error failure => return .error failure
  | .ok _ => answerStatement defaultHooks (fetchAllSent cursorName)

def SameOutcome (display : Sql.Query → String) (cursorName : String) (query : Sql.Query)
    (s : Connection E) : Prop :=
  ∃ direct s₁ cursor s₂,
    answerStatement defaultHooks (querySent display query) s = .ok direct s₁ ∧
    throughCursor display cursorName query s = .ok cursor s₂ ∧ outcome direct = outcome cursor

/-- Fetching without a limit gives all rows of a stream, up to its first error. -/
def FetchesAll (E : Engine) : Prop :=
  ∀ rows, (E.fetchRows (some rows) 0 >>= fun fetched => collect fetched.1) = collect rows

/-- The engine's part in both: it runs the text and encodes the rows of the frame. -/
def runText (timeout : Option Nat) (formatOptions : FormatOptions) (text : String) :
    Handler E (PgWireResult QueryResponse) := do
  match ← Handler.runOnContext (E.sql timeout text) with
  | .error failure => return .error (sqlError failure)
  | .ok frame => encodeDataframe frame unifiedText (some formatOptions)

def answerOf : PgWireResult QueryResponse → Answer
  | .error error => .error (.err error)
  | .ok response => .ok (.query response)

private theorem runText_returns (timeout : Option Nat) (formatOptions : FormatOptions)
    (text : String) (s : Connection E) :
    ∃ result s', runText timeout formatOptions text s = .ok result s' := by
  have hreturns : LeavesMetadata (runText (E := E) timeout formatOptions text) := by
    apply leavesMetadata_actions.bind (leavesMetadata_actions.runOnContext _)
    rintro (failure | frame)
    · exact leavesMetadata_actions.pure _
    · exact leavesMetadata_actions.encodeDataframe frame _ _
  obtain ⟨result, s', hrun, -⟩ := hreturns s
  exact ⟨result, s', hrun⟩

/-- What the engine has run, the connection has recorded. -/
private def ranText (s : Connection E) (timeout : Option Nat) (text : String) : Connection E :=
  { s with
    context := (E.sql timeout text s.context).context
    executed := s.executed ++ [(E.sql timeout text s.context).scanned] }

private theorem runOnContext_run (s : Connection E) (timeout : Option Nat) (text : String) :
    Handler.runOnContext (E.sql timeout text) s =
      .ok (E.sql timeout text s.context).result (ranText s timeout text) := rfl

private theorem answerStatement_query {s s' : Connection E} {text : String}
    {result : PgWireResult QueryResponse} (hstatus : s.transactionStatus ≠ .error)
    (hrun : runText (getStatementTimeout s.metadata) (E.formatOptionsFromMetadata s.metadata) text
      s = .ok result s') :
    answerStatement defaultHooks ⟨.query, text⟩ s = .ok (answerOf result) s' := by
  have hfirst : firstSimpleAnswer ⟨.query, text⟩ (defaultHooks (E := E)) s = .ok none s := by
    rw [firstSimpleAnswer_late rfl]
    change EStateM.Result.ok (if s.transactionStatus = .error then _ else none) s = _
    rw [if_neg hstatus]
  have hmetadata : Handler.metadata s = .ok s.metadata s := rfl
  unfold answerStatement
  rw [run_bind_ok hfirst]
  dsimp only
  unfold runStatement
  rw [run_bind_ok hmetadata, run_bind_ok (runOnContext_run s _ text)]
  unfold runText at hrun
  rw [run_bind_ok (runOnContext_run s _ text)] at hrun
  cases hsql : (E.sql (getStatementTimeout s.metadata) text s.context).result with
  | error failure =>
    rw [hsql] at hrun
    cases hrun
    rfl
  | ok frame =>
    rw [hsql] at hrun
    have hmetadata' : Handler.metadata (ranText s (getStatementTimeout s.metadata) text) =
        .ok s.metadata (ranText s (getStatementTimeout s.metadata) text) := rfl
    unfold respondWithFrame
    dsimp only
    rw [run_bind_ok hmetadata']
    refine (run_bind_ok hrun _).trans ?_
    cases result <;> rfl

private theorem declareCursor_run {s s' : Connection E} (cursorName : String) {forQuery : String}
    {result : PgWireResult QueryResponse}
    (hrun : runText none E.defaultFormatOptions forQuery s = .ok result s') :
    declareCursor ⟨some .cursor, [cursorName], some forQuery⟩ s =
      match result with
      | .error error => .ok (some error) s'
      | .ok response => (do putCursor cursorName forQuery response; return none) s' := by
  unfold declareCursor
  rw [if_neg (not_not_intro rfl)]
  dsimp only [List.head?_cons]
  rw [run_bind_ok (runOnContext_run s _ forQuery)]
  unfold runText at hrun
  rw [run_bind_ok (runOnContext_run s _ forQuery)] at hrun
  cases hsql : (E.sql none forQuery s.context).result with
  | error failure =>
    rw [hsql] at hrun
    cases hrun
    rfl
  | ok frame =>
    rw [hsql] at hrun
    refine (run_bind_ok hrun _).trans ?_
    cases result <;> rfl

private theorem answerStatement_fetchAll (cursorName : String) :
    answerStatement (E := E) defaultHooks (fetchAllSent cursorName) =
      handleFetch cursorName .all := by
  simp only [answerStatement, firstSimpleAnswer, defaultHooks, cursorStatementHook, fetchAllSent,
    cursorAnswer, map_eq_pure_bind, bind_assoc, pure_bind, bind_pure]

private theorem answerStatement_declare (display : Sql.Query → String) (cursorName : String)
    (query : Sql.Query) :
    answerStatement (E := E) defaultHooks (declareSent display cursorName query) =
      handleDeclare [⟨some .cursor, [cursorName], forQueryText display cursorName query⟩] := by
  simp only [answerStatement, firstSimpleAnswer, defaultHooks, cursorStatementHook, declareSent,
    cursorAnswer, map_eq_pure_bind, bind_assoc, pure_bind, bind_pure]

private theorem handleFetch_all (hfetch : FetchesAll E) {s : Connection E} {cursorName : String}
    {portal : StoredPortal E} {response : QueryResponse}
    (hportal : s.portals.get cursorName = some (some portal))
    (hresponse : portal.response = some response) :
    ∃ cursor s', handleFetch cursorName .all s = .ok cursor s' ∧
      outcome cursor = outcome (.ok (.query response)) := by
  have hrows := hfetch response.rows
  have hnamed : ({ portal with name := cursorName } : StoredPortal E).response =
      some response := hresponse
  rw [handleFetch_of_get rfl hportal]
  cases hfetched : E.fetchRows (some response.rows) 0 with
  | error error =>
    rw [hfetched] at hrows
    refine ⟨_, s, fetchPortal_of_error hnamed hfetched s, ?_⟩
    rw [outcome, outcome, ← hrows]
    rfl
  | ok fetched =>
    rw [hfetched] at hrows
    refine ⟨_, _, fetchPortal_of_ok hnamed hfetched s, ?_⟩
    exact congrArg (Except.mapError Failure.err) hrows

private theorem throughCursor_run (hfetch : FetchesAll E) {display : Sql.Query → String}
    {cursorName text : String} {query : Sql.Query}
    (htext : forQueryText display cursorName query = some text) {s s' : Connection E}
    {result : PgWireResult QueryResponse}
    (hrun : runText none E.defaultFormatOptions text s = .ok result s') :
    ∃ cursor s₂, throughCursor display cursorName query s = .ok cursor s₂ ∧
      outcome cursor = outcome (answerOf result) := by
  have hdeclare := declareCursor_run cursorName hrun
  unfold throughCursor
  rw [answerStatement_declare, htext, handleDeclare]
  cases result with
  | error error =>
    have hanswer : handleDeclare [⟨some .cursor, [cursorName], some text⟩] s =
        .ok (.error (.err error)) s' := run_bind_ok hdeclare _
    exact ⟨_, s', run_bind_ok hanswer _, rfl⟩
  | ok response =>
    let s'' : Connection E := { s' with
      portals := s'.portals.insert cursorName
        (some ⟨cursorName, (text, none), ⟨[], []⟩, unifiedText, some response⟩) }
    have hanswer : handleDeclare [⟨some .cursor, [cursorName], some text⟩] s =
        .ok (.ok (.execution (.new "DECLARE CURSOR"))) s'' := run_bind_ok hdeclare _
    obtain ⟨cursor, s₂, hrun₂, houtcome⟩ :=
      handleFetch_all hfetch (s := s'') (HashMap.get_insert_self _ _ _) rfl
    refine ⟨cursor, s₂, (run_bind_ok hanswer _).trans ?_, houtcome⟩
    dsimp only
    rw [answerStatement_fetchAll]
    exact hrun₂

private theorem sameOutcome_iff (hfetch : FetchesAll E) {display : Sql.Query → String}
    {cursorName text : String} {query : Sql.Query}
    (htext : forQueryText display cursorName query = some text) {s s₁ s₂ : Connection E}
    (hstatus : s.transactionStatus ≠ .error) {direct cursor : PgWireResult QueryResponse}
    (hdirect : runText (getStatementTimeout s.metadata) (E.formatOptionsFromMetadata s.metadata)
      (queryText display query) s = .ok direct s₁)
    (hcursor : runText none E.defaultFormatOptions text s = .ok cursor s₂) :
    SameOutcome display cursorName query s ↔
      outcome (answerOf direct) = outcome (answerOf cursor) := by
  have hanswer := answerStatement_query hstatus hdirect
  obtain ⟨answer, s', hthrough, houtcome⟩ := throughCursor_run hfetch htext hcursor
  constructor
  · rintro ⟨direct', s₁', answer', s₂', hdirect', hthrough', hsame⟩
    cases hanswer.symm.trans hdirect'
    cases hthrough.symm.trans hthrough'
    exact hsame.trans houtcome
  · intro hsame
    exact ⟨_, s₁, answer, s', hanswer, hthrough, hsame.trans houtcome.symm⟩

private theorem not_sameOutcome_aborted (hfetch : FetchesAll E) {display : Sql.Query → String}
    {cursorName text : String} {query : Sql.Query}
    (htext : forQueryText display cursorName query = some text) {s s₂ : Connection E}
    (hstatus : s.transactionStatus = .error) {cursor : PgWireResult QueryResponse}
    (hcursor : runText none E.defaultFormatOptions text s = .ok cursor s₂) {rows : List DataRow}
    (hrows : outcome (answerOf cursor) = .ok rows) :
    ¬ SameOutcome display cursorName query s := by
  rintro ⟨direct, s₁, answer, s', hdirect, hthrough, hsame⟩
  have hrejected : answerStatement defaultHooks (querySent display query) s =
      .ok (.error (.err transactionAborted)) s :=
    run_bind_ok (firstSimpleAnswer_aborted hstatus rfl rfl) _
  cases hrejected.symm.trans hdirect
  obtain ⟨answer', s'', hthrough', houtcome⟩ := throughCursor_run hfetch htext hcursor
  cases hthrough.symm.trans hthrough'
  cases hsame.trans (houtcome.trans hrows)

end Outcomes

section Probe

/-- An engine whose only row is missing where a text is run with what `same` tells. -/
def probeEngine (formatOptions : HashMap String String → FormatOptions) (default : FormatOptions)
    (same : Option Nat → String → FormatOptions → Bool) : Engine where
  Context := Unit
  Plan := Unit
  DataFrame := Option Nat × String
  sql timeout text _ := ⟨.ok (timeout, text), (), false⟩
  statementToPlan _ _ := .ok ()
  optimize _ _ := .ok ()
  executeLogicalPlan timeout _ _ := ⟨.ok (timeout, ""), (), false⟩
  replaceParamsWithValues _ _ := .ok ()
  getParameterTypes _ := .ok .empty
  placeholderVisits _ := .ok []
  emptyRelation _ _ := ()
  schema _ := ⟨[.new "v" .int64 false]⟩
  scans _ := false
  executeStream frame fields _ :=
    (.ok (if fields.all fun field => same frame.1 frame.2 field.formatOptions then []
      else [.ok []]), ())
  collectCount _ _ := (.ok none, ())
  catalogNames _ := []
  version _ := ""
  params := referenceLibraries
  toLowercase := id
  formatOptionsFromMetadata := formatOptions
  defaultFormatOptions := default
  defaultApplicationName := none
  defaultSearchPath := ""
  send _ _ := .ok ()
  fetchRows := fetchReferenceRows

variable {formatOptions : HashMap String String → FormatOptions} {default : FormatOptions}
  {same : Option Nat → String → FormatOptions → Bool}

private theorem probeEngine_fetchesAll : FetchesAll (probeEngine formatOptions default same) :=
  fun _ => rfl

private theorem probeEngine_runText (timeout : Option Nat) (options : FormatOptions) (text : String)
    (s : Connection (probeEngine formatOptions default same)) :
    ∃ response s', runText timeout options text s = .ok (.ok response) s' ∧
      outcome (answerOf (.ok response)) = .ok (if same timeout text options then [] else [[]]) := by
  refine ⟨_, _, rfl, ?_⟩
  change (collect (if (same timeout text options && true) = true then [] else [.ok []])).mapError _ = _
  cases same timeout text options <;> rfl

/-- Whatever the engine, a cursor gives what its query gives, exactly if no block is aborted,
no timeout is set, the format options of the session are the default ones, and the query is
rewritten alike. -/
theorem cursor_sameOutcome_iff (display : Sql.Query → String) (cursorName : String)
    (query : Sql.Query) (metadata : HashMap String String) (status : TransactionStatus)
    (formatOptions : HashMap String String → FormatOptions) (default : FormatOptions) :
    (∀ (E : Engine) (s : Connection E), FetchesAll E →
        E.formatOptionsFromMetadata = formatOptions → E.defaultFormatOptions = default →
        s.metadata = metadata → s.transactionStatus = status →
        SameOutcome display cursorName query s) ↔
      status ≠ .error ∧ getStatementTimeout metadata = none ∧ formatOptions metadata = default ∧
        forQueryText display cursorName query = some (queryText display query) := by
  have htext : forQueryText display cursorName query = some (display (Sql.visitQuery query)) := by
    rw [forQueryText, Sql.rewrite_declareStatement]
    rfl
  constructor
  · intro h
    have hprobe (same : Option Nat → String → FormatOptions → Bool) :
        SameOutcome display cursorName query
          (⟨metadata, status, .empty, [], (), []⟩ :
            Connection (probeEngine formatOptions default same)) :=
      h _ _ probeEngine_fetchesAll rfl rfl rfl rfl
    have hstatus : status ≠ .error := by
      intro hstatus
      obtain ⟨cursor, s₂, hcursor, hrows⟩ := probeEngine_runText _ _ _ _
      exact not_sameOutcome_aborted probeEngine_fetchesAll htext hstatus hcursor hrows
        (hprobe fun _ _ _ => true)
    have hsame := hprobe fun timeout text options =>
      decide (timeout = none ∧ text = display (Sql.visitQuery query) ∧ options = default)
    obtain ⟨direct, s₁, hdirect, hrows⟩ := probeEngine_runText _ _ _ _
    obtain ⟨cursor, s₂, hcursor, hrows'⟩ := probeEngine_runText _ _ _ _
    rw [sameOutcome_iff probeEngine_fetchesAll htext hstatus hdirect hcursor, hrows, hrows',
      if_pos (c := decide (_ ∧ _) = true) (decide_eq_true ⟨rfl, rfl, rfl⟩)] at hsame
    split at hsame
    case isTrue hagree =>
      obtain ⟨htimeout, hquery, hoptions⟩ := of_decide_eq_true hagree
      exact ⟨hstatus, htimeout, hoptions, htext.trans (congrArg some hquery.symm)⟩
    case isFalse => cases hsame
  · rintro ⟨hstatus, htimeout, hoptions, htext'⟩ E s hfetch rfl rfl rfl rfl
    obtain ⟨direct, s₁, hdirect⟩ := runText_returns (getStatementTimeout s.metadata)
      (E.formatOptionsFromMetadata s.metadata) (queryText display query) s
    have hcursor := hdirect
    rw [htimeout, hoptions] at hcursor
    exact (sameOutcome_iff hfetch htext' hstatus hdirect hcursor).mpr rfl

/-- An engine that renders a `bytea` by the format options of its column. -/
def byteaEngine : Engine where
  __ := probeEngine (fun metadata =>
      ⟨"ISO, MDY", "postgres", (metadata.get "bytea_output").getD "hex", 1⟩)
    ⟨"ISO, MDY", "postgres", "hex", 1⟩ fun _ _ _ => true
  executeStream _ fields _ :=
    (.ok (fields.map fun field =>
      .ok [some (if field.formatOptions.byteaOutput = "escape" then [92, 48, 48, 49]
        else [92, 120, 48, 49])]), ())

private theorem byteaEngine_runText (timeout : Option Nat) (options : FormatOptions)
    (text : String) (s : Connection byteaEngine) :
    ∃ response s', runText timeout options text s = .ok (.ok response) s' ∧
      outcome (answerOf (.ok response)) =
        .ok [[some (if options.byteaOutput = "escape" then [92, 48, 48, 49]
          else [92, 120, 48, 49])]] :=
  ⟨_, _, rfl, rfl⟩

/-- `SELECT v FROM t`. -/
def selectColumn : Sql.Query :=
  .mk (.query ⟨none, .mk (.select ⟨[.unnamedExpr (.mk (.identifier (.new "v")))],
    [⟨.mk (.table [.new "t"] none none .none), []⟩], none, .none⟩), none, none, none, .none⟩)

/-- After `SET bytea_output = 'escape'` a `bytea` is rendered `\001` by the query, and `\x01`
through a cursor. -/
theorem byteaOutput_not_sameOutcome :
    ¬ SameOutcome (fun _ => "SELECT v FROM t") "c" selectColumn
      (⟨HashMap.empty.insert "bytea_output" "escape", .idle, .empty, [], (), []⟩ :
        Connection byteaEngine) := by
  have htext : forQueryText (fun _ => "SELECT v FROM t") "c" selectColumn =
      some "SELECT v FROM t" := by
    rw [forQueryText, Sql.rewrite_declareStatement]
    rfl
  obtain ⟨direct, s₁, hdirect, hrows⟩ := byteaEngine_runText _ _ _ _
  obtain ⟨cursor, s₂, hcursor, hrows'⟩ := byteaEngine_runText _ _ _ _
  have hfetch : FetchesAll byteaEngine := fun _ => rfl
  have hstatus : TransactionStatus.idle ≠ .error := nofun
  rw [sameOutcome_iff hfetch htext hstatus hdirect hcursor, hrows, hrows']
  intro h
  exact absurd (Except.ok.inj h) (by decide)

end Probe
end DatafusionPostgres.Session

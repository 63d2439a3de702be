import DatafusionPostgres.Library.Unwinding
import DatafusionPostgres.Session.ActionRules
import DatafusionPostgres.Session.ReferenceEngine

/-! Two connections that are served by one session service, and so share its context. -/
namespace DatafusionPostgres.Session
open ArrowPg Library PgCatalog

section Service
variable {E : Engine}

/-- The next thing that is done for a client: its messages, and the turns of the loop over
the statements of its last Query message. -/
inductive Turn (E : Engine) where
  | query (parsed : Except DataFusionError (List Statement))
  | next
  | parse (parsed : Except DataFusionError (List Statement))
  | bind (portal : StoredPortal E)
  | execute (portalName : String) (maxRows : Nat)
  | close (portalName : String)

inductive Reply (E : Engine) where
  | results (answer : Except Failure (List Response))
  | parsed (answer : PgWireResult (Option (DfStatement E)))
  | portal (answer : Answer)

/-- A connection, with the results and the statements left of the loop that it is in. -/
structure Client (E : Engine) where
  connection : Connection E
  batch : Option (List Response × List Statement)

abbrev TurnOutcome (E : Engine) := Option (List Response × List Statement) × Option (Reply E)

variable [WireLoop E]

def finish (answer : Except Failure (List Response)) : Handler E (TurnOutcome E) := do
  WireLoop.settle answer
  return (none, some (.results answer))

/-- A turn of the loop of `do_query`. -/
def nextTurn : Option (List Response × List Statement) → Handler E (TurnOutcome E)
  | none => return (none, none)
  | some (results, []) => finish (.ok results)
  | some (results, statement :: statements) => do
    match ← answerStatement defaultHooks statement with
    | .error error => finish (.error error)
    | .ok response => return (some (results ++ [response], statements), none)

def Turn.handle (batch : Option (List Response × List Statement)) :
    Turn E → Handler E (TurnOutcome E)
  | .query (.ok (statement :: statements)) => return (some ([], statement :: statements), none)
  | .query (.ok []) => finish (.ok [.emptyQuery])
  | .query (.error error) => finish (.error (.err (apiError error)))
  | .next => nextTurn batch
  | .parse parsed => do
    let answer ← parseSql defaultHooks parsed
    return (batch, some (.parsed answer))
  | .bind portal => do
    onBind portal
    return (batch, none)
  | .execute portalName maxRows => do
    let answer ← onExecute defaultHooks portalName maxRows
    return (batch, some (.portal answer))
  | .close portalName => do
    onClose portalName
    return (batch, none)

/-- The client that a turn comes to, and what it is sent in return. -/
def taken : EStateM.Result Diverged (Connection E) (TurnOutcome E) → Client E × Option (Reply E)
  | .ok (batch, reply) connection => (⟨connection, batch⟩, reply)
  | .error _ connection => (⟨connection, none⟩, none)

def Client.turn (client : Client E) (context : E.Context) (turn : Turn E) :
    Client E × Option (Reply E) :=
  taken (turn.handle client.batch { client.connection with context })

/-- The shared context is the one in `context`. -/
structure Service (E : Engine) where
  context : E.Context
  a : Client E
  b : Client E

def Service.turnA (s : Service E) (turn : Turn E) : Service E :=
  let a := (s.a.turn s.context turn).1
  { s with a, context := a.connection.context }

def Service.turnB (s : Service E) (turn : Turn E) : Service E :=
  let b := (s.b.turn s.context turn).1
  { s with b, context := b.connection.context }

/-- The context that a turn of B is taken in, the reply to it, and all that B has been sent
besides. -/
structure Observation (E : Engine) where
  context : E.Context
  reply : Option (Reply E)
  sent : List ParameterStatus

def Service.observe (s : Service E) (turn : Turn E) : Observation E :=
  let (b, reply) := s.b.turn s.context turn
  ⟨s.context, reply, b.connection.sent⟩

/-- What B observes in an interleaving of the turns of A and B. -/
def Service.observations (s : Service E) (turns : List (Turn E ⊕ Turn E)) :
    List (Observation E) :=
  Library.observations Service.turnA Service.turnB Service.observe s turns

end Service

section Isolation
variable {E : Engine}

/-- A SET that is kept in the metadata, or is refused by DataFusion or has no effect there. -/
def StaysInSession (E : Engine) (context : E.Context) (statement : Statement) : Prop :=
  ∃ set, statement.kind = .set set ∧
    (KeptInMetadata E set ∨
      ∀ plan, (E.statementToPlan statement context >>= fun plan => E.optimize plan context) =
        .ok plan → (E.executeLogicalPlan none plan context).context = context)

/-- Whatever statement A has run in its turn is a SET that stays in its session. -/
def TurnStaysInSession (s : Service E) : Turn E → Prop
  | .next => ∀ results statement statements,
    s.a.batch = some (results, statement :: statements) → StaysInSession E s.context statement
  | .execute portalName _ => ∀ portal statement plan,
    s.a.connection.portals.get portalName = some (some portal) → portal.response = none →
      portal.statement.2 = some (statement, plan) → StaysInSession E s.context statement
  | _ => True

/-- From the state the program returns, with the context as it is. -/
private def LeavesContextAt {α : Type} (prog : Handler E α) (s : Connection E) : Prop :=
  ∃ a s', prog s = .ok a s' ∧ s'.context = s.context

private theorem LeavesContextAt.bind {α β : Type} {prog : Handler E α} {next : α → Handler E β}
    {s : Connection E} (hprog : LeavesContextAt prog s)
    (hnext : ∀ a, Leaves Connection.context (next a)) : LeavesContextAt (prog >>= next) s := by
  obtain ⟨a, s', hrun, hcontext⟩ := hprog
  obtain ⟨b, s'', hrun', hcontext'⟩ := hnext a s'
  exact ⟨b, s'', (run_bind_ok hrun next).trans hrun', hcontext'.trans hcontext⟩

private theorem announce_leavesContext (status : Option ParameterStatus) :
    Leaves Connection.context (announce (E := E) status) := by
  cases status with
  | none => exact .pure _
  | some status =>
    apply Leaves.bind (.modifyGet fun s => ?_)
    · rintro (error | _) <;> exact .pure _
    · cases E.send s.sent status <;> rfl

private theorem setVariable_leavesContext (var value : String) :
    Leaves Connection.context (setVariable (E := E) var value) :=
  Leaves.bind (.modifyGet fun _ => rfl) fun _ =>
    Leaves.bind (.modifyGet fun _ => rfl) fun _ => announce_leavesContext _

private theorem fallbackSet_leavesContext {statement : Statement} {s : Connection E}
    (h : ∀ plan, (E.statementToPlan statement s.context >>= fun plan => E.optimize plan s.context) =
      .ok plan → (E.executeLogicalPlan none plan s.context).context = s.context) :
    LeavesContextAt (fallbackSet statement) s := by
  suffices hexecute : LeavesContextAt (executeSetStatement statement) s from
    hexecute.bind fun _ => .pure _
  have hcontext : Handler.context s = .ok s.context s := rfl
  unfold LeavesContextAt executeSetStatement
  rw [run_bind_ok hcontext]
  cases hplan : E.statementToPlan statement s.context >>= fun plan => E.optimize plan s.context with
  | error error => exact ⟨_, s, rfl, rfl⟩
  | ok plan =>
    have hrun : LeavesContextAt (Handler.runOnContext (E.executeLogicalPlan none plan)) s :=
      ⟨_, _, rfl, h plan hplan⟩
    change LeavesContextAt (Handler.runOnContext (E.executeLogicalPlan none plan) >>= _) s
    apply hrun.bind
    rintro (failure | frame) <;> exact .pure _

private theorem tryRespondSetStatements_leavesContext {statement : Statement} {set : SetStatement}
    {s : Connection E} (h : KeptInMetadata E set ∨
      ∀ plan, (E.statementToPlan statement s.context >>= fun plan => E.optimize plan s.context) =
        .ok plan → (E.executeLogicalPlan none plan s.context).context = s.context) :
    LeavesContextAt (tryRespondSetStatements statement set) s := by
  obtain ⟨action, haction, hcases⟩ := tryRespondSetStatements_cases (E := E) statement set
  rw [haction]
  cases hcases with
  | noTimeout => exact ⟨_, s, rfl, rfl⟩
  | timeout =>
    exact Leaves.bind (.modifyGet fun _ => rfl) (fun _ =>
      Leaves.bind (.modifyGet fun _ => rfl) fun _ => .pure _) s
  | kept => exact setVariable_leavesContext _ _ s
  | timeZone =>
    exact Leaves.bind (.modifyGet fun _ => rfl) (fun _ =>
      Leaves.bind (.modifyGet fun _ => rfl) fun _ => announce_leavesContext _) s
  | fallback hkept => exact fallbackSet_leavesContext (h.resolve_left hkept)

private theorem StaysInSession.set {statement : Statement} {s : Connection E}
    (h : StaysInSession E s.context statement) :
    ∃ answer s', firstSimpleAnswer statement defaultHooks s = .ok (some answer) s' ∧
      s'.context = s.context := by
  obtain ⟨set, hkind, hstays⟩ := h
  have hset : LeavesContextAt (tryRespondSetStatements statement set) s :=
    tryRespondSetStatements_leavesContext hstays
  obtain ⟨answer, s', hrun, hcontext⟩ := hset
  refine ⟨answer, s', ?_, hcontext⟩
  rw [firstSimpleAnswer_set hkind, map_eq_pure_bind, run_bind_ok hrun]
  rfl

private theorem settle_leavesContext (answer : Except Failure (List Response)) :
    Leaves Connection.context (DocumentedLoop.settle (E := E) answer) :=
  Leaves.bind (.modifyGet fun _ => rfl) fun _ => .modifyGet fun _ => rfl

private theorem finish_leavesContext [WireLoop E] (answer : Except Failure (List Response)) :
    Leaves Connection.context (finish (E := E) answer) := by
  rw [finish, WireLoop.settles]
  exact (settle_leavesContext answer).bind fun _ => .pure _

private theorem nextTurn_leavesContext [WireLoop E] {batch : Option (List Response × List Statement)}
    {s : Connection E} (h : ∀ results statement statements,
      batch = some (results, statement :: statements) → StaysInSession E s.context statement) :
    LeavesContextAt (nextTurn batch) s := by
  match batch with
  | none => exact ⟨_, s, rfl, rfl⟩
  | some (results, []) => exact finish_leavesContext _ s
  | some (results, statement :: statements) =>
    obtain ⟨answer, s', hfirst, hcontext⟩ := (h results statement statements rfl).set
    have hanswer : LeavesContextAt (answerStatement defaultHooks statement) s :=
      ⟨answer, s', run_bind_ok hfirst _, hcontext⟩
    apply hanswer.bind
    rintro (error | response)
    · exact finish_leavesContext _
    · exact .pure _

private theorem parseSql_leavesContext (parsed : Except DataFusionError (List Statement)) :
    Leaves Connection.context (parseSql (E := E) defaultHooks parsed) := by
  unfold parseSql
  split
  · exact .pure _
  · exact .pure _
  · dsimp only
    split
    · exact .pure _
    · exact .pure _
    · apply Leaves.bind (.modifyGet fun _ => rfl)
      intro context
      split <;> exact .pure _

private theorem fetchPortal_leavesContext (portal : StoredPortal E) (maxRows : Nat) :
    Leaves Connection.context (fetchPortal portal maxRows) := by
  unfold fetchPortal
  split
  · exact .pure _
  · exact Leaves.bind (.modifyGet fun _ => rfl) fun _ =>
      Leaves.bind (.modifyGet fun _ => rfl) fun _ => .pure _

private theorem doExtendedQuery_leavesContext {portal : StoredPortal E} {s : Connection E}
    (h : ∀ statement plan, portal.statement.2 = some (statement, plan) →
      StaysInSession E s.context statement) :
    LeavesContextAt (doExtendedQuery defaultHooks portal) s := by
  unfold doExtendedQuery
  cases hstatement : portal.statement.2 with
  | none => exact ⟨_, s, rfl, rfl⟩
  | some planned =>
    obtain ⟨statement, plan⟩ := planned
    suffices hhooks : ∃ answer s', hooksAnswer defaultHooks portal statement plan s =
        .ok (some answer) s' ∧ s'.context = s.context by
      obtain ⟨answer, s', hrun, hcontext⟩ := hhooks
      exact ⟨answer, s', run_bind_ok hrun _, hcontext⟩
    unfold hooksAnswer
    cases portalParams portal plan with
    | error error => exact ⟨_, s, rfl, rfl⟩
    | ok params => exact (h statement plan hstatement).set

private theorem onExecute_leavesContext [WireLoop E] {portalName : String} {maxRows : Nat} {s : Connection E}
    (h : ∀ portal statement plan, s.portals.get portalName = some (some portal) →
      portal.response = none → portal.statement.2 = some (statement, plan) →
        StaysInSession E s.context statement) :
    LeavesContextAt (onExecute defaultHooks portalName maxRows) s := by
  have hportals : Handler.portals s = .ok s.portals s := rfl
  rw [onExecute_documented]
  unfold LeavesContextAt DocumentedLoop.onExecute
  rw [run_bind_ok hportals]
  match hportal : s.portals.get portalName with
  | none => exact ⟨_, s, rfl, rfl⟩
  | some none => exact ⟨_, s, rfl, rfl⟩
  | some (some portal) =>
    dsimp only
    cases hresponse : portal.response with
    | some response => exact fetchPortal_leavesContext _ _ s
    | none =>
      have hquery := doExtendedQuery_leavesContext fun statement plan =>
        h portal statement plan hportal hresponse
      change LeavesContextAt (doExtendedQuery defaultHooks portal >>= _) s
      apply hquery.bind
      intro answer
      apply (settle_leavesContext _).bind
      intro _
      split
      · split
        · exact .pure _
        · exact fetchPortal_leavesContext _ _
      · exact .pure _

private theorem turnA_context [WireLoop E] {s : Service E} {turn : Turn E} (h : TurnStaysInSession s turn) :
    (s.turnA turn).context = s.context := by
  suffices hturn : LeavesContextAt (turn.handle s.a.batch)
      { s.a.connection with context := s.context } by
    obtain ⟨outcome, connection, hrun, hcontext⟩ := hturn
    unfold Service.turnA Client.turn
    rw [hrun]
    exact hcontext
  match turn with
  | .query (.ok (statement :: statements)) => exact ⟨_, _, rfl, rfl⟩
  | .query (.ok []) => exact finish_leavesContext _ _
  | .query (.error error) => exact finish_leavesContext _ _
  | .next => exact nextTurn_leavesContext h
  | .parse parsed => exact (parseSql_leavesContext parsed).bind (fun _ => .pure _) _
  | .bind portal =>
    rw [Turn.handle, onBind_documented]
    exact Leaves.bind (Leaves.bind (.modifyGet fun _ => rfl) fun _ => .modifyGet fun _ => rfl)
      (fun _ => .pure _) _
  | .execute portalName maxRows =>
    have hexecute : LeavesContextAt (onExecute defaultHooks portalName maxRows)
        { s.a.connection with context := s.context } := onExecute_leavesContext h
    exact hexecute.bind fun _ => .pure _
  | .close portalName =>
    rw [Turn.handle, onClose_documented]
    exact Leaves.bind (Leaves.bind (.modifyGet fun _ => rfl) fun _ => .modifyGet fun _ => rfl)
      (fun _ => .pure _) _

/-- If A has only SET statements run, all of which stay in its session, B observes what it
observes when A sends nothing. -/
theorem observations_isolated [WireLoop E] (s : Service E) (turns : List (Turn E ⊕ Turn E))
    (hstays : FirstMeets Service.turnA Service.turnB TurnStaysInSession s turns) :
    s.observations turns = s.observations (turns.filter Sum.isRight) := by
  have hfirst (s t : Service E) (turn : Turn E) (hstays : TurnStaysInSession s turn)
      (hsees : s.context = t.context ∧ s.b = t.b) :
      (s.turnA turn).context = t.context ∧ (s.turnA turn).b = t.b :=
    ⟨(turnA_context hstays).trans hsees.1, hsees.2⟩
  have hsecond (s t : Service E) (turn : Turn E) (hsees : s.context = t.context ∧ s.b = t.b) :
      (s.turnB turn).context = (t.turnB turn).context ∧ (s.turnB turn).b = (t.turnB turn).b := by
    unfold Service.turnB
    rw [hsees.1, hsees.2]
    exact ⟨rfl, rfl⟩
  have hobserve (s t : Service E) (turn : Turn E) (hsees : s.context = t.context ∧ s.b = t.b) :
      s.observe turn = t.observe turn := by
    unfold Service.observe
    rw [hsees.1, hsees.2]
  exact observations_alone hfirst hsecond hobserve hstays ⟨rfl, rfl⟩

/-- An engine whose context is the time zone that it has been configured to. -/
def configEngine : Engine where
  Context := String
  Plan := Option String
  DataFrame := Unit
  sql _ _ context := ⟨.ok (), context, false⟩
  statementToPlan statement _ :=
    match statement.kind with
    | .set (.singleAssignment _ _ "datafusion.execution.time_zone" [.stringLiteral content _]) =>
      .ok (some content)
    | _ => .ok none
  optimize plan _ := .ok plan
  executeLogicalPlan _ plan context := ⟨.ok (), plan.getD context, false⟩
  replaceParamsWithValues plan _ := .ok plan
  getParameterTypes _ := .ok .empty
  placeholderVisits _ := .ok []
  emptyRelation _ _ := none
  schema _ := ⟨[.new "now" .utf8 false]⟩
  scans _ := false
  executeStream _ _ context := (.ok [.ok [some context.toUTF8.toList]], context)
  collectCount _ context := (.ok none, context)
  catalogNames _ := ["datafusion"]
  version _ := "52.0.0"
  params := referenceLibraries
  toLowercase := referenceEngine.toLowercase
  formatOptionsFromMetadata _ := referenceEngine.defaultFormatOptions
  defaultFormatOptions := referenceEngine.defaultFormatOptions
  defaultApplicationName := none
  defaultSearchPath := "public"
  send _ _ := .ok ()
  fetchRows := fetchReferenceRows

instance : WireLoop configEngine := documentedLoop configEngine

def configService : Service configEngine where
  context := "UTC"
  a := ⟨⟨.empty, .idle, .empty, [], "UTC", []⟩, none⟩
  b := ⟨⟨.empty, .idle, .empty, [], "UTC", []⟩, none⟩

/-- A statement of A alone in its Query message, and then one of B. -/
def oneEach (a b : Statement) : List (Turn configEngine ⊕ Turn configEngine) :=
  [.inl (.query (.ok [a])), .inl .next, .inl .next, .inr (.query (.ok [b])), .inr .next, .inr .next]

/-- `SET datestyle = 'ISO'` by A, and `SELECT now()` by B. -/
theorem setDateStyle_isolated :
    configService.observations (oneEach
        ⟨.set (.singleAssignment false false "datestyle" [.stringLiteral "ISO" "'ISO'"]),
          "SET datestyle = 'ISO'"⟩ ⟨.query, "SELECT now()"⟩) =
      configService.observations ((oneEach
        ⟨.set (.singleAssignment false false "datestyle" [.stringLiteral "ISO" "'ISO'"]),
          "SET datestyle = 'ISO'"⟩ ⟨.query, "SELECT now()"⟩).filter Sum.isRight) := by
  refine observations_isolated configService _ ⟨trivial, ?_, nofun, trivial⟩
  rintro _ _ _ ⟨⟩
  exact ⟨_, rfl, .inl (.inr ⟨by decide, _, rfl, nofun⟩)⟩

/-- `SET datafusion.execution.time_zone = '+08:00'` by A, and `SELECT now()` by B. -/
theorem setExecutionTimeZone_leaks :
    configService.observations (oneEach
        ⟨.set (.singleAssignment false false "datafusion.execution.time_zone"
          [.stringLiteral "+08:00" "'+08:00'"]), "SET datafusion.execution.time_zone = '+08:00'"⟩
        ⟨.query, "SELECT now()"⟩) ≠
      configService.observations ((oneEach
        ⟨.set (.singleAssignment false false "datafusion.execution.time_zone"
          [.stringLiteral "+08:00" "'+08:00'"]), "SET datafusion.execution.time_zone = '+08:00'"⟩
        ⟨.query, "SELECT now()"⟩).filter Sum.isRight) := by
  intro h
  have hcontexts : (["+08:00", "+08:00", "+08:00"] : List String) = ["UTC", "UTC", "UTC"] :=
    congrArg (List.map Observation.context) h
  exact absurd hcontexts (by decide)

end Isolation
end DatafusionPostgres.Session

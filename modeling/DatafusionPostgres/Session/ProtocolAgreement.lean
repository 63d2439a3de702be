import DatafusionPostgres.Session.ActionRules
import DatafusionPostgres.Session.ReferenceEngine

/-! A statement without parameters that is sent as a Query message, or parsed, bound to the unnamed
portal and executed: the two protocols answer it alike. -/
namespace DatafusionPostgres.Session
open ArrowPg Library Auth PgCatalog

section Sending
variable {E : Engine}

/-- One statement in a Query message of its own. -/
def sendQuery [WireLoop E] (hooks : List (QueryHook E)) (statement : Statement) :
    Handler E (Except Failure (List Response)) :=
  onQuery hooks (.ok [statement])

/-- What the client binds to the unnamed portal: no parameters, and results in text. -/
def unnamedPortal (sent : DfStatement E) : StoredPortal E := ⟨"", sent, ⟨[], []⟩, unifiedText, none⟩

/-- Parse, Bind and Execute, without a row limit. -/
def sendExtended [WireLoop E] (hooks : List (QueryHook E)) (statement : Statement) :
    Handler E (Except Failure (List Response)) := do
  match ← parseSql hooks (.ok [statement]) with
  | .error error => return .error (.err error)
  | .ok parsed => do
    onBind (unnamedPortal (parsed.getD ("", none)))
    let answer ← onExecute hooks "" 0
    return answer.map fun response => [response]

/-- The hooks of a server, with a permission check or without one. -/
def serverHooks : Option (AuthManager × Nat) → List (QueryHook E)
  | none => defaultHooks
  | some (authManager, fuel) => permissionHooks authManager fuel

theorem forall_serverHooks {P : QueryHook E → Prop} (hcursor : P cursorStatementHook)
    (hshow : P setShowHook) (htransaction : P transactionStatementHook)
    (hpermissions : ∀ authManager fuel, P (permissionsHook authManager fuel))
    {permissions : Option (AuthManager × Nat)} : ∀ hook ∈ serverHooks permissions, P hook := by
  have hdefault : ∀ hook ∈ defaultHooks (E := E), P hook := by
    simp only [defaultHooks, List.forall_mem_cons]
    exact ⟨hcursor, hshow, htransaction, List.forall_mem_nil P⟩
  cases permissions with
  | none => exact hdefault
  | some permissions => exact List.forall_mem_cons.mpr ⟨hpermissions _ _, hdefault⟩

/-- The connection without its unnamed portal. -/
def Connection.forget (s : Connection E) : Connection E := { s with portals := s.portals.remove "" }

/-- The statement has no cursor that has no name. -/
def NamesCursors (statement : Statement) : Prop :=
  match statement.kind with
  | .declare stmts => ∀ declare ∈ stmts, declare.names.head? ≠ some ""
  | .fetch name _ => name ≠ ""
  | _ => True

/-- Two frames that give the same rows, whatever their columns are called. -/
structure Engine.SameFrame (E : Engine) (frame frame' : E.DataFrame) : Prop where
  scans : E.scans frame = E.scans frame'
  executeStream : E.executeStream frame = E.executeStream frame'
  collectCount : E.collectCount frame = E.collectCount frame'

/-- Two runs that fail alike or give frames with the same rows. -/
structure Engine.SameRun (E : Engine) (run run' : SqlRun E.Context E.DataFrame) : Prop where
  context : run.context = run'.context
  scanned : run.scanned = run'.scanned
  result : (∃ failure, run.result = .error failure ∧ run'.result = .error failure) ∨
    ∃ frame frame', run.result = .ok frame ∧ run'.result = .ok frame' ∧ E.SameFrame frame frame'

/-- What `SessionContext::sql` plans a text to, which it parses anew in the dialect of the
session. -/
structure TextPlanner (E : Engine) where
  plan : String → E.Context → Except DataFusionError E.Plan

/-- What is documented of DataFusion: `sql` runs what it plans, and the optimizer keeps what a plan
gives and reads. Without values a plan stays as it is, and an empty relation has no placeholder. -/
structure TextPlanner.Documented (planner : TextPlanner E) : Prop where
  sql : ∀ {text context plan optimised}, planner.plan text context = .ok plan →
    E.optimize plan context = .ok optimised →
      E.SameRun (E.sql none text context) (E.executeLogicalPlan none optimised context)
  noValues : ∀ plan, E.getParameterTypes plan = .ok .empty →
    E.replaceParamsWithValues plan [] = .ok plan
  emptyRelation : ∀ row schema, E.getParameterTypes (E.emptyRelation row schema) = .ok .empty

/-- The text is planned as the statement is, the optimizer takes the plan and changes none of its
columns, and the statement timeout strikes neither of them. -/
structure TextPlanner.RunsAsPlanned (planner : TextPlanner E) (text : String)
    (timeout : Option Nat) (context : E.Context) (plan optimised : E.Plan) : Prop where
  plans : planner.plan text context = .ok plan
  optimizes : E.optimize plan context = .ok optimised
  columns : ∀ {frame frame'}, (E.sql none text context).result = .ok frame →
    (E.executeLogicalPlan none optimised context).result = .ok frame' →
      E.schema frame = E.schema frame'
  textInTime : E.sql timeout text context = E.sql none text context
  planInTime : E.executeLogicalPlan timeout optimised context =
    E.executeLogicalPlan none optimised context

/-- A statement that the engine plans without parameters and as it plans the text, unless a hook
answers it. SHOW STATUS is left out: the hook plans it and then leaves it to the engine. -/
structure PlainStatement (planner : TextPlanner E) (hooks : List (QueryHook E))
    (timeout : Option Nat) (context : E.Context) (statement : Statement) : Prop where
  namesCursors : NamesCursors statement
  notStatus : statement.kind ≠ .showStatus
  planned : (hooks.findSome? fun hook => hook.handleExtendedParseQuery statement) = none →
    ∃ plan optimised, E.statementToPlan statement context = .ok plan ∧
      E.getParameterTypes plan = .ok .empty ∧
      planner.RunsAsPlanned statement.text timeout context plan optimised

end Sending

section Forgetting
variable {E : Engine}

/-- The program has nothing to do with the unnamed portal. -/
abbrev Forgets {α : Type} (prog : Handler E α) : Prop := Commutes Connection.forget prog

namespace Forgets

theorem rules : EngineRules E Forgets where
  pure := .pure
  bind := .bind
  metadata := .modifyGet fun _ => rfl
  context := .modifyGet fun _ => rfl
  sendMessage message := by
    apply Commutes.modifyGet
    intro s
    cases hsend : E.send s.sent message with
    | ok sent => simp only [Connection.forget, hsend]
    | error text => simp only [Connection.forget, hsend]
  runOnContext _ := .modifyGet fun _ => rfl
  runFrame _ _ := .modifyGet fun _ => rfl

private theorem forget_insert (s : Connection E) {name : String} (hname : name ≠ "")
    (portal : Option (StoredPortal E)) :
    { s.forget with portals := s.forget.portals.insert name portal } =
      Connection.forget { s with portals := s.portals.insert name portal } := by
  unfold Connection.forget
  rw [HashMap.remove_insert_of_ne _ hname]

theorem putCursor {name : String} (hname : name ≠ "") (forQuery : String)
    (response : QueryResponse) : Forgets (Session.putCursor (E := E) name forQuery response) :=
  fun s => congrArg (EStateM.Result.ok PUnit.unit) (forget_insert s hname _)

private theorem declareCursor {declare : Declare} (hname : declare.names.head? ≠ some "") :
    Forgets (Session.declareCursor (E := E) declare) := by
  have hrules : EngineRules E Forgets := rules
  unfold Session.declareCursor
  split
  · exact .pure _
  · split
    · exact .pure _
    case h_2 name hhead =>
      have hne : name ≠ "" := fun hempty => hname (hempty ▸ hhead)
      split
      · exact .pure _
      · apply Commutes.bind (hrules.runOnContext _)
        rintro (failure | frame)
        · exact .pure _
        · apply Commutes.bind (hrules.encodeDataframe frame _ _)
          rintro (error | response)
          · exact .pure _
          · exact (putCursor hne _ response).bind fun _ => .pure _

private theorem handleDeclare {stmts : List Declare}
    (hnames : ∀ declare ∈ stmts, declare.names.head? ≠ some "") :
    Forgets (Session.handleDeclare (E := E) stmts) := by
  induction stmts with
  | nil => exact .pure _
  | cons declare stmts ih =>
    apply Commutes.bind (declareCursor (hnames declare List.mem_cons_self))
    rintro (_ | error)
    · exact ih fun declare' hmem => hnames declare' (List.mem_cons_of_mem _ hmem)
    · exact .pure _

private theorem fetchPortal {portal : StoredPortal E} (hname : portal.name ≠ "") (maxRows : Nat) :
    Forgets (Session.fetchPortal portal maxRows) := by
  unfold Session.fetchPortal
  split
  · exact .pure _
  · exact fun s => congrArg (EStateM.Result.ok _) (forget_insert s hname _)

private theorem handleFetch {cursorName : String} (hname : cursorName ≠ "")
    (direction : FetchDirection) :
    Forgets (Session.handleFetch (E := E) cursorName direction) := by
  unfold Session.handleFetch
  split
  · exact .pure _
  · intro s
    have hget : s.forget.portals.get cursorName = s.portals.get cursorName := by
      rw [Connection.forget, HashMap.get_remove, if_neg hname]
    rw [run_bind_ok (Handler.run_portals s), run_bind_ok (Handler.run_portals s.forget), hget]
    cases s.portals.get cursorName with
    | none => rfl
    | some stored =>
      cases stored with
      | none => rfl
      | some portal => exact fetchPortal hname _ s

private theorem handleClose (cursor : CloseCursor) :
    Forgets (Session.handleClose (E := E) cursor) := by
  cases cursor with
  | all => exact fun s => rfl
  | specific name =>
    intro s
    refine congrArg (EStateM.Result.ok _) ?_
    change { s.forget with portals := (s.portals.remove "").remove name } = _
    rw [HashMap.remove_comm]
    rfl

theorem cursorAnswer {statement : Statement} (h : NamesCursors statement) :
    Forgets (Session.cursorAnswer (E := E) statement) := by
  unfold Session.cursorAnswer
  unfold NamesCursors at h
  split
  case h_1 stmts hkind =>
    rw [hkind] at h
    exact (handleDeclare h).map _
  case h_2 name direction hkind =>
    rw [hkind] at h
    exact (handleFetch h direction).map _
  case h_3 cursor _ => exact (handleClose cursor).map _
  case h_4 => exact .pure _

private theorem tryRespondSetStatements (statement : Statement) (set : SetStatement) :
    Forgets (Session.tryRespondSetStatements (E := E) statement set) := by
  have hrules : EngineRules E Forgets := rules
  have hset : ∀ metadata, Forgets (Handler.setMetadata (E := E) metadata) :=
    fun _ => .modifyGet fun _ => rfl
  obtain ⟨action, haction, hcases⟩ := tryRespondSetStatements_cases (E := E) statement set
  rw [haction]
  cases hcases with
  | noTimeout => exact .pure _
  | timeout => exact hrules.metadata.bind fun _ => (hset _).bind fun _ => .pure _
  | kept => exact hrules.metadata.bind fun _ => (hset _).bind fun _ => hrules.announce _
  | timeZone => exact hrules.metadata.bind fun _ => (hset _).bind fun _ => hrules.announce _
  | fallback => exact hrules.fallbackSet statement

theorem setShowAnswer (statement : Statement) :
    Forgets (Session.setShowAnswer (E := E) statement) :=
  EngineRules.setShowAnswer rules statement fun set _ => tryRespondSetStatements statement set

theorem transactionStatementAnswer (statement : Statement) :
    Forgets (Session.transactionStatementAnswer (E := E) statement) :=
  Commutes.bind (.modifyGet fun _ => rfl) fun _ => .pure _

theorem permissionsAnswer (authManager : AuthManager) (fuel : Nat) (statement : Statement) :
    Forgets (Session.permissionsAnswer (E := E) authManager fuel statement) := by
  have hrules : EngineRules E Forgets := rules
  unfold Session.permissionsAnswer
  split
  · exact .pure _
  · refine Commutes.bind (hrules.metadata.bind fun metadata => ?_) ?_
    · dsimp only
      split
      · exact .pure _
      · split
        · exact .throw _
        · exact .pure _
        · exact .pure _
    · rintro (error | _) <;> exact .pure _

theorem onQuery [WireLoop E] {hooks : List (QueryHook E)} {statement : Statement}
    (h : ∀ hook ∈ hooks, Forgets (hook.handleSimpleQuery statement)) :
    Forgets (sendQuery hooks statement) := by
  have hrules : EngineRules E Forgets := rules
  have hsettle : ∀ answer, Forgets (DocumentedLoop.settle (E := E) answer) := fun _ =>
    Commutes.bind (.modifyGet fun _ => rfl) fun _ => .modifyGet fun _ => rfl
  have hanswers : Forgets (answerStatements hooks [] [statement]) := by
    apply Commutes.bind (hrules.answerStatement h)
    rintro (error | response) <;> exact .pure _
  rw [sendQuery, onQuery_documented]
  exact Commutes.bind hanswers fun answer => (hsettle answer).bind fun _ => .pure _

end Forgets
end Forgetting

section Hooks
variable {E : Engine}

/-- The hook does the same in both protocols, answers what it plans, and has done nothing where it
leaves the statement to others. -/
structure QueryHook.AnswersAlike (hook : QueryHook E) (statement : Statement) : Prop where
  forgets : Forgets (hook.handleSimpleQuery statement)
  extended : ∀ plan params,
    hook.handleExtendedQuery statement plan params = hook.handleSimpleQuery statement
  silent : ∀ {s s'}, hook.handleSimpleQuery statement s = .ok none s' → s' = s
  plans : ∀ {result}, hook.handleExtendedParseQuery statement = some result →
    (∃ row schema, result = .ok (E.emptyRelation row schema)) ∧
      ∀ s s', hook.handleSimpleQuery statement s ≠ .ok none s'

private theorem map_some_ne_none {prog : Handler E Answer} {s s' : Connection E} :
    (some <$> prog) s ≠ .ok none s' := by
  intro h
  obtain ⟨answer, -, hnone⟩ := run_map_eq_ok h
  cases hnone

private theorem cursorHook_alike {statement : Statement} (h : NamesCursors statement) :
    (cursorStatementHook (E := E)).AnswersAlike statement where
  forgets := Forgets.cursorAnswer h
  extended _ _ := rfl
  silent {s s'} hnone := by
    obtain ⟨kind, text⟩ := statement
    cases kind with
    | declare stmts => exact absurd hnone map_some_ne_none
    | fetch name direction => exact absurd hnone map_some_ne_none
    | close cursor => exact absurd hnone map_some_ne_none
    | _ =>
      cases hnone
      rfl
  plans {result} hplans := by
    obtain ⟨kind, text⟩ := statement
    cases kind with
    | declare stmts =>
      cases hplans
      exact ⟨⟨_, _, rfl⟩, fun s s' => map_some_ne_none⟩
    | fetch name direction =>
      cases hplans
      exact ⟨⟨_, _, rfl⟩, fun s s' => map_some_ne_none⟩
    | close cursor =>
      cases hplans
      exact ⟨⟨_, _, rfl⟩, fun s s' => map_some_ne_none⟩
    | _ => cases hplans

private theorem setShowHook_alike {statement : Statement} (h : statement.kind ≠ .showStatus) :
    (setShowHook (E := E)).AnswersAlike statement where
  forgets := Forgets.setShowAnswer statement
  extended _ _ := rfl
  silent {s s'} hnone := by
    obtain ⟨kind, text⟩ := statement
    cases kind with
    | set set => exact absurd hnone map_some_ne_none
    | showVariable names => exact absurd hnone map_some_ne_none
    | showCatalogs => exact absurd hnone map_some_ne_none
    | _ =>
      cases hnone
      rfl
  plans {result} hplans := by
    obtain ⟨kind, text⟩ := statement
    cases kind with
    | set set =>
      cases hplans
      exact ⟨⟨_, _, rfl⟩, fun s s' => map_some_ne_none⟩
    | showVariable names =>
      cases hplans
      exact ⟨⟨_, _, rfl⟩, fun s s' => map_some_ne_none⟩
    | showStatus => exact absurd rfl h
    | showCatalogs =>
      cases hplans
      exact ⟨⟨_, _, rfl⟩, fun s s' => map_some_ne_none⟩
    | _ => cases hplans

private theorem transactionHook_alike (statement : Statement) :
    (transactionStatementHook (E := E)).AnswersAlike statement where
  forgets := Forgets.transactionStatementAnswer statement
  extended _ _ := rfl
  silent {s s'} hnone := by
    change EStateM.Result.ok (transactionAnswer s.transactionStatus statement) s = _ at hnone
    injection hnone with _ hs
    exact hs.symm
  plans {result} hplans := by
    obtain ⟨kind, text⟩ := statement
    have hanswers : (∀ status, transactionAnswer status ⟨kind, text⟩ ≠ none) →
        ∀ s s' : Connection E, transactionStatementAnswer ⟨kind, text⟩ s ≠ .ok none s' := by
      intro hne s s' h
      change EStateM.Result.ok (transactionAnswer s.transactionStatus ⟨kind, text⟩) s = _ at h
      injection h with hnone
      exact hne _ hnone
    cases kind with
    | startTransaction =>
      cases hplans
      exact ⟨⟨_, _, rfl⟩, hanswers fun status => by cases status <;> exact Option.some_ne_none _⟩
    | commit =>
      cases hplans
      exact ⟨⟨_, _, rfl⟩, hanswers fun status => by cases status <;> exact Option.some_ne_none _⟩
    | rollback =>
      cases hplans
      exact ⟨⟨_, _, rfl⟩, hanswers fun status => Option.some_ne_none _⟩
    | _ => cases hplans

private theorem permissionsHook_alike (authManager : AuthManager) (fuel : Nat)
    (statement : Statement) :
    (permissionsHook (E := E) authManager fuel).AnswersAlike statement where
  forgets := Forgets.permissionsAnswer authManager fuel statement
  extended _ _ := rfl
  silent {s s'} hnone := by
    change permissionsAnswer authManager fuel statement s = _ at hnone
    unfold permissionsAnswer at hnone
    split at hnone
    · cases hnone
      rfl
    · obtain ⟨checked, s₁, hcheck, hnone⟩ := run_bind_eq_ok hnone
      have hs₁ : s₁ = s := by
        rw [checkStatementPermission, run_bind_ok (Handler.run_metadata s)] at hcheck
        cases hrequired : requiredPermission statement.kind with
        | none =>
          rw [hrequired] at hcheck
          cases hcheck
          rfl
        | some permission =>
          rw [hrequired] at hcheck
          dsimp only at hcheck
          cases hallowed : authManager.checkPermission fuel (clientUser s.metadata) permission
              .all with
          | none =>
            rw [hallowed] at hcheck
            cases hcheck
          | some allowed =>
            rw [hallowed] at hcheck
            cases allowed <;> cases hcheck <;> rfl
      cases checked with
      | error error => cases hnone
      | ok _ =>
        cases hnone
        exact hs₁
  plans hplans := by cases hplans

theorem serverHooks_alike {permissions : Option (AuthManager × Nat)} {statement : Statement}
    (hcursors : NamesCursors statement) (hstatus : statement.kind ≠ .showStatus) :
    ∀ hook ∈ serverHooks (E := E) permissions, hook.AnswersAlike statement :=
  forall_serverHooks (cursorHook_alike hcursors) (setShowHook_alike hstatus)
    (transactionHook_alike statement)
    fun authManager fuel => permissionsHook_alike authManager fuel statement

end Hooks

section Turn
variable {E : Engine} {hooks : List (QueryHook E)} {statement : Statement}
  {planner : TextPlanner E}

theorem firstSimpleAnswer_none (h : ∀ hook ∈ hooks, hook.AnswersAlike statement)
    {s s' : Connection E} (hnone : firstSimpleAnswer statement hooks s = .ok none s') :
    s' = s ∧ ∀ hook ∈ hooks, hook.handleExtendedParseQuery statement = none := by
  induction hooks with
  | nil =>
    cases hnone
    exact ⟨rfl, fun _ hmem => absurd hmem List.not_mem_nil⟩
  | cons hook hooks ih =>
    have hhook := h hook List.mem_cons_self
    obtain ⟨answer, s₁, hanswer, hrest⟩ := run_bind_eq_ok hnone
    cases answer with
    | some answer => cases hrest
    | none =>
      have hs₁ := hhook.silent hanswer
      subst hs₁
      obtain ⟨hs', hplans⟩ := ih (fun hook' hmem => h hook' (List.mem_cons_of_mem _ hmem)) hrest
      refine ⟨hs', fun hook' hmem => ?_⟩
      rcases List.mem_cons.mp hmem with rfl | hmem
      · cases hplan : hook'.handleExtendedParseQuery statement with
        | none => rfl
        | some result => exact absurd hanswer ((hhook.plans hplan).2 _ _)
      · exact hplans hook' hmem

theorem firstExtendedAnswer_eq (h : ∀ hook ∈ hooks, hook.AnswersAlike statement)
    (plan : E.Plan) (params : List ScalarValue) :
    firstExtendedAnswer statement plan params hooks = firstSimpleAnswer statement hooks := by
  induction hooks with
  | nil => rfl
  | cons hook hooks ih =>
    rw [firstExtendedAnswer, firstSimpleAnswer, (h hook List.mem_cons_self).extended,
      ih fun hook' hmem => h hook' (List.mem_cons_of_mem _ hmem)]

private theorem portalParams_empty {portal : StoredPortal E} {plan : E.Plan}
    (hbound : portal.bound = ⟨[], []⟩) (htypes : E.getParameterTypes plan = .ok .empty) :
    portalParams portal plan = .ok [] := by
  have hinferred : getInferredParameterTypes E plan = .ok .empty := by
    rw [getInferredParameterTypes, htypes]
    rfl
  rw [portalParams, hinferred, hbound]
  rfl

private theorem hooksAnswer_eq (h : ∀ hook ∈ hooks, hook.AnswersAlike statement)
    {portal : StoredPortal E} {plan : E.Plan} (hparams : portalParams portal plan = .ok []) :
    hooksAnswer hooks portal statement plan = firstSimpleAnswer statement hooks := by
  cases hooks with
  | nil => rfl
  | cons hook hooks =>
    rw [hooksAnswer, hparams]
    exact firstExtendedAnswer_eq h plan []

private theorem respondWithFrame_same {frame frame' : E.DataFrame} (h : E.SameFrame frame frame')
    (hschema : E.schema frame = E.schema frame') (format : Format) : respondWithFrame statement frame format =
      respondWithFrame statement frame' format := by
  unfold respondWithFrame mapRowsAffectedForInsert encodeDataframe Handler.runFrame
  simp only [hschema, h.scans, h.executeStream, h.collectCount]

private theorem runPlan_eq (hE : planner.Documented) {portal : StoredPortal E} {plan : E.Plan}
    (hparams : portalParams portal plan = .ok []) (hformat : portal.resultColumnFormat = unifiedText)
    (htypes : E.getParameterTypes plan = .ok .empty) {s : Connection E} {optimised : E.Plan}
    (hruns : planner.RunsAsPlanned statement.text (getStatementTimeout s.metadata) s.context plan
      optimised) :
    runPlan portal statement plan s = runStatement statement s := by
  have hsame := hE.sql hruns.plans hruns.optimizes
  have hreplaced : (E.replaceParamsWithValues plan [] >>= fun plan => E.optimize plan s.context) =
      .ok optimised := by
    rw [hE.noValues plan htypes]
    exact hruns.optimizes
  have hrun : Handler.runOnContext (E := E)
        (E.executeLogicalPlan (getStatementTimeout s.metadata) optimised) s =
      .ok (E.executeLogicalPlan none optimised s.context).result
        { s with
          context := (E.sql none statement.text s.context).context
          executed := s.executed ++ [(E.sql none statement.text s.context).scanned] } := by
    rw [hsame.context, hsame.scanned, ← hruns.planInTime]
    rfl
  have hsql : Handler.runOnContext (E := E)
        (E.sql (getStatementTimeout s.metadata) statement.text) s =
      .ok (E.sql none statement.text s.context).result
        { s with
          context := (E.sql none statement.text s.context).context
          executed := s.executed ++ [(E.sql none statement.text s.context).scanned] } := by
    rw [← hruns.textInTime]
    rfl
  unfold runPlan runStatement
  rw [hparams]
  dsimp only
  rw [run_bind_ok (Handler.run_context s), hreplaced]
  dsimp only
  rw [run_bind_ok (Handler.run_metadata s), run_bind_ok (Handler.run_metadata s), run_bind_ok hrun,
    run_bind_ok hsql]
  rcases hsame.result with ⟨failure, hresult, hresult'⟩ | ⟨frame, frame', hresult, hresult', hframe⟩
  · rw [hresult, hresult']
  · rw [hresult, hresult']
    dsimp only
    rw [respondWithFrame_same hframe (hruns.columns hresult hresult'), hformat]

private theorem parseSql_plain (hE : planner.Documented) (h : ∀ hook ∈ hooks, hook.AnswersAlike statement)
    {s : Connection E}
    (hplain : PlainStatement planner hooks (getStatementTimeout s.metadata) s.context statement) :
    ∃ plan, parseSql hooks (.ok [statement]) s =
        .ok (.ok (some (statement.text, some (statement, plan)))) s ∧
      E.getParameterTypes plan = .ok .empty ∧
      ((∃ hook ∈ hooks, hook.handleExtendedParseQuery statement ≠ none) ∨
        ∃ optimised, planner.RunsAsPlanned statement.text (getStatementTimeout s.metadata)
          s.context plan optimised) := by
  unfold parseSql
  dsimp only
  cases hplanned : hooks.findSome? fun hook => hook.handleExtendedParseQuery statement with
  | some result =>
    obtain ⟨hook, hmem, hresult⟩ := List.exists_of_findSome?_eq_some hplanned
    obtain ⟨⟨row, schema, rfl⟩, -⟩ := (h hook hmem).plans hresult
    refine ⟨E.emptyRelation row schema, rfl, hE.emptyRelation row schema, .inl ⟨hook, hmem, ?_⟩⟩
    rw [hresult]
    exact Option.some_ne_none _
  | none =>
    obtain ⟨plan, optimised, hplan, htypes, hruns⟩ := hplain.planned hplanned
    refine ⟨plan, ?_, htypes, .inr ⟨optimised, hruns⟩⟩
    dsimp only
    rw [run_bind_ok (Handler.run_context s), hplan]
    rfl

private theorem doExtendedQuery_eq (hE : planner.Documented)
    (h : ∀ hook ∈ hooks, hook.AnswersAlike statement) {portal : StoredPortal E} {plan : E.Plan}
    (hstatement : portal.statement.2 = some (statement, plan)) (hbound : portal.bound = ⟨[], []⟩)
    (hformat : portal.resultColumnFormat = unifiedText)
    (htypes : E.getParameterTypes plan = .ok .empty) {s : Connection E}
    (hplan : (∃ hook ∈ hooks, hook.handleExtendedParseQuery statement ≠ none) ∨
      ∃ optimised, planner.RunsAsPlanned statement.text (getStatementTimeout s.metadata) s.context
        plan optimised) :
    doExtendedQuery hooks portal s = answerStatement hooks statement s := by
  have hparams := portalParams_empty hbound htypes
  unfold doExtendedQuery answerStatement
  rw [hstatement]
  dsimp only
  rw [hooksAnswer_eq h hparams]
  cases hfirst : firstSimpleAnswer statement hooks s with
  | error e s' => rw [run_bind_error hfirst, run_bind_error hfirst]
  | ok answer s' =>
    rw [run_bind_ok hfirst, run_bind_ok hfirst]
    cases answer with
    | some answer => rfl
    | none =>
      obtain ⟨rfl, hnone⟩ := firstSimpleAnswer_none h hfirst
      rcases hplan with ⟨hook, hmem, hplans⟩ | ⟨optimised, hruns⟩
      · exact absurd (hnone hook hmem) hplans
      · exact runPlan_eq hE hparams hformat htypes hruns

private theorem answerStatements_one (hooks : List (QueryHook E)) (statement : Statement) :
    answerStatements hooks [] [statement] =
      (answerStatement hooks statement >>= fun answer =>
        pure (answer.map fun response => [response])) := by
  rw [answerStatements]
  refine bind_congr fun answer => ?_
  cases answer <;> rfl

private theorem sendQuery_eq [WireLoop E] (hooks : List (QueryHook E)) (statement : Statement) :
    sendQuery hooks statement =
      (answerStatement hooks statement >>= fun answer =>
        DocumentedLoop.settle (answer.map fun response => [response]) >>= fun _ =>
          pure (answer.map fun response => [response])) := by
  rw [sendQuery, onQuery_documented]
  change (answerStatements hooks [] [statement] >>= fun answer =>
    DocumentedLoop.settle answer >>= fun _ => pure answer) = _
  rw [answerStatements_one, bind_assoc]
  simp only [pure_bind]

private theorem onExecute_eq [WireLoop E] {portal : StoredPortal E} {s : Connection E}
    (hget : s.portals.get "" = some (some portal)) (hresponse : portal.response = none)
    (hdo : doExtendedQuery hooks portal s = answerStatement hooks statement s) :
    onExecute hooks "" 0 s =
      (answerStatement hooks statement >>= fun answer =>
        DocumentedLoop.settle (answer.map fun response => [response]) >>= fun _ => pure answer)
        s := by
  rw [onExecute_documented, DocumentedLoop.onExecute, run_bind_ok (Handler.run_portals s), hget]
  dsimp only
  rw [hresponse]
  dsimp only
  rw [run_bind_congr hdo]
  refine congrFun (bind_congr fun answer => bind_congr fun _ => ?_) s
  rcases answer with failure | response
  · rfl
  · cases response <;> rfl

private theorem sendExtended_eq [WireLoop E] (hE : planner.Documented)
    (h : ∀ hook ∈ hooks, hook.AnswersAlike statement) {s : Connection E}
    (hplain : PlainStatement planner hooks (getStatementTimeout s.metadata) s.context statement) :
    ∃ stored, sendExtended hooks statement s =
      sendQuery hooks statement { s with portals := s.portals.insert "" stored } := by
  obtain ⟨plan, hparse, htypes, hplan⟩ := parseSql_plain hE h hplain
  generalize hsent : (statement.text, some (statement, plan)) = sent at hparse
  refine ⟨some (unnamedPortal sent), ?_⟩
  generalize hs₁ : ({ s with portals := s.portals.insert "" (some (unnamedPortal sent)) } :
    Connection E) = s₁
  have hbind : onBind (unnamedPortal sent) s = .ok ⟨⟩ s₁ := by
    rw [onBind_documented, ← hs₁, ← hsent]
    rfl
  have hget : s₁.portals.get "" = some (some (unnamedPortal sent)) := by
    rw [← hs₁]
    exact HashMap.get_insert_self _ _ _
  have hcontext : s₁.context = s.context := by rw [← hs₁]
  have hmetadata : s₁.metadata = s.metadata := by rw [← hs₁]
  have hstatement : (unnamedPortal sent).statement.2 = some (statement, plan) :=
    congrArg Prod.snd hsent.symm
  rw [← hcontext, ← hmetadata] at hplan
  have hexecute := onExecute_eq hget rfl (doExtendedQuery_eq hE h hstatement rfl rfl htypes hplan)
  unfold sendExtended
  rw [run_bind_ok hparse]
  dsimp only [Option.getD_some]
  rw [run_bind_ok hbind, run_bind_congr hexecute, sendQuery_eq]
  simp only [bind_assoc, pure_bind]

end Turn

/-- How a client sends a statement. -/
inductive Protocol where
  | simple
  | extended

section Runs
variable {E : Engine} [WireLoop E] {planner : TextPlanner E}

def Protocol.send (hooks : List (QueryHook E)) : Protocol → Statement →
    Handler E (Except Failure (List Response))
  | .simple => sendQuery hooks
  | .extended => sendExtended hooks

/-- Each statement is plain when it comes. -/
def PlainRun (planner : TextPlanner E) (hooks : List (QueryHook E)) :
    List Statement → Connection E → Prop
  | [], _ => True
  | statement :: statements, s =>
    PlainStatement planner hooks (getStatementTimeout s.metadata) s.context statement ∧
      ∀ answer s', sendQuery hooks statement s = .ok answer s' →
        PlainRun planner hooks statements s'

/-- Statements that are plain in every context are plain in a run. -/
theorem plainRun_of_forall {hooks : List (QueryHook E)} {statements : List Statement}
    (h : ∀ statement ∈ statements, ∀ timeout context,
      PlainStatement planner hooks timeout context statement)
    (s : Connection E) : PlainRun planner hooks statements s := by
  induction statements generalizing s with
  | nil => trivial
  | cons statement statements ih =>
    exact ⟨h statement List.mem_cons_self _ s.context, fun _ s' _ =>
      ih (fun statement' hmem => h statement' (List.mem_cons_of_mem _ hmem)) s'⟩

/-- Up to the unnamed portal, one statement does the same in both protocols. -/
theorem send_forget (hE : planner.Documented) {permissions : Option (AuthManager × Nat)}
    (protocol : Protocol) {statement : Statement} {s : Connection E}
    (hplain : PlainStatement planner (serverHooks permissions) (getStatementTimeout s.metadata)
      s.context statement) :
    mapState Connection.forget (protocol.send (serverHooks permissions) statement s) =
      sendQuery (serverHooks permissions) statement s.forget := by
  have halike : ∀ hook ∈ serverHooks (E := E) permissions, hook.AnswersAlike statement :=
    serverHooks_alike hplain.namesCursors hplain.notStatus
  have hforgets : Forgets (sendQuery (serverHooks permissions) statement) :=
    Forgets.onQuery fun hook hmem => (halike hook hmem).forgets
  cases protocol with
  | simple => exact (hforgets s).symm
  | extended =>
    obtain ⟨stored, hsend⟩ := sendExtended_eq hE halike hplain
    rw [Protocol.send, hsend, ← hforgets]
    unfold Connection.forget
    rw [HashMap.remove_insert_self]

end Runs

section Examples

def referencePlanner : TextPlanner referenceEngine := ⟨fun text _ => some <$> planText text⟩

theorem referencePlanner_documented : referencePlanner.Documented where
  sql {text context plan optimised} hplan hoptimised := by
    cases hoptimised
    change some <$> planText text = .ok plan at hplan
    cases htext : planText text with
    | error error =>
      rw [htext] at hplan
      cases hplan
    | ok frame =>
      rw [htext] at hplan
      cases hplan
      refine ⟨rfl, rfl, .inr ⟨frame, frame, ?_, rfl, rfl, rfl, rfl⟩⟩
      change (planText text).mapError SqlFailure.error = .ok frame
      rw [htext]
      rfl
  noValues _ _ := rfl
  emptyRelation _ _ := rfl

/-- A block with a cursor on the table, by both protocols. -/
def cursorBlock : List (Protocol × Statement) :=
  [(.extended, ⟨.startTransaction, "BEGIN"⟩),
    (.simple, ⟨.declare [⟨some .cursor, ["c"], some "SELECT * FROM secret"⟩],
      "DECLARE c CURSOR FOR SELECT * FROM secret"⟩),
    (.extended, ⟨.query, "SELECT 1"⟩),
    (.extended, ⟨.fetch "c" .all, "FETCH ALL FROM c"⟩),
    (.simple, ⟨.commit, "COMMIT"⟩)]

private theorem runsAsPlanned_one (timeout : Option Nat) (context : Unit) :
    referencePlanner.RunsAsPlanned "SELECT 1" timeout context (some .one) (some .one) where
  plans := rfl
  optimizes := rfl
  columns _ _ := rfl
  textInTime := rfl
  planInTime := rfl

theorem cursorBlock_plain : ∀ message ∈ cursorBlock, ∀ (timeout : Option Nat) (context : Unit),
    PlainStatement referencePlanner (serverHooks none) timeout context message.2 := by
  intro message hmem timeout context
  simp only [cursorBlock, List.mem_cons, List.not_mem_nil, or_false] at hmem
  rcases hmem with rfl | rfl | rfl | rfl | rfl
  · exact ⟨trivial, nofun, nofun⟩
  · refine ⟨?_, nofun, nofun⟩
    intro declare hdeclare
    cases List.mem_singleton.mp hdeclare
    decide
  · exact ⟨trivial, nofun, fun _ => ⟨_, _, rfl, rfl, runsAsPlanned_one timeout context⟩⟩
  · refine ⟨?_, nofun, nofun⟩
    change "c" ≠ ""
    decide
  · exact ⟨trivial, nofun, nofun⟩

end Examples
end DatafusionPostgres.Session

import DatafusionPostgres.Library.Success
import DatafusionPostgres.Session.ProtocolAgreement

/-! What Describe says of a portal, and what Execute sends of it. -/
namespace DatafusionPostgres.Session
open ArrowPg Library Auth PgCatalog

/-- The variants of `LogicalPlan` that `get_result_schema` tells apart, and EXECUTE, which runs
another plan than its own. -/
inductive PlanKind where
  | ddl | dml | execute | other
  deriving DecidableEq, Repr

/-- What `get_result_schema` reads of a plan. -/
structure PlanReader (E : Engine) where
  kind : E.Plan → PlanKind
  schema : E.Plan → Schema

section Describe
variable {E : Engine}

def getResultSchema (reader : PlanReader E) (stmt : DfStatement E) (columnFormat : Option Format) :
    PgWireResult (List FieldInfo) :=
  match stmt.2 with
  | none => .ok []
  | some (_, plan) =>
    if reader.kind plan ≠ .ddl ∧ reader.kind plan ≠ .dml then
      arrowSchemaToPgFields (reader.schema plan) (columnFormat.getD unifiedText)
        E.defaultFormatOptions
    else .ok []

/-- One Describe message for a portal. -/
def describePortal (reader : PlanReader E) (portal : StoredPortal E) :
    PgWireResult (List FieldInfo) :=
  getResultSchema reader portal.statement (some portal.resultColumnFormat)

/-- A field as a RowDescription message has it. -/
def rowDescription (field : FieldInfo) : String × PgType × FieldFormat :=
  (field.name, field.datatype, field.format)

/-- The client is told the names, the types and the formats of the rows that it gets. -/
def Announces (described : PgWireResult (List FieldInfo)) (response : QueryResponse) : Prop :=
  ∃ fields, described = .ok fields ∧ fields.map rowDescription = response.fields.map rowDescription

/-- DDL gives no column, and DML how many rows it changed. -/
def PlanKind.frameSchema (schema : Schema) : PlanKind → Schema
  | .ddl => ⟨[]⟩
  | .dml => ⟨[.new "count" .uint64 false]⟩
  | .execute | .other => schema

/-- What is documented of DataFusion: values and the optimizer leave the kind of a plan as it is,
EXECUTE has no columns of its own, and the frame of any other plan has its columns. -/
structure PlanReader.Documented (reader : PlanReader E) : Prop where
  emptyRelation : ∀ row schema, reader.kind (E.emptyRelation row schema) = .other ∧
    reader.schema (E.emptyRelation row schema) = schema
  replaced : ∀ {plan params replaced}, E.replaceParamsWithValues plan params = .ok replaced →
    reader.kind replaced = reader.kind plan
  optimized : ∀ {plan context optimised}, E.optimize plan context = .ok optimised →
    reader.kind optimised = reader.kind plan
  execute : ∀ {plan}, reader.kind plan = .execute → reader.schema plan = ⟨[]⟩
  frame : ∀ {timeout plan context frame}, reader.kind plan ≠ .execute →
    (E.executeLogicalPlan timeout plan context).result = .ok frame →
      E.schema frame = (reader.kind plan).frameSchema (reader.schema plan)

/-- Neither the values of a portal nor the optimizer change a column of its plan. -/
def KeepsColumns (reader : PlanReader E) (portal : StoredPortal E) (plan : E.Plan) : Prop :=
  ∀ params replaced context optimised, portalParams portal plan = .ok params →
    E.replaceParamsWithValues plan params = .ok replaced →
    E.optimize replaced context = .ok optimised → reader.schema optimised = reader.schema plan

end Describe

section HookAnswers
variable {E : Engine}

/-- What a hook may answer with rows: FETCH, and SHOW with one column of its own. -/
def HookRows (kind : StatementKind) (answer : Answer) : Prop :=
  ∀ response, answer = .ok (.query response) →
    match kind with
    | .fetch _ _ => True
    | .showVariable _ | .showCatalogs => ∃ name format,
      response.fields.map rowDescription = [(name, .varchar, format)]
    | _ => False

private theorem hookRows_execution (kind : StatementKind) (tag : Tag) :
    HookRows kind (.ok (.execution tag)) := nofun

private theorem hookRows_error (kind : StatementKind) (failure : Failure) :
    HookRows kind (.error failure) := nofun

private theorem some_hookRows {kind : StatementKind} (answer : Answer) (h : HookRows kind answer) :
    ∀ answer' ∈ some answer, HookRows kind answer' := by
  rintro _ ⟨⟩
  exact h

private theorem none_hookRows {kind : StatementKind} :
    ∀ answer ∈ (none : Option Answer), HookRows kind answer := nofun

private theorem handleDeclare_rows (kind : StatementKind) (stmts : List Declare) :
    Returns (HookRows kind) (handleDeclare (E := E) stmts) := by
  induction stmts with
  | nil => exact .pure (hookRows_execution kind _)
  | cons declare stmts ih =>
    apply Returns.bind_any
    rintro (_ | error)
    · exact ih
    · exact .pure (hookRows_error kind _)

private theorem handleClose_rows (kind : StatementKind) (cursor : CloseCursor) :
    Returns (HookRows kind) (handleClose (E := E) cursor) := by
  have hdone : Returns (HookRows kind)
      (pure (.ok (.execution (.new "CLOSE CURSOR"))) : Handler E Answer) :=
    .pure (hookRows_execution kind _)
  cases cursor with
  | all => exact .bind_any fun _ => hdone
  | specific name => exact .bind_any fun _ => .bind_any fun _ => hdone

private theorem cursorAnswer_rows (statement : Statement) :
    Returns (fun answer => ∀ a ∈ answer, HookRows statement.kind a)
      (cursorAnswer (E := E) statement) := by
  obtain ⟨kind, text⟩ := statement
  cases kind with
  | declare stmts => exact (handleDeclare_rows _ stmts).map some_hookRows
  | fetch name direction =>
    have hany : Returns (HookRows (.fetch name direction)) (handleFetch (E := E) name direction) :=
      .any fun _ _ _ => trivial
    exact hany.map some_hookRows
  | close cursor => exact (handleClose_rows _ cursor).map some_hookRows
  | _ => exact .pure none_hookRows

private theorem announce_rows (kind : StatementKind) (status : Option ParameterStatus) :
    Returns (HookRows kind) (announce (E := E) status) := by
  cases status with
  | none => exact .pure (hookRows_execution kind _)
  | some status =>
    apply Returns.bind_any
    rintro (error | _)
    · exact .pure (hookRows_error kind _)
    · exact .pure (hookRows_execution kind _)

private theorem tryRespondSetStatements_rows (kind : StatementKind) (statement : Statement)
    (set : SetStatement) :
    Returns (HookRows kind) (tryRespondSetStatements (E := E) statement set) := by
  obtain ⟨action, haction, hcases⟩ := tryRespondSetStatements_cases (E := E) statement set
  rw [haction]
  cases hcases with
  | noTimeout => exact .pure (hookRows_error kind _)
  | timeout => exact .bind_any fun _ => .bind_any fun _ => .pure (hookRows_execution kind _)
  | kept => exact .bind_any fun _ => .bind_any fun _ => announce_rows kind _
  | timeZone => exact .bind_any fun _ => .bind_any fun _ => announce_rows kind _
  | fallback => exact .bind_any fun _ => .pure (hookRows_execution kind _)

private theorem setShowAnswer_rows (statement : Statement) :
    Returns (fun answer => ∀ a ∈ answer, HookRows statement.kind a)
      (setShowAnswer (E := E) statement) := by
  obtain ⟨kind, text⟩ := statement
  cases kind with
  | set set => exact (tryRespondSetStatements_rows _ _ set).map some_hookRows
  | showVariable names =>
    have hshow : Returns (HookRows (.showVariable names)) (tryRespondShowVariable (E := E) names) := by
      apply Returns.bind_any
      intro metadata
      apply Returns.bind_any
      intro context
      split
      · apply Returns.pure
        rintro _ ⟨⟩
        exact ⟨_, _, rfl⟩
      · exact .pure (hookRows_error _ _)
    exact hshow.map some_hookRows
  | showCatalogs =>
    have hshow : Returns (HookRows .showCatalogs) (tryRespondShowCatalogs (E := E)) := by
      apply Returns.bind_any
      intro context
      apply Returns.pure
      rintro _ ⟨⟩
      exact ⟨_, _, rfl⟩
    exact hshow.map some_hookRows
  | _ => exact .pure none_hookRows

private theorem transactionAnswer_rows (status : TransactionStatus) (statement : Statement) :
    ∀ a ∈ transactionAnswer status statement, HookRows statement.kind a := by
  intro a ha response hresponse
  subst hresponse
  obtain ⟨kind, text⟩ := statement
  cases kind <;> cases status <;> simp [transactionAnswer, tryRespondTransactionStatements] at ha

private theorem permissionsAnswer_rows (authManager : AuthManager) (fuel : Nat)
    (statement : Statement) :
    Returns (fun answer => ∀ a ∈ answer, HookRows statement.kind a)
      (permissionsAnswer (E := E) authManager fuel statement) := by
  unfold permissionsAnswer
  split
  · exact .pure none_hookRows
  · apply Returns.bind_any
    rintro (error | _)
    · exact .pure (some_hookRows _ (hookRows_error _ _))
    · exact .pure none_hookRows

private theorem firstExtendedAnswer_rows (permissions : Option (AuthManager × Nat))
    (statement : Statement) (plan : E.Plan) (params : List ScalarValue) :
    Returns (fun answer => ∀ a ∈ answer, HookRows statement.kind a)
      (firstExtendedAnswer statement plan params (serverHooks permissions)) := by
  have hhooks : ∀ hook ∈ serverHooks (E := E) permissions,
      Returns (fun answer => ∀ a ∈ answer, HookRows statement.kind a)
        (hook.handleExtendedQuery statement plan params) :=
    forall_serverHooks (cursorAnswer_rows statement) (setShowAnswer_rows statement)
      (.bind_any fun status => .pure (transactionAnswer_rows status statement))
      fun authManager fuel => permissionsAnswer_rows authManager fuel statement
  generalize serverHooks permissions = hooks at hhooks
  induction hooks with
  | nil => exact .pure none_hookRows
  | cons hook hooks ih =>
    apply (hhooks hook List.mem_cons_self).bind
    rintro (_ | answer) hanswer
    · exact ih fun hook' hmem => hhooks hook' (List.mem_cons_of_mem _ hmem)
    · exact .pure hanswer

end HookAnswers
section EngineAnswers
variable {E : Engine}

private theorem arrowSchemaToPgFields_description {schema : Schema} {format : Format}
    {options : FormatOptions} {fields : List FieldInfo}
    (h : arrowSchemaToPgFields schema format options = .ok fields) (options' : FormatOptions) :
    ∃ fields', arrowSchemaToPgFields schema format options' = .ok fields' ∧
      fields'.map rowDescription = fields.map rowDescription := by
  rw [arrowSchemaToPgFields, mapM_eq_ok] at h
  refine ⟨fields.map fun field => { field with formatOptions := options' }, ?_, ?_⟩
  · rw [arrowSchemaToPgFields, mapM_eq_ok, List.forall₂_map_right_iff]
    refine h.imp ?_
    rintro ⟨field, idx⟩ info hinfo
    dsimp only at hinfo ⊢
    cases htype : fieldIntoPgType field with
    | error error =>
      rw [htype] at hinfo
      cases hinfo
    | ok pgType =>
      rw [htype] at hinfo
      cases hinfo
      rfl
  · rw [List.map_map]
    rfl

/-- A frame of the plan whose columns, in the format, are those of the response. -/
def FrameOf (portal : StoredPortal E) (plan : E.Plan) (response : QueryResponse) : Prop :=
  ∃ params replaced optimised timeout context context' frame options,
    portalParams portal plan = .ok params ∧
    E.replaceParamsWithValues plan params = .ok replaced ∧
    E.optimize replaced context = .ok optimised ∧
    (E.executeLogicalPlan timeout optimised context').result = .ok frame ∧
    arrowSchemaToPgFields (E.schema frame) portal.resultColumnFormat options = .ok response.fields

private theorem encodeDataframe_fields (frame : E.DataFrame) (format : Format)
    (formatOptions : Option FormatOptions) :
    Returns (fun encoded => ∀ response, encoded = .ok response →
        ∃ options, arrowSchemaToPgFields (E.schema frame) format options = .ok response.fields)
      (encodeDataframe frame format formatOptions) := by
  unfold encodeDataframe
  cases hfields : arrowSchemaToPgFields (E.schema frame) format
      (formatOptions.getD E.defaultFormatOptions) with
  | error error => exact .pure nofun
  | ok fields =>
    apply Returns.bind_any
    rintro (error | rows)
    · exact .pure nofun
    · apply Returns.pure
      rintro _ ⟨⟩
      exact ⟨_, hfields⟩

private theorem respondWithFrame_fields (statement : Statement) (frame : E.DataFrame)
    (format : Format) :
    Returns (fun answer => ∀ response, answer = .ok (.query response) →
        ∃ options, arrowSchemaToPgFields (E.schema frame) format options = .ok response.fields)
      (respondWithFrame statement frame format) := by
  unfold respondWithFrame
  split
  · apply Returns.bind_any
    rintro (error | count) <;> exact .pure nofun
  · apply Returns.bind_any
    intro metadata
    apply (encodeDataframe_fields frame _ _).bind
    rintro (error | response) hresponse
    · exact .pure nofun
    · apply Returns.pure
      rintro _ ⟨⟩
      exact hresponse response rfl

private theorem runPlan_frame (portal : StoredPortal E) (statement : Statement) (plan : E.Plan) :
    Returns (fun answer => ∀ response, answer = .ok (.query response) → FrameOf portal plan response)
      (runPlan portal statement plan) := by
  unfold runPlan
  cases hparams : portalParams portal plan with
  | error error => exact .pure nofun
  | ok params =>
    apply Returns.bind_any
    intro context
    cases hreplaced : E.replaceParamsWithValues plan params with
    | error error => exact .pure nofun
    | ok replaced =>
      cases hoptimised : E.optimize replaced context with
      | error error =>
        have herror : (Except.ok replaced >>= fun plan => E.optimize plan context) =
            .error error := hoptimised
        rw [herror]
        exact .pure nofun
      | ok optimised =>
        have hok : (Except.ok replaced >>= fun plan => E.optimize plan context) =
            .ok optimised := hoptimised
        rw [hok]
        apply Returns.bind_any
        intro metadata
        have hrun : Returns
            (fun result => ∃ context', (E.executeLogicalPlan (getStatementTimeout metadata) optimised
              context').result = result)
            (Handler.runOnContext (E := E)
              (E.executeLogicalPlan (getStatementTimeout metadata) optimised)) :=
          .modifyGet fun s => ⟨s.context, rfl⟩
        apply hrun.bind
        rintro (failure | frame) ⟨context', hframe⟩
        · exact .pure nofun
        · intro s
          apply (respondWithFrame_fields statement frame _ s).mono
          intro answer _ hanswer response hresponse
          obtain ⟨options, hfields⟩ := hanswer response hresponse
          exact ⟨params, replaced, optimised, _, context, context', frame, options, hparams,
            hreplaced, hoptimised, hframe, hfields⟩

/-- Where Describe is right about a plan that the engine runs: never about DML, and about EXECUTE
if what it runs has no columns. -/
def PlanKind.DescribedRight (kind : PlanKind) (response : QueryResponse) : Prop :=
  match kind with
  | .dml => False
  | .execute => response.fields = []
  | .ddl | .other => True

private theorem announces_nothing {described : PgWireResult (List FieldInfo)}
    (hdescribed : described = .ok []) (response : QueryResponse) :
    Announces described response ↔ response.fields = [] := by
  constructor
  · rintro ⟨fields, hfields, hsame⟩
    cases hdescribed.symm.trans hfields
    exact List.map_eq_nil_iff.mp hsame.symm
  · intro hempty
    exact ⟨[], hdescribed, by rw [hempty]⟩

private theorem announces_frame {reader : PlanReader E} (hreader : reader.Documented)
    {portal : StoredPortal E} {statement : Statement} {plan : E.Plan}
    (hstatement : portal.statement.2 = some (statement, plan))
    (hcolumns : KeepsColumns reader portal plan) {response : QueryResponse}
    (h : FrameOf portal plan response) :
    Announces (describePortal reader portal) response ↔
      (reader.kind plan).DescribedRight response := by
  obtain ⟨params, replaced, optimised, timeout, context, context', frame, options, hparams,
    hreplaced, hoptimised, hframe, hfields⟩ := h
  have hkept : reader.kind optimised = reader.kind plan :=
    (hreader.optimized hoptimised).trans (hreader.replaced hreplaced)
  have hschema : reader.kind plan ≠ .execute →
      E.schema frame = (reader.kind plan).frameSchema (reader.schema plan) := by
    intro hkind
    rw [← hkept] at hkind
    rw [hreader.frame hkind hframe, hkept,
      hcolumns params replaced context optimised hparams hreplaced hoptimised]
  cases hkind : reader.kind plan with
  | ddl =>
    have hdescribed : describePortal reader portal = .ok [] := by
      rw [describePortal, getResultSchema, hstatement]
      exact if_neg fun h => h.1 hkind
    rw [hkind] at hschema
    rw [hschema (by decide)] at hfields
    injection hfields with hempty
    exact iff_of_true ((announces_nothing hdescribed response).mpr hempty.symm) trivial
  | dml =>
    have hdescribed : describePortal reader portal = .ok [] := by
      rw [describePortal, getResultSchema, hstatement]
      exact if_neg fun h => h.2 hkind
    obtain ⟨count, hcount⟩ : ∃ count, arrowSchemaToPgFields ⟨[.new "count" .uint64 false]⟩
        portal.resultColumnFormat options = .ok [count] := ⟨_, rfl⟩
    rw [hkind] at hschema
    rw [hschema (by decide)] at hfields
    injection hcount.symm.trans hfields with hone
    rw [announces_nothing hdescribed, ← hone]
    exact iff_of_false (List.cons_ne_nil _ _) id
  | execute =>
    have hdescribed : describePortal reader portal = .ok [] := by
      rw [describePortal, getResultSchema, hstatement]
      refine (if_pos ?_).trans ?_
      · rw [hkind]
        exact ⟨nofun, nofun⟩
      · rw [hreader.execute hkind]
        rfl
    exact announces_nothing hdescribed response
  | other =>
    rw [hkind] at hschema
    rw [hschema (by decide)] at hfields
    obtain ⟨fields, hdescribed, hsame⟩ :=
      arrowSchemaToPgFields_description hfields E.defaultFormatOptions
    refine iff_of_true ⟨fields, ?_, hsame⟩ trivial
    rw [describePortal, getResultSchema, hstatement]
    refine (if_pos ?_).trans hdescribed
    rw [hkind]
    exact ⟨nofun, nofun⟩

end EngineAnswers

section Result
variable {E : Engine}

/-- Where Describe is right: never about SHOW, about a FETCH without columns, and about what the
engine runs by its plan. -/
def DescribedRight (reader : PlanReader E) (kind : StatementKind) (plan : E.Plan)
    (response : QueryResponse) : Prop :=
  match kind with
  | .showVariable _ | .showCatalogs => False
  | .fetch _ _ => response.fields = []
  | _ => (reader.kind plan).DescribedRight response

private theorem describePortal_emptyRelation {reader : PlanReader E} (hreader : reader.Documented)
    {portal : StoredPortal E} {statement : Statement} {row : Bool} {schema : Schema}
    (hstatement : portal.statement.2 = some (statement, E.emptyRelation row schema)) :
    describePortal reader portal =
      arrowSchemaToPgFields schema portal.resultColumnFormat E.defaultFormatOptions := by
  obtain ⟨hkind, hschema⟩ := hreader.emptyRelation row schema
  rw [describePortal, getResultSchema, hstatement]
  refine (if_pos ?_).trans ?_
  · rw [hkind]
    exact ⟨nofun, nofun⟩
  · rw [hschema]
    rfl

private theorem announces_fetch {reader : PlanReader E} (hreader : reader.Documented)
    {portal : StoredPortal E} {statement : Statement}
    (hstatement : portal.statement.2 = some (statement, E.emptyRelation false ⟨[]⟩))
    (response : QueryResponse) :
    Announces (describePortal reader portal) response ↔ response.fields = [] :=
  announces_nothing (describePortal_emptyRelation hreader hstatement) response

private theorem not_announces_show {reader : PlanReader E} (hreader : reader.Documented)
    {portal : StoredPortal E} {statement : Statement}
    (hstatement : portal.statement.2 = some (statement, E.emptyRelation true showSchema))
    {response : QueryResponse} {name : String} {format : FieldFormat}
    (hfields : response.fields.map rowDescription = [(name, .varchar, format)]) :
    ¬ Announces (describePortal reader portal) response := by
  rintro ⟨fields, hdescribed, hsame⟩
  have hshow : describePortal reader portal =
      .ok [⟨"show", .text, portal.resultColumnFormat 0, E.defaultFormatOptions⟩] :=
    describePortal_emptyRelation hreader hstatement
  cases hshow.symm.trans hdescribed
  rw [hfields] at hsame
  cases hsame

private theorem parseSql_planned {hooks : List (QueryHook E)} {statement statement' : Statement}
    {plan plan' : E.Plan} {text : String} {s s' : Connection E}
    (hplanned : (hooks.findSome? fun hook => hook.handleExtendedParseQuery statement) =
      some (.ok plan))
    (h : parseSql hooks (.ok [statement]) s = .ok (.ok (some (text, some (statement', plan')))) s') :
    plan' = plan := by
  unfold parseSql at h
  dsimp only at h
  rw [hplanned] at h
  cases h
  rfl

private theorem hooksAnswer_rows (permissions : Option (AuthManager × Nat))
    (portal : StoredPortal E) (statement : Statement) (plan : E.Plan) :
    Returns (fun answer => ∀ a ∈ answer, HookRows statement.kind a)
      (hooksAnswer (serverHooks permissions) portal statement plan) := by
  unfold hooksAnswer
  split
  · exact .pure none_hookRows
  · split
    · exact .pure (some_hookRows _ (hookRows_error _ _))
    · exact firstExtendedAnswer_rows permissions statement plan _

private theorem hooksAnswer_planned {hooks : List (QueryHook E)} {statement : Statement}
    (h : ∀ hook ∈ hooks, hook.AnswersAlike statement) {hook : QueryHook E} (hmem : hook ∈ hooks)
    (hplans : hook.handleExtendedParseQuery statement ≠ none) {portal : StoredPortal E}
    {plan : E.Plan} {s s' : Connection E} :
    hooksAnswer hooks portal statement plan s ≠ .ok none s' := by
  intro hnone
  have hne : ¬ hooks.isEmpty = true := fun hempty =>
    absurd (List.isEmpty_iff.mp hempty ▸ hmem) List.not_mem_nil
  rw [hooksAnswer, if_neg hne] at hnone
  cases hparams : portalParams portal plan with
  | error error =>
    rw [hparams] at hnone
    cases hnone
  | ok params =>
    rw [hparams] at hnone
    dsimp only at hnone
    rw [firstExtendedAnswer_eq h] at hnone
    exact hplans ((firstSimpleAnswer_none h hnone).2 hook hmem)

private theorem setShowHook_mem (permissions : Option (AuthManager × Nat)) :
    setShowHook ∈ serverHooks (E := E) permissions := by
  cases permissions <;> simp [serverHooks, permissionHooks, defaultHooks]

private theorem show_not_announced {reader : PlanReader E} (hreader : reader.Documented)
    {permissions : Option (AuthManager × Nat)} {statement : Statement}
    (hcursors : NamesCursors statement) (hstatus : statement.kind ≠ .showStatus)
    (hplans : (setShowHook (E := E)).handleExtendedParseQuery statement ≠ none)
    {portal : StoredPortal E}
    (hstatement : portal.statement.2 = some (statement, E.emptyRelation true showSchema))
    (hcolumn : ∀ response, HookRows statement.kind (.ok (.query response)) →
      ∃ name format, response.fields.map rowDescription = [(name, .varchar, format)])
    {s s' : Connection E} {response : QueryResponse}
    (hdo : doExtendedQuery (serverHooks permissions) portal s = .ok (.ok (.query response)) s') :
    ¬ Announces (describePortal reader portal) response := by
  unfold doExtendedQuery at hdo
  rw [hstatement] at hdo
  obtain ⟨answer, t, hanswer, hrest⟩ := run_bind_eq_ok hdo
  have hrows := (hooksAnswer_rows permissions portal statement _).value hanswer
  cases answer with
  | none =>
    exact absurd hanswer (hooksAnswer_planned (serverHooks_alike hcursors hstatus)
      (setShowHook_mem permissions) hplans)
  | some answer =>
    cases hrest
    obtain ⟨name, format, hfields⟩ := hcolumn response (hrows _ rfl)
    exact not_announces_show hreader hstatement hfields

/-- Describe announces the rows that Execute sends exactly where it is right: whatever happens
between the Parse, the Describe and the Execute message. -/
theorem announces_iff {reader : PlanReader E} (hreader : reader.Documented)
    {permissions : Option (AuthManager × Nat)} {statement : Statement} {text : String}
    {plan : E.Plan} {s₀ s₁ : Connection E}
    (hparse : parseSql (serverHooks permissions) (.ok [statement]) s₀ =
      .ok (.ok (some (text, some (statement, plan)))) s₁)
    {portal : StoredPortal E} (hportal : portal.statement = (text, some (statement, plan)))
    (hcolumns : KeepsColumns reader portal plan) {s s' : Connection E} {response : QueryResponse}
    (hdo : doExtendedQuery (serverHooks permissions) portal s = .ok (.ok (.query response)) s') :
    Announces (describePortal reader portal) response ↔
      DescribedRight reader statement.kind plan response := by
  have hstatement : portal.statement.2 = some (statement, plan) := by rw [hportal]
  obtain ⟨kind, statementText⟩ := statement
  cases kind with
  | fetch name direction =>
    have hplan : plan = E.emptyRelation false ⟨[]⟩ :=
      parseSql_planned (by cases permissions <;> rfl) hparse
    subst hplan
    exact announces_fetch hreader hstatement response
  | showVariable names =>
    have hplan : plan = E.emptyRelation true showSchema :=
      parseSql_planned (by cases permissions <;> rfl) hparse
    subst hplan
    refine iff_of_false (show_not_announced hreader ?_ ?_ ?_ hstatement
      (fun response h => h response rfl) hdo) id
    · exact trivial
    · exact nofun
    · exact Option.some_ne_none _
  | showCatalogs =>
    have hplan : plan = E.emptyRelation true showSchema :=
      parseSql_planned (by cases permissions <;> rfl) hparse
    subst hplan
    refine iff_of_false (show_not_announced hreader ?_ ?_ ?_ hstatement
      (fun response h => h response rfl) hdo) id
    · exact trivial
    · exact nofun
    · exact Option.some_ne_none _
  | _ =>
    unfold doExtendedQuery at hdo
    rw [hstatement] at hdo
    obtain ⟨answer, t, hanswer, hrest⟩ := run_bind_eq_ok hdo
    cases answer with
    | none =>
      exact announces_frame hreader hstatement hcolumns
        ((runPlan_frame portal _ plan).value hrest response rfl)
    | some answer =>
      cases hrest
      exact ((hooksAnswer_rows permissions portal _ plan).value hanswer _ rfl response rfl).elim

end Result
section Examples

/-- The frames of the reference engine, and the empty relations of the hooks. -/
inductive ReferencePlan where
  | frame (table : ReferenceFrame)
  | emptyRelation (row : Bool) (schema : Schema)

namespace ReferencePlan

def schema : ReferencePlan → Schema
  | .frame _ => ⟨[.new "v" .int64 false]⟩
  | .emptyRelation _ schema => schema

def rows : ReferencePlan → RowStream
  | .frame table => [.ok table.row]
  | .emptyRelation false _ => []
  | .emptyRelation true schema => [.ok (schema.fields.map fun _ => none)]

end ReferencePlan

/-- The reference engine with plans that have columns. -/
def plannedEngine : Engine :=
  { referenceEngine with
    Plan := ReferencePlan
    DataFrame := ReferencePlan
    sql := fun _ text _ => ⟨((planText text).map .frame).mapError .error, (), false⟩
    statementToPlan := fun statement _ => (planText statement.text).map .frame
    optimize := fun plan _ => .ok plan
    executeLogicalPlan := fun _ plan _ => ⟨.ok plan, (), false⟩
    replaceParamsWithValues := fun plan _ => .ok plan
    getParameterTypes := fun _ => .ok .empty
    placeholderVisits := fun _ => .ok []
    emptyRelation := .emptyRelation
    schema := ReferencePlan.schema
    scans := fun _ => false
    executeStream := fun plan _ _ => (.ok plan.rows, ())
    collectCount := fun _ _ => (.ok none, ()) }

def plannedReader : PlanReader plannedEngine := ⟨fun _ => .other, ReferencePlan.schema⟩

theorem plannedReader_documented : plannedReader.Documented where
  emptyRelation _ _ := ⟨rfl, rfl⟩
  replaced _ := rfl
  optimized _ := rfl
  execute hkind := by cases hkind
  frame _ hframe := by
    cases hframe
    rfl

def plannedConnection : Connection plannedEngine := ⟨.empty, .idle, .empty, [], (), []⟩

def selectPortal : StoredPortal plannedEngine :=
  unnamedPortal ("SELECT 1", some (⟨.query, "SELECT 1"⟩, .frame .one))

theorem announces_iff_select : ∃ response s',
    doExtendedQuery (serverHooks none) selectPortal plannedConnection =
      .ok (.ok (.query response)) s' ∧
    (Announces (describePortal plannedReader selectPortal) response ↔
      DescribedRight plannedReader .query (.frame .one) response) := by
  have hparse : parseSql (serverHooks none) (.ok [⟨.query, "SELECT 1"⟩]) plannedConnection =
      .ok (.ok (some ("SELECT 1", some (⟨.query, "SELECT 1"⟩, .frame .one)))) plannedConnection := rfl
  have hcolumns : KeepsColumns plannedReader selectPortal (.frame .one) := by
    intro params replaced context optimised _ hreplaced hoptimised
    cases hreplaced
    cases hoptimised
    rfl
  exact ⟨_, _, rfl, announces_iff plannedReader_documented hparse rfl hcolumns (s := plannedConnection)
    rfl⟩

end Examples
end DatafusionPostgres.Session

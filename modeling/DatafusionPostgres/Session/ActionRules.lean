import DatafusionPostgres.Library.StateProgram
import DatafusionPostgres.Session.Handlers

/-! Properties of the hooks and the query handlers that their single actions have, and
that a sequence has when its parts have them. -/
namespace DatafusionPostgres.Session
open ArrowPg Library PgCatalog

/-- The property holds of every action but those on the portals and on the transaction status,
and but the one that sets the metadata. -/
structure EngineRules (E : Engine) (P : ∀ {α : Type}, Handler E α → Prop) : Prop where
  pure : ∀ {α : Type} (a : α), P (Pure.pure a : Handler E α)
  bind : ∀ {α β : Type} {prog : Handler E α} {next : α → Handler E β}, P prog →
    (∀ a, P (next a)) → P (prog >>= next)
  metadata : P (Handler.metadata (E := E))
  context : P (Handler.context (E := E))
  sendMessage : ∀ message, P (Handler.sendMessage (E := E) message)
  runOnContext : ∀ run, P (Handler.runOnContext (E := E) run)
  runFrame : ∀ {α : Type} (frame : E.DataFrame)
    (execute : E.Context → Except DataFusionError α × E.Context), P (Handler.runFrame frame execute)

/-- It holds of the actions on the portals as well. -/
structure ActionRules (E : Engine) (P : ∀ {α : Type}, Handler E α → Prop) : Prop
    extends EngineRules E P where
  portals : P (Handler.portals (E := E))
  setPortals : ∀ portals, P (Handler.setPortals (E := E) portals)

namespace EngineRules
variable {E : Engine} {P : ∀ {α : Type}, Handler E α → Prop} (rules : EngineRules E P)
include rules

theorem map {α β : Type} {prog : Handler E α} (h : P prog) (f : α → β) : P (f <$> prog) := by
  rw [map_eq_pure_bind]
  exact rules.bind h fun a => rules.pure (f a)

theorem encodeDataframe (frame : E.DataFrame) (format : Format)
    (formatOptions : Option FormatOptions) :
    P (Session.encodeDataframe frame format formatOptions) := by
  unfold Session.encodeDataframe
  split
  · exact rules.pure _
  · apply rules.bind (rules.runFrame frame _)
    rintro (error | rows) <;> exact rules.pure _

theorem announce (status : Option ParameterStatus) :
    P (Session.announce (E := E) status) := by
  cases status with
  | none => exact rules.pure _
  | some status =>
    apply rules.bind (rules.sendMessage status)
    rintro (error | _) <;> exact rules.pure _

theorem fallbackSet (statement : Statement) : P (Session.fallbackSet (E := E) statement) := by
  have hexecute : P (executeSetStatement (E := E) statement) := by
    apply rules.bind rules.context
    intro context
    split
    · exact rules.pure _
    · apply rules.bind (rules.runOnContext _)
      rintro (failure | frame) <;> exact rules.pure _
  exact rules.bind hexecute fun _ => rules.pure _

private theorem tryRespondShowVariable (variableNames : List String) :
    P (Session.tryRespondShowVariable (E := E) variableNames) := by
  apply rules.bind rules.metadata
  intro metadata
  apply rules.bind rules.context
  intro context
  split <;> exact rules.pure _

/-- Of the SET and SHOW statements, the SETs are left to the user of the rule. -/
theorem setShowAnswer (statement : Statement)
    (hset : ∀ set, statement.kind = .set set →
      P (Session.tryRespondSetStatements (E := E) statement set)) :
    P (Session.setShowAnswer (E := E) statement) := by
  unfold Session.setShowAnswer
  split
  case h_1 set hkind => exact rules.map (hset set hkind) _
  case h_2 => exact rules.map (rules.bind rules.context fun _ => rules.pure _) _
  case h_3 => exact rules.map (rules.tryRespondShowVariable _) _
  case h_4 => exact rules.pure _

private theorem respondWithFrame (statement : Statement) (frame : E.DataFrame) (format : Format) :
    P (Session.respondWithFrame statement frame format) := by
  unfold Session.respondWithFrame
  split
  · apply rules.bind (rules.runFrame frame _)
    rintro (error | count) <;> exact rules.pure _
  · apply rules.bind rules.metadata
    intro metadata
    apply rules.bind (rules.encodeDataframe frame _ _)
    rintro (error | response) <;> exact rules.pure _

theorem runStatement (statement : Statement) : P (Session.runStatement (E := E) statement) := by
  apply rules.bind rules.metadata
  intro metadata
  apply rules.bind (rules.runOnContext _)
  rintro (failure | frame)
  · exact rules.pure _
  · exact rules.respondWithFrame _ _ _

theorem answerStatement {hooks : List (QueryHook E)} {statement : Statement}
    (h : ∀ hook ∈ hooks, P (hook.handleSimpleQuery statement)) :
    P (Session.answerStatement hooks statement) := by
  have hfirst : P (firstSimpleAnswer statement hooks) := by
    induction hooks with
    | nil => exact rules.pure _
    | cons hook hooks ih =>
      apply rules.bind (h hook List.mem_cons_self)
      rintro (_ | answer)
      · exact ih fun hook' hmem => h hook' (List.mem_cons_of_mem _ hmem)
      · exact rules.pure _
  apply rules.bind hfirst
  rintro (_ | answer)
  · exact rules.runStatement statement
  · exact rules.pure _

end EngineRules

namespace ActionRules
variable {E : Engine} {P : ∀ {α : Type}, Handler E α → Prop} (rules : ActionRules E P)
include rules

private theorem putCursor (name forQuery : String) (response : QueryResponse) :
    P (Session.putCursor (E := E) name forQuery response) :=
  rules.bind rules.portals fun _ => rules.setPortals _

private theorem declareCursor (declare : Declare) :
    P (Session.declareCursor (E := E) declare) := by
  unfold Session.declareCursor
  split
  · exact rules.pure _
  · split
    · exact rules.pure _
    · split
      · exact rules.pure _
      · apply rules.bind (rules.runOnContext _)
        rintro (failure | frame)
        · exact rules.pure _
        · apply rules.bind (rules.encodeDataframe frame _ _)
          rintro (error | response)
          · exact rules.pure _
          · exact rules.bind (rules.putCursor _ _ response) fun _ => rules.pure _

private theorem handleDeclare (stmts : List Declare) :
    P (Session.handleDeclare (E := E) stmts) := by
  induction stmts with
  | nil => exact rules.pure _
  | cons declare stmts ih =>
    apply rules.bind (rules.declareCursor declare)
    rintro (_ | error)
    · exact ih
    · exact rules.pure _

private theorem fetchPortal (portal : StoredPortal E) (maxRows : Nat) :
    P (Session.fetchPortal portal maxRows) := by
  unfold Session.fetchPortal
  split
  · exact rules.pure _
  · exact rules.bind rules.portals fun _ => rules.bind (rules.setPortals _) fun _ => rules.pure _

private theorem handleFetch (cursorName : String) (direction : FetchDirection) :
    P (Session.handleFetch (E := E) cursorName direction) := by
  unfold Session.handleFetch
  split
  · exact rules.pure _
  · apply rules.bind rules.portals
    intro stored
    split
    · exact rules.fetchPortal _ _
    · exact rules.pure _
    · exact rules.pure _

private theorem handleClose (cursor : CloseCursor) :
    P (Session.handleClose (E := E) cursor) := by
  cases cursor with
  | all => exact rules.bind (rules.setPortals _) fun _ => rules.pure _
  | specific name =>
    exact rules.bind rules.portals fun _ => rules.bind (rules.setPortals _) fun _ => rules.pure _

theorem cursorAnswer (statement : Statement) : P (Session.cursorAnswer (E := E) statement) := by
  unfold Session.cursorAnswer
  split
  · exact rules.map (rules.handleDeclare _) _
  · exact rules.map (rules.handleFetch _ _) _
  · exact rules.map (rules.handleClose _) _
  · exact rules.pure _

end ActionRules

section Metadata
variable {E : Engine}

/-- The program always returns, and leaves the metadata as it is. -/
abbrev LeavesMetadata {α : Type} (prog : Handler E α) : Prop := Leaves Connection.metadata prog

theorem leavesMetadata_actions : ActionRules E LeavesMetadata where
  pure := .pure
  bind := .bind
  metadata := .modifyGet fun _ => rfl
  portals := .modifyGet fun _ => rfl
  context := .modifyGet fun _ => rfl
  setPortals _ := .modifyGet fun _ => rfl
  sendMessage message := by
    apply Leaves.modifyGet
    intro s
    cases E.send s.sent message <;> rfl
  runOnContext _ := .modifyGet fun _ => rfl
  runFrame _ _ := .modifyGet fun _ => rfl

/-- No statement but a SET changes the metadata. -/
theorem answerStatement_leavesMetadata {statement : Statement}
    (hset : ∀ set, statement.kind ≠ .set set) :
    LeavesMetadata (answerStatement (E := E) defaultHooks statement) := by
  apply leavesMetadata_actions.answerStatement
  intro hook hmem
  simp only [defaultHooks, List.mem_cons, List.not_mem_nil, or_false] at hmem
  rcases hmem with rfl | rfl | rfl
  · exact leavesMetadata_actions.cursorAnswer statement
  · exact leavesMetadata_actions.setShowAnswer statement fun set hkind => absurd hkind (hset set)
  · exact .bind (.modifyGet fun _ => rfl) fun _ => .pure _

end Metadata

section Set
variable {E : Engine}

/-- What the code keeps of a value. -/
def SetExpr.kept : SetExpr → Option String
  | .stringLiteral content _ => some content
  | .otherLiteral _ => some ""
  | .expression _ => none

/-- A SET that the code keeps in the metadata of the client. -/
def KeptInMetadata (E : Engine) : SetStatement → Prop
  | .singleAssignment false false variableName values =>
    E.toLowercase variableName = "statement_timeout" ∨
      E.toLowercase variableName ∈ postgresVariables ∧
        ∃ value ∈ values.head?, ∀ text, value ≠ .expression text
  | .setTimeZone false _ => True
  | _ => False

/-- The action that answers a SET. -/
inductive SetAction (E : Engine) (statement : Statement) :
    SetStatement → Handler E Answer → Prop
  | noTimeout {variableName : String}
      (htimeout : E.toLowercase variableName = "statement_timeout") :
      SetAction E statement (.singleAssignment false false variableName [])
        (pure (.error .panic))
  | timeout {variableName : String} {value : SetExpr} {values : List SetExpr}
      (htimeout : E.toLowercase variableName = "statement_timeout") :
      SetAction E statement (.singleAssignment false false variableName (value :: values)) (do
        let metadata ← Handler.metadata
        Handler.setMetadata (setStatementTimeout metadata (timeoutOf value.text))
        return .ok setResponse)
  | kept {variableName content : String} {value : SetExpr} {values : List SetExpr}
      (hvar : E.toLowercase variableName ∈ postgresVariables)
      (hkept : value.kept = some content) :
      SetAction E statement (.singleAssignment false false variableName (value :: values))
        (setVariable (E.toLowercase variableName) content)
  | timeZone {value : SetExpr} :
      SetAction E statement (.setTimeZone false value) (do
        let metadata ← Handler.metadata
        let metadata := setTimezone metadata (some (String.ofList (unquoted value.text)))
        Handler.setMetadata metadata
        announce (some ⟨"TimeZone", (getTimezone metadata).getD "UTC"⟩))
  | fallback {set : SetStatement} (hkept : ¬ KeptInMetadata E set) :
      SetAction E statement set (fallbackSet statement)

theorem ne_timeout_of_postgresVariables {var : String} (h : var ∈ postgresVariables) :
    var ≠ "statement_timeout" := by
  rintro rfl
  exact absurd h (by decide)

/-- A SET is answered by one of these actions and no other. -/
theorem tryRespondSetStatements_cases (statement : Statement) (set : SetStatement) :
    ∃ action, tryRespondSetStatements (E := E) statement set = action ∧
      SetAction E statement set action := by
  refine ⟨_, rfl, ?_⟩
  match set with
  | .singleAssignment true _ _ _ => exact .fallback id
  | .singleAssignment false true _ _ => exact .fallback id
  | .other => exact .fallback id
  | .setTimeZone true _ => exact .fallback id
  | .setTimeZone false value => exact .timeZone
  | .singleAssignment false false variableName values =>
    unfold tryRespondSetStatements
    dsimp only
    by_cases htimeout : E.toLowercase variableName = "statement_timeout"
    · rw [if_pos htimeout]
      cases values with
      | nil => exact .noTimeout htimeout
      | cons value values => exact .timeout htimeout
    · rw [if_neg htimeout]
      by_cases hvar : E.toLowercase variableName ∈ postgresVariables
      · rw [if_pos (List.contains_iff_mem.mpr hvar)]
        match values with
        | .stringLiteral content _ :: _ => exact .kept hvar rfl
        | .otherLiteral _ :: _ => exact .kept hvar rfl
        | [] =>
          apply SetAction.fallback
          rintro (h | ⟨-, value, hvalue, -⟩)
          · exact htimeout h
          · cases hvalue
        | .expression text :: _ =>
          apply SetAction.fallback
          rintro (h | ⟨-, value, hvalue, hne⟩)
          · exact htimeout h
          · cases hvalue
            exact hne text rfl
      · rw [if_neg fun h => hvar (List.contains_iff_mem.mp h)]
        apply SetAction.fallback
        rintro (h | ⟨h, -⟩)
        · exact htimeout h
        · exact hvar h

/-- No other hook has a say in a SET. -/
theorem firstSimpleAnswer_set {statement : Statement} {set : SetStatement}
    (h : statement.kind = .set set) :
    firstSimpleAnswer (E := E) statement defaultHooks =
      some <$> tryRespondSetStatements statement set := by
  simp only [firstSimpleAnswer, defaultHooks, cursorStatementHook, setShowHook, cursorAnswer,
    setShowAnswer, h, map_eq_pure_bind, bind_assoc, pure_bind]

theorem answerStatement_set {statement : Statement} {set : SetStatement}
    (h : statement.kind = .set set) :
    answerStatement (E := E) defaultHooks statement = tryRespondSetStatements statement set := by
  simp only [answerStatement, firstSimpleAnswer_set h, map_eq_pure_bind, bind_assoc, pure_bind,
    bind_pure]

theorem answerStatement_showVariable {statement : Statement} {variableNames : List String}
    (h : statement.kind = .showVariable variableNames) :
    answerStatement (E := E) defaultHooks statement = tryRespondShowVariable variableNames := by
  simp only [answerStatement, firstSimpleAnswer, defaultHooks, cursorStatementHook, setShowHook,
    cursorAnswer, setShowAnswer, h, map_eq_pure_bind, bind_assoc, pure_bind, bind_pure]

end Set
end DatafusionPostgres.Session

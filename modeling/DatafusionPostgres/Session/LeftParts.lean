import DatafusionPostgres.Session.Aborted
import DatafusionPostgres.Session.Privilege

/-! The parts of a connection that a statement or a message leaves as they are. -/
namespace DatafusionPostgres.Session
open ArrowPg Library PgCatalog

section Parts
variable {E : Engine} {τ : Type}

/-- Running queries has nothing to do with the part. -/
def IgnoresContext (part : Connection E → τ) : Prop :=
  ∀ (s : Connection E) (context : E.Context) (executed : List Bool),
    part { s with context, executed } = part s

/-- What is kept for the client and sent to it has nothing to do with the part. -/
def IgnoresSettings (part : Connection E → τ) : Prop :=
  ∀ (s : Connection E) (metadata : HashMap String String) (sent : List ParameterStatus),
    part { s with metadata, sent } = part s

def IgnoresStatus (part : Connection E → τ) : Prop :=
  ∀ (s : Connection E) (transactionStatus : TransactionStatus),
    part { s with transactionStatus } = part s

def IgnoresPortals (part : Connection E → τ) : Prop :=
  ∀ (s : Connection E) (portals : HashMap String (Option (StoredPortal E))),
    part { s with portals } = part s

/-- The portal of the name has nothing to do with the part. -/
structure IgnoresPortal (name : String) (part : Connection E → τ) : Prop where
  insert : ∀ (s : Connection E) (stored : Option (StoredPortal E)),
    part { s with portals := s.portals.insert name stored } = part s
  remove : ∀ s : Connection E, part { s with portals := s.portals.remove name } = part s

theorem IgnoresPortals.portal {part : Connection E → τ} (h : IgnoresPortals part) (name : String) :
    IgnoresPortal name part :=
  ⟨fun s _ => h s _, fun s => h s _⟩

/-- One portal has nothing to do with another. -/
theorem ignoresPortal_get {name name' : String} (hne : name' ≠ name) :
    IgnoresPortal name fun s : Connection E => s.portals.get name' where
  insert s stored := HashMap.get_insert_of_ne s.portals hne stored
  remove s := (HashMap.get_remove s.portals name name').trans (if_neg hne)

/-- The statement opens, moves or closes no cursor that matters to the part. -/
def SparesPortals (part : Connection E → τ) : StatementKind → Prop
  | .declare stmts =>
    ∀ declare ∈ stmts, ∀ name ∈ declare.names.head?, IgnoresPortal name part
  | .fetch name _ => IgnoresPortal name part
  | .close .all => IgnoresPortals part
  | .close (.specific name) => IgnoresPortal name part
  | _ => True

theorem IgnoresPortals.spares {part : Connection E → τ} (h : IgnoresPortals part)
    (kind : StatementKind) : SparesPortals part kind := by
  unfold SparesPortals
  split
  · exact fun _ _ name _ => h.portal name
  · exact h.portal _
  · exact h
  · exact h.portal _
  · trivial

/-- What the hooks do for the statement has nothing to do with the part. -/
structure HooksSpare (part : Connection E → τ) (statement : Statement) : Prop where
  portals : SparesPortals part statement.kind
  declare : ∀ stmts, statement.kind = .declare stmts → IgnoresContext part
  set : ∀ set, statement.kind = .set set →
    IgnoresSettings part ∧ (¬ KeptInMetadata E set → IgnoresContext part)

end Parts

section Actions
variable {E : Engine} {τ : Type} {part : Connection E → τ}

private theorem runOnContext_leaves (h : IgnoresContext part)
    (run : E.Context → SqlRun E.Context E.DataFrame) : Leaves part (Handler.runOnContext run) :=
  .modifyGet fun s => h s _ _

private theorem runFrame_leaves {α : Type} (h : IgnoresContext part) (frame : E.DataFrame)
    (execute : E.Context → Except DataFusionError α × E.Context) :
    Leaves part (Handler.runFrame frame execute) :=
  .modifyGet fun s => h s _ _

private theorem read_leaves {α : Type} {read : Connection E → α} :
    Leaves part (modifyGet fun s => (read s, s) : Handler E α) :=
  .modifyGet fun _ => rfl

private theorem encodeDataframe_leaves (h : IgnoresContext part) (frame : E.DataFrame)
    (format : Format) (formatOptions : Option FormatOptions) :
    Leaves part (encodeDataframe frame format formatOptions) := by
  unfold encodeDataframe
  split
  · exact .pure _
  · apply (runFrame_leaves h frame _).bind
    rintro (error | rows) <;> exact .pure _

private theorem respondWithFrame_leaves (h : IgnoresContext part) (statement : Statement)
    (frame : E.DataFrame) (format : Format) :
    Leaves part (respondWithFrame statement frame format) := by
  unfold respondWithFrame
  split
  · apply (runFrame_leaves h frame _).bind
    rintro (error | count) <;> exact .pure _
  · apply read_leaves.bind
    intro metadata
    apply (encodeDataframe_leaves h frame _ _).bind
    rintro (error | response) <;> exact .pure _

theorem runStatement_leaves (h : IgnoresContext part) (statement : Statement) :
    Leaves part (runStatement statement) := by
  apply read_leaves.bind
  intro metadata
  apply (runOnContext_leaves h _).bind
  rintro (failure | frame)
  · exact .pure _
  · exact respondWithFrame_leaves h _ _ _

theorem runPlan_leaves (h : IgnoresContext part) (portal : StoredPortal E)
    (statement : Statement) (plan : E.Plan) : Leaves part (runPlan portal statement plan) := by
  unfold runPlan
  split
  · exact .pure _
  · apply read_leaves.bind
    intro context
    split
    · exact .pure _
    · apply read_leaves.bind
      intro metadata
      apply (runOnContext_leaves h _).bind
      rintro (failure | frame)
      · exact .pure _
      · exact respondWithFrame_leaves h _ _ _

end Actions

section Hooks
variable {E : Engine} {τ : Type} {part : Connection E → τ}

private theorem insertPortal_leaves {name : String} (h : IgnoresPortal name part)
    (stored : HashMap String (Option (StoredPortal E)) → Option (StoredPortal E)) :
    Leaves part (do
      let portals ← Handler.portals (E := E)
      Handler.setPortals (portals.insert name (stored portals))) :=
  fun s => ⟨⟨⟩, _, rfl, h.insert s _⟩

private theorem declareCursor_leaves (hcontext : IgnoresContext part) {declare : Declare}
    (h : ∀ name ∈ declare.names.head?, IgnoresPortal name part) :
    Leaves part (declareCursor declare) := by
  unfold declareCursor
  split
  · exact .pure _
  · split
    · exact .pure _
    · rename_i cursorName hname
      split
      · exact .pure _
      · apply (runOnContext_leaves hcontext _).bind
        rintro (failure | frame)
        · exact .pure _
        · apply (encodeDataframe_leaves hcontext _ _ _).bind
          rintro (error | response)
          · exact .pure _
          · exact (insertPortal_leaves (h cursorName hname) fun _ => _).bind fun _ => .pure _

private theorem handleDeclare_leaves (hcontext : IgnoresContext part) {stmts : List Declare}
    (h : ∀ declare ∈ stmts, ∀ name ∈ declare.names.head?, IgnoresPortal name part) :
    Leaves part (handleDeclare stmts) := by
  induction stmts with
  | nil => exact .pure _
  | cons declare stmts ih =>
    apply (declareCursor_leaves hcontext (h declare List.mem_cons_self)).bind
    rintro (_ | error)
    · exact ih fun declare' hmem => h declare' (List.mem_cons_of_mem _ hmem)
    · exact .pure _

theorem fetchPortal_leaves {portal : StoredPortal E} (h : IgnoresPortal portal.name part)
    (maxRows : Nat) : Leaves part (fetchPortal portal maxRows) := by
  unfold fetchPortal
  split
  · exact .pure _
  · exact fun s => ⟨_, _, rfl, h.insert s _⟩

private theorem handleFetch_leaves {cursorName : String} (h : IgnoresPortal cursorName part)
    (direction : FetchDirection) : Leaves part (handleFetch cursorName direction) := by
  unfold handleFetch
  split
  · exact .pure _
  · apply read_leaves.bind
    intro portals
    split
    · exact fetchPortal_leaves h _
    · exact .pure _
    · exact .pure _

private theorem handleClose_leaves {cursor : CloseCursor} (h : SparesPortals part (.close cursor)) :
    Leaves part (handleClose (E := E) cursor) := by
  cases cursor with
  | all => exact fun s => ⟨_, _, rfl, h s _⟩
  | specific name => exact fun s => ⟨_, _, rfl, IgnoresPortal.remove h s⟩

private theorem cursorAnswer_leaves {statement : Statement} (h : SparesPortals part statement.kind)
    (hdeclare : ∀ stmts, statement.kind = .declare stmts → IgnoresContext part) :
    Leaves part (cursorAnswer statement) := by
  rcases statement with ⟨kind, text⟩
  cases kind with
  | declare stmts =>
    exact (handleDeclare_leaves (hdeclare stmts rfl) h).bind fun _ => .pure _
  | fetch name direction => exact (handleFetch_leaves h direction).bind fun _ => .pure _
  | close cursor => exact (handleClose_leaves h).bind fun _ => .pure _
  | _ => exact .pure _

private theorem announce_leaves (h : IgnoresSettings part) (status : Option ParameterStatus) :
    Leaves part (announce (E := E) status) := by
  cases status with
  | none => exact .pure _
  | some status =>
    have hsend : Leaves part (Handler.sendMessage (E := E) status) := by
      apply Leaves.modifyGet
      intro s
      cases E.send s.sent status with
      | ok _ => exact h s s.metadata _
      | error _ => rfl
    apply hsend.bind
    rintro (error | _) <;> exact .pure _

private theorem setMetadata_leaves (h : IgnoresSettings part)
    (metadata : HashMap String String) : Leaves part (Handler.setMetadata (E := E) metadata) :=
  .modifyGet fun s => h s metadata s.sent

theorem fallbackSet_leaves (hcontext : IgnoresContext part) (statement : Statement) :
    Leaves part (fallbackSet (E := E) statement) := by
  have hexecute : Leaves part (executeSetStatement (E := E) statement) := by
    apply read_leaves.bind
    intro context
    split
    · exact .pure _
    · apply (runOnContext_leaves hcontext _).bind
      rintro (failure | frame) <;> exact .pure _
  exact hexecute.bind fun _ => .pure _

private theorem tryRespondSetStatements_leaves (h : IgnoresSettings part) (statement : Statement)
    {set : SetStatement} (hcontext : ¬ KeptInMetadata E set → IgnoresContext part) :
    Leaves part (tryRespondSetStatements (E := E) statement set) := by
  obtain ⟨action, haction, hcases⟩ := tryRespondSetStatements_cases (E := E) statement set
  rw [haction]
  cases hcases with
  | noTimeout => exact .pure _
  | timeout => exact read_leaves.bind fun _ => (setMetadata_leaves h _).bind fun _ => .pure _
  | kept => exact read_leaves.bind fun _ => (setMetadata_leaves h _).bind fun _ =>
      announce_leaves h _
  | timeZone => exact read_leaves.bind fun _ => (setMetadata_leaves h _).bind fun _ =>
      announce_leaves h _
  | fallback hkept => exact fallbackSet_leaves (hcontext hkept) statement

private theorem tryRespondShowVariable_leaves (variableNames : List String) :
    Leaves part (tryRespondShowVariable (E := E) variableNames) := by
  apply read_leaves.bind
  intro metadata
  apply read_leaves.bind
  intro context
  split <;> exact .pure _

private theorem setShowAnswer_leaves {statement : Statement}
    (hset : ∀ set, statement.kind = .set set →
      Leaves part (tryRespondSetStatements (E := E) statement set)) :
    Leaves part (setShowAnswer (E := E) statement) := by
  unfold setShowAnswer
  split
  case h_1 set hkind => exact (hset set hkind).bind fun _ => .pure _
  case h_2 => exact (read_leaves.bind fun _ => .pure _).bind fun _ => .pure _
  case h_3 => exact (tryRespondShowVariable_leaves _).bind fun _ => .pure _
  case h_4 => exact .pure _

private theorem transactionStatementAnswer_leaves (statement : Statement) :
    Leaves part (transactionStatementAnswer (E := E) statement) :=
  read_leaves.bind fun _ => .pure _

/-- No other hook has a say in a cursor statement. -/
theorem firstSimpleAnswer_fetch (name : String) (direction : FetchDirection) (text : String) :
    firstSimpleAnswer (E := E) ⟨.fetch name direction, text⟩ defaultHooks =
      some <$> handleFetch name direction := by
  simp only [firstSimpleAnswer, defaultHooks, cursorStatementHook, cursorAnswer, map_eq_pure_bind,
    bind_assoc, pure_bind]

theorem firstSimpleAnswer_close (cursor : CloseCursor) (text : String) :
    firstSimpleAnswer (E := E) ⟨.close cursor, text⟩ defaultHooks =
      some <$> handleClose cursor := by
  simp only [firstSimpleAnswer, defaultHooks, cursorStatementHook, cursorAnswer, map_eq_pure_bind,
    bind_assoc, pure_bind]

theorem firstSimpleAnswer_leaves {statement : Statement} (h : HooksSpare part statement) :
    Leaves part (firstSimpleAnswer statement (defaultHooks (E := E))) := by
  have hset : ∀ set, statement.kind = .set set →
      Leaves part (tryRespondSetStatements (E := E) statement set) := by
    intro set hkind
    obtain ⟨hsettings, hcontext⟩ := h.set set hkind
    exact tryRespondSetStatements_leaves hsettings statement hcontext
  apply (cursorAnswer_leaves h.portals h.declare).bind
  rintro (_ | answer)
  · apply (setShowAnswer_leaves hset).bind
    rintro (_ | answer)
    · apply (transactionStatementAnswer_leaves statement).bind
      rintro (_ | answer) <;> exact .pure _
    · exact .pure _
  · exact .pure _

end Hooks

section Queries
variable {E : Engine} {τ : Type} {part : Connection E → τ}

/-- A portal for a text without a statement. -/
theorem doExtendedQuery_empty {portal : StoredPortal E} (hportal : portal.statement.2 = none) :
    doExtendedQuery defaultHooks portal = (pure (.ok .emptyQuery) : Handler E Answer) := by
  unfold doExtendedQuery
  rw [hportal]

theorem parseSql_leaves (hooks : List (QueryHook E))
    (parsed : Except DataFusionError (List Statement)) : Leaves part (parseSql hooks parsed) := by
  unfold parseSql
  split
  · exact .pure _
  · exact .pure _
  · dsimp only
    split
    · exact .pure _
    · exact .pure _
    · apply read_leaves.bind
      intro context
      split <;> exact .pure _

end Queries

section Messages
variable {E : Engine} {τ : Type} {part : Connection E → τ} {P : τ → Prop}

private theorem firstSimpleAnswer_preserves (hcontext : IgnoresContext part)
    (hportals : IgnoresPortals part)
    (hset : ∀ statement set,
      Preserves (fun s => P (part s)) (tryRespondSetStatements (E := E) statement set))
    (statement : Statement) :
    Preserves (fun s => P (part s)) (firstSimpleAnswer statement (defaultHooks (E := E))) := by
  by_cases hkind : ∃ set, statement.kind = .set set
  · obtain ⟨set, hkind⟩ := hkind
    rw [firstSimpleAnswer_set hkind, map_eq_pure_bind]
    exact (hset statement set).bind fun _ => .pure _
  · have hspare : HooksSpare part statement :=
      ⟨hportals.spares _, fun _ _ => hcontext, fun set h => absurd ⟨set, h⟩ hkind⟩
    exact .of_leaves (firstSimpleAnswer_leaves hspare)

private theorem settle_preserves (hstatus : IgnoresStatus part)
    (answer : Except Failure (List Response)) :
    Preserves (fun s => P (part s)) (DocumentedLoop.settle (E := E) answer) := by
  have hleaves : Leaves part (DocumentedLoop.settle (E := E) answer) :=
    fun s => ⟨⟨⟩, _, rfl, hstatus s _⟩
  exact .of_leaves hleaves

private theorem answerStatements_preserves
    (hanswer : ∀ statement,
      Preserves (fun s => P (part s)) (answerStatement (E := E) defaultHooks statement))
    (results : List Response) (statements : List Statement) :
    Preserves (fun s => P (part s))
      (answerStatements (E := E) defaultHooks results statements) := by
  induction statements generalizing results with
  | nil => exact .pure _
  | cons statement statements ih =>
    apply (hanswer statement).bind
    rintro (error | response)
    · exact .pure _
    · exact ih _

private theorem doSimpleQuery_preserves (hcontext : IgnoresContext part)
    (hfirst : ∀ statement,
      Preserves (fun s => P (part s)) (firstSimpleAnswer statement (defaultHooks (E := E))))
    (parsed : Except DataFusionError (List Statement)) :
    Preserves (fun s => P (part s)) (doSimpleQuery (E := E) defaultHooks parsed) := by
  rcases parsed with error | _ | ⟨statement, statements⟩
  · exact .pure _
  · exact .pure _
  · refine answerStatements_preserves (fun statement => ?_) [] (statement :: statements)
    apply (hfirst statement).bind
    rintro (_ | answer)
    · exact .of_leaves (runStatement_leaves hcontext statement)
    · exact .pure _

private theorem doExtendedQuery_preserves (hcontext : IgnoresContext part)
    (hfirst : ∀ statement,
      Preserves (fun s => P (part s)) (firstSimpleAnswer statement (defaultHooks (E := E))))
    (portal : StoredPortal E) :
    Preserves (fun s => P (part s)) (doExtendedQuery defaultHooks portal) := by
  cases hstatement : portal.statement.2 with
  | none =>
    rw [doExtendedQuery_empty hstatement]
    exact .pure _
  | some stored =>
    obtain ⟨statement, plan⟩ := stored
    cases hparams : portalParams portal plan with
    | error failure =>
      rw [doExtendedQuery_undecoded hstatement hparams]
      exact .pure _
    | ok params =>
      rw [doExtendedQuery_params hstatement hparams]
      apply (hfirst statement).bind
      rintro (_ | answer)
      · exact .of_leaves (runPlan_leaves hcontext portal statement plan)
      · exact .pure _

private theorem onExecute_preserves [WireLoop E] (hportals : IgnoresPortals part)
    (hstatus : IgnoresStatus part)
    (hextended : ∀ portal : StoredPortal E,
      Preserves (fun s => P (part s)) (doExtendedQuery defaultHooks portal))
    (portalName : String) (maxRows : Nat) :
    Preserves (fun s => P (part s)) (onExecute (E := E) defaultHooks portalName maxRows) := by
  have hfetch : ∀ (portal : StoredPortal E) (maxRows : Nat),
      Preserves (fun s => P (part s)) (fetchPortal portal maxRows) :=
    fun portal maxRows => .of_leaves (fetchPortal_leaves (hportals.portal _) maxRows)
  rw [onExecute_documented]
  apply Preserves.bind (.modifyGet fun _ h => h)
  intro portals
  split
  · exact .pure _
  · exact .pure _
  · split
    · exact hfetch _ _
    · apply (hextended _).bind
      intro answer
      apply (settle_preserves hstatus _).bind
      intro _
      split
      · split
        · exact .pure _
        · exact hfetch _ _
      · exact .pure _

/-- An invariant of a part that only the SET statements have to do with holds after every
message if they keep it. -/
theorem handle_preserves [WireLoop E] (hcontext : IgnoresContext part)
    (hportals : IgnoresPortals part) (hstatus : IgnoresStatus part)
    (hset : ∀ statement set,
      Preserves (fun s => P (part s)) (tryRespondSetStatements (E := E) statement set))
    (message : Message E) : Preserves (fun s => P (part s)) (message.handle defaultHooks) := by
  have hfirst := firstSimpleAnswer_preserves hcontext hportals hset
  cases message with
  | query parsed =>
    have hquery := doSimpleQuery_preserves hcontext hfirst parsed
    rw [Message.handle, onQuery_documented]
    apply (hquery.bind fun answer => (settle_preserves hstatus answer).bind fun _ => .pure _).bind
    rintro (failure | responses) <;> exact .pure _
  | parse parsed => exact (Preserves.of_leaves (parseSql_leaves _ parsed)).bind fun _ => .pure _
  | bind portal =>
    have hbind : Leaves part (onBind portal) := by
      rw [onBind_documented]
      exact fun s => ⟨⟨⟩, _, rfl, hportals s _⟩
    exact (Preserves.of_leaves hbind).bind fun _ => .pure _
  | execute portalName maxRows =>
    have hextended := doExtendedQuery_preserves hcontext hfirst
    apply (onExecute_preserves hportals hstatus hextended portalName maxRows).bind
    rintro (failure | response) <;> exact .pure _
  | close portalName =>
    have hclose : Leaves part (onClose (E := E) portalName) := by
      rw [onClose_documented]
      exact fun s => ⟨⟨⟩, _, rfl, hportals s _⟩
    exact (Preserves.of_leaves hclose).bind fun _ => .pure _

end Messages
end DatafusionPostgres.Session

import DatafusionPostgres.Session.Answers
import DatafusionPostgres.Session.ReferenceEngine

/-! Statements in an aborted transaction block: which ones are rejected with SQLSTATE
25P01, and which ones an earlier hook answers. -/
namespace DatafusionPostgres.Session
open ArrowPg Library PgCatalog

/-- SQLSTATE 25P01 is raised by no library. -/
structure OwnCodes (E : Engine) : Prop where
  fetch : ∀ rows maxRows, FailsWithin OtherError (E.fetchRows rows maxRows)
  list : ∀ values elementType, Raises OtherError (E.params.newListNullable values elementType)

theorem OwnCodes.errors {E : Engine} (own : OwnCodes E) : AnswerErrors E OtherError :=
  ⟨fun _ h => h, own.fetch⟩

/-- Answered with an error for an aborted block, and with nothing changed. -/
def RejectsUnchanged {E : Engine} {α : Type} (run : Handler E (Except Failure α))
    (s : Connection E) : Prop :=
  ∃ s', run s = .ok (.error (.err transactionAborted)) s' ∧ s'.metadata = s.metadata ∧
    s'.portals = s.portals ∧ s'.context = s.context

/-- The statements that end a transaction block. -/
def endsTransaction : StatementKind → Bool
  | .commit | .rollback => true
  | _ => false

/-- The statements that a hook before the one for transactions answers. -/
def answeredEarly : StatementKind → Bool
  | .declare _ | .fetch _ _ | .close _ | .set _ | .showVariable _ | .showCatalogs => true
  | _ => false

section Hooks
variable {E : Engine}

/-- An early answer does not depend on the transaction hook. -/
theorem firstSimpleAnswer_early {statement : Statement} (h : answeredEarly statement.kind = true) :
    firstSimpleAnswer statement (defaultHooks (E := E)) =
      firstSimpleAnswer statement statusFreeHooks := by
  obtain ⟨kind, text⟩ := statement
  cases kind
  case declare | fetch | close | set | showVariable | showCatalogs =>
    simp only [firstSimpleAnswer, defaultHooks, statusFreeHooks, cursorStatementHook, setShowHook,
      cursorAnswer, setShowAnswer, map_eq_pure_bind, bind_assoc, pure_bind]
  all_goals cases h

theorem answers_early {statement : Statement} (h : answeredEarly statement.kind = true) :
    Returns (fun answer => answer.isSome = true)
      (firstSimpleAnswer statement (statusFreeHooks (E := E))) := by
  have hsome : ∀ (first : Handler E Answer) (next : Option Answer → Handler E (Option Answer)),
      (∀ a, next (some a) = pure (some a)) →
      Returns (fun answer => answer.isSome = true) ((some <$> first) >>= next) := by
    intro first next hnext
    rw [map_eq_pure_bind, bind_assoc]
    apply Returns.bind_any
    intro a
    rw [pure_bind, hnext]
    exact .pure rfl
  obtain ⟨kind, text⟩ := statement
  cases kind
  case declare => exact hsome _ _ fun _ => rfl
  case fetch => exact hsome _ _ fun _ => rfl
  case close => exact hsome _ _ fun _ => rfl
  case set set => exact hsome (tryRespondSetStatements ⟨.set set, text⟩ set) _ fun _ => rfl
  case showVariable names => exact hsome (tryRespondShowVariable names) _ fun _ => rfl
  case showCatalogs => exact hsome tryRespondShowCatalogs _ fun _ => rfl
  all_goals cases h

private theorem earlyHooks_silent {statement : Statement}
    (h : answeredEarly statement.kind = false) :
    cursorAnswer (E := E) statement = pure none ∧ setShowAnswer (E := E) statement = pure none := by
  obtain ⟨kind, text⟩ := statement
  cases kind <;> first | exact ⟨rfl, rfl⟩ | exact nomatch h

/-- Of every other statement the transaction hook decides, by the status alone. -/
theorem firstSimpleAnswer_late {statement : Statement} (h : answeredEarly statement.kind = false)
    (s : Connection E) :
    firstSimpleAnswer statement defaultHooks s =
      .ok (transactionAnswer s.transactionStatus statement) s := by
  obtain ⟨hcursor, hset⟩ := earlyHooks_silent (E := E) h
  have htransaction : transactionStatementAnswer (E := E) statement s =
      .ok (transactionAnswer s.transactionStatus statement) s := rfl
  simp only [firstSimpleAnswer, defaultHooks, cursorStatementHook, setShowHook, hcursor, hset,
    transactionStatementHook, pure_bind]
  rw [run_bind_ok htransaction]
  cases transactionAnswer s.transactionStatus statement <;> rfl

theorem firstSimpleAnswer_aborted {s : Connection E} (hstatus : s.transactionStatus = .error)
    {statement : Statement} (hends : endsTransaction statement.kind = false)
    (hearly : answeredEarly statement.kind = false) :
    firstSimpleAnswer statement defaultHooks s =
      .ok (some (.error (.err transactionAborted))) s := by
  rw [firstSimpleAnswer_late hearly, hstatus]
  obtain ⟨kind, text⟩ := statement
  cases kind <;> first | rfl | exact nomatch hends

/-- The default hooks treat both protocols alike. -/
theorem firstExtendedAnswer_defaultHooks (statement : Statement) (plan : E.Plan)
    (params : List ScalarValue) :
    firstExtendedAnswer statement plan params defaultHooks =
      firstSimpleAnswer statement (defaultHooks (E := E)) := rfl

end Hooks

section Queries
variable {E : Engine}

private theorem not_rejects {α : Type} {run : Handler E (Except Failure α)}
    (h : Returns (Raises OtherError) run) (s : Connection E) : ¬ RejectsUnchanged run s := by
  rintro ⟨s', hrun, -⟩
  exact h.value hrun transactionAborted rfl rfl

private theorem doSimpleQuery_early (own : OwnCodes E) {statement : Statement}
    (h : answeredEarly statement.kind = true) :
    Returns (Raises OtherError) (doSimpleQuery (E := E) defaultHooks (.ok [statement])) := by
  have hanswer : Returns (Ordinary OtherError)
      (answerStatement (E := E) defaultHooks statement) := by
    unfold answerStatement
    rw [firstSimpleAnswer_early h]
    exact own.errors.answerStatement statement
  change Returns _ (answerStatement defaultHooks statement >>= _)
  apply hanswer.bind
  rintro (failure | response) hresponse
  · apply Returns.pure
    rintro e ⟨⟩
    exact hresponse
  · exact .pure (.ok _)

private theorem doSimpleQuery_aborted {s : Connection E} (hstatus : s.transactionStatus = .error)
    {statement : Statement} (hends : endsTransaction statement.kind = false)
    (hearly : answeredEarly statement.kind = false) :
    RejectsUnchanged (doSimpleQuery defaultHooks (.ok [statement])) s := by
  refine ⟨s, ?_, rfl, rfl, rfl⟩
  have hfirst := firstSimpleAnswer_aborted hstatus hends hearly
  have hanswer : answerStatement defaultHooks statement s = _ := run_bind_ok hfirst _
  exact run_bind_ok hanswer _

private theorem portalParams_other (own : OwnCodes E) (portal : StoredPortal E) (plan : E.Plan)
    (hread : ∀ param ∈ portal.bound.parameters, ∀ t pgType,
      FailsWithin OtherError (param.read t pgType)) :
    Raises OtherError (portalParams portal plan) := by
  unfold portalParams
  split
  · exact .error (apiError_other _)
  · have errors : ConversionErrors E.params OtherError :=
      ⟨fun message hcode => absurd (show "22023" = "25P01" from Option.some.inj hcode) (by decide),
        fun _ => unsupportedType_other, own.list⟩
    exact errors.deserializeParameters hread _

theorem doExtendedQuery_params {portal : StoredPortal E} {statement : Statement}
    {plan : E.Plan} (hportal : portal.statement.2 = some (statement, plan))
    {params : List ScalarValue} (hparams : portalParams portal plan = .ok params) :
    doExtendedQuery defaultHooks portal = (do
      match ← firstSimpleAnswer statement defaultHooks with
      | some answer => return answer
      | none => runPlan portal statement plan) := by
  unfold doExtendedQuery hooksAnswer
  rw [hportal, ← firstExtendedAnswer_defaultHooks statement plan params]
  simp only [hparams]
  rfl

theorem doExtendedQuery_undecoded {portal : StoredPortal E} {statement : Statement}
    {plan : E.Plan} (hportal : portal.statement.2 = some (statement, plan)) {failure : Failure}
    (hparams : portalParams portal plan = .error failure) :
    doExtendedQuery defaultHooks portal = (pure (.error failure) : Handler E Answer) := by
  unfold doExtendedQuery hooksAnswer
  rw [hportal]
  simp only [hparams]
  rfl

private theorem doExtendedQuery_rejects_iff (own : OwnCodes E) {s : Connection E}
    (hstatus : s.transactionStatus = .error) {statement : Statement}
    (hends : endsTransaction statement.kind = false) {portal : StoredPortal E} {plan : E.Plan}
    (hportal : portal.statement.2 = some (statement, plan))
    (hread : ∀ param ∈ portal.bound.parameters, ∀ t pgType,
      FailsWithin OtherError (param.read t pgType)) :
    RejectsUnchanged (doExtendedQuery defaultHooks portal) s ↔
      answeredEarly statement.kind = false ∧ ∃ params, portalParams portal plan = .ok params := by
  cases hparams : portalParams portal plan with
  | error failure =>
    rw [doExtendedQuery_undecoded hportal hparams]
    have hother := portalParams_other own portal plan hread
    constructor
    · rintro ⟨s', hrun, -⟩
      cases hrun
      exact absurd rfl (hother transactionAborted hparams)
    · rintro ⟨-, params, h⟩
      cases h
  | ok params =>
    rw [doExtendedQuery_params hportal hparams]
    cases hearly : answeredEarly statement.kind with
    | true =>
      have hanswer : Returns (Raises OtherError) (do
          match ← firstSimpleAnswer statement (defaultHooks (E := E)) with
          | some answer => return answer
          | none => runPlan portal statement plan) := by
        rw [firstSimpleAnswer_early hearly]
        apply ((answers_early hearly).and (own.errors.firstSimpleAnswer statement)).bind
        rintro (_ | a) ⟨hsome, ha⟩
        · cases hsome
        · exact .pure (ha a rfl).raises
      exact ⟨fun h => absurd h (not_rejects hanswer s), fun h => nomatch h.1⟩
    | false =>
      refine ⟨fun _ => ⟨rfl, params, rfl⟩, fun _ => ⟨s, ?_, rfl, rfl, rfl⟩⟩
      have hfirst := firstSimpleAnswer_aborted hstatus hends hearly
      rw [run_bind_ok hfirst]
      rfl

/-- In an aborted block a statement is rejected, with nothing changed, exactly when no
earlier hook answers it and, for a portal, its parameters can be decoded. -/
theorem abortedBlock_rejects_iff (own : OwnCodes E) {s : Connection E}
    (hstatus : s.transactionStatus = .error) {statement : Statement}
    (hends : endsTransaction statement.kind = false) :
    (RejectsUnchanged (doSimpleQuery defaultHooks (.ok [statement])) s ↔
      answeredEarly statement.kind = false) ∧
    ∀ (portal : StoredPortal E) (plan : E.Plan), portal.statement.2 = some (statement, plan) →
      (∀ param ∈ portal.bound.parameters, ∀ t pgType,
        FailsWithin OtherError (param.read t pgType)) →
      (RejectsUnchanged (doExtendedQuery defaultHooks portal) s ↔
        answeredEarly statement.kind = false ∧
          ∃ params, portalParams portal plan = .ok params) := by
  refine ⟨?_, fun portal plan hportal hread =>
    doExtendedQuery_rejects_iff own hstatus hends hportal hread⟩
  cases hearly : answeredEarly statement.kind with
  | true =>
    exact ⟨fun h => absurd h (not_rejects (doSimpleQuery_early own hearly) s), fun h => nomatch h⟩
  | false => exact ⟨fun _ => rfl, fun _ => doSimpleQuery_aborted hstatus hends hearly⟩

theorem referenceEngine_ownCodes : OwnCodes referenceEngine where
  fetch rows maxRows := by
    unfold referenceEngine fetchReferenceRows
    dsimp only
    split
    · exact .error fun hcode => nomatch hcode
    · exact .ok _
    · exact .ok _
  list values elementType := by
    change Raises _ (listByCast values elementType)
    unfold listByCast
    split
    · split
      · unfold castList
        split
        · exact .ok _
        · rintro e ⟨⟩
      · rintro e ⟨⟩
    · exact .ok _

def selectOne : Statement := ⟨.query, "SELECT 1"⟩

/-- A portal without parameters on `SELECT 1`. -/
def selectOnePortal : StoredPortal referenceEngine :=
  ⟨"", ("SELECT 1", some (selectOne, some .one)), ⟨[], []⟩, unifiedText, none⟩

theorem selectOne_rejected :
    RejectsUnchanged (doSimpleQuery defaultHooks (.ok [selectOne])) (referenceConnection .error) ∧
      RejectsUnchanged (doExtendedQuery defaultHooks selectOnePortal)
        (referenceConnection .error) := by
  obtain ⟨hsimple, hextended⟩ := abortedBlock_rejects_iff referenceEngine_ownCodes
    (show (referenceConnection .error).transactionStatus = .error from rfl)
    (show endsTransaction selectOne.kind = false from rfl)
  refine ⟨hsimple.mpr rfl, (hextended selectOnePortal _ rfl ?_).mpr ⟨rfl, [], rfl⟩⟩
  intro param hparam
  cases hparam

def closeAll : Statement := ⟨.close .all, "CLOSE ALL"⟩

/-- A connection in an aborted block with one open cursor. -/
def abortedWithCursor : Connection referenceEngine :=
  { referenceConnection .error with portals := HashMap.empty.insert "c" (some selectOnePortal) }

/-- `CLOSE ALL` is answered in an aborted block, and drops the cursor. -/
theorem closeAll_not_rejected :
    abortedWithCursor.transactionStatus = .error ∧ endsTransaction closeAll.kind = false ∧
      ¬ RejectsUnchanged (doSimpleQuery defaultHooks (.ok [closeAll])) abortedWithCursor := by
  refine ⟨rfl, rfl, ?_⟩
  rintro ⟨s', hrun, -⟩
  cases hrun

end Queries
end DatafusionPostgres.Session

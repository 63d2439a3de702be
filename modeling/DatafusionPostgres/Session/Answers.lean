import DatafusionPostgres.ArrowPg.ErrorCodes
import DatafusionPostgres.Session.ActionRules

/-! What the hooks for cursors, SET and SHOW and the engine itself may answer: never a
change of the transaction block, and errors of their own. -/
namespace DatafusionPostgres.Session
open ArrowPg Library PgCatalog

/-- The hooks that do not look at the transaction status. -/
def statusFreeHooks {E : Engine} : List (QueryHook E) := [cursorStatementHook, setShowHook]

/-- Not the error of an aborted transaction block. -/
def OtherError (e : PgWireError) : Prop := e.code ≠ some "25P01"

/-- The response answers a statement, and leaves the transaction status as it is. -/
def Response.plain : Response → Bool
  | .query _ | .execution _ => true
  | _ => false

/-- A plain response, an error within `P`, or a panic. -/
def Ordinary (P : PgWireError → Prop) : Answer → Prop
  | .ok response => response.plain = true
  | .error (.err e) => P e
  | .error .panic => True

/-- The errors that are not of an aborted block, and those of the wire library. -/
structure AnswerErrors (E : Engine) (P : PgWireError → Prop) : Prop where
  other : ∀ e, OtherError e → P e
  fetch : ∀ rows maxRows, FailsWithin P (E.fetchRows rows maxRows)

theorem AnswerErrors.any (E : Engine) : AnswerErrors E fun _ => True :=
  ⟨fun _ _ => trivial, fun _ _ _ _ => trivial⟩

theorem Ordinary.raises {P : PgWireError → Prop} {answer : Answer} (h : Ordinary P answer) :
    Raises P answer := by
  rintro e rfl
  exact h

section Errors
variable {E : Engine}

theorem userError_other {code : String} (h : code ≠ "25P01") (message : String) :
    OtherError (userError code message) := fun hcode => h (Option.some.inj hcode)

theorem apiError_other (error : DataFusionError) : OtherError (apiError error) :=
  fun hcode => nomatch hcode

private theorem sqlError_other (failure : SqlFailure) : OtherError (sqlError failure) := by
  cases failure with
  | timeout => exact userError_other (by decide) _
  | error error => exact apiError_other error

theorem unsupportedType_other {e : PgWireError} (h : UnsupportedType e) : OtherError e := by
  intro hcode
  rw [h] at hcode
  exact absurd (Option.some.inj hcode) (by decide)

private theorem arrowSchemaToPgFields_other (schema : Schema) (format : Format)
    (formatOptions : FormatOptions) :
    FailsWithin OtherError (arrowSchemaToPgFields schema format formatOptions) := by
  apply FailsWithin.listMapM
  rintro ⟨field, idx⟩
  exact ((fieldIntoPgType_unsupported field).mono fun _ => unsupportedType_other).bind
    fun _ => .ok _

private theorem encodeDataframe_other (frame : E.DataFrame) (format : Format)
    (formatOptions : Option FormatOptions) :
    Returns (FailsWithin OtherError) (encodeDataframe frame format formatOptions) := by
  unfold encodeDataframe
  have hfields := arrowSchemaToPgFields_other (E.schema frame) format
    (formatOptions.getD E.defaultFormatOptions)
  cases hf : arrowSchemaToPgFields (E.schema frame) format
      (formatOptions.getD E.defaultFormatOptions) with
  | error error => exact .pure (.error (hfields error hf))
  | ok fields =>
    apply Returns.bind_any
    intro executed
    cases executed with
    | error error => exact .pure (.error (apiError_other error))
    | ok rows => exact .pure (.ok _)

private theorem declareCursor_other (declare : Declare) :
    Returns (fun failed => ∀ e ∈ failed, OtherError e) (declareCursor (E := E) declare) := by
  have refused : ∀ message, Returns (fun failed => ∀ e ∈ failed, OtherError e)
      (pure (some (userError "42601" message)) : Handler E _) := by
    intro message
    apply Returns.pure
    rintro e ⟨⟩
    exact userError_other (by decide) _
  unfold declareCursor
  split
  · exact refused _
  · split
    · exact refused _
    · split
      · exact refused _
      · apply Returns.bind_any
        rintro (failure | frame)
        · apply Returns.pure
          rintro e ⟨⟩
          exact sqlError_other failure
        · apply (encodeDataframe_other frame _ _).bind
          rintro (error | response) hresponse
          · apply Returns.pure
            rintro e ⟨⟩
            exact hresponse error rfl
          · apply Returns.bind_any
            intro _
            apply Returns.pure
            rintro e ⟨⟩

private theorem fetchMaxRows_other (direction : FetchDirection) :
    FailsWithin OtherError (fetchMaxRows direction) := by
  unfold fetchMaxRows
  split
  all_goals first | exact .ok _ | exact .error (userError_other (by decide) _)

private theorem sendMessage_other (message : ParameterStatus) :
    Returns (FailsWithin OtherError) (Handler.sendMessage (E := E) message) := by
  apply Returns.modifyGet
  intro s
  split
  · exact .ok _
  · exact .error fun hcode => nomatch hcode

end Errors

namespace AnswerErrors
variable {E : Engine} {P : PgWireError → Prop}

private theorem handleDeclare (errors : AnswerErrors E P) (stmts : List Declare) :
    Returns (Ordinary P) (Session.handleDeclare (E := E) stmts) := by
  induction stmts with
  | nil => exact .pure rfl
  | cons declare stmts ih =>
    apply (declareCursor_other declare).bind
    rintro (_ | error) herror
    · exact ih
    · exact .pure (errors.other _ (herror error rfl))

private theorem fetchPortal (errors : AnswerErrors E P) (portal : StoredPortal E) (maxRows : Nat) :
    Returns (Ordinary P) (Session.fetchPortal portal maxRows) := by
  unfold Session.fetchPortal
  have hfetch := errors.fetch (portal.response.map QueryResponse.rows) maxRows
  cases hf : E.fetchRows (portal.response.map QueryResponse.rows) maxRows with
  | error error => exact .pure (hfetch error hf)
  | ok taken =>
    apply Returns.bind_any
    intro portals
    apply Returns.bind_any
    intro _
    exact .pure rfl

private theorem handleFetch (errors : AnswerErrors E P) (cursorName : String)
    (direction : FetchDirection) :
    Returns (Ordinary P) (Session.handleFetch (E := E) cursorName direction) := by
  unfold Session.handleFetch
  have hmax := fetchMaxRows_other direction
  cases hm : fetchMaxRows direction with
  | error error => exact .pure (errors.other _ (hmax error hm))
  | ok maxRows =>
    apply Returns.bind_any
    intro portals
    split
    · exact errors.fetchPortal _ _
    · exact .pure (errors.other _ (userError_other (by decide) _))
    · exact .pure (errors.other _ (userError_other (by decide) _))

private theorem handleClose (cursor : CloseCursor) :
    Returns (Ordinary P) (Session.handleClose (E := E) cursor) := by
  have hdone : Returns (Ordinary P)
      (pure (.ok (.execution (.new "CLOSE CURSOR"))) : Handler E Answer) := .pure rfl
  cases cursor with
  | all => exact .bind_any fun _ => hdone
  | specific name => exact .bind_any fun _ => .bind_any fun _ => hdone

private theorem announce (errors : AnswerErrors E P) (status : Option ParameterStatus) :
    Returns (Ordinary P) (Session.announce (E := E) status) := by
  cases status with
  | none => exact .pure rfl
  | some status =>
    apply (sendMessage_other status).bind
    rintro (error | _) hsent
    · exact .pure (errors.other _ (hsent error rfl))
    · exact .pure rfl

private theorem setVariable (errors : AnswerErrors E P) (var value : String) :
    Returns (Ordinary P) (Session.setVariable (E := E) var value) := by
  apply Returns.bind_any
  intro metadata
  apply Returns.bind_any
  intro _
  exact errors.announce _

private theorem fallbackSet (statement : Statement) :
    Returns (Ordinary P) (Session.fallbackSet (E := E) statement) := by
  apply Returns.bind_any
  intro _
  exact .pure rfl

private theorem tryRespondSetStatements (errors : AnswerErrors E P) (statement : Statement)
    (set : SetStatement) :
    Returns (Ordinary P) (Session.tryRespondSetStatements (E := E) statement set) := by
  obtain ⟨action, haction, hcases⟩ := tryRespondSetStatements_cases (E := E) statement set
  rw [haction]
  cases hcases with
  | noTimeout => exact .pure trivial
  | timeout =>
    apply Returns.bind_any
    intro metadata
    apply Returns.bind_any
    intro _
    exact .pure rfl
  | kept => exact errors.setVariable _ _
  | timeZone =>
    apply Returns.bind_any
    intro metadata
    apply Returns.bind_any
    intro _
    exact errors.announce _
  | fallback => exact fallbackSet statement

private theorem tryRespondShowVariable (variableNames : List String) :
    Returns (Ordinary P) (Session.tryRespondShowVariable (E := E) variableNames) := by
  apply Returns.bind_any
  intro metadata
  apply Returns.bind_any
  intro context
  split
  · exact .pure rfl
  · exact .pure trivial

private theorem tryRespondShowCatalogs :
    Returns (Ordinary P) (Session.tryRespondShowCatalogs (E := E)) := by
  apply Returns.bind_any
  intro context
  exact .pure rfl

/-- An answer of the hook for cursors. -/
theorem cursorAnswer (errors : AnswerErrors E P) (statement : Statement) :
    Returns (fun answer => ∀ a ∈ answer, Ordinary P a)
      (Session.cursorAnswer (E := E) statement) := by
  have hsome : ∀ (a : Answer), Ordinary P a → ∀ a' ∈ some a, Ordinary P a' := by
    rintro a ha _ ⟨⟩
    exact ha
  unfold Session.cursorAnswer
  split
  · exact (errors.handleDeclare _).map hsome
  · exact (errors.handleFetch _ _).map hsome
  · exact (handleClose _).map hsome
  · apply Returns.pure
    rintro a ⟨⟩

/-- An answer of the hook for SET and SHOW. -/
theorem setShowAnswer (errors : AnswerErrors E P) (statement : Statement) :
    Returns (fun answer => ∀ a ∈ answer, Ordinary P a)
      (Session.setShowAnswer (E := E) statement) := by
  have hsome : ∀ (a : Answer), Ordinary P a → ∀ a' ∈ some a, Ordinary P a' := by
    rintro a ha _ ⟨⟩
    exact ha
  unfold Session.setShowAnswer
  split
  · exact (errors.tryRespondSetStatements _ _).map hsome
  · exact tryRespondShowCatalogs.map hsome
  · exact (tryRespondShowVariable _).map hsome
  · apply Returns.pure
    rintro a ⟨⟩

private theorem respondWithFrame (errors : AnswerErrors E P) (statement : Statement)
    (frame : E.DataFrame) (format : Format) :
    Returns (Ordinary P) (Session.respondWithFrame statement frame format) := by
  unfold Session.respondWithFrame
  split
  · apply Returns.bind_any
    rintro (error | count)
    · exact .pure (errors.other _ (apiError_other error))
    · exact .pure rfl
  · apply Returns.bind_any
    intro metadata
    apply (encodeDataframe_other frame _ _).bind
    rintro (error | response) hresponse
    · exact .pure (errors.other _ (hresponse error rfl))
    · exact .pure rfl

/-- An answer of the engine. -/
theorem runStatement (errors : AnswerErrors E P) (statement : Statement) :
    Returns (Ordinary P) (Session.runStatement (E := E) statement) := by
  apply Returns.bind_any
  intro metadata
  apply Returns.bind_any
  rintro (failure | frame)
  · exact .pure (errors.other _ (sqlError_other failure))
  · exact errors.respondWithFrame _ _ _

theorem firstSimpleAnswer (errors : AnswerErrors E P) (statement : Statement) :
    Returns (fun answer => ∀ a ∈ answer, Ordinary P a)
      (Session.firstSimpleAnswer statement (statusFreeHooks (E := E))) := by
  apply (errors.cursorAnswer statement).bind
  rintro (_ | a) ha
  · apply (errors.setShowAnswer statement).bind
    rintro (_ | a) ha
    · exact .pure ha
    · exact .pure ha
  · exact .pure ha

/-- An answer of any of them. -/
theorem answerStatement (errors : AnswerErrors E P) (statement : Statement) :
    Returns (Ordinary P) (Session.answerStatement (statusFreeHooks (E := E)) statement) := by
  apply (errors.firstSimpleAnswer statement).bind
  rintro (_ | a) ha
  · exact errors.runStatement statement
  · exact .pure (ha a rfl)

end AnswerErrors
end DatafusionPostgres.Session

import DatafusionPostgres.Session.ActionRules

/-! What does not depend on the transaction status: everything but the hook for
transaction statements. -/
namespace DatafusionPostgres.Session
open ArrowPg Library PgCatalog

variable {E : Engine}

/-- The connection with its transaction status set. -/
def Connection.withStatus (status : TransactionStatus) (s : Connection E) : Connection E :=
  { s with transactionStatus := status }

@[simp] theorem Connection.withStatus_self (s : Connection E) :
    s.withStatus s.transactionStatus = s := rfl

@[simp] theorem Connection.withStatus_transactionStatus (status : TransactionStatus)
    (s : Connection E) : (s.withStatus status).transactionStatus = status := rfl

@[simp] theorem Connection.withStatus_withStatus (status status' : TransactionStatus)
    (s : Connection E) : (s.withStatus status').withStatus status = s.withStatus status := rfl

/-- The program always returns, and has nothing to do with the transaction status. -/
abbrev StatusFree {α : Type} (prog : Handler E α) : Prop := Frames Connection.withStatus prog

namespace StatusFree

theorem actions : ActionRules E StatusFree where
  pure := .pure
  bind := .bind
  metadata := .modifyGet fun _ _ => rfl
  portals := .modifyGet fun _ _ => rfl
  context := .modifyGet fun _ _ => rfl
  setPortals _ := .modifyGet fun _ _ => rfl
  sendMessage message := by
    apply Frames.modifyGet
    intro s t
    cases hsend : E.send s.sent message with
    | ok sent => simp only [Connection.withStatus, hsend]
    | error text => simp only [Connection.withStatus, hsend]
  runOnContext _ := .modifyGet fun _ _ => rfl
  runFrame _ _ := .modifyGet fun _ _ => rfl

theorem cursorAnswer (statement : Statement) :
    StatusFree (Session.cursorAnswer (E := E) statement) := ActionRules.cursorAnswer actions statement

private theorem setVariable (var value : String) :
    StatusFree (Session.setVariable (E := E) var value) := by
  have hactions : ActionRules E StatusFree := actions
  exact hactions.metadata.bind fun _ => (Frames.modifyGet fun _ _ => rfl).bind fun _ =>
    hactions.announce _

private theorem tryRespondSetStatements (statement : Statement) (set : SetStatement) :
    StatusFree (Session.tryRespondSetStatements (E := E) statement set) := by
  have hactions : ActionRules E StatusFree := actions
  have hset : ∀ metadata, StatusFree (Handler.setMetadata (E := E) metadata) :=
    fun _ => .modifyGet fun _ _ => rfl
  obtain ⟨action, haction, hcases⟩ := tryRespondSetStatements_cases (E := E) statement set
  rw [haction]
  cases hcases with
  | noTimeout => exact .pure _
  | timeout => exact hactions.metadata.bind fun _ => (hset _).bind fun _ => .pure _
  | kept => exact setVariable _ _
  | timeZone => exact hactions.metadata.bind fun _ => (hset _).bind fun _ => hactions.announce _
  | fallback => exact hactions.fallbackSet statement

theorem setShowAnswer (statement : Statement) :
    StatusFree (Session.setShowAnswer (E := E) statement) :=
  EngineRules.setShowAnswer actions.toEngineRules statement fun set _ => tryRespondSetStatements statement set

/-- Hooks that have nothing to do with the status answer the same in every status. -/
theorem answerStatement {hooks : List (QueryHook E)} {statement : Statement}
    (h : ∀ hook ∈ hooks, StatusFree (hook.handleSimpleQuery statement)) :
    StatusFree (Session.answerStatement hooks statement) :=
  EngineRules.answerStatement actions.toEngineRules h

end StatusFree
end DatafusionPostgres.Session

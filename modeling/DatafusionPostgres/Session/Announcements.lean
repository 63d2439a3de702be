import DatafusionPostgres.Library.Run
import DatafusionPostgres.Session.LeftParts
import DatafusionPostgres.Session.SessionVariables

/-! The parameter values that a client was told last, and those that SHOW gives. -/
namespace DatafusionPostgres.Session
open ArrowPg Library PgCatalog

section Announced
variable {E : Engine}

/-- The value in the last status of the name. -/
def lastAnnounced (name : String) (sent : List ParameterStatus) : Option String :=
  (sent.reverse.find? fun status => status.name = name).map ParameterStatus.value

/-- What is kept for the client, and what was sent to it. -/
abbrev settings (s : Connection E) : HashMap String String × List ParameterStatus :=
  (s.metadata, s.sent)

/-- What the client was told last of a variable is what is kept. -/
def UpToDate (kept : HashMap String String × List ParameterStatus) : Prop :=
  ∀ var ∈ sessionVariables, ∀ value,
    lastAnnounced (statusName var) kept.2 = some value → kept.1.get var = some value

theorem lastAnnounced_append (name : String) (sent : List ParameterStatus)
    (status : ParameterStatus) :
    lastAnnounced name (sent ++ [status]) =
      if status.name = name then some status.value else lastAnnounced name sent := by
  rw [lastAnnounced, List.reverse_append, List.reverse_singleton, List.singleton_append,
    List.find?_cons]
  by_cases hname : status.name = name
  · simp [hname]
  · simp [hname, lastAnnounced]

private theorem statusName_unique : ∀ var ∈ sessionVariables, ∀ var' ∈ sessionVariables,
    statusName var = statusName var' → var = var' := by decide

namespace UpToDate
variable {metadata : HashMap String String} {sent : List ParameterStatus}

theorem announce (h : UpToDate (metadata, sent)) {var : String} (hvar : var ∈ sessionVariables)
    (value : String) : UpToDate (metadata.insert var value, sent ++ [⟨statusName var, value⟩]) := by
  intro var' hvar' value' hlast
  rw [lastAnnounced_append] at hlast
  by_cases hname : statusName var = statusName var'
  · rw [if_pos hname] at hlast
    rw [← statusName_unique var hvar var' hvar' hname]
    exact (HashMap.get_insert_self metadata var value).trans hlast
  · rw [if_neg hname] at hlast
    have hne : var' ≠ var := fun heq => hname (heq ▸ rfl)
    exact (HashMap.get_insert_of_ne metadata hne value).trans (h var' hvar' value' hlast)

/-- The statement timeout is not announced. -/
theorem setStatementTimeout (h : UpToDate (metadata, sent)) (timeout : Option Nat) :
    UpToDate (Session.setStatementTimeout metadata timeout, sent) := by
  intro var hvar value hlast
  have hvars : ∀ var ∈ sessionVariables, var ≠ metadataStatementTimeout := by decide
  have hne := hvars var hvar
  have hkept := h var hvar value hlast
  cases timeout with
  | some timeout => exact (HashMap.get_insert_of_ne metadata hne _).trans hkept
  | none => exact (HashMap.get_remove metadata _ var).trans ((if_neg hne).trans hkept)

end UpToDate
end Announced

section Runs
variable {E : Engine}

private theorem upToDate_of_stored {s s' : Connection E} {answer : Answer} {var text : String}
    (hsend : ∀ sent status, E.send sent status = .ok ()) (hvar : var ∈ sessionVariables)
    (hstored : Stored s s' answer var text) (h : UpToDate (settings s)) :
    UpToDate (settings s') := by
  have hsent := hstored.announced _ (hstored.succeeds ⟨(), hsend _ _⟩)
  rw [settings, hstored.metadata, hsent]
  exact h.announce hvar text

private theorem tryRespondSetStatements_upToDate
    (hsend : ∀ sent status, E.send sent status = .ok ()) (statement : Statement)
    (set : SetStatement) :
    Preserves (fun s : Connection E => UpToDate (settings s))
      (tryRespondSetStatements statement set) := by
  obtain ⟨action, haction, hcases⟩ := tryRespondSetStatements_cases (E := E) statement set
  rw [haction]
  cases hcases with
  | noTimeout => exact .pure _
  | timeout =>
    intro s h
    exact ⟨.ok setResponse, { s with metadata := _ }, rfl, h.setStatementTimeout _⟩
  | kept hvar =>
    intro s h
    obtain ⟨answer, s', hrun, hstored⟩ := setVariable_run hvar _ s
    exact ⟨answer, s', hrun, upToDate_of_stored hsend (List.mem_cons_of_mem _ hvar) hstored h⟩
  | @timeZone value =>
    intro s h
    obtain ⟨answer, s', hrun, hstored⟩ := setTimeZone_run statement value s
    have hvar : metadataTimezone ∈ sessionVariables := by decide
    rw [haction] at hrun
    exact ⟨answer, s', hrun, upToDate_of_stored hsend hvar hstored h⟩
  | fallback => exact .of_leaves (fallbackSet_leaves (fun _ _ _ => rfl) statement)

private theorem step_upToDate [WireLoop E] (hsend : ∀ sent status, E.send sent status = .ok ())
    (x : Exchange E) (message : Message E) (h : UpToDate (settings x.connection)) :
    UpToDate (settings (x.step defaultHooks message).connection) := by
  have hcontext : IgnoresContext (settings (E := E)) := fun _ _ _ => rfl
  have hhandle := handle_preserves hcontext (fun _ _ => rfl) (fun _ _ => rfl)
    (tryRespondSetStatements_upToDate hsend) message
  obtain ⟨responses, s', hrun, hs'⟩ := hhandle x.connection h
  rw [Exchange.step, hrun]
  exact hs'

/-- After any messages of a client, SHOW gives for a variable the value that the client was
told last, if it was told one. -/
theorem announced_shown [WireLoop E] (hsend : ∀ sent status, E.send sent status = .ok ())
    {x : Exchange E}
    (hsent : x.connection.sent = []) (messages : List (Message E)) {var value : String}
    (hvar : var ∈ sessionVariables)
    (hlast : lastAnnounced (statusName var)
      (run (Exchange.step defaultHooks) x messages).connection.sent = some value)
    {statement : Statement} (hshown : shown E statement = some var) :
    ∃ name, answerStatement defaultHooks statement
        (run (Exchange.step defaultHooks) x messages).connection =
      .ok (.ok (.query (mockShowResponse E name value)))
        (run (Exchange.step defaultHooks) x messages).connection := by
  have hnone : UpToDate (settings x.connection) := by
    intro var' _ value' hlast'
    rw [settings, hsent] at hlast'
    cases hlast'
  have hrun := run_invariant (fun x message => step_upToDate hsend x message) hnone messages
  exact show_run hshown (hrun var hvar value hlast)

/-- `SET datestyle TO 'German'`, then another statement. -/
private def germanDates : List (Message referenceEngine) :=
  [.query (.ok [setStatement "datestyle" (.stringLiteral "German" "'German'")]),
    .query (.ok [⟨.query, "SELECT 1"⟩])]

theorem announced_shown_dateStyle :
    ∃ name, answerStatement defaultHooks (showStatement "datestyle")
        (run (Exchange.step defaultHooks) ⟨referenceConnection .idle, []⟩ germanDates).connection =
      .ok (.ok (.query (mockShowResponse referenceEngine name "German")))
        (run (Exchange.step defaultHooks) ⟨referenceConnection .idle, []⟩
          germanDates).connection := by
  have hsend : ∀ sent status, referenceEngine.send sent status = .ok () := fun _ _ => rfl
  have hvar : "datestyle" ∈ sessionVariables := by decide
  exact announced_shown hsend rfl germanDates hvar rfl rfl

end Runs
end DatafusionPostgres.Session

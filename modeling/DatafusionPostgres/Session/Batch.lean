import DatafusionPostgres.Session.Aborted
import DatafusionPostgres.Session.StatusFrame

/-! A simple query of several statements against the same statements sent one by one. -/
namespace DatafusionPostgres.Session
open ArrowPg Library

/-- The kinds of responses to a statement. -/
inductive AnswerKind where
  | query | execution | transactionStart | transactionEnd
  deriving DecidableEq, Repr

/-- The response for an empty query answers no statement. -/
def Response.kind : Response → Option AnswerKind
  | .emptyQuery => none
  | .query _ => some .query
  | .execution _ => some .execution
  | .transactionStart _ => some .transactionStart
  | .transactionEnd _ => some .transactionEnd

section Sending
variable {E : Engine} [WireLoop E]

/-- All statements in one message: the kinds of the answers, and whether it failed. -/
def sendBatch (hooks : List (QueryHook E)) (statements : List Statement) :
    Handler E (List AnswerKind × Bool) := do
  match ← onQuery hooks (.ok statements) with
  | .error _ => return ([], true)
  | .ok responses => return (responses.filterMap Response.kind, false)

/-- Each statement in a message of its own, up to the first that fails. -/
def sendOneByOne (hooks : List (QueryHook E)) :
    List Statement → Handler E (List AnswerKind × Bool)
  | [] => return ([], false)
  | statement :: statements => do
    match ← onQuery hooks (.ok [statement]) with
    | .error _ => return ([], true)
    | .ok responses =>
      let (kinds, failed) ← sendOneByOne hooks statements
      return (responses.filterMap Response.kind ++ kinds, failed)

/-- Both ways give the same kinds of answers and leave the same transaction status. -/
def Agrees (hooks : List (QueryHook E)) (statements : List Statement) (s : Connection E) : Prop :=
  ∃ answers b o, sendBatch hooks statements s = .ok answers b ∧
    sendOneByOne hooks statements s = .ok answers o ∧ b.transactionStatus = o.transactionStatus

end Sending

def startsTransaction : StatementKind → Bool
  | .startTransaction => true
  | _ => false

section Condition
variable {E : Engine}

/-- The statement is refused for its place in an aborted block. -/
def Refused (status : TransactionStatus) (statement : Statement) : Prop :=
  status = .error ∧ answeredEarly statement.kind = false ∧ endsTransaction statement.kind = false

/-- The statement, which starts and ends no block, fails by itself. -/
def Fails (statement : Statement) (s : Connection E) : Prop :=
  startsTransaction statement.kind = false ∧ endsTransaction statement.kind = false ∧
    ∃ failure s', answerStatement statusFreeHooks statement s = .ok (.error failure) s'

def FirstFails : List Statement → Connection E → Prop
  | [], _ => False
  | statement :: _, s => Refused s.transactionStatus statement ∨ Fails statement s

/-- Run in order, no statement fails by itself. -/
def RunsClean : List Statement → Connection E → Prop
  | [], _ => True
  | statement :: statements, s =>
    if startsTransaction statement.kind ∨ endsTransaction statement.kind then
      RunsClean statements s
    else ∃ response s', answerStatement statusFreeHooks statement s = .ok (.ok response) s' ∧
      RunsClean statements s'

/-- With `before` the status of the connection before the batch, and `now` the one that
the statements so far lead to: a block is started only where the two are the same, and a
batch in an aborted block has only statements that are not refused there. -/
def InPlace (before : TransactionStatus) : TransactionStatus → List Statement → Prop
  | _, [] => True
  | now, statement :: statements =>
    if startsTransaction statement.kind then
      before ≠ .error ∧ now = before ∧ InPlace before .transaction statements
    else if endsTransaction statement.kind then InPlace before .idle statements
    else ¬ Refused before statement ∧ InPlace before now statements

end Condition

section Turns
variable {E : Engine}

private theorem early_of_starts {kind : StatementKind} (h : startsTransaction kind = true) :
    answeredEarly kind = false ∧ endsTransaction kind = false := by
  cases kind <;> first | exact ⟨rfl, rfl⟩ | exact nomatch h

private theorem statusFreeHooks_statusFree (statement : Statement) :
    StatusFree (answerStatement (E := E) statusFreeHooks statement) := by
  apply StatusFree.answerStatement
  intro hook hmem
  rcases List.mem_cons.mp hmem with rfl | hmem
  · exact .cursorAnswer statement
  · rw [List.mem_singleton.mp hmem]
    exact .setShowAnswer statement

private theorem answerStatement_late {s : Connection E} {statement : Statement} {answer : Answer}
    (hearly : answeredEarly statement.kind = false)
    (hanswer : transactionAnswer s.transactionStatus statement = some answer) :
    answerStatement defaultHooks statement s = .ok answer s := by
  have hfirst := firstSimpleAnswer_late hearly s
  unfold answerStatement
  rw [run_bind_ok hfirst, hanswer]
  rfl

private theorem answerStatement_starts {s : Connection E} {statement : Statement}
    (h : startsTransaction statement.kind = true) :
    answerStatement defaultHooks statement s = .ok
      (match s.transactionStatus with
        | .idle => .ok (.transactionStart (.new "BEGIN"))
        | .transaction => .ok (.execution (.new "BEGIN"))
        | .error => .error (.err transactionAborted)) s := by
  obtain ⟨kind, text⟩ := statement
  cases kind
  case startTransaction =>
    apply answerStatement_late rfl
    cases s.transactionStatus <;> rfl
  all_goals exact nomatch h

private theorem answerStatement_ends {statement : Statement}
    (h : endsTransaction statement.kind = true) (s : Connection E) :
    ∃ tag, answerStatement defaultHooks statement s = .ok (.ok (.transactionEnd tag)) s := by
  have hanswer : ∃ tag, transactionAnswer s.transactionStatus statement =
      some (.ok (.transactionEnd tag)) ∧ answeredEarly statement.kind = false := by
    obtain ⟨kind, text⟩ := statement
    cases kind
    case commit => cases s.transactionStatus <;> exact ⟨_, rfl, rfl⟩
    case rollback => exact ⟨_, rfl, rfl⟩
    all_goals exact nomatch h
  obtain ⟨tag, htag, hearly⟩ := hanswer
  exact ⟨tag, answerStatement_late hearly htag⟩

private theorem answerStatement_refused {s : Connection E} {statement : Statement}
    (h : Refused s.transactionStatus statement) :
    answerStatement defaultHooks statement s = .ok (.error (.err transactionAborted)) s := by
  obtain ⟨hstatus, hearly, hends⟩ := h
  have hfirst := firstSimpleAnswer_aborted hstatus hends hearly
  unfold answerStatement
  rw [run_bind_ok hfirst]
  rfl

private theorem answerStatement_own {s : Connection E} {statement : Statement}
    (hstarts : startsTransaction statement.kind = false)
    (hends : endsTransaction statement.kind = false)
    (h : ¬ Refused s.transactionStatus statement) :
    answerStatement defaultHooks statement s = answerStatement statusFreeHooks statement s := by
  cases hearly : answeredEarly statement.kind with
  | true =>
    unfold answerStatement
    rw [firstSimpleAnswer_early hearly]
  | false =>
    have hstatus : s.transactionStatus ≠ .error := fun hstatus => h ⟨hstatus, hearly, hends⟩
    have hfirst := firstSimpleAnswer_late hearly s
    have hnone : transactionAnswer s.transactionStatus statement = none := by
      obtain ⟨kind, text⟩ := statement
      cases kind
      case startTransaction => cases hstarts
      case commit => cases hends
      case rollback => cases hends
      all_goals exact if_neg hstatus
    have hsilent : firstSimpleAnswer (E := E) statement statusFreeHooks = pure none := by
      obtain ⟨kind, text⟩ := statement
      cases kind <;> first | rfl | exact nomatch hearly
    have hrun : answerStatement defaultHooks statement s = runStatement statement s := by
      unfold answerStatement
      rw [run_bind_ok hfirst, hnone]
    have hown : answerStatement (E := E) statusFreeHooks statement = runStatement statement := by
      unfold answerStatement
      rw [hsilent]
      rfl
    rw [hrun, hown]

end Turns

section Runs
variable {E : Engine} {hooks : List (QueryHook E)}

private theorem answerStatements_results (statements : List Statement) (results : List Response) :
    answerStatements hooks results statements =
      Except.map (results ++ ·) <$> answerStatements hooks [] statements := by
  induction statements generalizing results with
  | nil =>
    simp only [answerStatements, map_pure, Except.map, List.append_nil]
  | cons statement statements ih =>
    simp only [answerStatements, map_bind]
    congr 1
    funext answer
    cases answer with
    | error failure => simp only [map_pure, Except.map]
    | ok response =>
      dsimp only
      rw [ih, ih ([] ++ [response])]
      simp only [Functor.map_map]
      congr 1
      funext rest
      cases rest with
      | error failure => rfl
      | ok responses => simp only [Except.map, List.nil_append, List.append_assoc]

private theorem answerStatements_failed {statement : Statement} {s s' : Connection E}
    {failure : Failure} (h : answerStatement hooks statement s = .ok (.error failure) s')
    (statements : List Statement) :
    answerStatements hooks [] (statement :: statements) s = .ok (.error failure) s' := by
  unfold answerStatements
  rw [run_bind_ok h]
  rfl

private theorem answerStatements_answered {statement : Statement} {s s' : Connection E}
    {response : Response} (h : answerStatement hooks statement s = .ok (.ok response) s')
    (statements : List Statement) :
    answerStatements hooks [] (statement :: statements) s =
      (Except.map (response :: ·) <$> answerStatements hooks [] statements) s' := by
  rw [answerStatements, run_bind_ok h]
  dsimp only
  rw [answerStatements_results]
  rfl

section Messages
variable [WireLoop E]

private theorem onQuery_run {statements : List Statement} (hne : statements ≠ [])
    {s s' : Connection E} {answer : Except Failure (List Response)}
    (h : answerStatements hooks [] statements s = .ok answer s') :
    onQuery hooks (.ok statements) s =
      .ok answer (s'.withStatus (s'.transactionStatus.after answer)) := by
  have hquery : doSimpleQuery hooks (.ok statements) = answerStatements hooks [] statements := by
    cases statements with
    | nil => exact absurd rfl hne
    | cons statement statements => rfl
  rw [onQuery_documented, hquery, DocumentedLoop.onQuery, run_bind_ok h]
  rfl

private theorem sendBatch_run {statements : List Statement} (hne : statements ≠ [])
    {s s' : Connection E} {answer : Except Failure (List Response)}
    (h : answerStatements hooks [] statements s = .ok answer s') :
    sendBatch hooks statements s = .ok
      (match answer with
        | .error _ => ([], true)
        | .ok responses => (responses.filterMap Response.kind, false))
      (s'.withStatus (s'.transactionStatus.after answer)) := by
  unfold sendBatch
  rw [run_bind_ok (onQuery_run hne h)]
  cases answer <;> rfl

private theorem sendOneByOne_failed {statement : Statement} {s s' : Connection E}
    {failure : Failure} (h : answerStatement hooks statement s = .ok (.error failure) s')
    (statements : List Statement) :
    sendOneByOne hooks (statement :: statements) s =
      .ok ([], true) (s'.withStatus s'.transactionStatus.afterError) := by
  unfold sendOneByOne
  rw [run_bind_ok (onQuery_run (List.cons_ne_nil _ _) (answerStatements_failed h []))]
  rfl

private theorem sendOneByOne_answered {statement : Statement} {s s' : Connection E}
    {response : Response} (h : answerStatement hooks statement s = .ok (.ok response) s')
    (statements : List Statement) :
    sendOneByOne hooks (statement :: statements) s =
      ((fun (answers : List AnswerKind × Bool) =>
        (response.kind.toList ++ answers.1, answers.2)) <$> sendOneByOne hooks statements)
        (s'.withStatus (s'.transactionStatus.afterResponse response)) := by
  have hrun : answerStatements hooks [] [statement] s = .ok (.ok [response]) s' := by
    rw [answerStatements_answered h]
    rfl
  have hkinds : [response].filterMap Response.kind = response.kind.toList := by
    cases response <;> rfl
  rw [sendOneByOne, run_bind_ok (onQuery_run (List.cons_ne_nil _ _) hrun), map_eq_pure_bind,
    ← hkinds]
  rfl

end Messages
end Runs

section Agreement
variable {E : Engine}

private theorem own_run (statement : Statement) (s : Connection E) :
    ∃ answer s', answerStatement statusFreeHooks statement s = .ok answer s' ∧
      ∀ status, answerStatement statusFreeHooks statement (s.withStatus status) =
        .ok answer (s'.withStatus status) :=
  statusFreeHooks_statusFree statement s

private theorem own_run_ok {statement : Statement} {s s' : Connection E} {answer : Answer}
    (h : answerStatement statusFreeHooks statement s = .ok answer s') (status : TransactionStatus) :
    answerStatement statusFreeHooks statement (s.withStatus status) =
      .ok answer (s'.withStatus status) := by
  obtain ⟨answer', s'', hrun, hput⟩ := own_run statement s
  rw [h] at hrun
  cases hrun
  exact hput status

private theorem own_plain {statement : Statement} {s s' : Connection E} {response : Response}
    (h : answerStatement statusFreeHooks statement s = .ok (.ok response) s') :
    response.plain = true :=
  ((AnswerErrors.any E).answerStatement statement).value h

private theorem afterResponse_of_plain {response : Response} (h : response.plain = true)
    (status : TransactionStatus) : status.afterResponse response = status := by
  cases response <;> first | rfl | exact nomatch h

private theorem afterResponse_of_kind {response response' : Response}
    (h : response.kind = response'.kind) (status : TransactionStatus) :
    status.afterResponse response = status.afterResponse response' := by
  cases response <;> cases response' <;> first | rfl | exact nomatch h

private theorem filterMap_kind_cons (response : Response) (responses : List Response) :
    (response :: responses).filterMap Response.kind =
      response.kind.toList ++ responses.filterMap Response.kind := by
  cases response <;> rfl

private theorem own_turn {statement : Statement} {s s' : Connection E} {answer : Answer}
    (hstarts : startsTransaction statement.kind = false)
    (hends : endsTransaction statement.kind = false)
    (h : answerStatement statusFreeHooks statement s = .ok answer s') {status : TransactionStatus}
    (hrefused : ¬ Refused status statement) :
    answerStatement defaultHooks statement (s.withStatus status) =
      .ok answer (s'.withStatus status) := by
  rw [answerStatement_own hstarts hends hrefused]
  exact own_run_ok h status

variable [WireLoop E]

/-- From connections that differ in the status alone, the batch and the single messages all
succeed, with the same kinds of answers. -/
def InStep (before now : TransactionStatus) (statements : List Statement) (s : Connection E) :
    Prop :=
  ∃ (responses : List Response) (s' : Connection E),
    answerStatements defaultHooks [] statements (s.withStatus before) =
      .ok (.ok responses) (s'.withStatus before) ∧
    sendOneByOne defaultHooks statements (s.withStatus now) =
      .ok (responses.filterMap Response.kind, false)
        (s'.withStatus (responses.foldl TransactionStatus.afterResponse now))

private theorem InStep.cons {before now : TransactionStatus} {statement : Statement}
    {statements : List Statement} {s s' : Connection E} {response response' : Response}
    (hbatch : answerStatement defaultHooks statement (s.withStatus before) =
      .ok (.ok response) (s'.withStatus before))
    (hsingle : answerStatement defaultHooks statement (s.withStatus now) =
      .ok (.ok response') (s'.withStatus now))
    (hkind : response.kind = response'.kind)
    (hrest : InStep before (now.afterResponse response) statements s') :
    InStep before now (statement :: statements) s := by
  obtain ⟨responses, s'', hbatch', hsingle'⟩ := hrest
  refine ⟨response :: responses, s'', ?_, ?_⟩
  · rw [answerStatements_answered hbatch, map_eq_pure_bind, run_bind_ok hbatch']
    rfl
  · rw [sendOneByOne_answered hsingle, map_eq_pure_bind, filterMap_kind_cons, hkind]
    rw [afterResponse_of_kind hkind] at hsingle'
    rw [Connection.withStatus_transactionStatus, Connection.withStatus_withStatus,
      run_bind_ok hsingle', List.foldl_cons, afterResponse_of_kind hkind]
    rfl

private theorem inStep_of_inPlace {before : TransactionStatus} {statements : List Statement}
    {now : TransactionStatus} {s : Connection E} (hnow : before ≠ .error → now ≠ .error)
    (hplace : InPlace before now statements) (hclean : RunsClean statements s) :
    InStep before now statements s := by
  induction statements generalizing now s with
  | nil => exact ⟨[], s, rfl, rfl⟩
  | cons statement statements ih =>
    rw [InPlace] at hplace
    rw [RunsClean] at hclean
    cases hstarts : startsTransaction statement.kind with
    | true =>
      rw [if_pos hstarts] at hplace
      rw [if_pos (.inl hstarts)] at hclean
      obtain ⟨hbefore, rfl, hplace⟩ := hplace
      have hturn := answerStatement_starts (s := s.withStatus now) hstarts
      rw [Connection.withStatus_transactionStatus] at hturn
      have hrest := ih (fun _ => TransactionStatus.noConfusion) hplace hclean
      cases now with
      | idle => exact .cons hturn hturn rfl hrest
      | transaction => exact .cons hturn hturn rfl hrest
      | error => exact absurd rfl hbefore
    | false =>
      rw [if_neg (by rw [hstarts]; exact Bool.false_ne_true)] at hplace
      cases hends : endsTransaction statement.kind with
      | true =>
        rw [if_pos hends] at hplace
        rw [if_pos (.inr hends)] at hclean
        obtain ⟨tag, hbatch⟩ := answerStatement_ends hends (s.withStatus before)
        obtain ⟨tag', hsingle⟩ := answerStatement_ends hends (s.withStatus now)
        exact .cons hbatch hsingle rfl (ih (fun _ => TransactionStatus.noConfusion) hplace hclean)
      | false =>
        rw [if_neg (by rw [hends]; exact Bool.false_ne_true)] at hplace
        rw [if_neg (by rw [hstarts, hends]; decide)] at hclean
        obtain ⟨hrefused, hplace⟩ := hplace
        obtain ⟨response, s', hown, hclean⟩ := hclean
        have hrefused' : ¬ Refused now statement := by
          rintro ⟨hnow', hearly, -⟩
          exact hrefused ⟨by_contra fun h => hnow h hnow', hearly, hends⟩
        have hrest := ih hnow hplace hclean
        rw [← afterResponse_of_plain (own_plain hown) now] at hrest
        exact .cons (own_turn hstarts hends hown hrefused) (own_turn hstarts hends hown hrefused')
          rfl hrest

omit [WireLoop E] in
private theorem answerStatements_cons_inv {statement : Statement} {statements : List Statement}
    {s s' b : Connection E} {answer : Answer} {responses : List Response}
    (hturn : answerStatement defaultHooks statement s = .ok answer s')
    (h : answerStatements defaultHooks [] (statement :: statements) s = .ok (.ok responses) b) :
    ∃ response rest, answer = .ok response ∧ responses = response :: rest ∧
      answerStatements defaultHooks [] statements s' = .ok (.ok rest) b := by
  cases answer with
  | error failure =>
    rw [answerStatements_failed hturn] at h
    cases h
  | ok response =>
    rw [answerStatements_answered hturn] at h
    obtain ⟨answers, hrest, hanswers⟩ := run_map_eq_ok h
    cases answers with
    | error failure => cases hanswers
    | ok rest =>
      cases hanswers
      exact ⟨response, rest, rfl, rfl, hrest⟩

private theorem sendOneByOne_cons_inv {statement : Statement} {statements : List Statement}
    {s s' o : Connection E} {answer : Answer} {kinds : List AnswerKind}
    (hturn : answerStatement defaultHooks statement s = .ok answer s')
    (h : sendOneByOne defaultHooks (statement :: statements) s = .ok (kinds, false) o) :
    ∃ response rest, answer = .ok response ∧ kinds = response.kind.toList ++ rest ∧
      sendOneByOne defaultHooks statements
        (s'.withStatus (s'.transactionStatus.afterResponse response)) = .ok (rest, false) o := by
  cases answer with
  | error failure =>
    rw [sendOneByOne_failed hturn] at h
    cases h
  | ok response =>
    rw [sendOneByOne_answered hturn] at h
    obtain ⟨⟨rest, failed⟩, hrest, hanswers⟩ := run_map_eq_ok h
    cases hanswers
    exact ⟨response, rest, rfl, rfl, hrest⟩

private theorem inPlace_of_success {before : TransactionStatus} {statements : List Statement}
    {now : TransactionStatus} {s b o : Connection E} {responses : List Response}
    (hnow : before ≠ .error → now ≠ .error)
    (hbatch : answerStatements defaultHooks [] statements (s.withStatus before) =
      .ok (.ok responses) b)
    (hsingle : sendOneByOne defaultHooks statements (s.withStatus now) =
      .ok (responses.filterMap Response.kind, false) o) :
    InPlace before now statements ∧ RunsClean statements s := by
  induction statements generalizing now s responses with
  | nil => exact ⟨trivial, trivial⟩
  | cons statement statements ih =>
    rw [InPlace, RunsClean]
    cases hstarts : startsTransaction statement.kind with
    | true =>
      rw [if_pos rfl, if_pos (.inl rfl)]
      have hturn : ∀ status, answerStatement defaultHooks statement (s.withStatus status) = _ :=
        fun status => answerStatement_starts (s := s.withStatus status) hstarts
      obtain ⟨response, rest, hresponse, rfl, hbatch'⟩ :=
        answerStatements_cons_inv (hturn before) hbatch
      obtain ⟨response', kinds, hresponse', hkinds, hsingle'⟩ :=
        sendOneByOne_cons_inv (hturn now) hsingle
      rw [filterMap_kind_cons] at hkinds
      rw [Connection.withStatus_transactionStatus] at hresponse hresponse'
      have hrest : sendOneByOne defaultHooks statements (s.withStatus .transaction) =
            .ok (rest.filterMap Response.kind, false) o →
          InPlace before .transaction statements ∧ RunsClean statements s :=
        ih (fun _ => TransactionStatus.noConfusion) hbatch'
      cases before <;> cases now <;> cases hresponse <;> cases hresponse' <;> cases hkinds
      · obtain ⟨hplace, hclean⟩ := hrest hsingle'
        exact ⟨⟨TransactionStatus.noConfusion, rfl, hplace⟩, hclean⟩
      · obtain ⟨hplace, hclean⟩ := hrest hsingle'
        exact ⟨⟨TransactionStatus.noConfusion, rfl, hplace⟩, hclean⟩
    | false =>
      rw [if_neg Bool.false_ne_true]
      cases hends : endsTransaction statement.kind with
      | true =>
        rw [if_pos rfl, if_pos (.inr rfl)]
        obtain ⟨tag, hturn⟩ := answerStatement_ends hends (s.withStatus before)
        obtain ⟨tag', hturn'⟩ := answerStatement_ends hends (s.withStatus now)
        obtain ⟨response, rest, hresponse, rfl, hbatch'⟩ := answerStatements_cons_inv hturn hbatch
        obtain ⟨response', kinds, hresponse', hkinds, hsingle'⟩ :=
          sendOneByOne_cons_inv hturn' hsingle
        cases hresponse
        cases hresponse'
        cases hkinds
        exact ih (s := s) (fun _ => TransactionStatus.noConfusion) hbatch' hsingle'
      | false =>
        rw [if_neg Bool.false_ne_true, if_neg (by decide)]
        obtain ⟨answer, s', hown, -⟩ := own_run statement s
        have hrefused : ¬ Refused before statement := by
          intro h
          have hturn := answerStatement_refused (s := s.withStatus before) h
          obtain ⟨_, _, hfailed, -⟩ := answerStatements_cons_inv hturn hbatch
          cases hfailed
        have hrefused' : ¬ Refused now statement := by
          intro h
          have hturn := answerStatement_refused (s := s.withStatus now) h
          obtain ⟨_, _, hfailed, -⟩ := sendOneByOne_cons_inv hturn hsingle
          cases hfailed
        obtain ⟨response, rest, rfl, rfl, hbatch'⟩ :=
          answerStatements_cons_inv (own_turn hstarts hends hown hrefused) hbatch
        obtain ⟨response', kinds, hresponse', hkinds, hsingle'⟩ :=
          sendOneByOne_cons_inv (own_turn hstarts hends hown hrefused') hsingle
        cases hresponse'
        rw [filterMap_kind_cons, List.append_cancel_left_eq] at hkinds
        rw [Connection.withStatus_transactionStatus, Connection.withStatus_withStatus,
          afterResponse_of_plain (own_plain hown), ← hkinds] at hsingle'
        obtain ⟨hplace, hclean⟩ := ih hnow hbatch' hsingle'
        exact ⟨⟨hrefused, hplace⟩, response, s', hown, hclean⟩

omit [WireLoop E] in
private theorem firstFails_iff {statement : Statement} {statements : List Statement}
    {s : Connection E} : FirstFails (statement :: statements) s ↔
      ∃ failure s', answerStatement defaultHooks statement s = .ok (.error failure) s' := by
  constructor
  · rintro (hrefused | ⟨hstarts, hends, failure, s', hown⟩)
    · exact ⟨_, s, answerStatement_refused hrefused⟩
    · by_cases hrefused : Refused s.transactionStatus statement
      · exact ⟨_, s, answerStatement_refused hrefused⟩
      · exact ⟨failure, s', by rw [answerStatement_own hstarts hends hrefused, hown]⟩
  · rintro ⟨failure, s', hturn⟩
    by_cases hrefused : Refused s.transactionStatus statement
    · exact .inl hrefused
    · cases hstarts : startsTransaction statement.kind with
      | true =>
        rw [answerStatement_starts hstarts] at hturn
        cases hs : s.transactionStatus with
        | error => exact .inl ⟨hs, early_of_starts hstarts⟩
        | idle => simp only [hs, reduceCtorEq, EStateM.Result.ok.injEq, false_and] at hturn
        | transaction => simp only [hs, reduceCtorEq, EStateM.Result.ok.injEq, false_and] at hturn
      | false =>
        cases hends : endsTransaction statement.kind with
        | true =>
          obtain ⟨tag, hturn'⟩ := answerStatement_ends hends s
          rw [hturn'] at hturn
          cases hturn
        | false =>
          rw [answerStatement_own hstarts hends hrefused] at hturn
          exact .inr ⟨hstarts, hends, failure, s', hturn⟩

omit [WireLoop E] in
private theorem kind_of_answer {statement : Statement} {s s' : Connection E} {response : Response}
    (h : answerStatement defaultHooks statement s = .ok (.ok response) s') :
    response.kind ≠ none := by
  intro hkind
  by_cases hrefused : Refused s.transactionStatus statement
  · rw [answerStatement_refused hrefused] at h
    cases h
  · cases hstarts : startsTransaction statement.kind with
    | true =>
      rw [answerStatement_starts hstarts] at h
      cases hs : s.transactionStatus <;> rw [hs] at h <;> cases h <;> cases hkind
    | false =>
      cases hends : endsTransaction statement.kind with
      | true =>
        obtain ⟨tag, hturn⟩ := answerStatement_ends hends s
        rw [hturn] at h
        cases h
        cases hkind
      | false =>
        rw [answerStatement_own hstarts hends hrefused] at h
        have hplain := own_plain h
        cases response <;> first | cases hkind; done | cases hplain

private theorem agrees_of_firstFails {statements : List Statement} {s : Connection E}
    (h : FirstFails statements s) : Agrees defaultHooks statements s := by
  cases statements with
  | nil => exact h.elim
  | cons statement statements =>
    obtain ⟨failure, s', hturn⟩ := firstFails_iff.mp h
    exact ⟨([], true), _, _,
      sendBatch_run (List.cons_ne_nil _ _) (answerStatements_failed hturn statements),
      sendOneByOne_failed hturn statements, rfl⟩

private theorem agrees_of_inStep {statements : List Statement} {s : Connection E}
    (h : InStep s.transactionStatus s.transactionStatus statements s) :
    Agrees defaultHooks statements s := by
  obtain ⟨responses, s', hbatch, hsingle⟩ := h
  rw [Connection.withStatus_self] at hbatch hsingle
  cases statements with
  | nil =>
    have hempty : sendBatch defaultHooks [] s = .ok ([], false) s := by
      rw [sendBatch, onQuery_documented]
      rfl
    exact ⟨([], false), s, s, hempty, rfl, rfl⟩
  | cons statement statements =>
    exact ⟨_, _, _, sendBatch_run (List.cons_ne_nil _ _) hbatch, hsingle, rfl⟩

private theorem condition_of_agrees {statements : List Statement} {s : Connection E}
    (h : Agrees defaultHooks statements s) :
    FirstFails statements s ∨
      InPlace s.transactionStatus s.transactionStatus statements ∧ RunsClean statements s := by
  obtain ⟨answers, b, o, hbatch, hsingle, -⟩ := h
  cases statements with
  | nil => exact .inr ⟨trivial, trivial⟩
  | cons statement statements =>
    cases hrun : answerStatements defaultHooks [] (statement :: statements) s with
    | error e s' =>
      obtain ⟨answer, s'', hquery, -⟩ := run_bind_eq_ok hbatch
      rw [onQuery_documented] at hquery
      obtain ⟨answer', t, hrun', -⟩ := run_bind_eq_ok hquery
      change answerStatements defaultHooks [] (statement :: statements) s = _ at hrun'
      rw [hrun] at hrun'
      cases hrun'
    | ok answer s' =>
      rw [sendBatch_run (List.cons_ne_nil _ _) hrun] at hbatch
      cases answer with
      | ok responses =>
        cases hbatch
        exact .inr (inPlace_of_success id hrun hsingle)
      | error failure =>
        cases hbatch
        left
        rw [firstFails_iff]
        cases hturn : answerStatement defaultHooks statement s with
        | error e s'' =>
          rw [answerStatements, run_bind_error hturn] at hrun
          cases hrun
        | ok answer s'' =>
          cases answer with
          | error failure' => exact ⟨failure', s'', rfl⟩
          | ok response =>
            rw [sendOneByOne_answered hturn] at hsingle
            obtain ⟨rest, -, hanswers⟩ := run_map_eq_ok hsingle
            injection hanswers with hkinds _
            cases hkind : response.kind with
            | none => exact absurd hkind (kind_of_answer hturn)
            | some kind =>
              rw [hkind] at hkinds
              cases hkinds

/-- A batch does what its statements do one by one exactly when its first statement fails,
or when none fails and each is in its place. -/
theorem sendBatch_agrees_iff (statements : List Statement) (s : Connection E) :
    Agrees defaultHooks statements s ↔
      FirstFails statements s ∨
        InPlace s.transactionStatus s.transactionStatus statements ∧ RunsClean statements s := by
  constructor
  · exact condition_of_agrees
  · rintro (hfails | ⟨hplace, hclean⟩)
    · exact agrees_of_firstFails hfails
    · exact agrees_of_inStep (inStep_of_inPlace id hplace hclean)

/-- `BEGIN`, then a statement that does not parse as a query of the engine. -/
def beginThenFailing : List Statement := [⟨.startTransaction, "BEGIN"⟩, ⟨.query, "SELECT x"⟩]

/-- The batch leaves the connection idle, the single messages leave it in an aborted block. -/
theorem beginThenFailing_not_agrees :
    (∃ b o, sendBatch defaultHooks beginThenFailing (referenceConnection .idle) = .ok ([], true) b ∧
      b.transactionStatus = .idle ∧
      sendOneByOne defaultHooks beginThenFailing (referenceConnection .idle) =
        .ok ([.transactionStart], true) o ∧
      o.transactionStatus = .error) ∧
    ¬ Agrees defaultHooks beginThenFailing (referenceConnection .idle) := by
  refine ⟨⟨_, _, rfl, rfl, rfl, rfl⟩, ?_⟩
  rintro ⟨answers, b, o, hbatch, hsingle, -⟩
  cases hbatch
  cases hsingle

end Agreement
end DatafusionPostgres.Session

import DatafusionPostgres.Library.Run
import DatafusionPostgres.Session.CursorSlices
import DatafusionPostgres.Session.LeftParts

/-! The rows of a cursor over whole runs of a connection: where each of them goes. -/
namespace DatafusionPostgres.Session
open ArrowPg Library PgCatalog

section Readers
variable {E : Engine}

def Response.rows : Response → List DataRow
  | .query response => response.rows.filterMap Except.toOption
  | _ => []

def fetchesFrom (cursorName : String) : StatementKind → Bool
  | .fetch name _ => name == cursorName
  | _ => false

/-- The rows of the cursor in the responses to a batch. -/
def fetchedRows (cursorName : String) : List Statement → List Response → List DataRow
  | statement :: statements, response :: responses =>
    (if fetchesFrom cursorName statement.kind then response.rows else []) ++
      fetchedRows cursorName statements responses
  | _, _ => []

/-- The portal is one of a FETCH from the cursor that has not been run yet. -/
def StoredPortal.fetchesFrom (cursorName : String) (portal : StoredPortal E) : Bool :=
  portal.response.isNone &&
    portal.statement.2.any fun stored => Session.fetchesFrom cursorName stored.1.kind

/-- The rows of the cursor in the responses to a message. -/
def Message.fetchedRows (cursorName : String) (s : Connection E) (responses : List Response) :
    Message E → List DataRow
  | .query (.ok statements) => Session.fetchedRows cursorName statements responses
  | .execute portalName _ =>
    if portalName = cursorName then responses.flatMap Response.rows
    else if (s.portals.get portalName).join.any (StoredPortal.fetchesFrom cursorName) then
      responses.flatMap Response.rows
    else []
  | _ => []

/-- A connection, with the rows of the cursor that the client has been given. -/
structure Reader (E : Engine) where
  connection : Connection E
  rows : List DataRow

def Reader.step [WireLoop E] (cursorName : String) (reader : Reader E) (message : Message E) : Reader E :=
  match message.handle defaultHooks reader.connection with
  | .ok responses connection =>
    ⟨connection,
      reader.rows ++ message.fetchedRows cursorName reader.connection responses⟩
  | .error _ connection => ⟨connection, reader.rows⟩

/-- The statement neither opens a cursor under the name nor closes the one there is. -/
def KeepsCursor (cursorName : String) : StatementKind → Prop
  | .declare stmts => ∀ declare ∈ stmts, cursorName ∉ declare.names.head?
  | .close .all => False
  | .close (.specific name) => name ≠ cursorName
  | _ => True

/-- The message keeps the cursor open. A FETCH in a portal is executed for all of its rows. -/
def Message.KeepsCursor (cursorName : String) (reader : Reader E) : Message E → Prop
  | .query (.ok statements) =>
    ∀ statement ∈ statements, Session.KeepsCursor cursorName statement.kind
  | .bind portal => portal.name ≠ cursorName
  | .close portalName => portalName ≠ cursorName
  | .execute portalName maxRows => portalName = cursorName ∨
    ∀ portal statement plan, reader.connection.portals.get portalName = some (some portal) →
      portal.response = none → portal.statement.2 = some (statement, plan) →
      Session.KeepsCursor cursorName statement.kind ∧
        (fetchesFrom cursorName statement.kind = true → maxRows = 0)
  | _ => True

/-- A batch with a FETCH from the cursor is answered, or is this one statement: an error takes
the place of the rows fetched before it. -/
def Message.AnswersFetches (cursorName : String) (reader : Reader E) : Message E → Prop
  | .query (.ok statements) =>
    (∃ statement ∈ statements, fetchesFrom cursorName statement.kind = true) →
      statements.length ≤ 1 ∨ ∃ responses s',
        doSimpleQuery defaultHooks (.ok statements) reader.connection = .ok (.ok responses) s'
  | _ => True

end Readers

section Statements
variable {E : Engine} {cursorName : String} {fields : List FieldInfo} {scans : Bool}
  {rows : List DataRow} {s : Connection E}

/-- A part of a run takes these rows from the cursor, and leaves the others. -/
private def Takes (cursorName : String) (fields : List FieldInfo) (scans : Bool)
    (rows taken : List DataRow) (s' : Connection E) : Prop :=
  ∃ left, rows = taken ++ left ∧ CursorAt s' cursorName fields scans left

private theorem Takes.of_portals {taken : List DataRow} {s' : Connection E}
    (h : Takes cursorName fields scans rows taken s)
    (hportals : s'.portals.get cursorName = s.portals.get cursorName) :
    Takes cursorName fields scans rows taken s' := by
  obtain ⟨left, hrows, portal, hget, hresponse⟩ := h
  exact ⟨left, hrows, portal, hportals.trans hget, hresponse⟩

private theorem takes_nothing (h : CursorAt s cursorName fields scans rows) {s' : Connection E}
    (hportals : s'.portals.get cursorName = s.portals.get cursorName) :
    Takes cursorName fields scans rows [] s' :=
  Takes.of_portals ⟨rows, rfl, h⟩ hportals

private theorem Takes.trans {taken left taken' : List DataRow} {s' : Connection E}
    (hrows : rows = taken ++ left) (h : Takes cursorName fields scans left taken' s') :
    Takes cursorName fields scans rows (taken ++ taken') s' := by
  obtain ⟨left', rfl, hcursor⟩ := h
  exact ⟨left', hrows.trans (List.append_assoc _ _ _).symm, hcursor⟩

private theorem rows_slice (fields : List FieldInfo) (scans : Bool) (rows : List DataRow) :
    (Response.query ⟨fields, rows.map .ok, scans⟩).rows = rows := by
  rw [Response.rows, List.filterMap_map]
  exact List.filterMap_some

/-- What an answer gives of the rows that were taken for it: all of them, and an error of the
statement itself stands for none. -/
private def GivesRows (counts : Bool) (taken : List DataRow) : Answer → Prop
  | .ok response => (if counts then response.rows else []) = taken
  | .error _ => taken = []

private theorem givesRows_nothing (answer : Answer) : GivesRows false [] answer := by
  cases answer <;> rfl

variable (hfetch : ∀ (rows : List DataRow) (limit : Nat),
    E.fetchRows (some (rows.map .ok)) limit =
      .ok ((takeRows limit rows).1.map .ok, (takeRows limit rows).2.map .ok))
include hfetch

private theorem fetchPortal_takes {portal : StoredPortal E} (hname : portal.name = cursorName)
    (hresponse : portal.response = some ⟨fields, rows.map .ok, scans⟩) (maxRows : Nat)
    (s : Connection E) :
    ∃ answer s' taken, fetchPortal portal maxRows s = .ok answer s' ∧
      Takes cursorName fields scans rows taken s' ∧ GivesRows true taken answer := by
  have hrun := fetchPortal_of_ok hresponse (hfetch rows maxRows) s
  rw [hname] at hrun
  refine ⟨_, _, (takeRows maxRows rows).1, hrun, ⟨(takeRows maxRows rows).2,
    (takeRows_append maxRows rows).symm, _, HashMap.get_insert_self _ _ _, rfl⟩, rows_slice _ _ _⟩

private theorem handleFetch_takes (hcursor : CursorAt s cursorName fields scans rows)
    (direction : FetchDirection) :
    ∃ answer s' taken, handleFetch cursorName direction s = .ok answer s' ∧
      Takes cursorName fields scans rows taken s' ∧ GivesRows true taken answer := by
  cases hmax : fetchMaxRows direction with
  | error error =>
    refine ⟨.error (.err error), s, [], ?_, takes_nothing hcursor rfl, rfl⟩
    rw [handleFetch, hmax]
    rfl
  | ok maxRows =>
    obtain ⟨portal, hportal, hresponse⟩ := hcursor
    have hnamed : ({ portal with name := cursorName } : StoredPortal E).name = cursorName := rfl
    rw [handleFetch_of_get hmax hportal]
    exact fetchPortal_takes hfetch hnamed hresponse _ s

omit hfetch in
private theorem hooksSpare_of_keepsCursor {statement : Statement}
    (hkeeps : KeepsCursor cursorName statement.kind)
    (hother : fetchesFrom cursorName statement.kind = false) :
    HooksSpare (fun s : Connection E => s.portals.get cursorName) statement := by
  refine ⟨?_, fun _ _ _ _ _ => rfl, fun _ _ => ⟨fun _ _ _ => rfl, fun _ _ _ _ => rfl⟩⟩
  obtain ⟨kind, text⟩ := statement
  cases kind with
  | declare stmts =>
    intro declare hmem name hname
    apply ignoresPortal_get
    rintro rfl
    exact hkeeps declare hmem hname
  | fetch name direction =>
    apply ignoresPortal_get
    rintro rfl
    exact absurd (beq_self_eq_true cursorName) (Bool.eq_false_iff.mp hother)
  | close cursor =>
    cases cursor with
    | all => exact hkeeps.elim
    | specific name => exact ignoresPortal_get (Ne.symm hkeeps)
  | _ => trivial

private theorem firstSimpleAnswer_takes (hcursor : CursorAt s cursorName fields scans rows)
    {statement : Statement} (hkeeps : KeepsCursor cursorName statement.kind) :
    ∃ answer s' taken, firstSimpleAnswer statement defaultHooks s = .ok answer s' ∧
      Takes cursorName fields scans rows taken s' ∧
      match answer with
      | some answer => GivesRows (fetchesFrom cursorName statement.kind) taken answer
      | none => taken = [] ∧ fetchesFrom cursorName statement.kind = false := by
  cases hother : fetchesFrom cursorName statement.kind with
  | false =>
    obtain ⟨answer, s', hrun, hleft⟩ :=
      firstSimpleAnswer_leaves (hooksSpare_of_keepsCursor (E := E) hkeeps hother) s
    refine ⟨answer, s', [], hrun, takes_nothing hcursor hleft, ?_⟩
    rcases answer with _ | _ | response
    · exact ⟨rfl, rfl⟩
    · rfl
    · rfl
  | true =>
    obtain ⟨kind, text⟩ := statement
    cases kind with
    | fetch name direction =>
      obtain rfl : name = cursorName := beq_iff_eq.mp hother
      obtain ⟨answer, s', taken, hrun, htakes, hgives⟩ :=
        handleFetch_takes hfetch hcursor direction
      refine ⟨some answer, s', taken, ?_, htakes, hgives⟩
      rw [firstSimpleAnswer_fetch, map_eq_pure_bind, run_bind_ok hrun]
      rfl
    | _ => cases hother

private theorem answerStatement_takes (hcursor : CursorAt s cursorName fields scans rows)
    {statement : Statement} (hkeeps : KeepsCursor cursorName statement.kind) :
    ∃ answer s' taken, answerStatement defaultHooks statement s = .ok answer s' ∧
      Takes cursorName fields scans rows taken s' ∧
      GivesRows (fetchesFrom cursorName statement.kind) taken answer := by
  obtain ⟨answer, s', taken, hrun, htakes, hgives⟩ :=
    firstSimpleAnswer_takes hfetch hcursor hkeeps
  rw [answerStatement, run_bind_ok hrun]
  cases answer with
  | some answer => exact ⟨answer, s', taken, rfl, htakes, hgives⟩
  | none =>
    obtain ⟨rfl, hother⟩ := hgives
    have hcontext : IgnoresContext fun s : Connection E => s.portals.get cursorName :=
      fun _ _ _ => rfl
    obtain ⟨answer, s'', hrun', hleft⟩ := runStatement_leaves hcontext statement s'
    refine ⟨answer, s'', [], hrun', htakes.of_portals hleft, ?_⟩
    rw [hother]
    exact givesRows_nothing answer

private theorem answerStatements_takes (hcursor : CursorAt s cursorName fields scans rows)
    {statements : List Statement}
    (hkeeps : ∀ statement ∈ statements, KeepsCursor cursorName statement.kind)
    (results : List Response) :
    ∃ answer s' taken, answerStatements defaultHooks results statements s = .ok answer s' ∧
      Takes cursorName fields scans rows taken s' ∧
      (∀ responses, answer = .ok responses → ∃ more, responses = results ++ more ∧
        fetchedRows cursorName statements more = taken) ∧
      (∀ failure, answer = .error failure → statements.length ≤ 1 → taken = []) ∧
      ((∀ statement ∈ statements, fetchesFrom cursorName statement.kind = false) →
        taken = []) := by
  induction statements generalizing s rows results with
  | nil =>
    refine ⟨.ok results, s, [], rfl, takes_nothing hcursor rfl, ?_, nofun, fun _ => rfl⟩
    rintro _ ⟨⟩
    exact ⟨[], (List.append_nil results).symm, rfl⟩
  | cons statement statements ih =>
    obtain ⟨answer, s', taken, hrun, htakes, hgives⟩ :=
      answerStatement_takes hfetch hcursor (hkeeps statement List.mem_cons_self)
    rw [answerStatements, run_bind_ok hrun]
    cases answer with
    | error failure =>
      exact ⟨.error failure, s', taken, rfl, htakes, nofun, fun _ _ _ => hgives, fun _ => hgives⟩
    | ok response =>
      obtain ⟨left, hrows, hcursor'⟩ := htakes
      obtain ⟨answer', s'', taken', hrun', htakes', hgiven, hlost, hother⟩ :=
        ih hcursor' (fun statement' hmem => hkeeps statement' (List.mem_cons_of_mem _ hmem))
          (results ++ [response])
      refine ⟨answer', s'', taken ++ taken', hrun', .trans hrows htakes', ?_, ?_, ?_⟩
      · intro responses hresponses
        obtain ⟨more, rfl, hmore⟩ := hgiven responses hresponses
        refine ⟨response :: more, List.append_assoc _ _ _, ?_⟩
        rw [fetchedRows, hmore]
        exact congrArg (· ++ taken') hgives
      · intro failure hfailure hlength
        obtain rfl : statements = [] := List.eq_nil_of_length_eq_zero (Nat.le_zero.mp
          (Nat.le_of_succ_le_succ hlength))
        cases hrun'
        cases hfailure
      · intro hnone
        obtain ⟨hfirst, hrest⟩ := List.forall_mem_cons.mp hnone
        rw [hfirst] at hgives
        rw [hother hrest, ← (show [] = taken from hgives), List.nil_append]

end Statements

section Messages
variable {E : Engine} {cursorName : String} {fields : List FieldInfo} {scans : Bool}
  {rows : List DataRow} {s : Connection E}
  (hfetch : ∀ (rows : List DataRow) (limit : Nat),
    E.fetchRows (some (rows.map .ok)) limit =
      .ok ((takeRows limit rows).1.map .ok, (takeRows limit rows).2.map .ok))
include hfetch

private theorem doSimpleQuery_takes (hcursor : CursorAt s cursorName fields scans rows)
    {statements : List Statement}
    (hkeeps : ∀ statement ∈ statements, KeepsCursor cursorName statement.kind) :
    ∃ answer s' taken, doSimpleQuery defaultHooks (.ok statements) s = .ok answer s' ∧
      Takes cursorName fields scans rows taken s' ∧
      (∀ responses, answer = .ok responses →
        fetchedRows cursorName statements responses = taken) ∧
      (∀ failure, answer = .error failure → statements.length ≤ 1 → taken = []) ∧
      ((∀ statement ∈ statements, fetchesFrom cursorName statement.kind = false) →
        taken = []) := by
  cases statements with
  | nil =>
    refine ⟨_, s, [], rfl, takes_nothing hcursor rfl, ?_, nofun, fun _ => rfl⟩
    rintro _ ⟨⟩
    rfl
  | cons statement statements =>
    obtain ⟨answer, s', taken, hrun, htakes, hgiven, hlost⟩ :=
      answerStatements_takes hfetch hcursor hkeeps []
    refine ⟨answer, s', taken, hrun, htakes, fun responses hresponses => ?_, hlost⟩
    obtain ⟨more, rfl, hmore⟩ := hgiven responses hresponses
    exact hmore

private theorem doExtendedQuery_takes (hcursor : CursorAt s cursorName fields scans rows)
    {portal : StoredPortal E}
    (hkeeps : ∀ statement plan, portal.statement.2 = some (statement, plan) →
      KeepsCursor cursorName statement.kind) :
    ∃ answer s' taken, doExtendedQuery defaultHooks portal s = .ok answer s' ∧
      Takes cursorName fields scans rows taken s' ∧
      GivesRows (portal.statement.2.any fun stored => fetchesFrom cursorName stored.1.kind) taken
        answer := by
  cases hportal : portal.statement.2 with
  | none =>
    rw [doExtendedQuery_empty hportal]
    exact ⟨_, s, [], rfl, takes_nothing hcursor rfl, rfl⟩
  | some stored =>
    obtain ⟨statement, plan⟩ := stored
    rw [Option.any_some]
    cases hparams : portalParams portal plan with
    | error failure =>
      rw [doExtendedQuery_undecoded hportal hparams]
      exact ⟨_, s, [], rfl, takes_nothing hcursor rfl, rfl⟩
    | ok params =>
      obtain ⟨answer, s', taken, hrun, htakes, hgives⟩ :=
        firstSimpleAnswer_takes hfetch hcursor (hkeeps statement plan hportal)
      rw [doExtendedQuery_params hportal hparams, run_bind_ok hrun]
      cases answer with
      | some answer => exact ⟨answer, s', taken, rfl, htakes, hgives⟩
      | none =>
        obtain ⟨rfl, hother⟩ := hgives
        have hcontext : IgnoresContext fun s : Connection E => s.portals.get cursorName :=
          fun _ _ _ => rfl
        obtain ⟨answer, s'', hrun', hleft⟩ := runPlan_leaves hcontext portal statement plan s'
        refine ⟨answer, s'', [], hrun', htakes.of_portals hleft, ?_⟩
        rw [hother]
        exact givesRows_nothing answer

omit hfetch in
private theorem fetchPortal_other {portal : StoredPortal E} (hne : portal.name ≠ cursorName)
    (maxRows : Nat) (s : Connection E) :
    ∃ answer s', fetchPortal portal maxRows s = .ok answer s' ∧
      s'.portals.get cursorName = s.portals.get cursorName :=
  fetchPortal_leaves (ignoresPortal_get (Ne.symm hne)) maxRows s

omit hfetch in
private theorem onExecute_unstarted [WireLoop E] {hooks : List (QueryHook E)} {portalName : String}
    {portal : StoredPortal E} (hget : s.portals.get portalName = some (some portal))
    (hresponse : portal.response = none) {answer : Answer} {s' : Connection E}
    (hrun : doExtendedQuery hooks portal s = .ok answer s') (maxRows : Nat) :
    onExecute hooks portalName maxRows s =
      (match answer with
        | .ok (.query response) =>
          if maxRows = 0 then pure answer
          else fetchPortal { portal with name := portalName, response := some response } maxRows
        | _ => pure answer)
        { s' with transactionStatus :=
          s'.transactionStatus.after (answer.map fun response => [response]) } := by
  have hportals : Handler.portals s = .ok s.portals s := rfl
  have hsettle : DocumentedLoop.settle (answer.map fun response => [response]) s' = .ok ⟨⟩
      { s' with transactionStatus :=
        s'.transactionStatus.after (answer.map fun response => [response]) } := rfl
  rw [onExecute_documented, DocumentedLoop.onExecute, run_bind_ok hportals, hget]
  dsimp only
  rw [hresponse]
  dsimp only
  rw [run_bind_ok hrun]
  exact run_bind_ok hsettle _

private theorem onExecute_other_takes [WireLoop E] (hcursor : CursorAt s cursorName fields scans rows)
    {portalName : String} (hname : portalName ≠ cursorName) {portal : StoredPortal E}
    (hget : s.portals.get portalName = some (some portal)) (hresponse : portal.response = none)
    {maxRows : Nat} (hkeeps : ∀ statement plan, portal.statement.2 = some (statement, plan) →
      KeepsCursor cursorName statement.kind ∧
        (fetchesFrom cursorName statement.kind = true → maxRows = 0)) :
    ∃ answer s' taken, onExecute defaultHooks portalName maxRows s = .ok answer s' ∧
      Takes cursorName fields scans rows taken s' ∧
      GivesRows (portal.statement.2.any fun stored => fetchesFrom cursorName stored.1.kind) taken
        answer := by
  obtain ⟨answer, s', taken, hrun, htakes, hgives⟩ := doExtendedQuery_takes hfetch hcursor
    fun statement plan hstatement => (hkeeps statement plan hstatement).1
  rw [onExecute_unstarted hget hresponse hrun]
  by_cases hlimited : maxRows ≠ 0 ∧ ∃ response, answer = .ok (.query response)
  · obtain ⟨hlimit, response, rfl⟩ := hlimited
    have hother : portal.statement.2.any (fun stored =>
        fetchesFrom cursorName stored.1.kind) = false := by
      cases hstatement : portal.statement.2 with
      | none => rfl
      | some stored =>
        exact eq_false_of_ne_true fun hfetches =>
          hlimit ((hkeeps stored.1 stored.2 hstatement).2 hfetches)
    rw [hother] at hgives ⊢
    obtain rfl : [] = taken := hgives
    have hnamed : ({ portal with name := portalName, response := some response } :
        StoredPortal E).name ≠ cursorName := hname
    dsimp only
    rw [if_neg hlimit]
    obtain ⟨answer', s'', hrun', hleft⟩ := fetchPortal_other hnamed maxRows
      { s' with transactionStatus :=
          s'.transactionStatus.after (Except.map (fun response => [response])
            (.ok (.query response))) }
    exact ⟨answer', s'', [], hrun', htakes.of_portals hleft, givesRows_nothing answer'⟩
  · refine ⟨answer, { s' with transactionStatus :=
      s'.transactionStatus.after (answer.map fun response => [response]) }, taken, ?_,
      htakes.of_portals rfl, hgives⟩
    rcases answer with failure | _ | response | _ | _ | _
    · rfl
    · rfl
    · have hlimit : maxRows = 0 := by
        by_contra hlimit
        exact hlimited ⟨hlimit, response, rfl⟩
      dsimp only
      rw [if_pos hlimit]
      rfl
    · rfl
    · rfl
    · rfl

private theorem onExecute_takes [WireLoop E] (hcursor : CursorAt s cursorName fields scans rows)
    {portalName : String} {maxRows : Nat}
    (hkeeps : portalName = cursorName ∨
      ∀ portal statement plan, s.portals.get portalName = some (some portal) →
        portal.response = none → portal.statement.2 = some (statement, plan) →
        KeepsCursor cursorName statement.kind ∧
          (fetchesFrom cursorName statement.kind = true → maxRows = 0)) :
    ∃ answer s' taken, onExecute defaultHooks portalName maxRows s = .ok answer s' ∧
      Takes cursorName fields scans rows taken s' ∧
      GivesRows (portalName = cursorName ||
          (s.portals.get portalName).join.any (StoredPortal.fetchesFrom cursorName)) taken
        answer := by
  have hportals : Handler.portals s = .ok s.portals s := rfl
  by_cases hname : portalName = cursorName
  · subst hname
    obtain ⟨⟨name, statement, bound, format, response⟩, hget, hresponse⟩ := hcursor
    obtain rfl : response = _ := hresponse
    have hnamed : (⟨portalName, statement, bound, format, some ⟨fields, rows.map .ok, scans⟩⟩ :
        StoredPortal E).name = portalName := rfl
    rw [decide_eq_true rfl, Bool.true_or, onExecute_documented,
      DocumentedLoop.onExecute, run_bind_ok hportals, hget]
    exact fetchPortal_takes hfetch hnamed rfl maxRows s
  · have hkeeps := hkeeps.resolve_left hname
    rw [decide_eq_false hname, Bool.false_or]
    rcases hget : s.portals.get portalName with _ | _ | portal
    · have hrun : onExecute defaultHooks portalName maxRows s = .ok (.error (.err
          (.apiError [.text ("Portal not found for name: " ++ portalName)]))) s := by
        rw [onExecute_documented, DocumentedLoop.onExecute, run_bind_ok hportals, hget]
        rfl
      exact ⟨_, s, [], hrun, takes_nothing hcursor rfl, givesRows_nothing _⟩
    · have hrun : onExecute defaultHooks portalName maxRows s = .ok (.ok .emptyQuery) s := by
        rw [onExecute_documented, DocumentedLoop.onExecute, run_bind_ok hportals, hget]
        rfl
      exact ⟨_, s, [], hrun, takes_nothing hcursor rfl, givesRows_nothing _⟩
    · rw [Option.join_some, Option.any_some, StoredPortal.fetchesFrom]
      cases hresponse : portal.response with
      | none =>
        exact onExecute_other_takes hfetch hcursor hname hget hresponse
          fun statement plan => hkeeps portal statement plan hget hresponse
      | some response =>
        have hnamed : ({ portal with name := portalName } : StoredPortal E).name ≠ cursorName :=
          hname
        obtain ⟨answer, s', hrun, hleft⟩ := fetchPortal_other hnamed maxRows s
        refine ⟨answer, s', [], ?_, takes_nothing hcursor hleft, givesRows_nothing answer⟩
        rw [onExecute_documented, DocumentedLoop.onExecute, run_bind_ok hportals, hget, ← hrun]
        dsimp only
        rw [hresponse]

omit hfetch in
private theorem step_of_handle [WireLoop E] {got : List DataRow} {message : Message E}
    {responses : List Response} {s' : Connection E}
    (hrun : message.handle defaultHooks s = .ok responses s') :
    Reader.step cursorName ⟨s, got⟩ message =
      ⟨s', got ++ message.fetchedRows cursorName s responses⟩ := by
  unfold Reader.step
  rw [hrun]

omit hfetch in
private theorem handle_query [WireLoop E] {parsed : Except DataFusionError (List Statement)}
    {answer : Except Failure (List Response)} {s' : Connection E}
    (hrun : doSimpleQuery defaultHooks parsed s = .ok answer s') :
    (Message.query parsed).handle defaultHooks s = .ok (answer.toOption.getD [])
      { s' with transactionStatus := s'.transactionStatus.after answer } := by
  have hquery : onQuery defaultHooks parsed s =
      .ok answer { s' with transactionStatus := s'.transactionStatus.after answer } := by
    rw [onQuery_documented, DocumentedLoop.onQuery, run_bind_ok hrun]
    rfl
  rw [Message.handle, run_bind_ok hquery]
  cases answer <;> rfl

omit hfetch in
private theorem fetchedRows_nil (statements : List Statement) :
    fetchedRows cursorName statements [] = [] := by
  cases statements <;> rfl

omit hfetch in
private theorem fetchedRows_execute [WireLoop E] {portalName : String} {maxRows : Nat}
    {answer : Answer} {taken : List DataRow}
    (hgives : GivesRows (portalName = cursorName ||
      (s.portals.get portalName).join.any (StoredPortal.fetchesFrom cursorName)) taken answer) :
    (Message.execute portalName maxRows).fetchedRows cursorName s answer.toOption.toList =
      taken := by
  have hrows : (Message.execute portalName maxRows).fetchedRows cursorName s
      answer.toOption.toList = if (portalName = cursorName ||
        (s.portals.get portalName).join.any (StoredPortal.fetchesFrom cursorName))
      then answer.toOption.toList.flatMap Response.rows else [] := by
    rw [Message.fetchedRows]
    by_cases hname : portalName = cursorName
    · simp [hname]
    · simp [hname]
  rw [hrows]
  cases answer with
  | error failure => exact (ite_self _).trans (Eq.symm hgives)
  | ok response =>
    have hone : (Except.ok response : Answer).toOption.toList.flatMap Response.rows =
        response.rows := List.append_nil response.rows
    rw [hone]
    exact hgives

omit hfetch in
private theorem step_takes_nothing [WireLoop E] (hcursor : CursorAt s cursorName fields scans rows)
    (got : List DataRow) {message : Message E} {responses : List Response} {s' : Connection E}
    (hrun : message.handle defaultHooks s = .ok responses s')
    (hgiven : message.fetchedRows cursorName s responses = [])
    (hleft : s'.portals.get cursorName = s.portals.get cursorName) :
    ∃ s' taken given, Reader.step cursorName ⟨s, got⟩ message = ⟨s', got ++ given⟩ ∧
      Takes cursorName fields scans rows taken s' ∧ (given = taken ∨ given = []) ∧
      (message.AnswersFetches cursorName ⟨s, got⟩ → given = taken) := by
  rw [step_of_handle hrun, hgiven]
  exact ⟨s', [], [], rfl, takes_nothing hcursor hleft, .inl rfl, fun _ => rfl⟩

private theorem step_takes [WireLoop E] (hcursor : CursorAt s cursorName fields scans rows)
    (got : List DataRow) {message : Message E} (hkeeps : message.KeepsCursor cursorName ⟨s, got⟩) :
    ∃ s' taken given, Reader.step cursorName ⟨s, got⟩ message = ⟨s', got ++ given⟩ ∧
      Takes cursorName fields scans rows taken s' ∧ (given = taken ∨ given = []) ∧
      (message.AnswersFetches cursorName ⟨s, got⟩ → given = taken) := by
  cases message with
  | query parsed =>
    rcases parsed with error | statements
    · exact step_takes_nothing hcursor got (handle_query rfl) rfl rfl
    · obtain ⟨answer, s', taken, hrun, htakes, hgiven, hlost, hother⟩ :=
        doSimpleQuery_takes hfetch hcursor hkeeps
      rw [step_of_handle (handle_query hrun)]
      refine ⟨_, taken, _, rfl, htakes.of_portals rfl, ?_⟩
      cases answer with
      | ok responses =>
        have hall := hgiven responses rfl
        exact ⟨.inl hall, fun _ => hall⟩
      | error failure =>
        refine ⟨.inr (fetchedRows_nil statements), fun hanswers => ?_⟩
        refine (fetchedRows_nil statements).trans (Eq.symm ?_)
        by_cases hfetches : ∃ statement ∈ statements, fetchesFrom cursorName statement.kind = true
        · rcases hanswers hfetches with hone | ⟨responses, s'', hok⟩
          · exact hlost failure rfl hone
          · cases hrun.symm.trans hok
        · exact hother fun statement hmem =>
            eq_false_of_ne_true fun h => hfetches ⟨statement, hmem, h⟩
  | parse parsed =>
    have hparse : Leaves id (parseSql (E := E) defaultHooks parsed) := parseSql_leaves _ _
    obtain ⟨statement, s', hrun, rfl⟩ := hparse s
    exact step_takes_nothing hcursor got (run_bind_ok hrun _) rfl rfl
  | bind portal =>
    have hbind : onBind portal s = DocumentedLoop.onBind portal s := by rw [onBind_documented]
    exact step_takes_nothing hcursor got (run_bind_ok (hbind.trans rfl) _) rfl
      (HashMap.get_insert_of_ne _ (Ne.symm hkeeps) _)
  | execute portalName maxRows =>
    obtain ⟨answer, s', taken, hrun, htakes, hgives⟩ := onExecute_takes hfetch hcursor hkeeps
    have hhandle : (Message.execute portalName maxRows).handle defaultHooks s =
        .ok answer.toOption.toList s' := by
      rw [Message.handle, run_bind_ok hrun]
      cases answer <;> rfl
    rw [step_of_handle hhandle, fetchedRows_execute hgives]
    exact ⟨s', taken, taken, rfl, htakes, .inl rfl, fun _ => rfl⟩
  | close portalName =>
    have hclose : onClose portalName s = DocumentedLoop.onClose portalName s := by
      rw [onClose_documented]
    exact step_takes_nothing hcursor got (run_bind_ok (hclose.trans rfl) _) rfl
      ((HashMap.get_remove _ _ _).trans (if_neg (Ne.symm hkeeps)))

/-- What the client has been given, with what the cursor has left, is what there was at the
start but for the rows of batches that failed. -/
private def Accounted (cursorName : String) (fields : List FieldInfo) (scans : Bool)
    (rows : List DataRow) (reader : Reader E) : Prop :=
  ∃ left, CursorAt reader.connection cursorName fields scans left ∧
    (reader.rows ++ left).Sublist rows

private def Complete (cursorName : String) (fields : List FieldInfo) (scans : Bool)
    (rows : List DataRow) (reader : Reader E) : Prop :=
  ∃ left, CursorAt reader.connection cursorName fields scans left ∧ reader.rows ++ left = rows

private theorem step_accounted [WireLoop E] {reader : Reader E}
    (h : Accounted cursorName fields scans rows reader) {message : Message E}
    (hkeeps : message.KeepsCursor cursorName reader) :
    Accounted cursorName fields scans rows (reader.step cursorName message) := by
  obtain ⟨s, got⟩ := reader
  obtain ⟨left, hcursor, hsub⟩ := h
  obtain ⟨s', taken, given, hstep, ⟨left', rfl, hcursor'⟩, hgiven, -⟩ :=
    step_takes hfetch hcursor got hkeeps
  rw [hstep]
  refine ⟨left', hcursor', List.Sublist.trans ?_ hsub⟩
  have hsome : given.Sublist taken := by
    rcases hgiven with rfl | rfl
    · exact .refl _
    · exact List.nil_sublist _
  dsimp only
  rw [List.append_assoc]
  exact (List.Sublist.refl got).append (hsome.append (.refl left'))

private theorem step_complete [WireLoop E] {reader : Reader E}
    (h : Complete cursorName fields scans rows reader) {message : Message E}
    (hkeeps : message.KeepsCursor cursorName reader)
    (hanswers : message.AnswersFetches cursorName reader) :
    Complete cursorName fields scans rows (reader.step cursorName message) := by
  obtain ⟨s, got⟩ := reader
  obtain ⟨left, hcursor, hrows⟩ := h
  obtain ⟨s', taken, given, hstep, ⟨left', rfl, hcursor'⟩, -, hall⟩ :=
    step_takes hfetch hcursor got hkeeps
  obtain rfl := hall hanswers
  rw [hstep]
  exact ⟨left', hcursor', (List.append_assoc _ _ _).trans hrows⟩

omit hfetch in
private theorem CursorAt.unique {left left' : List DataRow}
    (h : CursorAt s cursorName fields scans left) (h' : CursorAt s cursorName fields scans left') :
    left = left' := by
  obtain ⟨portal, hget, hresponse⟩ := h
  obtain ⟨portal', hget', hresponse'⟩ := h'
  obtain rfl := Option.some.inj (Option.some.inj (hget.symm.trans hget'))
  have hrows := congrArg QueryResponse.rows (Option.some.inj (hresponse.symm.trans hresponse'))
  exact List.map_injective_iff.mpr (fun _ _ => Except.ok.inj) hrows

/-- As long as a cursor is open, the client is given its rows in their order and none of them
twice, by whichever statements and portals it asks; and it misses none, unless a batch fails
that fetched some. -/
theorem cursorRows_conserved [WireLoop E] (hcursor : CursorAt s cursorName fields scans rows)
    {messages : List (Message E)}
    (hkeeps : StepsMeet (Reader.step cursorName)
      (fun reader message => message.KeepsCursor cursorName reader) ⟨s, []⟩ messages) :
    let reader := run (Reader.step cursorName) ⟨s, []⟩ messages
    ∃ left, CursorAt reader.connection cursorName fields scans left ∧
      (reader.rows ++ left).Sublist rows ∧
      (StepsMeet (Reader.step cursorName)
          (fun reader message => message.AnswersFetches cursorName reader) ⟨s, []⟩ messages →
        reader.rows ++ left = rows) := by
  have haccounted : ∀ reader (message : Message E), message.KeepsCursor cursorName reader →
      Accounted cursorName fields scans rows reader →
      Accounted cursorName fields scans rows (reader.step cursorName message) :=
    fun _ _ hkeeps h => step_accounted hfetch h hkeeps
  obtain ⟨left, hleft, hsub⟩ := run_invariant_of haccounted hkeeps ⟨rows, hcursor, .refl rows⟩
  refine ⟨left, hleft, hsub, fun hanswers => ?_⟩
  have hcomplete : ∀ reader (message : Message E),
      message.KeepsCursor cursorName reader ∧ message.AnswersFetches cursorName reader →
      Complete cursorName fields scans rows reader →
      Complete cursorName fields scans rows (reader.step cursorName message) :=
    fun _ _ hmeets h => step_complete hfetch h hmeets.1 hmeets.2
  obtain ⟨left', hleft', hall⟩ :=
    run_invariant_of hcomplete (hkeeps.and hanswers) ⟨rows, hcursor, rfl⟩
  rw [hleft.unique hleft']
  exact hall

omit hfetch

/-- `FETCH 1`, a row by Execute, and `FETCH ALL`, among other statements. -/
private def mixedFetches : List (Message referenceEngine) :=
  [.query (.ok [⟨.fetch "c" (.count (.number "1")), "FETCH 1 FROM c"⟩, ⟨.showCatalogs, ""⟩]),
    .execute "c" 1, .query (.ok [⟨.query, "SELECT 1"⟩]),
    .query (.ok [⟨.fetch "c" .all, "FETCH ALL FROM c"⟩])]

theorem cursorRows_conserved_mixed :
    let reader := run (Reader.step "c")
      ⟨cursorConnection [[none], [some []], [some [49]]], []⟩ mixedFetches
    ∃ left, CursorAt reader.connection "c" [] false left ∧
      (reader.rows ++ left).Sublist [[none], [some []], [some [49]]] ∧
      (StepsMeet (Reader.step "c") (fun reader message => message.AnswersFetches "c" reader)
          ⟨cursorConnection [[none], [some []], [some [49]]], []⟩ mixedFetches →
        reader.rows ++ left = [[none], [some []], [some [49]]]) := by
  refine cursorRows_conserved referenceEngine_fetchRows (cursorAt_cursorConnection _)
    ⟨?_, .inl rfl, ?_, ?_, trivial⟩
  · exact List.forall_mem_cons.mpr ⟨trivial, List.forall_mem_singleton.mpr trivial⟩
  · exact List.forall_mem_singleton.mpr trivial
  · exact List.forall_mem_singleton.mpr trivial

end Messages
end DatafusionPostgres.Session

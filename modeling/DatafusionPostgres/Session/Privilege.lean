import DatafusionPostgres.Auth.Permission
import DatafusionPostgres.Session.Aborted

/-! What a user without any privilege can make a session read. -/
namespace DatafusionPostgres.Session
open ArrowPg Library Auth PgCatalog

section Messages
variable {E : Engine}

/-- What a client sends: a Query with what its text parses to, or the messages of the
extended protocol, where a Bind names whatever its Parse gave. -/
inductive Message (E : Engine) where
  | query (parsed : Except DataFusionError (List Statement))
  | parse (parsed : Except DataFusionError (List Statement))
  | bind (portal : StoredPortal E)
  | execute (portalName : String) (maxRows : Nat)
  | close (portalName : String)

/-- A connection with all responses that it has given. -/
structure Exchange (E : Engine) where
  connection : Connection E
  responses : List Response

section Handling
variable [WireLoop E]

/-- The responses to a message; an error is none. -/
def Message.handle (hooks : List (QueryHook E)) : Message E → Handler E (List Response)
  | .query parsed => do
    match ← onQuery hooks parsed with
    | .error _ => return []
    | .ok responses => return responses
  | .parse parsed => do
    let _ ← parseSql hooks parsed
    return []
  | .bind portal => do
    onBind portal
    return []
  | .execute portalName maxRows => do
    match ← onExecute hooks portalName maxRows with
    | .error _ => return []
    | .ok response => return [response]
  | .close portalName => do
    onClose portalName
    return []

def Exchange.step (hooks : List (QueryHook E)) (x : Exchange E) (message : Message E) :
    Exchange E :=
  match message.handle hooks x.connection with
  | .ok responses connection => ⟨connection, x.responses ++ responses⟩
  | .error _ connection => ⟨connection, x.responses⟩

end Handling

/-- A connection of the user that has run nothing and opened no portal. -/
structure FreshFor (username : String) (s : Connection E) : Prop where
  user : clientUser s.metadata = username
  executed : s.executed = []
  portals : s.portals = .empty

/-- No registered table has been read, and no row of one has been returned. -/
structure Exchange.ReadsNothing (x : Exchange E) : Prop where
  executed : ∀ read ∈ x.connection.executed, read = false
  responses : ∀ response, .query response ∈ x.responses → response.scans = false

end Messages

section Condition
variable {E : Engine}

/-- Neither running the statement nor executing its frame reads a registered table. -/
def Unread (E : Engine) (done : SqlRun E.Context E.DataFrame) : Prop :=
  done.scanned = false ∧ ∀ frame, done.result = .ok frame → E.scans frame = false

/-- The FOR query of the declaration, if it is run. -/
def DeclareReadsNothing (declare : Declare) (s : Connection E) : Prop :=
  ∀ forQuery, declare.declareType = some .cursor → declare.names ≠ [] →
    declare.forQuery = some forQuery → Unread E (E.sql none forQuery s.context)

def DeclaresReadNothing : List Declare → Connection E → Prop
  | [], _ => True
  | declare :: stmts, s => DeclareReadsNothing declare s ∧
    ∀ s', declareCursor declare s = .ok none s' → DeclaresReadNothing stmts s'

/-- The plan of a SET that is left to the engine. -/
def SetReadsNothing (statement : Statement) (s : Connection E) : Prop :=
  ∀ plan, (E.statementToPlan statement s.context >>= fun plan => E.optimize plan s.context) =
    .ok plan → (E.executeLogicalPlan none plan s.context).scanned = false

/-- A statement that is open to all users reads nothing where it is run: by the hooks
itself, or with `engineRun` by the engine. -/
def StatementReadsNothing (statement : Statement) (s : Connection E)
    (engineRun : SqlRun E.Context E.DataFrame → Prop) : Prop :=
  match statement.kind with
  | .declare stmts => DeclaresReadNothing stmts s
  | .set _ => SetReadsNothing statement s
  | .showStatus | .savepoint | .releaseSavepoint | .other =>
    s.transactionStatus ≠ .error → ∀ done, engineRun done → Unread E done
  | _ => True

/-- `runStatement` runs the text of the statement. -/
def simpleRun (statement : Statement) (s : Connection E)
    (done : SqlRun E.Context E.DataFrame) : Prop :=
  done = E.sql (getStatementTimeout s.metadata) statement.text s.context

/-- `runPlan` runs the plan of the portal with its parameters. -/
def extendedRun (portal : StoredPortal E) (plan : E.Plan) (s : Connection E)
    (done : SqlRun E.Context E.DataFrame) : Prop :=
  ∃ params optimised, portalParams portal plan = .ok params ∧
    (E.replaceParamsWithValues plan params >>= fun plan => E.optimize plan s.context) =
      .ok optimised ∧
    done = E.executeLogicalPlan (getStatementTimeout s.metadata) optimised s.context

/-- Each statement of a batch, in the connection in which its turn comes. -/
def BatchReadsNothing (hooks : List (QueryHook E)) : List Statement → Connection E → Prop
  | [], _ => True
  | statement :: statements, s =>
    StatementReadsNothing statement s (simpleRun statement s) ∧
      ∀ response s', answerStatement hooks statement s = .ok (.ok response) s' →
        BatchReadsNothing hooks statements s'

def PortalReadsNothing (portal : StoredPortal E) (s : Connection E) : Prop :=
  ∀ statement plan, portal.response = none → portal.statement.2 = some (statement, plan) →
    StatementReadsNothing statement s (extendedRun portal plan s)

def Message.ReadsNothing (hooks : List (QueryHook E)) (message : Message E) (s : Connection E) :
    Prop :=
  match message with
  | .query (.ok statements) => BatchReadsNothing hooks statements s
  | .execute portalName _ =>
    ∀ portal, s.portals.get portalName = some (some portal) → PortalReadsNothing portal s
  | _ => True

end Condition

/-- The invariant of an exchange with the user: nothing has been read, and no open portal
holds rows of a registered table. -/
structure Guarded {E : Engine} (username : String) (s : Connection E) : Prop where
  user : clientUser s.metadata = username
  executed : ∀ read ∈ s.executed, read = false
  portals : ∀ name portal response, s.portals.get name = some (some portal) →
    portal.response = some response → response.scans = false

/-- The answer holds no row of a registered table. -/
def Harmless (answer : Answer) : Prop :=
  ∀ response, answer = .ok (.query response) → response.scans = false

theorem Harmless.error (failure : Failure) : Harmless (.error failure) := fun _ h => nomatch h

theorem Harmless.execution (tag : Tag) : Harmless (.ok (.execution tag)) := fun _ h => nomatch h

theorem Harmless.query {response : QueryResponse} (h : response.scans = false) :
    Harmless (.ok (.query response)) := by
  rintro _ ⟨⟩
  exact h

namespace Guarded
variable {E : Engine} {username : String} {s : Connection E}

theorem withStatus (h : Guarded username s) (status : TransactionStatus) :
    Guarded username { s with transactionStatus := status } := ⟨h.user, h.executed, h.portals⟩

theorem withMetadata (h : Guarded username s) {metadata : HashMap String String}
    (huser : metadata.get "user" = s.metadata.get "user") :
    Guarded username { s with metadata } where
  user := by
    have hsame : clientUser metadata = clientUser s.metadata := by
      unfold clientUser
      rw [huser]
    exact hsame.trans h.user
  executed := h.executed
  portals := h.portals

theorem withPortal (h : Guarded username s) (name : String) {stored : Option (StoredPortal E)}
    (hstored : ∀ portal response, stored = some portal → portal.response = some response →
      response.scans = false) :
    Guarded username { s with portals := s.portals.insert name stored } where
  user := h.user
  executed := h.executed
  portals := by
    intro name' portal response hget hresponse
    rw [HashMap.get_insert] at hget
    split at hget
    · exact hstored portal response (Option.some.inj hget) hresponse
    · exact h.portals name' portal response hget hresponse

theorem withoutPortal (h : Guarded username s) (name : String) :
    Guarded username { s with portals := s.portals.remove name } where
  user := h.user
  executed := h.executed
  portals := by
    intro name' portal response hget hresponse
    rw [HashMap.get_remove] at hget
    split at hget
    · cases hget
    · exact h.portals name' portal response hget hresponse

theorem withoutPortals (h : Guarded username s) : Guarded username { s with portals := .empty } :=
  ⟨h.user, h.executed, fun _ _ _ hget => nomatch hget⟩

theorem withRead (h : Guarded username s) (context : E.Context) {read : Bool}
    (hread : read = false) :
    Guarded username { s with context, executed := s.executed ++ [read] } where
  user := h.user
  executed := by
    intro read' hmem
    rcases List.mem_append.mp hmem with hmem | hmem
    · exact h.executed read' hmem
    · rw [List.mem_singleton.mp hmem, hread]
  portals := h.portals

end Guarded

/-- From `s` the program keeps the invariant, and returns a value within `Q`. -/
abbrev Keeps {E : Engine} {α : Type} (username : String) (prog : Handler E α) (s : Connection E)
    (Q : α → Prop) : Prop :=
  Meets prog s (fun a s' => Q a ∧ Guarded username s') (Guarded username)

section Primitives
variable {E : Engine} {username : String} {s : Connection E}

private theorem keeps_pure {α : Type} {Q : α → Prop} {a : α} (h : Guarded username s) (ha : Q a) :
    Keeps username (pure a : Handler E α) s Q := Meets.pure ⟨ha, h⟩

private theorem keeps_run {α : Type} {Q : α → Prop} {prog : Handler E α} {a : α}
    {s' : Connection E} (hrun : prog s = .ok a s') (ha : Q a) (hs' : Guarded username s') :
    Keeps username prog s Q := by
  unfold Keeps Meets
  rw [hrun]
  exact ⟨ha, hs'⟩

private theorem keeps_bind {α β : Type} {R : α → Prop} {Q : β → Prop} {prog : Handler E α}
    {next : α → Handler E β} (hprog : Keeps username prog s R)
    (hnext : ∀ a s', R a → Guarded username s' → Keeps username (next a) s' Q) :
    Keeps username (prog >>= next) s Q := by
  apply Meets.bind
  apply hprog.mono
  rintro a s' ⟨ha, hs'⟩
  exact hnext a s' ha hs'

private theorem keeps_sendMessage (h : Guarded username s) (message : ParameterStatus) :
    Keeps username (Handler.sendMessage (E := E) message) s fun _ => True := by
  apply Meets.modifyGet
  split
  · exact ⟨trivial, h.user, h.executed, h.portals⟩
  · exact ⟨trivial, h⟩

private theorem keeps_runOnContext (h : Guarded username s)
    (run : E.Context → SqlRun E.Context E.DataFrame) (hrun : (run s.context).scanned = false) :
    Keeps username (Handler.runOnContext run) s fun result => result = (run s.context).result :=
  Meets.modifyGet ⟨rfl, h.withRead _ hrun⟩

private theorem keeps_runFrame {α : Type} (h : Guarded username s) {frame : E.DataFrame}
    (hframe : E.scans frame = false)
    (execute : E.Context → Except DataFusionError α × E.Context) :
    Keeps username (Handler.runFrame frame execute) s fun _ => True :=
  Meets.modifyGet ⟨trivial, h.withRead _ hframe⟩

private theorem keeps_encodeDataframe (h : Guarded username s) {frame : E.DataFrame}
    (hframe : E.scans frame = false) (format : Format) (formatOptions : Option FormatOptions) :
    Keeps username (encodeDataframe frame format formatOptions) s fun result =>
      ∀ response, result = .ok response → response.scans = false := by
  unfold encodeDataframe
  split
  · exact keeps_pure h fun _ hresponse => nomatch hresponse
  · apply keeps_bind (keeps_runFrame h hframe _)
    rintro (error | rows) s' - hs'
    · exact keeps_pure hs' fun _ hresponse => nomatch hresponse
    · apply keeps_pure hs'
      rintro response ⟨⟩
      exact hframe

private theorem keeps_respondWithFrame (h : Guarded username s) (statement : Statement)
    {frame : E.DataFrame} (hframe : E.scans frame = false) (format : Format) :
    Keeps username (respondWithFrame statement frame format) s Harmless := by
  unfold respondWithFrame
  split
  · apply keeps_bind (keeps_runFrame h hframe _)
    rintro (error | count) s' - hs'
    · exact keeps_pure hs' (.error _)
    · exact keeps_pure hs' (.execution _)
  · apply keeps_bind (R := fun _ => True) (Meets.modifyGet ⟨trivial, h⟩)
    rintro metadata s' - hs'
    apply keeps_bind (keeps_encodeDataframe hs' hframe _ _)
    rintro (error | response) s'' hresponse hs''
    · exact keeps_pure hs'' (.error _)
    · exact keeps_pure hs'' (.query (hresponse response rfl))

private theorem keeps_engineRun (h : Guarded username s)
    (run : E.Context → SqlRun E.Context E.DataFrame) (hrun : Unread E (run s.context))
    (statement : Statement) (format : Format) :
    Keeps username (do
      match ← Handler.runOnContext run with
      | .error failure => return .error (.err (sqlError failure))
      | .ok frame => respondWithFrame statement frame format) s Harmless := by
  apply keeps_bind (keeps_runOnContext h run hrun.1)
  rintro (failure | frame) s' hresult hs'
  · exact keeps_pure hs' (.error _)
  · exact keeps_respondWithFrame hs' statement (hrun.2 frame hresult.symm) format

end Primitives

section Cursors
variable {E : Engine} {username : String} {s : Connection E}

private theorem keeps_declareCursor (h : Guarded username s) {declare : Declare}
    (hread : DeclareReadsNothing declare s) :
    Keeps username (declareCursor declare) s fun _ => True := by
  unfold declareCursor
  split
  · exact keeps_pure h trivial
  · rename_i htype
    split
    · exact keeps_pure h trivial
    · rename_i cursorName hname
      split
      · exact keeps_pure h trivial
      · rename_i forQuery hquery
        have hnames : declare.names ≠ [] := by
          intro hnil
          rw [hnil] at hname
          cases hname
        have hrun := hread forQuery (not_not.mp htype) hnames hquery
        apply keeps_bind (keeps_runOnContext h _ hrun.1)
        rintro (failure | frame) s' hresult hs'
        · exact keeps_pure hs' trivial
        · apply keeps_bind (keeps_encodeDataframe hs' (hrun.2 frame hresult.symm) _ _)
          rintro (error | response) s'' hresponse hs''
          · exact keeps_pure hs'' trivial
          · refine keeps_run rfl trivial (hs''.withPortal cursorName ?_)
            rintro portal _ ⟨⟩ ⟨⟩
            exact hresponse response rfl

private theorem keeps_handleDeclare (h : Guarded username s) {stmts : List Declare}
    (hread : DeclaresReadNothing stmts s) : Keeps username (handleDeclare stmts) s Harmless := by
  induction stmts generalizing s with
  | nil => exact keeps_pure h (.execution _)
  | cons declare stmts ih =>
    apply Meets.bind
    apply (keeps_declareCursor h hread.1).with_run.mono
    rintro (_ | error) s' ⟨hrun, -, hs'⟩
    · exact ih hs' (hread.2 s' hrun)
    · exact keeps_pure hs' (.error _)

private theorem keeps_fetchPortal (h : Guarded username s) {portal : StoredPortal E}
    (hportal : ∀ response, portal.response = some response → response.scans = false)
    (maxRows : Nat) : Keeps username (fetchPortal portal maxRows) s Harmless := by
  have hscans : (portal.response.getD ⟨[], [], false⟩).scans = false := by
    cases hr : portal.response with
    | none => rfl
    | some response => exact hportal response hr
  unfold fetchPortal
  split
  · exact keeps_pure h (.error _)
  · refine keeps_run rfl (.query hscans) (h.withPortal _ ?_)
    rintro portal' _ ⟨⟩ ⟨⟩
    exact hscans

private theorem keeps_handleFetch (h : Guarded username s) (cursorName : String)
    (direction : FetchDirection) :
    Keeps username (handleFetch cursorName direction) s Harmless := by
  unfold handleFetch
  split
  · exact keeps_pure h (.error _)
  · refine Meets.bind_run rfl ?_
    split
    · rename_i portal hget
      apply keeps_fetchPortal h
      intro response
      exact h.portals cursorName portal response hget
    · exact keeps_pure h (.error _)
    · exact keeps_pure h (.error _)

private theorem keeps_handleClose (h : Guarded username s) (cursor : CloseCursor) :
    Keeps username (handleClose cursor) s Harmless := by
  cases cursor with
  | all => exact keeps_run rfl (.execution _) h.withoutPortals
  | specific name => exact keeps_run rfl (.execution _) (h.withoutPortal name)

end Cursors

section Settings
variable {E : Engine} {username : String} {s : Connection E}

private theorem keeps_announce (h : Guarded username s) (status : Option ParameterStatus) :
    Keeps username (announce (E := E) status) s Harmless := by
  cases status with
  | none => exact keeps_pure h (.execution _)
  | some status =>
    apply keeps_bind (keeps_sendMessage h status)
    rintro (error | _) s' - hs'
    · exact keeps_pure hs' (.error _)
    · exact keeps_pure hs' (.execution _)

private theorem keeps_executeSetStatement (h : Guarded username s) {statement : Statement}
    (hread : SetReadsNothing statement s) :
    Keeps username (executeSetStatement statement) s fun _ => True := by
  refine Meets.bind_run rfl ?_
  split
  · exact keeps_pure h trivial
  · rename_i plan hplan
    apply keeps_bind (keeps_runOnContext h _ (hread plan hplan))
    rintro (failure | frame) s' - hs'
    · exact keeps_pure hs' trivial
    · exact keeps_pure hs' trivial

private theorem keeps_fallbackSet (h : Guarded username s) {statement : Statement}
    (hread : SetReadsNothing statement s) :
    Keeps username (fallbackSet statement) s Harmless := by
  apply keeps_bind (keeps_executeSetStatement h hread)
  rintro _ s' - hs'
  exact keeps_pure hs' (.execution _)

private theorem ne_user_of_postgresVariables {var : String}
    (h : var ∈ postgresVariables) : "user" ≠ var := by
  rintro rfl
  exact absurd h (by decide)

private theorem keeps_setVariable (h : Guarded username s) {var : String} (hvar : "user" ≠ var)
    (value : String) : Keeps username (setVariable (E := E) var value) s Harmless := by
  refine Meets.bind_run rfl (Meets.bind_run rfl ?_)
  exact keeps_announce (h.withMetadata (HashMap.get_insert_of_ne _ hvar _)) _

private theorem get_user_setTimezone (metadata : HashMap String String) (timezone : String) :
    (setTimezone metadata (some timezone)).get "user" = metadata.get "user" :=
  HashMap.get_insert_of_ne _ (by decide) _

private theorem get_user_setStatementTimeout (metadata : HashMap String String)
    (timeout : Option Nat) :
    (setStatementTimeout metadata timeout).get "user" = metadata.get "user" := by
  cases timeout with
  | none => exact (HashMap.get_remove _ _ _).trans (if_neg (by decide))
  | some timeout => exact HashMap.get_insert_of_ne _ (by decide) _

private theorem keeps_tryRespondSetStatements (h : Guarded username s) {statement : Statement}
    (hread : SetReadsNothing statement s) (set : SetStatement) :
    Keeps username (tryRespondSetStatements statement set) s Harmless := by
  obtain ⟨action, haction, hcases⟩ := tryRespondSetStatements_cases (E := E) statement set
  rw [haction]
  cases hcases with
  | noTimeout => exact keeps_pure h (.error _)
  | timeout => exact keeps_run rfl (.execution _) (h.withMetadata (get_user_setStatementTimeout _ _))
  | kept hvar => exact keeps_setVariable h (ne_user_of_postgresVariables hvar) _
  | timeZone =>
    refine Meets.bind_run rfl (Meets.bind_run rfl ?_)
    exact keeps_announce (h.withMetadata (get_user_setTimezone _ _)) _
  | fallback => exact keeps_fallbackSet h hread

private theorem keeps_tryRespondShowVariable (h : Guarded username s)
    (variableNames : List String) :
    Keeps username (tryRespondShowVariable variableNames) s Harmless := by
  refine Meets.bind_run rfl (Meets.bind_run rfl ?_)
  split
  · exact keeps_pure h (.query rfl)
  · exact keeps_pure h (.error _)

private theorem keeps_tryRespondShowCatalogs (h : Guarded username s) :
    Keeps username (tryRespondShowCatalogs (E := E)) s Harmless :=
  Meets.bind_run rfl (keeps_pure h (.query rfl))

end Settings

section Hooks
variable {E : Engine} {username : String} {s : Connection E} {auth : AuthManager} {fuel : Nat}

private theorem permissionsAnswer_open {statement : Statement}
    (h : requiredPermission statement.kind = none) :
    permissionsAnswer (E := E) auth fuel statement = pure none := by
  unfold permissionsAnswer
  split
  · rfl
  · funext s
    change EStateM.bind (checkStatementPermission auth fuel statement) _ s = _
    unfold checkStatementPermission
    simp only [h]
    rfl

private theorem keeps_permissionsAnswer (h : Guarded username s)
    (hunprivileged : auth.Unprivileged username) {statement : Statement} {permission : Permission}
    (hrequired : requiredPermission statement.kind = some permission) :
    Keeps username (permissionsAnswer auth fuel statement) s fun answer =>
      ∃ e, answer = some (.error (.err e)) := by
  have hskip : shouldSkipPermissionCheck statement.kind = false := by
    cases hkind : statement.kind <;> first | rfl | (rw [hkind] at hrequired; cases hrequired)
  have hcheck : Keeps username (checkStatementPermission (E := E) auth fuel statement) s fun result =>
      ∃ e, result = .error e := by
    refine Meets.bind_run rfl ?_
    rw [hrequired, h.user]
    dsimp only
    cases hanswer : auth.checkPermission fuel username permission .all with
    | none => exact Meets.throw h
    | some answer =>
      cases answer with
      | true => exact absurd hanswer (hunprivileged.not_permitted fuel permission .all)
      | false => exact keeps_pure h ⟨_, rfl⟩
  unfold permissionsAnswer
  rw [hskip, if_neg Bool.false_ne_true]
  apply keeps_bind hcheck
  rintro _ s' ⟨e, rfl⟩ hs'
  exact keeps_pure hs' ⟨e, rfl⟩

/-- What the hooks behind the permission check come to: an answer, or the statement is left
to an engine run that reads nothing, with the connection as it was. -/
structure HooksDone (username : String) (engineRun : SqlRun E.Context E.DataFrame → Prop)
    (s : Connection E) (answer : Option Answer) (s' : Connection E) : Prop where
  guarded : Guarded username s'
  harmless : ∀ a ∈ answer, Harmless a
  unanswered : answer = none → s' = s ∧ ∀ done, engineRun done → Unread E done

private theorem hooksDone_of_some {first : Handler E Answer} (next : Handler E (Option Answer))
    {engineRun : SqlRun E.Context E.DataFrame → Prop} (h : Keeps username first s Harmless) :
    Meets (do match ← some <$> first with | some a => return some a | none => next) s
      (HooksDone username engineRun s) (Guarded username) := by
  rw [map_eq_pure_bind, bind_assoc]
  apply Meets.bind
  apply h.mono
  rintro a s' ⟨ha, hs'⟩
  apply Meets.pure
  refine ⟨hs', ?_, fun hnone => nomatch hnone⟩
  rintro _ ⟨⟩
  exact ha

private theorem transactionAnswer_harmless (status : TransactionStatus) (statement : Statement) :
    ∀ a ∈ transactionAnswer status statement, Harmless a := by
  obtain ⟨kind, text⟩ := statement
  intro a ha response hresponse
  rw [hresponse] at ha
  cases kind <;> cases status <;> cases ha

private theorem engineRun_unread {statement : Statement}
    {engineRun : SqlRun E.Context E.DataFrame → Prop}
    (hrequired : requiredPermission statement.kind = none)
    (hearly : answeredEarly statement.kind = false)
    (hread : StatementReadsNothing statement s engineRun)
    (hanswer : transactionAnswer s.transactionStatus statement = none) :
    ∀ done, engineRun done → Unread E done := by
  have hstatus : s.transactionStatus ≠ .error := by
    intro hstatus
    rw [hstatus] at hanswer
    obtain ⟨kind, text⟩ := statement
    cases kind <;> cases hanswer
  obtain ⟨kind, text⟩ := statement
  cases kind
  case showStatus | savepoint | releaseSavepoint | other => exact hread hstatus
  case startTransaction | commit | rollback =>
    cases hs : s.transactionStatus <;> rw [hs] at hanswer <;> cases hanswer
  case declare | fetch | close | set | showVariable | showCatalogs => cases hearly
  all_goals exact nomatch hrequired

private theorem hooksDone (h : Guarded username s) {statement : Statement}
    {engineRun : SqlRun E.Context E.DataFrame → Prop}
    (hrequired : requiredPermission statement.kind = none)
    (hread : StatementReadsNothing statement s engineRun) :
    Meets (firstSimpleAnswer statement defaultHooks) s (HooksDone username engineRun s)
      (Guarded username) := by
  cases hearly : answeredEarly statement.kind with
  | false =>
    unfold Meets
    rw [firstSimpleAnswer_late hearly]
    exact ⟨h, transactionAnswer_harmless _ _,
      fun hnone => ⟨rfl, engineRun_unread hrequired hearly hread hnone⟩⟩
  | true =>
    obtain ⟨kind, text⟩ := statement
    cases kind
    case declare stmts => exact hooksDone_of_some _ (keeps_handleDeclare h hread)
    case fetch name direction => exact hooksDone_of_some _ (keeps_handleFetch h name direction)
    case close cursor => exact hooksDone_of_some _ (keeps_handleClose h cursor)
    case set set => exact hooksDone_of_some _ (keeps_tryRespondSetStatements h hread set)
    case showVariable names => exact hooksDone_of_some _ (keeps_tryRespondShowVariable h names)
    case showCatalogs =>
      exact hooksDone_of_some (pure none) (keeps_tryRespondShowCatalogs h)
    all_goals exact nomatch hearly

end Hooks

section Queries
variable {E : Engine} {username : String} {s : Connection E} {auth : AuthManager} {fuel : Nat}

private theorem firstSimpleAnswer_open {statement : Statement}
    (h : requiredPermission statement.kind = none) :
    firstSimpleAnswer (E := E) statement (permissionHooks auth fuel) =
      firstSimpleAnswer statement defaultHooks := by
  change permissionsAnswer auth fuel statement >>= _ = _
  rw [permissionsAnswer_open h]
  rfl

private theorem keeps_firstAnswer (h : Guarded username s)
    (hunprivileged : auth.Unprivileged username) {statement : Statement} {permission : Permission}
    (hrequired : requiredPermission statement.kind = some permission) :
    Keeps username (firstSimpleAnswer statement (permissionHooks auth fuel)) s fun answer =>
      ∃ e, answer = some (.error (.err e)) := by
  apply keeps_bind (keeps_permissionsAnswer h hunprivileged hrequired)
  rintro _ s' ⟨e, rfl⟩ hs'
  exact keeps_pure hs' ⟨e, rfl⟩

private theorem keeps_hooked (h : Guarded username s)
    (hunprivileged : auth.Unprivileged username) {statement : Statement}
    {engineRun : SqlRun E.Context E.DataFrame → Prop}
    (hread : StatementReadsNothing statement s engineRun) {unanswered : Handler E Answer}
    (hrun : (∀ done, engineRun done → Unread E done) → Keeps username unanswered s Harmless) :
    Keeps username (do
      match ← firstSimpleAnswer statement (permissionHooks auth fuel) with
      | some answer => return answer
      | none => unanswered) s Harmless := by
  cases hrequired : requiredPermission statement.kind with
  | some permission =>
    apply keeps_bind (keeps_firstAnswer h hunprivileged hrequired)
    rintro _ s' ⟨e, rfl⟩ hs'
    exact keeps_pure hs' (.error _)
  | none =>
    rw [firstSimpleAnswer_open hrequired]
    apply Meets.bind
    apply (hooksDone h hrequired hread).mono
    rintro (_ | answer) s' hdone
    · obtain ⟨rfl, hunread⟩ := hdone.unanswered rfl
      exact hrun hunread
    · exact keeps_pure hdone.guarded (hdone.harmless answer rfl)

private theorem keeps_answerStatement (h : Guarded username s)
    (hunprivileged : auth.Unprivileged username) {statement : Statement}
    (hread : StatementReadsNothing statement s (simpleRun statement s)) :
    Keeps username (answerStatement (permissionHooks auth fuel) statement) s Harmless := by
  apply keeps_hooked h hunprivileged hread
  intro hunread
  refine Meets.bind_run rfl ?_
  exact keeps_engineRun h _ (hunread _ rfl) statement unifiedText

private theorem keeps_answerStatements (h : Guarded username s)
    (hunprivileged : auth.Unprivileged username) {statements : List Statement}
    (hread : BatchReadsNothing (permissionHooks auth fuel) statements s) {results : List Response}
    (hresults : ∀ response, .query response ∈ results → response.scans = false) :
    Keeps username (answerStatements (permissionHooks auth fuel) results statements) s fun answer =>
      ∀ responses, answer = .ok responses →
        ∀ response, .query response ∈ responses → response.scans = false := by
  induction statements generalizing s results with
  | nil =>
    apply keeps_pure h
    rintro _ ⟨⟩
    exact hresults
  | cons statement statements ih =>
    apply Meets.bind
    apply (keeps_answerStatement h hunprivileged hread.1).with_run.mono
    rintro (failure | response) s' ⟨hrun, hharmless, hs'⟩
    · exact keeps_pure hs' fun _ hresponses => nomatch hresponses
    · apply ih hs' (hread.2 response s' hrun)
      intro response' hmem
      rcases List.mem_append.mp hmem with hmem | hmem
      · exact hresults response' hmem
      · exact hharmless response' (congrArg Except.ok (List.mem_singleton.mp hmem).symm)

private theorem keeps_runPlan (h : Guarded username s) {portal : StoredPortal E}
    {statement : Statement} {plan : E.Plan}
    (hunread : ∀ done, extendedRun portal plan s done → Unread E done) :
    Keeps username (runPlan portal statement plan) s Harmless := by
  unfold runPlan
  cases hparams : portalParams portal plan with
  | error failure => exact keeps_pure h (.error _)
  | ok params =>
    refine Meets.bind_run rfl ?_
    split
    · exact keeps_pure h (.error _)
    · rename_i optimised hoptimised
      refine Meets.bind_run rfl ?_
      exact keeps_engineRun h _ (hunread _ ⟨params, optimised, hparams, hoptimised, rfl⟩) statement _

private theorem keeps_doExtendedQuery (h : Guarded username s)
    (hunprivileged : auth.Unprivileged username) {portal : StoredPortal E}
    (hresponse : portal.response = none) (hread : PortalReadsNothing portal s) :
    Keeps username (doExtendedQuery (permissionHooks auth fuel) portal) s Harmless := by
  unfold doExtendedQuery
  split
  · exact keeps_pure h fun _ hquery => nomatch hquery
  · rename_i statement plan hstatement
    have hread := hread statement plan hresponse hstatement
    unfold hooksAnswer
    rw [if_neg (show ¬ (permissionHooks (E := E) auth fuel).isEmpty = true from
      Bool.false_ne_true)]
    cases hparams : portalParams portal plan with
    | error failure => exact keeps_pure h (.error _)
    | ok params =>
      exact keeps_hooked h hunprivileged hread fun hunread => keeps_runPlan h hunread

end Queries

section Exchanges
variable {E : Engine} {username : String} {s : Connection E} {auth : AuthManager} {fuel : Nat}

private abbrev NoTableRows (responses : List Response) : Prop :=
  ∀ response, .query response ∈ responses → response.scans = false

private theorem noTableRows_singleton {response : Response} (h : Harmless (.ok response)) :
    NoTableRows [response] := by
  intro response' hmem
  exact h response' (congrArg Except.ok (List.mem_singleton.mp hmem).symm)

private theorem keeps_settle (h : Guarded username s) (answer : Except Failure (List Response)) :
    Keeps username (DocumentedLoop.settle answer) s fun _ => True :=
  keeps_run rfl trivial (h.withStatus _)

variable [WireLoop E]

private theorem keeps_onQuery (h : Guarded username s)
    (hunprivileged : auth.Unprivileged username)
    {parsed : Except DataFusionError (List Statement)}
    (hread : (Message.query (E := E) parsed).ReadsNothing (permissionHooks auth fuel) s) :
    Keeps username (onQuery (permissionHooks auth fuel) parsed) s fun answer =>
      ∀ responses, answer = .ok responses → NoTableRows responses := by
  have hquery : Keeps username (doSimpleQuery (permissionHooks auth fuel) parsed) s fun answer =>
      ∀ responses, answer = .ok responses → NoTableRows responses := by
    rcases parsed with error | _ | ⟨statement, statements⟩
    · exact keeps_pure h fun _ hresponses => nomatch hresponses
    · apply keeps_pure h
      rintro _ ⟨⟩ response hmem
      exact nomatch List.mem_singleton.mp hmem
    · exact keeps_answerStatements h hunprivileged hread fun _ hmem => nomatch hmem
  rw [onQuery_documented]
  apply keeps_bind hquery
  intro answer s' hanswer hs'
  apply keeps_bind (keeps_settle hs' answer)
  rintro _ s'' - hs''
  exact keeps_pure hs'' hanswer

private theorem keeps_onExecute (h : Guarded username s)
    (hunprivileged : auth.Unprivileged username) {portalName : String} {maxRows : Nat}
    (hread : (Message.execute (E := E) portalName maxRows).ReadsNothing
      (permissionHooks auth fuel) s) :
    Keeps username (onExecute (permissionHooks auth fuel) portalName maxRows) s Harmless := by
  rw [onExecute_documented]
  refine Meets.bind_run rfl ?_
  split
  · exact keeps_pure h (.error _)
  · exact keeps_pure h fun _ hquery => nomatch hquery
  · rename_i portal hget
    cases hresponse : portal.response with
    | some response =>
      apply keeps_fetchPortal h
      rintro _ ⟨⟩
      exact h.portals portalName portal response hget hresponse
    | none =>
      apply keeps_bind (keeps_doExtendedQuery h hunprivileged hresponse (hread portal hget))
      intro answer s' hanswer hs'
      apply keeps_bind (keeps_settle hs' _)
      rintro _ s'' - hs''
      split
      · split
        · exact keeps_pure hs'' hanswer
        · apply keeps_fetchPortal hs''
          rintro _ ⟨⟩
          exact hanswer _ rfl
      · exact keeps_pure hs'' hanswer

private theorem keeps_handle (h : Guarded username s)
    (hunprivileged : auth.Unprivileged username) {message : Message E}
    (hread : message.ReadsNothing (permissionHooks auth fuel) s) :
    Keeps username (message.handle (permissionHooks auth fuel)) s NoTableRows := by
  have hnone : NoTableRows [] := fun _ hmem => nomatch hmem
  cases message with
  | query parsed =>
    apply keeps_bind (keeps_onQuery h hunprivileged hread)
    rintro (failure | responses) s' hresponses hs'
    · exact keeps_pure hs' hnone
    · exact keeps_pure hs' (hresponses responses rfl)
  | parse parsed =>
    have hparse : Keeps username (parseSql (permissionHooks auth fuel) parsed) s fun _ => True := by
      unfold parseSql
      split
      · exact keeps_pure h trivial
      · exact keeps_pure h trivial
      · dsimp only
        split
        · exact keeps_pure h trivial
        · exact keeps_pure h trivial
        · refine Meets.bind_run rfl ?_
          split
          · exact keeps_pure h trivial
          · exact keeps_pure h trivial
    apply keeps_bind hparse
    rintro _ s' - hs'
    exact keeps_pure hs' hnone
  | bind portal =>
    rw [Message.handle, onBind_documented]
    refine keeps_run rfl hnone (h.withPortal _ ?_)
    intro portal' response hstored hresponse
    split at hstored
    · cases hstored
      cases hresponse
    · cases hstored
  | execute portalName maxRows =>
    apply keeps_bind (keeps_onExecute h hunprivileged hread)
    rintro (failure | response) s' hharmless hs'
    · exact keeps_pure hs' hnone
    · exact keeps_pure hs' (noTableRows_singleton hharmless)
  | close portalName =>
    rw [Message.handle, onClose_documented]
    exact keeps_run rfl hnone (h.withoutPortal _)

private theorem step_guarded (hunprivileged : auth.Unprivileged username) (x : Exchange E)
    (message : Message E)
    (hread : message.ReadsNothing (permissionHooks auth fuel) x.connection)
    (h : Guarded username x.connection ∧ NoTableRows x.responses) :
    Guarded username (x.step (permissionHooks auth fuel) message).connection ∧
      NoTableRows (x.step (permissionHooks auth fuel) message).responses := by
  obtain ⟨hguarded, hrows⟩ := h
  have hkeeps := keeps_handle hguarded hunprivileged hread
  unfold Keeps Meets at hkeeps
  unfold Exchange.step
  cases hrun : message.handle (permissionHooks auth fuel) x.connection with
  | ok responses s' =>
    rw [hrun] at hkeeps
    refine ⟨hkeeps.2, fun response hmem => ?_⟩
    rcases List.mem_append.mp hmem with hmem | hmem
    · exact hrows response hmem
    · exact hkeeps.1 response hmem
  | error _ s' =>
    rw [hrun] at hkeeps
    exact ⟨hkeeps, hrows⟩

/-- However long the exchange, a user without privileges whose messages read nothing past
the permission check has read no registered table and been given no row of one. -/
theorem exchange_readsNothing (hunprivileged : auth.Unprivileged username)
    (hfresh : FreshFor username s) {messages : List (Message E)}
    (hmeet : StepsMeet (Exchange.step (permissionHooks auth fuel))
      (fun x message => message.ReadsNothing (permissionHooks auth fuel) x.connection)
      ⟨s, []⟩ messages) :
    (run (Exchange.step (permissionHooks auth fuel)) ⟨s, []⟩ messages).ReadsNothing := by
  have hstart : Guarded username s := by
    refine ⟨hfresh.user, fun read hmem => ?_, fun name portal response hget => ?_⟩
    · rw [hfresh.executed] at hmem
      cases hmem
    · rw [hfresh.portals] at hget
      cases hget
  obtain ⟨hguarded, hrows⟩ := run_invariant_of (step_guarded hunprivileged) hmeet
    ⟨hstart, fun _ hmem => nomatch hmem⟩
  exact ⟨hguarded.executed, hrows⟩

/-- A manager with a user that has no role at all. -/
def withoutRoles : AuthManager := (AuthManager.new.addUser ⟨"alice", "", [], false, true, none⟩).2

theorem withoutRoles_unprivileged : withoutRoles.Unprivileged "alice" where
  user := by
    rintro user ⟨⟩
    rfl
  role := by
    rintro user first roleName role ⟨⟩ hfirst
    cases hfirst

/-- The user's new connection. -/
def aliceConnection : Connection referenceEngine :=
  { referenceConnection .idle with metadata := HashMap.empty.insert "user" "alice" }

theorem aliceConnection_fresh : FreshFor "alice" aliceConnection := ⟨rfl, rfl, rfl⟩

/-- A cursor on the query, and a fetch of all its rows. -/
def cursorOn (text : String) : List Statement :=
  [⟨.declare [⟨some .cursor, ["c"], some text⟩], "DECLARE c CURSOR FOR " ++ text⟩,
    ⟨.fetch "c" .all, "FETCH ALL IN c"⟩]

/-- The query on the table is refused, and the cursor on a constant row is open to all. -/
theorem constantCursor_readsNothing :
    (run (Exchange.step (permissionHooks withoutRoles 8)) ⟨aliceConnection, []⟩
      [.query (.ok [⟨.query, "SELECT * FROM secret"⟩]),
        .query (.ok (cursorOn "SELECT 1"))]).ReadsNothing := by
  apply exchange_readsNothing withoutRoles_unprivileged aliceConnection_fresh
  refine ⟨⟨trivial, fun _ _ _ => trivial⟩, ⟨⟨?_, fun _ _ => trivial⟩, fun _ _ _ =>
    ⟨trivial, fun _ _ _ => trivial⟩⟩, trivial⟩
  rintro forQuery - - ⟨⟩
  refine ⟨rfl, ?_⟩
  rintro frame ⟨⟩
  rfl

/-- The same cursor on the table reads it, and returns its row. -/
theorem secretCursor_not_readsNothing :
    withoutRoles.Unprivileged "alice" ∧ FreshFor "alice" aliceConnection ∧
      ¬ (run (Exchange.step (permissionHooks withoutRoles 8)) ⟨aliceConnection, []⟩
        [.query (.ok (cursorOn "SELECT * FROM secret"))]).ReadsNothing := by
  refine ⟨withoutRoles_unprivileged, aliceConnection_fresh, fun h => ?_⟩
  have hread : true ∈ (run (Exchange.step (permissionHooks withoutRoles 8)) ⟨aliceConnection, []⟩
      [.query (.ok (cursorOn "SELECT * FROM secret"))]).connection.executed := by
    decide
  exact absurd (h.executed true hread) (by decide)

end Exchanges
end DatafusionPostgres.Session

import DatafusionPostgres.Library.Run
import DatafusionPostgres.Session.LeftParts

/-! Whole runs in an aborted transaction block: it stays aborted, and nothing is run. -/
namespace DatafusionPostgres.Session
open ArrowPg Library PgCatalog

section Condition
variable {E : Engine}

/-- The statement does not end the block, and is none that a hook has the engine run: a
declared query, or a SET that is not kept for the client. -/
structure HeldBack (E : Engine) (statement : Statement) : Prop where
  endsNothing : endsTransaction statement.kind = false
  declare : ∀ stmts, statement.kind ≠ .declare stmts
  set : ∀ set, statement.kind = .set set → KeptInMetadata E set

/-- The statement of the portal is held back, if there is one to run. -/
def StoredPortal.HeldBack (portal : StoredPortal E) : Prop :=
  ∀ statement plan, portal.response = none → portal.statement.2 = some (statement, plan) →
    Session.HeldBack E statement

def Message.HeldBack : Message E → Prop
  | .query (.ok statements) => ∀ statement ∈ statements, Session.HeldBack E statement
  | .bind portal => ∀ statement plan, portal.statement.2 = some (statement, plan) →
    Session.HeldBack E statement
  | _ => True

/-- An aborted block in which nothing has been run since the context was this. -/
structure Halted (context : E.Context) (executed : List Bool) (s : Connection E) : Prop where
  status : s.transactionStatus = .error
  context : s.context = context
  executed : s.executed = executed
  portals : ∀ name portal, s.portals.get name = some (some portal) → portal.HeldBack

/-- The response neither begins nor ends a transaction block. -/
def Response.inBlock : Response → Bool
  | .transactionStart _ | .transactionEnd _ => false
  | _ => true

theorem inBlock_of_plain {response : Response} (h : response.plain = true) :
    response.inBlock = true := by
  cases response <;> first | rfl | cases h

/-- No response of the answer begins or ends a transaction block. -/
def StaysInBlock (answer : Except Failure (List Response)) : Prop :=
  ∀ responses, answer = .ok responses → ∀ response ∈ responses, response.inBlock = true

end Condition

section Steps
variable {E : Engine} {context : E.Context} {executed : List Bool} {s : Connection E}

private theorem Halted.insert (h : Halted context executed s) (name : String)
    {stored : Option (StoredPortal E)}
    (hstored : ∀ portal, stored = some portal → portal.HeldBack) :
    Halted context executed { s with portals := s.portals.insert name stored } where
  status := h.status
  context := h.context
  executed := h.executed
  portals := by
    intro name' portal hget
    rw [HashMap.get_insert] at hget
    split at hget
    · exact hstored portal (Option.some.inj hget)
    · exact h.portals name' portal hget

private theorem Halted.remove (h : Halted context executed s) (name : String) :
    Halted context executed { s with portals := s.portals.remove name } where
  status := h.status
  context := h.context
  executed := h.executed
  portals := by
    intro name' portal hget
    rw [HashMap.get_remove] at hget
    split at hget
    · cases hget
    · exact h.portals name' portal hget

/-- From `s` the program returns a value within `Q`, with the block halted as before. -/
private abbrev Halts {α : Type} (context : E.Context) (executed : List Bool) (prog : Handler E α)
    (s : Connection E) (Q : α → Prop) : Prop :=
  Meets prog s (fun a s' => Q a ∧ Halted context executed s') fun _ => False

private theorem halts_fetchPortal (h : Halted context executed s) (portal : StoredPortal E)
    (maxRows : Nat) :
    Halts context executed (fetchPortal portal maxRows) s (Ordinary fun _ => True) := by
  unfold fetchPortal
  split
  · exact Meets.pure ⟨trivial, h⟩
  · refine Meets.bind_run rfl (Meets.bind_run rfl (Meets.pure ⟨rfl, h.insert _ ?_⟩))
    rintro _ ⟨⟩ statement plan ⟨⟩

private theorem halts_handleFetch (h : Halted context executed s) (name : String)
    (direction : FetchDirection) :
    Halts context executed (handleFetch name direction) s (Ordinary fun _ => True) := by
  unfold handleFetch
  split
  · exact Meets.pure ⟨trivial, h⟩
  · refine Meets.bind_run rfl ?_
    split
    · exact halts_fetchPortal h _ _
    · exact Meets.pure ⟨trivial, h⟩
    · exact Meets.pure ⟨trivial, h⟩

private theorem halts_handleClose (h : Halted context executed s) (cursor : CloseCursor) :
    Halts context executed (handleClose cursor) s (Ordinary fun _ => True) := by
  cases cursor with
  | all =>
    refine Meets.bind_run rfl (Meets.pure ⟨rfl, h.status, h.context, h.executed, ?_⟩)
    rintro name portal ⟨⟩
  | specific name =>
    exact Meets.bind_run rfl (Meets.bind_run rfl (Meets.pure ⟨rfl, h.remove name⟩))

private theorem firstSimpleAnswer_staysHalted (h : Halted context executed s)
    {statement : Statement} (hheld : HeldBack E statement)
    (hfetch : ∀ name direction, statement.kind ≠ .fetch name direction)
    (hclose : ∀ cursor, statement.kind ≠ .close cursor) :
    Meets (firstSimpleAnswer statement defaultHooks) s
      (fun _ s' => Halted context executed s') fun _ => False := by
  have hspare : HooksSpare (fun s : Connection E =>
      (s.transactionStatus, s.context, s.executed, s.portals)) statement := by
    refine ⟨?_, fun stmts hkind => absurd hkind (hheld.declare stmts), fun set hkind =>
      ⟨fun _ _ _ => rfl, fun hnot => absurd (hheld.set set hkind) hnot⟩⟩
    unfold SparesPortals
    split
    · exact absurd ‹_› (hheld.declare _)
    · exact absurd ‹_› (hfetch _ _)
    · exact absurd ‹_› (hclose _)
    · exact absurd ‹_› (hclose _)
    · trivial
  obtain ⟨answer, s', hrun, hparts⟩ := firstSimpleAnswer_leaves hspare s
  obtain ⟨hstatus, hparts⟩ := Prod.mk.inj hparts
  obtain ⟨hcontext, hparts⟩ := Prod.mk.inj hparts
  obtain ⟨hexecuted, hportals⟩ := Prod.mk.inj hparts
  unfold Meets
  rw [hrun]
  exact ⟨hstatus.trans h.status, hcontext.trans h.context, hexecuted.trans h.executed,
    hportals ▸ h.portals⟩

private theorem halts_firstSimpleAnswer (h : Halted context executed s) {statement : Statement}
    (hheld : HeldBack E statement) :
    Halts context executed (firstSimpleAnswer statement defaultHooks) s
      fun answer => ∃ a, answer = some a ∧ Ordinary (fun _ => True) a := by
  cases hearly : answeredEarly statement.kind with
  | false =>
    unfold Halts Meets
    rw [firstSimpleAnswer_aborted h.status hheld.endsNothing hearly]
    exact ⟨⟨_, rfl, trivial⟩, h⟩
  | true =>
    have hanswer := (answers_early hearly).and ((AnswerErrors.any E).firstSimpleAnswer statement)
    rw [← firstSimpleAnswer_early hearly] at hanswer
    suffices hstate : Meets (firstSimpleAnswer statement defaultHooks) s
        (fun _ s' => Halted context executed s') fun _ => False by
      apply hstate.with_run.mono
      rintro answer s' ⟨hrun, hs'⟩
      obtain ⟨hsome, hordinary⟩ := hanswer.value hrun
      obtain ⟨a, rfl⟩ := Option.isSome_iff_exists.mp hsome
      exact ⟨⟨a, rfl, hordinary a rfl⟩, hs'⟩
    obtain ⟨kind, text⟩ := statement
    cases kind with
    | fetch name direction =>
      rw [firstSimpleAnswer_fetch]
      exact Meets.map ((halts_handleFetch h name direction).mono fun _ _ ha => ha.2)
    | close cursor =>
      rw [firstSimpleAnswer_close]
      exact Meets.map ((halts_handleClose h cursor).mono fun _ _ ha => ha.2)
    | _ => exact firstSimpleAnswer_staysHalted h hheld nofun nofun

end Steps

section Messages
variable {E : Engine} {context : E.Context} {executed : List Bool} {s : Connection E}

private theorem staysInBlock_singleton {answer : Answer} (h : Ordinary (fun _ => True) answer) :
    StaysInBlock (answer.map fun response => [response]) := by
  rintro responses hresponses response hmem
  cases answer with
  | error failure => cases hresponses
  | ok response' =>
    cases hresponses
    rw [List.mem_singleton.mp hmem]
    exact inBlock_of_plain h

private theorem after_of_staysInBlock {answer : Except Failure (List Response)}
    (h : StaysInBlock answer) : TransactionStatus.error.after answer = .error := by
  have hfold : ∀ responses : List Response, (∀ response ∈ responses, response.inBlock = true) →
      responses.foldl TransactionStatus.afterResponse .error = .error := by
    intro responses hinside
    induction responses with
    | nil => rfl
    | cons response responses ih =>
      have hkeep : TransactionStatus.error.afterResponse response = .error := by
        have := hinside response List.mem_cons_self
        cases response <;> first | rfl | exact absurd this Bool.false_ne_true
      rw [List.foldl_cons, hkeep]
      exact ih fun response' hmem => hinside response' (List.mem_cons_of_mem _ hmem)
  cases answer with
  | error failure => rfl
  | ok responses => exact hfold responses (h responses rfl)

private theorem halts_settle (h : Halted context executed s)
    {answer : Except Failure (List Response)} (hinside : StaysInBlock answer) :
    Halts context executed (DocumentedLoop.settle answer) s fun _ => True := by
  refine Meets.bind_run rfl ?_
  rw [h.status, after_of_staysInBlock hinside]
  exact Meets.modifyGet ⟨trivial, rfl, h.context, h.executed, h.portals⟩

private theorem halts_answerStatements (h : Halted context executed s)
    {results : List Response} (hresults : ∀ response ∈ results, response.inBlock = true)
    {statements : List Statement} (hheld : ∀ statement ∈ statements, HeldBack E statement) :
    Halts context executed (answerStatements defaultHooks results statements) s StaysInBlock := by
  induction statements generalizing s results with
  | nil =>
    apply Meets.pure
    refine ⟨?_, h⟩
    rintro _ ⟨⟩
    exact hresults
  | cons statement statements ih =>
    have hanswer : Halts context executed (answerStatement defaultHooks statement) s
        (Ordinary fun _ => True) := by
      apply Meets.bind
      apply (halts_firstSimpleAnswer h (hheld statement List.mem_cons_self)).mono
      rintro _ s' ⟨⟨a, rfl, ha⟩, hs'⟩
      exact Meets.pure ⟨ha, hs'⟩
    apply Meets.bind
    apply hanswer.mono
    rintro (failure | response) s' ⟨hordinary, hs'⟩
    · exact Meets.pure ⟨nofun, hs'⟩
    · apply ih hs' ?_ fun statement' hmem => hheld statement' (List.mem_cons_of_mem _ hmem)
      intro response' hmem
      rcases List.mem_append.mp hmem with hmem | hmem
      · exact hresults response' hmem
      · rw [List.mem_singleton.mp hmem]
        exact inBlock_of_plain hordinary

private theorem halts_onQuery [WireLoop E] (h : Halted context executed s)
    {parsed : Except DataFusionError (List Statement)}
    (hheld : (Message.query (E := E) parsed).HeldBack) :
    Halts context executed (onQuery defaultHooks parsed) s StaysInBlock := by
  have hquery : Halts context executed (doSimpleQuery defaultHooks parsed) s StaysInBlock := by
    rcases parsed with error | _ | ⟨statement, statements⟩
    · exact Meets.pure ⟨nofun, h⟩
    · apply Meets.pure
      refine ⟨?_, h⟩
      rintro _ ⟨⟩ response hmem
      rw [List.mem_singleton.mp hmem]
      rfl
    · exact halts_answerStatements h (fun _ hmem => absurd hmem List.not_mem_nil) hheld
  rw [onQuery_documented]
  apply Meets.bind
  apply hquery.mono
  rintro answer s' ⟨hinside, hs'⟩
  apply Meets.bind
  apply (halts_settle hs' hinside).mono
  rintro _ s'' ⟨-, hs''⟩
  exact Meets.pure ⟨hinside, hs''⟩

private theorem halts_doExtendedQuery (h : Halted context executed s) {portal : StoredPortal E}
    (hheld : ∀ statement plan, portal.statement.2 = some (statement, plan) → HeldBack E statement) :
    Halts context executed (doExtendedQuery defaultHooks portal) s fun answer =>
      StaysInBlock (answer.map fun response => [response]) := by
  cases hportal : portal.statement.2 with
  | none =>
    rw [doExtendedQuery_empty hportal]
    apply Meets.pure
    refine ⟨?_, h⟩
    rintro _ ⟨⟩ response hmem
    rw [List.mem_singleton.mp hmem]
    rfl
  | some stored =>
    obtain ⟨statement, plan⟩ := stored
    cases hparams : portalParams portal plan with
    | error failure =>
      rw [doExtendedQuery_undecoded hportal hparams]
      exact Meets.pure ⟨nofun, h⟩
    | ok params =>
      rw [doExtendedQuery_params hportal hparams]
      apply Meets.bind
      apply (halts_firstSimpleAnswer h (hheld statement plan hportal)).mono
      rintro _ s' ⟨⟨a, rfl, ha⟩, hs'⟩
      exact Meets.pure ⟨staysInBlock_singleton ha, hs'⟩

private theorem halts_onExecute [WireLoop E] (h : Halted context executed s) (portalName : String)
    (maxRows : Nat) :
    Halts context executed (onExecute defaultHooks portalName maxRows) s fun _ => True := by
  rw [onExecute_documented]
  refine Meets.bind_run rfl ?_
  split
  · exact Meets.pure ⟨trivial, h⟩
  · exact Meets.pure ⟨trivial, h⟩
  · rename_i portal hget
    cases hresponse : portal.response with
    | some response => exact (halts_fetchPortal h _ _).mono fun _ _ ha => ⟨trivial, ha.2⟩
    | none =>
      have hheld : ∀ statement plan, portal.statement.2 = some (statement, plan) →
          HeldBack E statement :=
        fun statement plan => h.portals portalName portal hget statement plan hresponse
      apply Meets.bind
      apply (halts_doExtendedQuery h hheld).mono
      rintro answer s' ⟨hinside, hs'⟩
      apply Meets.bind
      apply (halts_settle hs' hinside).mono
      rintro _ s'' ⟨-, hs''⟩
      split
      · split
        · exact Meets.pure ⟨trivial, hs''⟩
        · exact (halts_fetchPortal hs'' _ _).mono fun _ _ ha => ⟨trivial, ha.2⟩
      · exact Meets.pure ⟨trivial, hs''⟩

private theorem halts_handle [WireLoop E] (h : Halted context executed s) {message : Message E}
    (hheld : message.HeldBack) :
    Halts context executed (message.handle defaultHooks) s fun _ => True := by
  cases message with
  | query parsed =>
    apply Meets.bind
    apply (halts_onQuery h hheld).mono
    rintro (failure | responses) s' ⟨-, hs'⟩ <;> exact Meets.pure ⟨trivial, hs'⟩
  | parse parsed =>
    have hparse : Leaves id (parseSql (E := E) defaultHooks parsed) := parseSql_leaves _ _
    obtain ⟨statement, s', hrun, rfl⟩ := hparse s
    exact Meets.bind_run hrun (Meets.pure ⟨trivial, h⟩)
  | bind portal =>
    rw [Message.handle, onBind_documented]
    refine Meets.bind_run rfl (Meets.pure ⟨trivial, h.insert _ ?_⟩)
    intro stored hstored statement plan _ hstatement
    split at hstored
    · cases hstored
      exact hheld statement plan hstatement
    · cases hstored
  | execute portalName maxRows =>
    apply Meets.bind
    apply (halts_onExecute h portalName maxRows).mono
    rintro (failure | response) s' ⟨-, hs'⟩ <;> exact Meets.pure ⟨trivial, hs'⟩
  | close portalName =>
    rw [Message.handle, onClose_documented]
    exact Meets.bind_run rfl (Meets.pure ⟨trivial, h.remove portalName⟩)

private theorem step_halted [WireLoop E] (x : Exchange E) (message : Message E) (hheld : message.HeldBack)
    (h : Halted context executed x.connection) :
    Halted context executed (x.step defaultHooks message).connection := by
  have hhandle := halts_handle h hheld
  unfold Halts Meets at hhandle
  unfold Exchange.step
  split
  · rename_i responses s' hrun
    rw [hrun] at hhandle
    exact hhandle.2
  · rename_i error s' hrun
    rw [hrun] at hhandle
    exact hhandle.elim

/-- However many messages come in an aborted block, it stays aborted and the engine runs
nothing, as long as none ends the block, declares a cursor, or has a SET for the engine. -/
theorem abortedRun_halted [WireLoop E] {x : Exchange E} (hstatus : x.connection.transactionStatus = .error)
    (hportals : ∀ name portal, x.connection.portals.get name = some (some portal) →
      portal.HeldBack)
    {messages : List (Message E)} (hheld : ∀ message ∈ messages, message.HeldBack) :
    let s := (run (Exchange.step defaultHooks) x messages).connection
    s.transactionStatus = .error ∧ s.context = x.connection.context ∧
      s.executed = x.connection.executed := by
  have hstep : ∀ (y : Exchange E) (message : Message E), message.HeldBack →
      Halted x.connection.context x.connection.executed y.connection →
      Halted x.connection.context x.connection.executed
        (y.step defaultHooks message).connection :=
    fun y message hheld h => step_halted y message hheld h
  have hrun := run_invariant_of hstep (StepsMeet.of_forall hheld x) ⟨hstatus, rfl, rfl, hportals⟩
  exact ⟨hrun.status, hrun.context, hrun.executed⟩

/-- `SELECT 1`, then `CLOSE ALL`. -/
private def abortedMessages : List (Message referenceEngine) :=
  [.query (.ok [selectOne]), .query (.ok [closeAll])]

theorem abortedRun_halted_cursor :
    let s := (run (Exchange.step defaultHooks) ⟨abortedWithCursor, []⟩ abortedMessages).connection
    s.transactionStatus = .error ∧ s.context = () ∧ s.executed = [] := by
  have hselect : HeldBack referenceEngine selectOne := ⟨rfl, nofun, nofun⟩
  have hclose : HeldBack referenceEngine closeAll := ⟨rfl, nofun, nofun⟩
  refine abortedRun_halted (x := ⟨abortedWithCursor, []⟩) rfl ?_ ?_
  · intro name portal hget statement plan _ hstatement
    obtain ⟨-, heq⟩ :=
      Option.ite_none_right_eq_some.mp ((HashMap.get_insert _ _ _ _).symm.trans hget)
    cases heq
    cases hstatement
    exact hselect
  · intro message hmem
    simp only [abortedMessages, List.mem_cons, List.not_mem_nil, or_false] at hmem
    rcases hmem with rfl | rfl
    · exact List.forall_mem_singleton.mpr hselect
    · exact List.forall_mem_singleton.mpr hclose

end Messages
end DatafusionPostgres.Session

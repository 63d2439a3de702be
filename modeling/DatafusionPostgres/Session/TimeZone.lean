import DatafusionPostgres.Session.Aborted
import DatafusionPostgres.Session.StatementTimeout

/-! The time zone: what SET TIME ZONE announces, and what queries are run with. -/
namespace DatafusionPostgres.Session
open ArrowPg Library

/-- The zone that a SET TIME ZONE names. -/
def SetExpr.zone (value : SetExpr) : String := String.ofList value.setting

section Zones
variable {E : Engine} (zone : E.Context → Option String)

/-- A SET TIME ZONE or a query. -/
def SetsZoneOrQueries (statement : Statement) : Prop :=
  statement.kind = .query ∨ ∃ value, statement.kind = .set (.setTimeZone false value)

/-- No query changes the option `execution.time_zone` of its context. -/
structure QueriesKeepZone (statements : List Statement) : Prop where
  sql : ∀ statement ∈ statements, statement.kind = .query → ∀ timeout context,
    zone (E.sql timeout statement.text context).context = zone context
  stream : ∀ frame fields context, zone (E.executeStream frame fields context).2 = zone context

/-- The zone that was last set is kept, and SHOW TIME ZONE gives it. -/
def ShowsZone (last : Option String) (s : Connection E) : Prop :=
  ∀ tz, last = some tz → getTimezone s.metadata = some tz ∧
    ∀ statement variableNames, statement.kind = .showVariable variableNames →
      variableNames.map E.toLowercase = ["time", "zone"] →
        answerStatement defaultHooks statement s =
          .ok (.ok (.query (mockShowResponse E "TimeZone" tz))) s

/-- In the run of the statements the zone of the last SET is shown, and every query that is run
is run on a context of that zone. A SET that fails has lost the connection. -/
def ZoneUsed : Option String → Connection E → List Statement → Prop
  | last, s, [] => ShowsZone last s
  | last, s, statement :: statements =>
    ShowsZone last s ∧ ∃ answer s', answerStatement defaultHooks statement s = .ok answer s' ∧
      match statement.kind, answer with
      | .set (.setTimeZone false value), .ok _ => ZoneUsed (some value.zone) s' statements
      | .set (.setTimeZone false _), .error _ => True
      | _, _ =>
        (firstSimpleAnswer statement defaultHooks s = .ok none s →
          (answerStatement defaultHooks statement s =
            runStatementWithin (getStatementTimeout s.metadata) statement s) ∧
          ∀ tz, last = some tz → zone s.context = some tz) ∧
        ZoneUsed last s' statements

/-- The text of a SET is the zone itself between quotes; and a query that is run, after a SET,
finds in the last one the zone that the context has from the start. -/
def NamesZone (own : Option String) (status : TransactionStatus) :
    Option String → List Statement → Prop
  | _, [] => True
  | last, statement :: statements =>
    match statement.kind with
    | .set (.setTimeZone false value) =>
      String.ofList (unquoted value.text) = value.zone ∧
        NamesZone own status (some value.zone) statements
    | _ =>
      (status ≠ .error → ∀ tz, last = some tz → own = some tz) ∧
        NamesZone own status last statements

end Zones

section Steps
variable {E : Engine} {zone : E.Context → Option String}

private theorem setZone_run {statement : Statement} {value : SetExpr}
    (hkind : statement.kind = .set (.setTimeZone false value)) (s : Connection E) :
    ∃ answer s', answerStatement defaultHooks statement s = .ok answer s' ∧
      s'.metadata.get metadataTimezone = some (String.ofList (unquoted value.text)) ∧
      s'.context = s.context ∧ s'.transactionStatus = s.transactionStatus ∧
      ((∃ sent, E.send s.sent ⟨"TimeZone", String.ofList (unquoted value.text)⟩ = .ok sent) →
        ∃ response, answer = .ok response) := by
  have hmetadata : Handler.metadata s = .ok s.metadata s := rfl
  have hset : ∀ metadata, Handler.setMetadata metadata s = .ok ⟨⟩ { s with metadata } :=
    fun _ => rfl
  rw [answerStatement_set hkind]
  unfold tryRespondSetStatements
  dsimp only
  rw [run_bind_ok hmetadata, setTimezone, getTimezone, HashMap.get_insert_self,
    run_bind_ok (hset _), announce_run]
  dsimp only
  cases hsend : E.send s.sent ⟨"TimeZone", String.ofList (unquoted value.text)⟩ with
  | ok sent =>
    rw [Option.getD_some, hsend]
    exact ⟨_, _, rfl, HashMap.get_insert_self _ _ _, rfl, rfl, fun _ => ⟨_, rfl⟩⟩
  | error text =>
    rw [Option.getD_some, hsend]
    refine ⟨_, _, rfl, HashMap.get_insert_self _ _ _, rfl, rfl, ?_⟩
    rintro ⟨sent, ⟨⟩⟩

private theorem query_run {statements : List Statement} (hkeep : QueriesKeepZone zone statements)
    {statement : Statement} (hmem : statement ∈ statements) (hkind : statement.kind = .query)
    (s : Connection E) :
    ∃ answer s', answerStatement defaultHooks statement s = .ok answer s' ∧
      s'.metadata = s.metadata ∧ zone s'.context = zone s.context ∧
      s'.transactionStatus = s.transactionStatus := by
  have hleaves : Leaves (fun s => (zone s.context, s.transactionStatus))
      (runStatement (E := E) statement) := by
    apply Leaves.bind (.modifyGet fun _ => rfl)
    intro metadata
    apply Leaves.bind (.modifyGet fun s => ?_)
    · rintro (failure | frame)
      · exact .pure _
      · unfold respondWithFrame
        rw [hkind]
        apply Leaves.bind (.modifyGet fun _ => rfl)
        intro metadata
        refine Leaves.bind ?_ ?_
        · unfold encodeDataframe
          split
          · exact .pure _
          · apply Leaves.bind (.modifyGet fun s => ?_)
            · rintro (error | rows) <;> exact .pure _
            · exact congrArg (·, s.transactionStatus) (hkeep.stream _ _ _)
        · rintro (error | response) <;> exact .pure _
    · exact congrArg (·, s.transactionStatus) (hkeep.sql statement hmem hkind _ _)
  have hrun : ∃ answer s', answerStatement defaultHooks statement s = .ok answer s' ∧
      (zone s'.context, s'.transactionStatus) = (zone s.context, s.transactionStatus) := by
    have hfirst := firstSimpleAnswer_late (E := E)
      (show answeredEarly statement.kind = false by rw [hkind]; rfl) s
    rw [answerStatement, run_bind_ok hfirst]
    cases transactionAnswer s.transactionStatus statement with
    | some answer => exact ⟨answer, s, rfl, rfl⟩
    | none => exact hleaves s
  obtain ⟨answer, s', hrun, hpart⟩ := hrun
  obtain ⟨answer', s'', hrun', hmetadata⟩ := answerStatement_leavesMetadata (E := E)
    (show ∀ set, statement.kind ≠ .set set from fun set h => by cases hkind.symm.trans h) s
  cases hrun.symm.trans hrun'
  exact ⟨answer, s', hrun, hmetadata, congrArg Prod.fst hpart, congrArg Prod.snd hpart⟩

private theorem showsZone_of_kept {last : Option String} {s : Connection E}
    (hkept : ∀ tz, last = some tz → s.metadata.get metadataTimezone = some tz) :
    ShowsZone last s := by
  intro tz hlast
  refine ⟨hkept tz hlast, fun statement variableNames hkind hnames => ?_⟩
  rw [answerStatement_showVariable hkind]
  refine tryRespondShowVariable_run ?_
  rw [hnames]
  change some ("TimeZone", (s.metadata.get metadataTimezone).getD "UTC") = _
  rw [hkept tz hlast, Option.getD_some]

private theorem firstSimpleAnswer_query {statement : Statement} (hkind : statement.kind = .query)
    (s : Connection E) :
    firstSimpleAnswer statement defaultHooks s = .ok none s ↔ s.transactionStatus ≠ .error := by
  have hanswer : transactionAnswer s.transactionStatus statement =
      if s.transactionStatus = .error then some (.error (.err transactionAborted)) else none := by
    unfold transactionAnswer tryRespondTransactionStatements
    rw [hkind]
  rw [firstSimpleAnswer_late (by rw [hkind]; rfl), hanswer]
  split
  · rename_i hstatus
    refine iff_of_false (fun h => ?_) fun h => h hstatus
    injection h with h
    cases h
  · rename_i hstatus
    exact iff_of_true rfl hstatus

private theorem QueriesKeepZone.tail {statement : Statement} {statements : List Statement}
    (h : QueriesKeepZone zone (statement :: statements)) : QueriesKeepZone zone statements where
  sql statement' hmem := h.sql statement' (List.mem_cons_of_mem _ hmem)
  stream := h.stream

private theorem zoneUsed_of_names {statements : List Statement}
    (hkeep : QueriesKeepZone zone statements)
    (hsteps : ∀ statement ∈ statements, SetsZoneOrQueries statement) {s : Connection E}
    {last : Option String}
    (hkept : ∀ tz, last = some tz → s.metadata.get metadataTimezone = some tz)
    (h : NamesZone (zone s.context) s.transactionStatus last statements) :
    ZoneUsed zone last s statements := by
  induction statements generalizing s last with
  | nil => exact showsZone_of_kept hkept
  | cons statement statements ih =>
    obtain ⟨hstep, hsteps⟩ := List.forall_mem_cons.mp hsteps
    refine ⟨showsZone_of_kept hkept, ?_⟩
    unfold NamesZone at h
    rcases hstep with hkind | ⟨value, hkind⟩
    · rw [hkind] at h
      obtain ⟨howned, hrest⟩ := h
      obtain ⟨answer, s', hrun, hmetadata, hzone, hstatus⟩ :=
        query_run hkeep List.mem_cons_self hkind s
      refine ⟨answer, s', hrun, ?_⟩
      rw [hkind]
      refine ⟨fun hfirst => ⟨(inForce_kept s).simple statement hfirst, ?_⟩, ?_⟩
      · exact howned ((firstSimpleAnswer_query hkind s).mp hfirst)
      · rw [← hzone, ← hstatus] at hrest
        refine ih hkeep.tail hsteps ?_ hrest
        rw [hmetadata]
        exact hkept
    · rw [hkind] at h
      obtain ⟨htext, hrest⟩ := h
      obtain ⟨answer, s', hrun, hget, hcontext, hstatus, -⟩ := setZone_run hkind s
      refine ⟨answer, s', hrun, ?_⟩
      rw [hkind]
      cases answer with
      | error error => trivial
      | ok response =>
        rw [← hcontext, ← hstatus] at hrest
        refine ih hkeep.tail hsteps ?_ hrest
        rintro tz ⟨⟩
        rw [hget, htext]

private theorem names_of_zoneUsed {statements : List Statement}
    (hsend : ∀ sent message, ∃ done, E.send sent message = .ok done)
    (hkeep : QueriesKeepZone zone statements)
    (hsteps : ∀ statement ∈ statements, SetsZoneOrQueries statement) {s : Connection E}
    {last : Option String} (h : ZoneUsed zone last s statements) :
    NamesZone (zone s.context) s.transactionStatus last statements := by
  induction statements generalizing s last with
  | nil => trivial
  | cons statement statements ih =>
    obtain ⟨hstep, hsteps⟩ := List.forall_mem_cons.mp hsteps
    obtain ⟨-, answer, s', hrun, hafter⟩ := h
    unfold NamesZone
    rcases hstep with hkind | ⟨value, hkind⟩
    · rw [hkind] at hafter ⊢
      obtain ⟨hused, hrest⟩ := hafter
      obtain ⟨answer', s'', hrun', -, hzone, hstatus⟩ :=
        query_run hkeep List.mem_cons_self hkind s
      cases hrun.symm.trans hrun'
      refine ⟨fun hstatus => (hused ((firstSimpleAnswer_query hkind s).mpr hstatus)).2, ?_⟩
      rw [← hzone, ← hstatus]
      exact ih hkeep.tail hsteps hrest
    · rw [hkind] at hafter ⊢
      obtain ⟨answer', s'', hrun', hget, hcontext, hstatus, hanswer⟩ := setZone_run hkind s
      cases hrun.symm.trans hrun'
      obtain ⟨response, rfl⟩ := hanswer (hsend _ _)
      have hshows : ShowsZone (some value.zone) s' := by
        cases statements with
        | nil => exact hafter
        | cons next statements => exact hafter.1
      refine ⟨Option.some.inj (hget.symm.trans (hshows _ rfl).1), ?_⟩
      rw [← hcontext, ← hstatus]
      exact ih hkeep.tail hsteps hafter

/-- The zone that SET TIME ZONE announces is the one that queries are run with if every query
finds the zone of its context named, and only then where every status message can be sent. -/
theorem zoneUsed_iff (E : Engine) (zone : E.Context → Option String) (s : Connection E)
    (statements : List Statement)
    (hsteps : ∀ statement ∈ statements, SetsZoneOrQueries statement)
    (hkeep : QueriesKeepZone zone statements) :
    (NamesZone (zone s.context) s.transactionStatus none statements →
        ZoneUsed zone none s statements) ∧
      ((∀ sent message, ∃ done, E.send sent message = .ok done) →
        ZoneUsed zone none s statements →
          NamesZone (zone s.context) s.transactionStatus none statements) :=
  ⟨zoneUsed_of_names hkeep hsteps (by rintro tz ⟨⟩),
    fun hsend => names_of_zoneUsed hsend hkeep hsteps⟩

end Steps

section Tokyo

/-- The reference engine on contexts that are their option `execution.time_zone`. -/
def zoneEngine : Engine :=
  { referenceEngine with
    Context := Option String
    sql := fun _ text tz => ⟨(planText text).mapError .error, tz, false⟩
    statementToPlan := fun statement _ => some <$> planText statement.text
    optimize := fun plan _ => .ok plan
    executeLogicalPlan := fun _ plan tz => ⟨.ok (plan.getD .one), tz, false⟩
    executeStream := fun frame _ tz => (.ok [.ok frame.row], tz)
    collectCount := fun _ tz => (.ok none, tz)
    catalogNames := fun _ => ["datafusion"]
    version := fun _ => "52.0.0" }

def zoneConnection (tz : Option String) : Connection zoneEngine := ⟨.empty, .idle, .empty, [], tz, []⟩

/-- `SET TIME ZONE 'Asia/Tokyo'; SELECT 1`. -/
def tokyoStatements : List Statement :=
  [⟨.set (.setTimeZone false (.stringLiteral "Asia/Tokyo" "'Asia/Tokyo'")),
    "SET TIME ZONE 'Asia/Tokyo'"⟩, ⟨.query, "SELECT 1"⟩]

private theorem tokyo_steps : ∀ statement ∈ tokyoStatements, SetsZoneOrQueries statement :=
  List.forall_mem_cons.mpr ⟨.inr ⟨_, rfl⟩, List.forall_mem_singleton.mpr (.inl rfl)⟩

private theorem tokyo_keep : QueriesKeepZone (E := zoneEngine) id tokyoStatements :=
  ⟨fun _ _ _ _ _ => rfl, fun _ _ _ => rfl⟩

private theorem tokyo_text : String.ofList (unquoted "'Asia/Tokyo'") = "Asia/Tokyo" := by
  decide +kernel

/-- On a context of the same zone. -/
theorem tokyo_used : ZoneUsed (E := zoneEngine) id none (zoneConnection (some "Asia/Tokyo"))
    tokyoStatements :=
  (zoneUsed_iff zoneEngine id (zoneConnection (some "Asia/Tokyo")) tokyoStatements tokyo_steps
    tokyo_keep).1 ⟨tokyo_text, fun _ _ heq => heq, trivial⟩

/-- On a context that has no zone the query is run without one. -/
theorem tokyo_not_used :
    ¬ ZoneUsed (E := zoneEngine) id none (zoneConnection none) tokyoStatements := by
  intro h
  obtain ⟨-, howned, -⟩ := names_of_zoneUsed (fun _ _ => ⟨(), rfl⟩) tokyo_keep tokyo_steps h
  cases howned (by decide) _ rfl

end Tokyo
end DatafusionPostgres.Session

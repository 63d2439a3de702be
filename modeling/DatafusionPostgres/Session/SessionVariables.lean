import DatafusionPostgres.Session.ActionRules
import DatafusionPostgres.Session.ReferenceEngine
import Mathlib.Logic.Function.Basic

/-! The session variables: what SET keeps and announces, and what SHOW gives back. -/
namespace DatafusionPostgres.Session
open ArrowPg Library

section Variables

def sessionVariables : List String := metadataTimezone :: postgresVariables

/-- The content of a string, and the text of any other value. -/
def SetExpr.value : SetExpr → String
  | .stringLiteral content _ => content
  | .otherLiteral text => text
  | .expression text => text

def listValue (values : List SetExpr) : String := ", ".intercalate (values.map SetExpr.value)

/-- The name under which a client is told of the variable. -/
def statusName : String → String
  | "datestyle" => "DateStyle"
  | "intervalstyle" => "IntervalStyle"
  | "timezone" => "TimeZone"
  | var => var

/-- The variable of a SET; quotes around its name do not count. -/
def namedVariable (E : Engine) (variableName : String) : String :=
  String.ofList (trimMatches isQuote (E.toLowercase variableName).toList)

/-- The session variable that the statement sets, and the text that it sets it to. -/
def assigned (E : Engine) (statement : Statement) : Option (String × String) :=
  match statement.kind with
  | .set (.singleAssignment _ false variableName (value :: values)) =>
    if namedVariable E variableName ∈ sessionVariables then
      some (namedVariable E variableName, listValue (value :: values))
    else none
  | .set (.setTimeZone _ value) => some (metadataTimezone, value.value)
  | _ => none

/-- The session variable that the statement shows. -/
def shown (E : Engine) (statement : Statement) : Option String :=
  match statement.kind with
  | .showVariable variableNames =>
    match variableNames.map E.toLowercase with
    | ["time", "zone"] => some metadataTimezone
    | [var] => if var ∈ sessionVariables then some var else none
    | _ => none
  | _ => none

/-- A literal of which the code keeps the whole text. None is printed as an empty text. -/
def KeptLiteral : SetExpr → Prop
  | .stringLiteral _ _ => True
  | .otherLiteral text => text = ""
  | .expression _ => False

/-- A SET of a session variable is one of a single string literal, with no scope and with
the name unquoted; the time zone is set by SET TIME ZONE, to a value whose printed text
is the value itself between quotes, or without any. -/
def KeepsText (E : Engine) (statement : Statement) : Prop :=
  match statement.kind with
  | .set (.singleAssignment hasScope false variableName (value :: values)) =>
    namedVariable E variableName ∈ sessionVariables →
      hasScope = false ∧ E.toLowercase variableName ∈ postgresVariables ∧
        KeptLiteral value ∧ values = []
  | .set (.setTimeZone isLocal value) =>
    isLocal = false ∧ String.ofList (unquoted value.text) = value.value
  | _ => True

def ShowsText (E : Engine) (answer : Answer) (text : String) : Prop :=
  ∃ name, answer = .ok (.query (mockShowResponse E name text))

/-- In the run of the statements, a SHOW of a variable gives its last text, and a
successful SET announces its text once. A SET that fails has lost the connection. -/
def Faithful (E : Engine) : (String → Option String) → Connection E → List Statement → Prop
  | _, _, [] => True
  | last, s, statement :: statements =>
    ∃ answer s', answerStatement defaultHooks statement s = .ok answer s' ∧
      (∀ var text, shown E statement = some var → last var = some text →
        ShowsText E answer text) ∧
      match assigned E statement, answer with
      | none, _ => Faithful E last s' statements
      | some (var, text), .ok _ =>
        s'.sent = s.sent ++ [⟨statusName var, text⟩] ∧
          Faithful E (Function.update last var (some text)) s' statements
      | some _, .error _ => True

end Variables

section Steps
variable {E : Engine}

/-- The text that the code keeps, none where it leaves the SET to DataFusion. -/
private def keptText (E : Engine) : SetStatement → Option String
  | .singleAssignment false false variableName values =>
    if E.toLowercase variableName ∈ postgresVariables then
      match values with
      | .stringLiteral content _ :: _ => some content
      | .otherLiteral _ :: _ => some ""
      | _ => none
    else none
  | .setTimeZone false value => some (String.ofList (unquoted value.text))
  | _ => none

private theorem namedVariable_postgres {variableName : String}
    (h : E.toLowercase variableName ∈ postgresVariables) :
    namedVariable E variableName = E.toLowercase variableName := by
  have hnames : ∀ var ∈ postgresVariables,
      String.ofList (trimMatches isQuote var.toList) = var := by decide
  exact hnames _ h

private theorem parameterStatusForVar_postgres {var : String} (h : var ∈ postgresVariables)
    (metadata : HashMap String String) (text : String) :
    parameterStatusForVar var (metadata.insert var text) = some ⟨statusName var, text⟩ := by
  have hget := HashMap.get_insert_self metadata var text
  simp only [postgresVariables, List.mem_cons, List.not_mem_nil, or_false] at h
  rcases h with rfl | rfl | rfl | rfl | rfl | rfl <;>
    simp only [parameterStatusForVar, statusName, hget] <;> rfl

/-- The text has been kept for the variable, and announced if the SET succeeds. -/
structure Stored (s s' : Connection E) (answer : Answer) (var text : String) : Prop where
  metadata : s'.metadata = s.metadata.insert var text
  announced : ∀ response, answer = .ok response → s'.sent = s.sent ++ [⟨statusName var, text⟩]
  succeeds : (∃ sent, E.send s.sent ⟨statusName var, text⟩ = .ok sent) → answer = .ok setResponse

theorem announce_run (status : ParameterStatus) (s : Connection E) :
    announce (some status) s = match E.send s.sent status with
      | .ok _ => .ok (.ok setResponse) { s with sent := s.sent ++ [status] }
      | .error text => .ok (.error (.err (.ioError text))) s := by
  unfold announce
  cases hsend : E.send s.sent status with
  | ok sent =>
    have hrun : Handler.sendMessage status s =
        .ok (.ok ()) { s with sent := s.sent ++ [status] } := by
      unfold Handler.sendMessage
      rw [run_modifyGet, hsend]
    exact run_bind_ok hrun _
  | error text =>
    have hrun : Handler.sendMessage status s = .ok (.error (.ioError text)) s := by
      unfold Handler.sendMessage
      rw [run_modifyGet, hsend]
    exact run_bind_ok hrun _

private theorem store_run (s : Connection E) (var text : String) :
    ∃ answer s', (do
        Handler.setMetadata (s.metadata.insert var text)
        announce (some ⟨statusName var, text⟩)) s = .ok answer s' ∧ Stored s s' answer var text := by
  have hset : Handler.setMetadata (s.metadata.insert var text) s =
      .ok ⟨⟩ { s with metadata := s.metadata.insert var text } := rfl
  rw [run_bind_ok hset, announce_run]
  dsimp only
  cases hsend : E.send s.sent ⟨statusName var, text⟩ with
  | ok sent => exact ⟨_, _, rfl, rfl, fun _ _ => rfl, fun _ => rfl⟩
  | error text' =>
    refine ⟨_, _, rfl, rfl, nofun, ?_⟩
    rintro ⟨sent, h⟩
    rw [hsend] at h
    cases h

private theorem fallbackSet_run (statement : Statement) (s : Connection E) :
    ∃ s', fallbackSet statement s = .ok (.ok setResponse) s' ∧ s'.metadata = s.metadata ∧
      s'.sent = s.sent := by
  have hexecute : Leaves (fun s => (s.metadata, s.sent)) (executeSetStatement (E := E) statement) := by
    apply Leaves.bind (.modifyGet fun _ => rfl)
    intro context
    split
    · exact .pure _
    · apply Leaves.bind (.modifyGet fun _ => rfl)
      rintro (failure | frame) <;> exact .pure _
  obtain ⟨outcome, s', hrun, hpart⟩ := hexecute s
  exact ⟨s', run_bind_ok hrun _, congrArg Prod.fst hpart, congrArg Prod.snd hpart⟩

theorem setVariable_run {var : String} (h : var ∈ postgresVariables) (text : String)
    (s : Connection E) :
    ∃ answer s', setVariable var text s = .ok answer s' ∧ Stored s s' answer var text := by
  have hmetadata : Handler.metadata s = .ok s.metadata s := rfl
  unfold setVariable
  rw [run_bind_ok hmetadata, parameterStatusForVar_postgres h]
  exact store_run s var text

theorem setTimeZone_run (statement : Statement) (value : SetExpr) (s : Connection E) :
    ∃ answer s', tryRespondSetStatements statement (.setTimeZone false value) s = .ok answer s' ∧
      Stored s s' answer metadataTimezone (String.ofList (unquoted value.text)) := by
  have hmetadata : Handler.metadata s = .ok s.metadata s := rfl
  unfold tryRespondSetStatements
  dsimp only
  rw [run_bind_ok hmetadata, setTimezone, getTimezone, HashMap.get_insert_self]
  exact store_run s metadataTimezone _

/-- The metadata that a SET leaves. -/
def metadataAfterSet (E : Engine) (metadata : HashMap String String) :
    SetStatement → HashMap String String
  | .singleAssignment false false variableName (value :: _) =>
    if E.toLowercase variableName = "statement_timeout" then
      setStatementTimeout metadata (timeoutOf value.text)
    else if E.toLowercase variableName ∈ postgresVariables then
      value.kept.elim metadata (metadata.insert (E.toLowercase variableName))
    else metadata
  | .setTimeZone false value => setTimezone metadata (some (String.ofList (unquoted value.text)))
  | _ => metadata

private theorem metadataAfterSet_of_not_kept {set : SetStatement} (h : ¬ KeptInMetadata E set)
    (metadata : HashMap String String) : metadataAfterSet E metadata set = metadata := by
  unfold metadataAfterSet
  split
  case h_1 variableName value _ =>
    rw [if_neg fun htimeout => h (.inl htimeout)]
    by_cases hvar : E.toLowercase variableName ∈ postgresVariables
    · rw [if_pos hvar]
      cases value with
      | expression => rfl
      | stringLiteral => exact absurd (.inr ⟨hvar, _, rfl, fun _ => SetExpr.noConfusion⟩) h
      | otherLiteral => exact absurd (.inr ⟨hvar, _, rfl, fun _ => SetExpr.noConfusion⟩) h
    · rw [if_neg hvar]
  case h_2 => exact absurd trivial h
  case h_3 => rfl

/-- A SET always answers, and all that it does to the metadata is this. -/
theorem set_metadata (statement : Statement) (set : SetStatement) (s : Connection E) :
    ∃ answer s', tryRespondSetStatements statement set s = .ok answer s' ∧
      s'.metadata = metadataAfterSet E s.metadata set := by
  obtain ⟨action, haction, hcases⟩ := tryRespondSetStatements_cases (E := E) statement set
  rw [haction]
  cases hcases with
  | noTimeout => exact ⟨_, s, rfl, rfl⟩
  | @timeout _ value _ htimeout =>
    have hmetadata : Handler.metadata s = .ok s.metadata s := rfl
    rw [metadataAfterSet.eq_1, if_pos htimeout, run_bind_ok hmetadata]
    generalize setStatementTimeout s.metadata (timeoutOf value.text) = metadata
    exact ⟨_, _, rfl, rfl⟩
  | kept hvar hkept =>
    obtain ⟨answer, s', hrun, hstored⟩ := setVariable_run hvar _ s
    rw [metadataAfterSet.eq_1, if_neg (ne_timeout_of_postgresVariables hvar), if_pos hvar, hkept]
    exact ⟨answer, s', hrun, hstored.metadata⟩
  | @timeZone value =>
    obtain ⟨answer, s', hrun, hstored⟩ := setTimeZone_run statement value s
    rw [haction] at hrun
    exact ⟨answer, s', hrun, hstored.metadata⟩
  | fallback hkept =>
    obtain ⟨s', hrun, hmetadata, -⟩ := fallbackSet_run statement s
    exact ⟨_, s', hrun, hmetadata.trans (metadataAfterSet_of_not_kept hkept _).symm⟩

private theorem set_run {statement : Statement} {set : SetStatement} {var text : String}
    (hkind : statement.kind = .set set) (hassigned : assigned E statement = some (var, text))
    (s : Connection E) :
    match keptText E set with
    | some kept => ∃ answer s', answerStatement defaultHooks statement s = .ok answer s' ∧
        Stored s s' answer var kept
    | none => ∃ s', answerStatement defaultHooks statement s = .ok (.ok setResponse) s' ∧
        s'.metadata = s.metadata ∧ s'.sent = s.sent := by
  rw [answerStatement_set hkind]
  rw [assigned, hkind] at hassigned
  match set with
  | .singleAssignment hasScope false variableName (value :: values) =>
    dsimp only at hassigned
    split at hassigned
    case isFalse => cases hassigned
    case isTrue hsession =>
      cases hassigned
      match hasScope with
      | true => exact fallbackSet_run statement s
      | false =>
        by_cases hpostgres : E.toLowercase variableName ∈ postgresVariables
        · have htimeout := ne_timeout_of_postgresVariables hpostgres
          unfold keptText tryRespondSetStatements
          dsimp only
          rw [namedVariable_postgres hpostgres, if_pos hpostgres, if_neg htimeout,
            if_pos (List.contains_iff_mem.mpr hpostgres)]
          cases value with
          | stringLiteral content _ => exact setVariable_run hpostgres content s
          | otherLiteral _ => exact setVariable_run hpostgres "" s
          | expression _ => exact fallbackSet_run statement s
        · have htimeout : E.toLowercase variableName ≠ "statement_timeout" := by
            rintro h
            rw [namedVariable, h] at hsession
            exact absurd hsession (by decide)
          unfold keptText tryRespondSetStatements
          dsimp only
          rw [if_neg hpostgres, if_neg htimeout,
            if_neg fun h => hpostgres (List.contains_iff_mem.mp h)]
          exact fallbackSet_run statement s
  | .setTimeZone true value =>
    cases hassigned
    exact fallbackSet_run statement s
  | .setTimeZone false value =>
    cases hassigned
    exact setTimeZone_run statement value s

private theorem listValue_length (value : SetExpr) {values : List SetExpr} (h : values ≠ []) :
    value.value.length < (listValue (value :: values)).length := by
  obtain ⟨next, values, rfl⟩ := List.exists_cons_of_ne_nil h
  have hseparator : (", " : String).length = 2 := rfl
  rw [listValue, List.map_cons, List.map_cons, String.intercalate_cons_cons, String.length_append,
    String.length_append, hseparator]
  omega

private theorem keptLiteral_iff (value : SetExpr) (values : List SetExpr) :
    KeptLiteral value ∧ values = [] ↔
      (match value with
        | .stringLiteral content _ => some content
        | .otherLiteral _ => some ""
        | .expression _ => none) = some (listValue (value :: values)) := by
  by_cases hsingle : values = []
  · rw [hsingle, listValue, List.map_singleton, String.intercalate_singleton, and_iff_left rfl]
    cases value with
    | stringLiteral content _ => exact iff_of_true trivial rfl
    | otherLiteral text =>
      rw [Option.some_inj]
      exact eq_comm
    | expression _ => exact iff_of_false id nofun
  · have hlength := listValue_length value hsingle
    refine iff_of_false (fun h => hsingle h.2) fun h => ?_
    cases value with
    | stringLiteral content _ =>
      rw [← Option.some_inj.mp h] at hlength
      exact Nat.lt_irrefl _ hlength
    | otherLiteral _ =>
      rw [← Option.some_inj.mp h] at hlength
      exact Nat.not_lt_zero _ hlength
    | expression _ => cases h

private theorem keepsText_iff {statement : Statement} {set : SetStatement} {var text : String}
    (hkind : statement.kind = .set set) (hassigned : assigned E statement = some (var, text)) :
    KeepsText E statement ↔ keptText E set = some text := by
  rw [assigned, hkind] at hassigned
  rw [KeepsText, hkind]
  match set with
  | .singleAssignment hasScope false variableName (value :: values) =>
    dsimp only at hassigned ⊢
    split at hassigned
    case isFalse => cases hassigned
    case isTrue hsession =>
      cases hassigned
      rw [imp_iff_right hsession]
      cases hasScope with
      | true => exact iff_of_false (fun h => nomatch h.1) nofun
      | false =>
        unfold keptText
        dsimp only
        rw [and_iff_right rfl]
        by_cases hpostgres : E.toLowercase variableName ∈ postgresVariables
        · rw [and_iff_right hpostgres, if_pos hpostgres, keptLiteral_iff]
          cases value <;> rfl
        · rw [if_neg hpostgres]
          exact iff_of_false (fun h => hpostgres h.1) nofun
  | .setTimeZone true value => exact iff_of_false (fun h => nomatch h.1) nofun
  | .setTimeZone false value =>
    cases hassigned
    exact (and_iff_right rfl).trans Option.some_inj.symm

private theorem showValue_session {var text : String} (hsession : var ∈ sessionVariables)
    {metadata : HashMap String String} (hget : metadata.get var = some text) (context : E.Context) :
    showValue E [var] metadata context = some (var, text) := by
  simp only [sessionVariables, postgresVariables, metadataTimezone, List.mem_cons,
    List.not_mem_nil, or_false] at hsession
  have hkept : ∀ default : Option String, (match (metadata.get var).or default with
      | some val => some (var, val)
      | none => some ("unsupported_show_statement", "")) = some (var, text) := by
    intro default
    rw [hget, Option.some_or]
  rcases hsession with rfl | rfl | rfl | rfl | rfl | rfl | rfl <;> exact hkept _

theorem tryRespondShowVariable_run {variableNames : List String} {s : Connection E}
    {name text : String}
    (h : showValue E (variableNames.map E.toLowercase) s.metadata s.context = some (name, text)) :
    tryRespondShowVariable variableNames s =
      .ok (.ok (.query (mockShowResponse E name text))) s := by
  have hmetadata : Handler.metadata s = .ok s.metadata s := rfl
  have hcontext : Handler.context s = .ok s.context s := rfl
  rw [tryRespondShowVariable, run_bind_ok hmetadata, run_bind_ok hcontext, h]
  rfl

/-- SHOW gives the text that is kept for the variable. -/
theorem show_run {statement : Statement} {var text : String} {s : Connection E}
    (hshown : shown E statement = some var) (hget : s.metadata.get var = some text) :
    ∃ name, answerStatement defaultHooks statement s =
      .ok (.ok (.query (mockShowResponse E name text))) s := by
  obtain ⟨kind, _⟩ := statement
  cases kind
  case showVariable variableNames =>
    suffices h : ∃ name, showValue E (variableNames.map E.toLowercase) s.metadata s.context =
        some (name, text) by
      obtain ⟨name, h⟩ := h
      refine ⟨name, ?_⟩
      rw [answerStatement_showVariable rfl]
      exact tryRespondShowVariable_run h
    unfold shown at hshown
    dsimp only at hshown
    split at hshown
    case h_1 hnames =>
      cases hshown
      rw [hnames]
      refine ⟨"TimeZone", ?_⟩
      change some ("TimeZone", (s.metadata.get metadataTimezone).getD "UTC") = _
      rw [hget, Option.getD_some]
    case h_2 hnames =>
      split at hshown
      case isTrue hsession =>
        cases hshown
        rw [hnames]
        exact ⟨_, showValue_session hsession hget s.context⟩
      case isFalse => cases hshown
    case h_3 => cases hshown
  all_goals cases hshown

private theorem setStatementTimeout_get {var : String} (hsession : var ∈ sessionVariables)
    (metadata : HashMap String String) (timeout : Option Nat) :
    (setStatementTimeout metadata timeout).get var = metadata.get var := by
  have hne : var ≠ metadataStatementTimeout := by
    rintro rfl
    exact absurd hsession (by decide)
  cases timeout with
  | none => rw [setStatementTimeout, HashMap.get_remove, if_neg hne]
  | some timeout => rw [setStatementTimeout, HashMap.get_insert_of_ne _ hne]

private theorem metadataAfterSet_get {statement : Statement} {set : SetStatement} {var : String}
    (hkind : statement.kind = .set set) (hassigned : assigned E statement = none)
    (hsession : var ∈ sessionVariables) (metadata : HashMap String String) :
    (metadataAfterSet E metadata set).get var = metadata.get var := by
  rw [assigned, hkind] at hassigned
  unfold metadataAfterSet
  split
  case h_1 variableName value _ =>
    by_cases htimeout : E.toLowercase variableName = "statement_timeout"
    · rw [if_pos htimeout]
      exact setStatementTimeout_get hsession metadata _
    · rw [if_neg htimeout]
      by_cases hpostgres : E.toLowercase variableName ∈ postgresVariables
      · have hnamed : namedVariable E variableName ∈ sessionVariables := by
          rw [namedVariable_postgres hpostgres]
          exact List.mem_cons_of_mem _ hpostgres
        dsimp only at hassigned
        rw [if_pos hnamed] at hassigned
        cases hassigned
      · rw [if_neg hpostgres]
  case h_2 => cases hassigned
  case h_3 => rfl

private theorem other_run {statement : Statement} (hassigned : assigned E statement = none)
    (s : Connection E) :
    ∃ answer s', answerStatement defaultHooks statement s = .ok answer s' ∧
      ∀ var ∈ sessionVariables, s'.metadata.get var = s.metadata.get var := by
  by_cases hset : ∃ set, statement.kind = .set set
  · obtain ⟨set, hkind⟩ := hset
    obtain ⟨answer, s', hrun, hmetadata⟩ := set_metadata statement set s
    rw [answerStatement_set hkind]
    refine ⟨answer, s', hrun, fun var hsession => ?_⟩
    rw [hmetadata, metadataAfterSet_get hkind hassigned hsession]
  · obtain ⟨answer, s', hrun, hmetadata⟩ :=
      answerStatement_leavesMetadata (E := E) (fun set h => hset ⟨set, h⟩) s
    exact ⟨answer, s', hrun, fun var _ => by rw [hmetadata]⟩

private theorem assigned_set {statement : Statement} {var text : String}
    (h : assigned E statement = some (var, text)) :
    (∃ set, statement.kind = .set set) ∧ var ∈ sessionVariables := by
  unfold assigned at h
  split at h
  case h_1 hkind =>
    split at h
    case isTrue hsession =>
      cases h
      exact ⟨⟨_, hkind⟩, hsession⟩
    case isFalse => cases h
  case h_2 hkind =>
    cases h
    exact ⟨⟨_, hkind⟩, List.mem_cons_self⟩
  case h_3 => cases h

private theorem keepsText_of_none {statement : Statement} (h : assigned E statement = none) :
    KeepsText E statement := by
  unfold assigned at h
  unfold KeepsText
  split at h
  case h_1 =>
    intro hsession
    rw [if_pos hsession] at h
    cases h
  case h_2 => cases h
  case h_3 => trivial

/-- The texts that were last set are those that are kept. -/
private def Kept (last : String → Option String) (s : Connection E) : Prop :=
  ∀ var text, last var = some text → var ∈ sessionVariables ∧ s.metadata.get var = some text

private theorem Kept.shows {last : String → Option String} {s s' : Connection E}
    (hkept : Kept last s) {statement : Statement} {answer : Answer}
    (hrun : answerStatement defaultHooks statement s = .ok answer s') (var text : String)
    (hshown : shown E statement = some var) (hlast : last var = some text) :
    ShowsText E answer text := by
  obtain ⟨name, hshow⟩ := show_run hshown (hkept var text hlast).2
  cases hrun.symm.trans hshow
  exact ⟨name, rfl⟩

private theorem Kept.other {last : String → Option String} {s s' : Connection E}
    (hkept : Kept last s)
    (hmetadata : ∀ var ∈ sessionVariables, s'.metadata.get var = s.metadata.get var) :
    Kept last s' := by
  intro var text hlast
  obtain ⟨hsession, hget⟩ := hkept var text hlast
  exact ⟨hsession, (hmetadata var hsession).trans hget⟩

private theorem Kept.stored {last : String → Option String} {s s' : Connection E}
    (hkept : Kept last s) {answer : Answer} {var text : String} (hsession : var ∈ sessionVariables)
    (hstored : Stored s s' answer var text) : Kept (Function.update last var (some text)) s' := by
  intro var' text' hlast
  rw [hstored.metadata]
  by_cases hvar : var' = var
  · subst hvar
    rw [Function.update_self] at hlast
    exact ⟨hsession, (HashMap.get_insert_self _ _ _).trans hlast⟩
  · rw [Function.update_of_ne hvar] at hlast
    rw [HashMap.get_insert_of_ne _ hvar]
    exact hkept var' text' hlast

private theorem faithful_of_kept {last : String → Option String} {s : Connection E}
    {statements : List Statement} (hkept : Kept last s)
    (hkeeps : ∀ statement ∈ statements, KeepsText E statement) : Faithful E last s statements := by
  induction statements generalizing last s with
  | nil => trivial
  | cons statement statements ih =>
    have hrest := fun statement' hmem => hkeeps statement' (List.mem_cons_of_mem _ hmem)
    cases hassigned : assigned E statement with
    | none =>
      obtain ⟨answer, s', hrun, hmetadata⟩ := other_run hassigned s
      refine ⟨answer, s', hrun, hkept.shows hrun, ?_⟩
      rw [hassigned]
      exact ih (hkept.other hmetadata) hrest
    | some assignment =>
      obtain ⟨⟨set, hkind⟩, hsession⟩ := assigned_set hassigned
      have htext := (keepsText_iff hkind hassigned).mp (hkeeps statement List.mem_cons_self)
      have hset := set_run hkind hassigned s
      rw [htext] at hset
      obtain ⟨answer, s', hrun, hstored⟩ := hset
      refine ⟨answer, s', hrun, hkept.shows hrun, ?_⟩
      rw [hassigned]
      cases answer with
      | error error => trivial
      | ok response =>
        exact ⟨hstored.announced response rfl, ih (hkept.stored hsession hstored) hrest⟩

private theorem keepsText_of_faithful {last : String → Option String} {s : Connection E}
    {statements : List Statement} (hsend : ∀ sent message, ∃ done, E.send sent message = .ok done)
    (hfaithful : Faithful E last s statements) :
    ∀ statement ∈ statements, KeepsText E statement := by
  induction statements generalizing last s with
  | nil => exact fun _ hmem => nomatch hmem
  | cons statement statements ih =>
    obtain ⟨answer, s', hrun, -, hstep⟩ := hfaithful
    cases hassigned : assigned E statement with
    | none =>
      rw [hassigned] at hstep
      exact List.forall_mem_cons.mpr ⟨keepsText_of_none hassigned, ih hstep⟩
    | some assignment =>
      obtain ⟨⟨set, hkind⟩, -⟩ := assigned_set hassigned
      have hset := set_run hkind hassigned s
      rw [hassigned] at hstep
      cases hkept : keptText E set with
      | none =>
        rw [hkept] at hset
        obtain ⟨s'', hrun', -, hsent⟩ := hset
        cases hrun.symm.trans hrun'
        have hmore := hstep.1.symm.trans hsent
        exact absurd (List.append_right_eq_self.mp hmore) (List.cons_ne_nil _ _)
      | some kept =>
        rw [hkept] at hset
        obtain ⟨answer', s'', hrun', hstored⟩ := hset
        cases hrun.symm.trans hrun'
        cases hstored.succeeds (hsend _ _)
        have hstatus := List.append_cancel_left (hstep.1.symm.trans (hstored.announced _ rfl))
        have htext : assignment.2 = kept :=
          congrArg ParameterStatus.value (List.cons.inj hstatus).1
        rw [← htext] at hkept
        exact List.forall_mem_cons.mpr ⟨(keepsText_iff hkind hassigned).mpr hkept, ih hstep.2⟩

/-- Every SET and SHOW of a session is faithful if all its SETs of session variables meet
the condition, and only then where every status message can be sent. -/
theorem setThenShow_faithful (E : Engine) (s : Connection E) (statements : List Statement) :
    ((∀ statement ∈ statements, KeepsText E statement) →
        Faithful E (fun _ => none) s statements) ∧
      ((∀ sent message, ∃ done, E.send sent message = .ok done) →
        Faithful E (fun _ => none) s statements →
          ∀ statement ∈ statements, KeepsText E statement) :=
  ⟨faithful_of_kept nofun, keepsText_of_faithful⟩

def setStatement (variableName : String) (value : SetExpr) : Statement :=
  ⟨.set (.singleAssignment false false variableName [value]),
    "SET " ++ variableName ++ " = " ++ value.text⟩

def showStatement (variableName : String) : Statement :=
  ⟨.showVariable [variableName], "SHOW " ++ variableName⟩

/-- `SET DateStyle = 'ISO'; SHOW datestyle`. -/
theorem setDateStyle_faithful :
    Faithful referenceEngine (fun _ => none) (referenceConnection .idle)
      [setStatement "DateStyle" (.stringLiteral "ISO" "'ISO'"), showStatement "datestyle"] :=
  (setThenShow_faithful referenceEngine (referenceConnection .idle) _).1 <|
    List.forall_mem_cons.mpr ⟨fun _ => ⟨rfl, by decide, trivial, rfl⟩,
      List.forall_mem_singleton.mpr trivial⟩

/-- `SET extra_float_digits = 3` keeps and announces an empty text. -/
theorem setFloatDigits_notFaithful :
    ¬ Faithful referenceEngine (fun _ => none) (referenceConnection .idle)
      [setStatement "extra_float_digits" (.otherLiteral "3"), showStatement "extra_float_digits"] := by
  intro h
  have hkeeps := keepsText_of_faithful (fun _ _ => ⟨(), rfl⟩) h
  have hliteral := (hkeeps _ List.mem_cons_self (by decide)).2.2.1
  exact absurd hliteral (by decide : ("3" : String) ≠ "")

end Steps
end DatafusionPostgres.Session

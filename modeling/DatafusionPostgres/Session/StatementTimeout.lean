import DatafusionPostgres.Library.Quoting
import DatafusionPostgres.Session.SessionVariables

/-! The statement timeout: which values of SET statement_timeout are read as they are meant. -/
namespace DatafusionPostgres.Session
open ArrowPg Library

section Values

/-- The units of a time in the configuration of PostgreSQL. -/
inductive TimeoutUnit where
  | us | ms | s | min | h | d
  deriving DecidableEq, Repr

namespace TimeoutUnit

def letters : TimeoutUnit → List Char
  | us => ['u', 's']
  | ms => ['m', 's']
  | s => ['s']
  | min => ['m', 'i', 'n']
  | h => ['h']
  | d => ['d']

/-- So many of the unit in milliseconds. Microseconds are rounded, ties to the even number. -/
def milliseconds : TimeoutUnit → Nat → Nat
  | us, n => if n % 1000 < 500 ∨ n % 1000 = 500 ∧ n / 1000 % 2 = 0 then n / 1000 else n / 1000 + 1
  | ms, n => n
  | s, n => n * 1000
  | min, n => n * 60000
  | h, n => n * 3600000
  | d, n => n * 86400000

end TimeoutUnit

def isBlank (c : Char) : Bool := [' ', '\t', '\n', '\x0b', '\x0c', '\r'].contains c

/-- The text is a time of so many milliseconds: an integer, and maybe blanks and a unit. -/
def IsTime (text : List Char) (milliseconds : Nat) : Prop :=
  ∃ number n, IsNumeral number n ∧
    ((text = number ∧ milliseconds = n) ∨
      ∃ blanks unit, (∀ c ∈ blanks, isBlank c) ∧
        text = number ++ (blanks ++ TimeoutUnit.letters unit) ∧ milliseconds = unit.milliseconds n)

/-- An integer below 2⁶⁴ and right after it a unit of the code, once or several times. -/
def IsTaken (text : List Char) (milliseconds : Nat) : Prop :=
  ∃ number n, IsNumeral number n ∧ n < UInt64.size ∧
    ((text = number ∧ milliseconds = n) ∨
      ∃ unit ∈ [TimeoutUnit.ms, .s, .min], ∃ k, 0 < k ∧
        text = number ++ copies unit.letters k ∧ milliseconds = unit.milliseconds n)

/-- The limit of a time: none for a time of zero. -/
def limitOf (milliseconds : Nat) : Option Nat := if milliseconds = 0 then none else some milliseconds

private theorem letters_ne_nil (unit : TimeoutUnit) : unit.letters ≠ [] := by
  cases unit <;> exact List.cons_ne_nil _ _

private theorem letters_not_blank (unit : TimeoutUnit) :
    unit.letters.dropWhile isBlank = unit.letters := by
  cases unit <;> rfl

private theorem letters_inj {unit unit' : TimeoutUnit} (h : unit.letters = unit'.letters) :
    unit = unit' := by
  cases unit <;> cases unit' <;> first | rfl | cases h

private theorem tail_head {blanks : List Char} (hblanks : ∀ c ∈ blanks, isBlank c)
    (unit : TimeoutUnit) :
    ∀ c, (blanks ++ unit.letters).head? = some c → c.isDigit = false := by
  intro c hc
  cases blanks with
  | nil =>
    cases unit <;> cases hc <;> rfl
  | cons b blanks =>
    cases hc
    have hblank := hblanks c List.mem_cons_self
    simp only [isBlank, List.contains_iff_mem, List.mem_cons, List.not_mem_nil, or_false] at hblank
    rcases hblank with rfl | rfl | rfl | rfl | rfl | rfl <;> rfl

private theorem unit_of_tail {blanks blanks' : List Char} {unit unit' : TimeoutUnit}
    (hblanks : ∀ c ∈ blanks, isBlank c) (hblanks' : ∀ c ∈ blanks', isBlank c)
    (heq : blanks ++ unit.letters = blanks' ++ unit'.letters) : unit = unit' := by
  have hdrop := congrArg (List.dropWhile isBlank) heq
  rw [List.dropWhile_append_of_pos hblanks, List.dropWhile_append_of_pos hblanks',
    letters_not_blank, letters_not_blank] at hdrop
  exact letters_inj hdrop

/-- A text is a time in one way. -/
theorem IsTime.unique {text : List Char} {a b : Nat} (ha : IsTime text a) (hb : IsTime text b) :
    a = b := by
  have hempty : ∀ c, ([] : List Char).head? = some c → c.isDigit = false := by rintro c ⟨⟩
  obtain ⟨number, n, hnumber, ha⟩ := ha
  obtain ⟨number', n', hnumber', hb⟩ := hb
  rcases ha with ⟨rfl, rfl⟩ | ⟨blanks, unit, hblanks, rfl, rfl⟩ <;>
    rcases hb with ⟨heq, rfl⟩ | ⟨blanks', unit', hblanks', heq, rfl⟩
  · exact (hnumber.unique hnumber' hempty hempty (by simpa using heq)).1
  · obtain ⟨-, htail⟩ := hnumber.unique hnumber' hempty (tail_head hblanks' unit')
      (by simpa using heq)
    exact absurd htail.symm (List.append_ne_nil_of_right_ne_nil _ (letters_ne_nil unit'))
  · obtain ⟨-, htail⟩ := hnumber.unique hnumber' (tail_head hblanks unit) hempty
      (by simpa using heq)
    exact absurd htail (List.append_ne_nil_of_right_ne_nil _ (letters_ne_nil unit))
  · obtain ⟨rfl, htail⟩ := hnumber.unique hnumber' (tail_head hblanks unit)
      (tail_head hblanks' unit') heq
    rw [unit_of_tail hblanks hblanks' htail]

end Values

section Parser

/-- What `parseTimeout` multiplies its number to, if nothing overflows. -/
def timeoutProduct (timeoutStr : List Char) : Option Nat :=
  if endsWith timeoutStr ['m', 's'] then
    parseUnsigned UInt64.size (trimEndMatches ['m', 's'] timeoutStr)
  else if endsWith timeoutStr ['s'] then
    (parseUnsigned UInt64.size (trimEndMatches ['s'] timeoutStr)).map (· * 1000)
  else if endsWith timeoutStr ['m', 'i', 'n'] then
    (parseUnsigned UInt64.size (trimEndMatches ['m', 'i', 'n'] timeoutStr)).map (· * 60 * 1000)
  else parseUnsigned UInt64.size timeoutStr

theorem parseTimeout_eq (timeoutStr : List Char) :
    parseTimeout timeoutStr = (timeoutProduct timeoutStr).map (· % UInt64.size) := by
  have hsmall : ∀ cs, (parseUnsigned UInt64.size cs).map (· % UInt64.size) =
      parseUnsigned UInt64.size cs := by
    intro cs
    cases hparse : parseUnsigned UInt64.size cs with
    | none => rfl
    | some n => exact congrArg some (Nat.mod_eq_of_lt (parseUnsigned_eq_some_iff.mp hparse).2)
  rw [parseTimeout, timeoutProduct]
  split
  · exact (hsmall _).symm
  split
  · rw [Option.map_map]
    rfl
  split
  · rw [Option.map_map]
    rfl
  · exact (hsmall _).symm

private theorem endsWith_iff {cs pattern : List Char} : endsWith cs pattern = true ↔ pattern <:+ cs :=
  List.isSuffixOf_iff_suffix

private theorem not_suffix_numeral {number pattern : List Char} {n : Nat}
    (h : IsNumeral number n) (hpattern : ∃ c, pattern.getLast? = some c ∧ c.isDigit = false) :
    ¬ pattern <:+ number := by
  rintro ⟨front, rfl⟩
  obtain ⟨c, hc, hletter⟩ := hpattern
  obtain ⟨d, hd, hdigit⟩ := h.getLast
  rw [List.getLast?_append, hc] at hd
  cases hd
  exact Bool.false_ne_true (hletter.symm.trans hdigit)

private theorem letters_getLast (unit : TimeoutUnit) :
    ∃ c, unit.letters.getLast? = some c ∧ c.isDigit = false := by
  cases unit <;> exact ⟨_, rfl, rfl⟩

private theorem parse_trimmed {unit : TimeoutUnit} {timeoutStr : List Char}
    (hend : unit.letters <:+ timeoutStr) {n : Nat} :
    parseUnsigned UInt64.size (trimEndMatches unit.letters timeoutStr) = some n ↔
      ∃ number, IsNumeral number n ∧ n < UInt64.size ∧
        ∃ k, 0 < k ∧ timeoutStr = number ++ copies unit.letters k := by
  rw [parseUnsigned_eq_some_iff]
  constructor
  · rintro ⟨hnumber, hlt⟩
    obtain ⟨k, hk⟩ := exists_copies_trimEndMatches unit.letters timeoutStr
    refine ⟨_, hnumber, hlt, k, Nat.pos_of_ne_zero ?_, hk⟩
    rintro rfl
    rw [copies, List.replicate_zero, List.flatten_nil, List.append_nil] at hk
    rw [← hk] at hnumber
    exact not_suffix_numeral hnumber (letters_getLast unit) hend
  · rintro ⟨number, hnumber, hlt, k, -, rfl⟩
    rw [trimEndMatches_copies (letters_ne_nil unit)
      (not_suffix_numeral hnumber (letters_getLast unit))]
    exact ⟨hnumber, hlt⟩

private theorem suffix_copies (front : List Char) (unit : TimeoutUnit) {k : Nat} (hk : 0 < k) :
    unit.letters <:+ front ++ copies unit.letters k := by
  obtain ⟨k, rfl⟩ := Nat.exists_eq_add_of_lt hk
  rw [Nat.zero_add, copies_succ', ← List.append_assoc]
  exact List.suffix_append _ _

private theorem not_suffix_of_last {cs pattern other : List Char} (h : other <:+ cs)
    (hne : other ≠ []) (hpattern : pattern ≠ []) (hlast : pattern.getLast? ≠ other.getLast?) :
    ¬ pattern <:+ cs := by
  rintro ⟨front, rfl⟩
  obtain ⟨front', heq⟩ := h
  have hsame := congrArg List.getLast? heq
  rw [List.getLast?_append_of_ne_nil _ hne, List.getLast?_append_of_ne_nil _ hpattern] at hsame
  exact hlast hsame.symm

private theorem not_ms_suffix_seconds {number : List Char} {n : Nat} (h : IsNumeral number n)
    (k : Nat) :
    ¬ TimeoutUnit.ms.letters <:+ number ++ copies TimeoutUnit.s.letters k := by
  rintro ⟨front, heq⟩
  change front ++ ['m', 's'] = number ++ copies ['s'] k at heq
  cases k with
  | zero =>
    rw [copies, List.replicate_zero, List.flatten_nil, List.append_nil] at heq
    exact not_suffix_numeral h ⟨'s', rfl, rfl⟩ ⟨front, heq⟩
  | succ k =>
    rw [copies_succ', ← List.append_assoc, show ['m', 's'] = ['m'] ++ ['s'] from rfl,
      ← List.append_assoc] at heq
    have hlast := congrArg List.getLast? (List.append_cancel_right heq)
    rw [List.getLast?_append, List.getLast?_append] at hlast
    cases k with
    | zero =>
      obtain ⟨d, hd, hdigit⟩ := h.getLast
      rw [show copies ['s'] 0 = [] from rfl, List.getLast?_nil, Option.none_or, hd] at hlast
      cases hlast
      cases hdigit
    | succ k =>
      rw [copies_succ', List.getLast?_concat] at hlast
      cases hlast

private theorem timeoutProduct_units (timeoutStr : List Char) :
    timeoutProduct timeoutStr =
      let read := fun unit : TimeoutUnit =>
        (parseUnsigned UInt64.size (trimEndMatches unit.letters timeoutStr)).map unit.milliseconds
      if endsWith timeoutStr (TimeoutUnit.letters .ms) then read .ms
      else if endsWith timeoutStr (TimeoutUnit.letters .s) then read .s
      else if endsWith timeoutStr (TimeoutUnit.letters .min) then read .min
      else parseUnsigned UInt64.size timeoutStr := by
  have hplain : TimeoutUnit.ms.milliseconds = id := rfl
  have hminutes : TimeoutUnit.min.milliseconds = (· * 60 * 1000) := by
    funext n
    change n * 60000 = n * 60 * 1000
    omega
  dsimp only
  rw [timeoutProduct, hplain, hminutes, Option.map_id]
  rfl

theorem timeoutProduct_eq_some_iff {timeoutStr : List Char} {product : Nat} :
    timeoutProduct timeoutStr = some product ↔ IsTaken timeoutStr product := by
  have hunit : ∀ {unit : TimeoutUnit}, unit ∈ [TimeoutUnit.ms, .s, .min] →
      endsWith timeoutStr unit.letters = true →
      (parseUnsigned UInt64.size (trimEndMatches unit.letters timeoutStr)).map unit.milliseconds =
        some product → IsTaken timeoutStr product := by
    intro unit hmem hend h
    obtain ⟨n, hn, rfl⟩ := Option.map_eq_some_iff.mp h
    obtain ⟨number, hnumber, hlt, k, hk, heq⟩ := (parse_trimmed (endsWith_iff.mp hend)).mp hn
    exact ⟨number, n, hnumber, hlt, .inr ⟨unit, hmem, k, hk, heq, rfl⟩⟩
  rw [timeoutProduct_units]
  dsimp only
  constructor
  · intro h
    split at h
    · exact hunit (by decide) ‹_› h
    split at h
    · exact hunit (by decide) ‹_› h
    split at h
    · exact hunit (by decide) ‹_› h
    · obtain ⟨hnumber, hlt⟩ := parseUnsigned_eq_some_iff.mp h
      exact ⟨_, _, hnumber, hlt, .inl ⟨rfl, rfl⟩⟩
  · rintro ⟨number, n, hnumber, hlt, ⟨rfl, rfl⟩ | ⟨unit, hmem, k, hk, rfl, rfl⟩⟩
    · rw [if_neg fun h => not_suffix_numeral hnumber (letters_getLast _) (endsWith_iff.mp h),
        if_neg fun h => not_suffix_numeral hnumber (letters_getLast _) (endsWith_iff.mp h),
        if_neg fun h => not_suffix_numeral hnumber (letters_getLast _) (endsWith_iff.mp h)]
      exact parseUnsigned_eq_some_iff.mpr ⟨hnumber, hlt⟩
    · have hend := suffix_copies number unit hk
      have hparse := (parse_trimmed hend).mpr ⟨number, hnumber, hlt, k, hk, rfl⟩
      simp only [List.mem_cons, List.not_mem_nil, or_false] at hmem
      rcases hmem with rfl | rfl | rfl
      · rw [if_pos (endsWith_iff.mpr hend), hparse, Option.map_some]
      · rw [if_neg fun h => not_ms_suffix_seconds hnumber k (endsWith_iff.mp h),
          if_pos (endsWith_iff.mpr hend), hparse, Option.map_some]
      · have hnot : ∀ unit : TimeoutUnit, unit.letters.getLast? = some 's' →
            ¬ unit.letters <:+ number ++ copies TimeoutUnit.min.letters k := by
          intro unit hlast
          refine not_suffix_of_last hend (letters_ne_nil _) (letters_ne_nil _) ?_
          rw [hlast]
          decide
        rw [if_neg fun h => hnot .ms rfl (endsWith_iff.mp h),
          if_neg fun h => hnot .s rfl (endsWith_iff.mp h), if_pos (endsWith_iff.mpr hend), hparse,
          Option.map_some]

/-- The limit that a value sets, as the code takes it. -/
theorem timeoutOf_eq (value : String) :
    timeoutOf value =
      (timeoutProduct (unquoted value)).bind fun product => limitOf (product % UInt64.size) := by
  have hpositive : ∀ x : Option Nat, (x.map (· % UInt64.size)).filter (0 < ·) =
      x.bind fun product => limitOf (product % UInt64.size) := by
    rintro (_ | product)
    · rfl
    · rw [Option.map_some, Option.bind_some, limitOf]
      by_cases hzero : product % UInt64.size = 0
      · rw [if_pos hzero, hzero]
        rfl
      · rw [if_neg hzero]
        exact Option.filter_some_pos (by simpa using Nat.pos_of_ne_zero hzero)
  rw [timeoutOf]
  split
  · rename_i hnone
    rcases hnone with hzero | hempty
    · rw [hzero]
      rfl
    · rw [List.isEmpty_iff.mp hempty]
      rfl
  · rw [parseTimeout_eq, hpositive]

end Parser

section Statements

/-- The text that a value stands for: that of a string, or of a name in quotes. -/
def SetExpr.setting : SetExpr → List Char
  | .expression text =>
    match text.toList with
    | '"' :: cs => (readQuoted '"' cs).getD ('"' :: cs)
    | cs => cs
  | value => value.value.toList

/-- The value that a SET statement_timeout sets it to. -/
def timeoutValue (E : Engine) (statement : Statement) : Option (List Char) :=
  match statement.kind with
  | .set (.singleAssignment _ false variableName (value :: values)) =>
    if namedVariable E variableName = "statement_timeout" then
      some ([',', ' '].intercalate ((value :: values).map SetExpr.setting))
    else none
  | _ => none

/-- The product that the code computes for a SET of the timeout. -/
def timeoutProductOf (E : Engine) (statement : Statement) : Option Nat :=
  match statement.kind with
  | .set (.singleAssignment false false variableName (value :: _)) =>
    if E.toLowercase variableName = "statement_timeout" then
      timeoutProduct (unquoted value.text)
    else none
  | _ => none

/-- What becomes of the timeout: a time sets it, any other value leaves it as it was. -/
def Follows (before after : Option Nat) : Option (List Char) → Prop
  | none => after = before
  | some value =>
    (∀ milliseconds, IsTime value milliseconds → after = limitOf milliseconds) ∧
      ((∀ milliseconds, ¬ IsTime value milliseconds) → after = before)

/-- The code takes a time for the one that is meant, or nothing for no time; where no time is
meant, what the code takes was in force before. -/
def TakenAsMeant (before : Option Nat) (taken meant : List Char) : Prop :=
  (∃ milliseconds, IsTaken taken milliseconds ∧ milliseconds < UInt64.size ∧
      (IsTime meant milliseconds ∨
        (∀ other, ¬ IsTime meant other) ∧ before = limitOf milliseconds)) ∨
    (∀ milliseconds, ¬ IsTaken taken milliseconds) ∧
      (IsTime meant 0 ∨ (∀ other, ¬ IsTime meant other) ∧ before = none)

/-- With a scope, or with the name in quotes, a SET of the timeout is left to DataFusion; then
the time has to be in force already. -/
def MeetsTimeout (E : Engine) (before : Option Nat) (statement : Statement) : Prop :=
  match statement.kind with
  | .set (.singleAssignment hasScope false variableName (value :: values)) =>
    namedVariable E variableName = "statement_timeout" →
      let meant := [',', ' '].intercalate ((value :: values).map SetExpr.setting)
      if hasScope = false ∧ E.toLowercase variableName = "statement_timeout" then
        TakenAsMeant before (unquoted value.text) meant
      else ∀ milliseconds, IsTime meant milliseconds → before = limitOf milliseconds
  | _ => True

def MeetsTimeouts (E : Engine) : Option Nat → List Statement → Prop
  | _, [] => True
  | before, statement :: statements =>
    MeetsTimeout E before statement ∧
      ∃ after, Follows before after (timeoutValue E statement) ∧ MeetsTimeouts E after statements

end Statements

section Runs
variable {E : Engine}

/-- A statement that no hook answers, under the given limit. -/
def runStatementWithin (timeout : Option Nat) (statement : Statement) : Handler E Answer := do
  match ← Handler.runOnContext (E.sql timeout statement.text) with
  | .error failure => return .error (.err (sqlError failure))
  | .ok frame => respondWithFrame statement frame unifiedText

/-- The plan of a portal that no hook answers, under the given limit. -/
def runPlanWithin (timeout : Option Nat) (portal : StoredPortal E) (statement : Statement)
    (plan : E.Plan) : Handler E Answer := do
  match portalParams portal plan with
  | .error error => return .error error
  | .ok params =>
    let context ← Handler.context
    match E.replaceParamsWithValues plan params >>= fun plan => E.optimize plan context with
    | .error error => return .error (.err (apiError error))
    | .ok optimised =>
      match ← Handler.runOnContext (E.executeLogicalPlan timeout optimised) with
      | .error failure => return .error (.err (sqlError failure))
      | .ok frame => respondWithFrame statement frame portal.resultColumnFormat

def timeoutText : Option Nat → String
  | some milliseconds => toString milliseconds ++ "ms"
  | none => "0"

/-- The limit is kept, SHOW gives it, and the next query has it. -/
structure InForce (timeout : Option Nat) (s : Connection E) : Prop where
  kept : getStatementTimeout s.metadata = timeout
  shown : ∀ statement variableNames, statement.kind = .showVariable variableNames →
    variableNames.map E.toLowercase = ["statement_timeout"] →
      answerStatement defaultHooks statement s =
        .ok (.ok (.query (mockShowResponse E "statement_timeout" (timeoutText timeout)))) s
  simple : ∀ statement, firstSimpleAnswer statement defaultHooks s = .ok none s →
    answerStatement defaultHooks statement s = runStatementWithin timeout statement s
  extended : ∀ portal statement plan,
    runPlan portal statement plan s = runPlanWithin timeout portal statement plan s

/-- In the run of the statements the timeout in force follows their values, and nothing
overflows. -/
def TimeoutTracked (E : Engine) : Option Nat → Connection E → List Statement → Prop
  | timeout, s, [] => InForce timeout s
  | timeout, s, statement :: statements =>
    InForce timeout s ∧ ∃ answer s' timeout',
      answerStatement defaultHooks statement s = .ok answer s' ∧
      (∀ product, timeoutProductOf E statement = some product → product < UInt64.size) ∧
      Follows timeout timeout' (timeoutValue E statement) ∧
      TimeoutTracked E timeout' s' statements

theorem inForce_kept (s : Connection E) :
    InForce (getStatementTimeout s.metadata) s where
  kept := rfl
  shown statement variableNames hkind hnames := by
    rw [answerStatement_showVariable hkind]
    refine tryRespondShowVariable_run ?_
    rw [hnames]
    cases htimeout : getStatementTimeout s.metadata with
    | none => simp only [showValue, htimeout, timeoutText]
    | some milliseconds => simp only [showValue, htimeout, timeoutText]
  simple statement hfirst := by
    have hmetadata : Handler.metadata s = .ok s.metadata s := rfl
    rw [answerStatement, run_bind_ok hfirst]
    change runStatement statement s = _
    rw [runStatement, run_bind_ok hmetadata]
    rfl
  extended portal statement plan := by
    have hmetadata : Handler.metadata s = .ok s.metadata s := rfl
    have hcontext : Handler.context s = .ok s.context s := rfl
    rw [runPlan, runPlanWithin]
    cases portalParams portal plan with
    | error error => rfl
    | ok params =>
      dsimp only
      rw [run_bind_ok hcontext, run_bind_ok hcontext]
      cases E.replaceParamsWithValues plan params >>= fun plan => E.optimize plan s.context with
      | error error => rfl
      | ok optimised =>
        dsimp only
        exact run_bind_ok hmetadata _

private theorem getStatementTimeout_set (metadata : HashMap String String) {timeout : Option Nat}
    (htimeout : ∀ milliseconds, timeout = some milliseconds → milliseconds < UInt64.size) :
    getStatementTimeout (setStatementTimeout metadata timeout) = timeout := by
  cases timeout with
  | none =>
    rw [setStatementTimeout, getStatementTimeout, HashMap.get_remove, if_pos rfl]
    rfl
  | some milliseconds =>
    rw [setStatementTimeout, getStatementTimeout, HashMap.get_insert_self]
    change parseUnsigned UInt64.size (toString milliseconds).toList = _
    rw [Nat.toString_eq_ofList_toDigits, String.toList_ofList, parseUnsigned_toDigits,
      if_pos (htimeout _ rfl)]

private theorem timeoutOf_lt (value : String) (milliseconds : Nat)
    (h : timeoutOf value = some milliseconds) : milliseconds < UInt64.size := by
  rw [timeoutOf_eq] at h
  obtain ⟨product, -, hlimit⟩ := Option.bind_eq_some_iff.mp h
  rw [limitOf] at hlimit
  split at hlimit
  · cases hlimit
  · cases hlimit
    exact Nat.mod_lt _ (by decide)

/-- The timeout that the statement sets in the code, if it sets it. -/
private def setTimeout (E : Engine) (statement : Statement) : Option (Option Nat) :=
  match statement.kind with
  | .set (.singleAssignment false false variableName (value :: _)) =>
    if E.toLowercase variableName = "statement_timeout" then some (timeoutOf value.text) else none
  | _ => none

private theorem metadataStatementTimeout_ne {var : String} (h : var ∈ sessionVariables) :
    metadataStatementTimeout ≠ var := by
  rintro rfl
  exact absurd h (by decide)

private theorem getStatementTimeout_insert {var : String} (h : var ∈ sessionVariables)
    (metadata : HashMap String String) (text : String) :
    getStatementTimeout (metadata.insert var text) = getStatementTimeout metadata := by
  rw [getStatementTimeout, HashMap.get_insert_of_ne _ (metadataStatementTimeout_ne h)]
  rfl

private theorem metadataAfterSet_timeout (metadata : HashMap String String) (text : String)
    (set : SetStatement) :
    getStatementTimeout (metadataAfterSet E metadata set) =
      (setTimeout E ⟨.set set, text⟩).getD (getStatementTimeout metadata) := by
  match set with
  | .singleAssignment true _ _ _ => rfl
  | .singleAssignment false true _ _ => rfl
  | .singleAssignment false false _ [] => rfl
  | .other => rfl
  | .setTimeZone true _ => rfl
  | .setTimeZone false value => exact getStatementTimeout_insert List.mem_cons_self _ _
  | .singleAssignment false false variableName (value :: values) =>
    rw [metadataAfterSet.eq_1]
    unfold setTimeout
    dsimp only
    split
    · rw [Option.getD_some]
      exact getStatementTimeout_set metadata (timeoutOf_lt value.text)
    split
    · rename_i hpostgres
      cases value.kept with
      | none => rfl
      | some text => exact getStatementTimeout_insert (List.mem_cons_of_mem _ hpostgres) _ _
    · rfl

private theorem answerStatement_timeout (statement : Statement) (s : Connection E) :
    ∃ answer s', answerStatement defaultHooks statement s = .ok answer s' ∧
      getStatementTimeout s'.metadata =
        (setTimeout E statement).getD (getStatementTimeout s.metadata) := by
  by_cases hset : ∃ set, statement.kind = .set set
  · obtain ⟨kind, text⟩ := statement
    obtain ⟨set, rfl⟩ := hset
    rw [answerStatement_set rfl]
    obtain ⟨answer, s', hrun, hmetadata⟩ := set_metadata ⟨.set set, text⟩ set s
    exact ⟨answer, s', hrun, by rw [hmetadata, metadataAfterSet_timeout]⟩
  · obtain ⟨answer, s', hrun, hmetadata⟩ :=
      answerStatement_leavesMetadata (E := E) (fun set h => hset ⟨set, h⟩) s
    refine ⟨answer, s', hrun, ?_⟩
    have hnone : setTimeout E statement = none := by
      unfold setTimeout
      split
      · rename_i hkind
        exact absurd ⟨_, hkind⟩ hset
      · rfl
    rw [hmetadata, hnone, Option.getD_none]

private theorem limitOf_inj {a b : Nat} : limitOf a = limitOf b ↔ a = b := by
  constructor
  · intro h
    rw [limitOf, limitOf] at h
    split at h <;> split at h
    · omega
    · cases h
    · cases h
    · exact Option.some.inj h
  · rintro rfl
    rfl

private theorem follows_limitOf_iff (before : Option Nat) (milliseconds : Nat)
    (meant : List Char) :
    Follows before (limitOf milliseconds) (some meant) ↔
      IsTime meant milliseconds ∨
        (∀ other, ¬ IsTime meant other) ∧ before = limitOf milliseconds := by
  by_cases htime : ∃ a, IsTime meant a
  · obtain ⟨a, ha⟩ := htime
    constructor
    · intro h
      rw [limitOf_inj.mp (h.1 a ha)]
      exact .inl ha
    · rintro (h | ⟨h, -⟩)
      · exact ⟨fun b hb => by rw [h.unique hb], fun hnone => absurd h (hnone _)⟩
      · exact absurd ha (h a)
  · have hnone := not_exists.mp htime
    constructor
    · exact fun h => .inr ⟨hnone, (h.2 hnone).symm⟩
    · rintro (h | ⟨-, h⟩)
      · exact absurd h (hnone _)
      · exact ⟨fun a ha => absurd ha (hnone a), fun _ => h.symm⟩

private theorem follows_taken_iff (before : Option Nat) (value : String) (meant : List Char) :
    (∀ product, timeoutProduct (unquoted value) = some product → product < UInt64.size) ∧
        Follows before (timeoutOf value) (some meant) ↔
      TakenAsMeant before (unquoted value) meant := by
  rw [timeoutOf_eq]
  cases hproduct : timeoutProduct (unquoted value) with
  | none =>
    have htaken : ∀ a, ¬ IsTaken (unquoted value) a := by
      intro a ha
      cases hproduct.symm.trans (timeoutProduct_eq_some_iff.mpr ha)
    rw [Option.bind_none]
    refine (and_iff_right (by rintro _ ⟨⟩)).trans ((follows_limitOf_iff before 0 meant).trans ?_)
    constructor
    · exact fun h => .inr ⟨htaken, h⟩
    · rintro (⟨a, ha, -⟩ | ⟨-, h⟩)
      · exact absurd ha (htaken a)
      · exact h
  | some product =>
    have htaken : IsTaken (unquoted value) product := timeoutProduct_eq_some_iff.mp hproduct
    rw [Option.bind_some]
    constructor
    · rintro ⟨hfits, hfollows⟩
      rw [Nat.mod_eq_of_lt (hfits product rfl), follows_limitOf_iff] at hfollows
      exact .inl ⟨product, htaken, hfits product rfl, hfollows⟩
    · rintro (⟨a, ha, hfits, h⟩ | ⟨hnone, -⟩)
      · cases hproduct.symm.trans (timeoutProduct_eq_some_iff.mpr ha)
        refine ⟨fun b hb => ?_, ?_⟩
        · cases hb
          exact hfits
        · rw [Nat.mod_eq_of_lt hfits, follows_limitOf_iff]
          exact h
      · exact absurd htaken (hnone product)

private theorem namedVariable_timeout {variableName : String}
    (h : E.toLowercase variableName = "statement_timeout") :
    namedVariable E variableName = "statement_timeout" := by
  rw [namedVariable, h]
  decide

private theorem follows_self_iff (before : Option Nat) (meant : List Char) :
    Follows before before (some meant) ↔
      ∀ milliseconds, IsTime meant milliseconds → before = limitOf milliseconds :=
  ⟨fun h => h.1, fun h => ⟨h, fun _ => rfl⟩⟩

private theorem meetsTimeout_iff (before : Option Nat) (statement : Statement) :
    (∀ product, timeoutProductOf E statement = some product → product < UInt64.size) ∧
        Follows before ((setTimeout E statement).getD before) (timeoutValue E statement) ↔
      MeetsTimeout E before statement := by
  have hother : (∀ product, (none : Option Nat) = some product → product < UInt64.size) ∧
      Follows before before none ↔ True := iff_of_true ⟨by rintro _ ⟨⟩, rfl⟩ trivial
  have hkept : ∀ meant,
      (∀ product, (none : Option Nat) = some product → product < UInt64.size) ∧
        Follows before before (some meant) ↔
      ∀ milliseconds, IsTime meant milliseconds → before = limitOf milliseconds := fun meant =>
    (and_iff_right (by rintro _ ⟨⟩)).trans (follows_self_iff before meant)
  unfold timeoutProductOf setTimeout timeoutValue MeetsTimeout
  obtain ⟨kind, text⟩ := statement
  cases kind with
  | set set =>
    match set with
    | .singleAssignment true true _ _ => exact hother
    | .singleAssignment false true _ _ => exact hother
    | .singleAssignment true false _ [] => exact hother
    | .singleAssignment false false _ [] => exact hother
    | .setTimeZone _ _ => exact hother
    | .other => exact hother
    | .singleAssignment true false variableName (value :: values) =>
      dsimp only
      by_cases hnamed : namedVariable E variableName = "statement_timeout"
      · rw [imp_iff_right hnamed, if_pos hnamed, if_neg fun h => Bool.noConfusion h.1]
        exact hkept _
      · rw [if_neg hnamed]
        exact hother.trans (iff_of_true trivial fun h => absurd h hnamed)
    | .singleAssignment false false variableName (value :: values) =>
      dsimp only
      by_cases hnamed : namedVariable E variableName = "statement_timeout"
      · rw [imp_iff_right hnamed, if_pos hnamed]
        by_cases hname : E.toLowercase variableName = "statement_timeout"
        · rw [if_pos hname, if_pos hname, if_pos ⟨rfl, hname⟩, Option.getD_some]
          exact follows_taken_iff before value.text _
        · rw [if_neg hname, if_neg hname, if_neg fun h => hname h.2]
          exact hkept _
      · have hname := fun h => hnamed (namedVariable_timeout h)
        rw [if_neg hname, if_neg hname, if_neg hnamed]
        exact hother.trans (iff_of_true trivial fun h => absurd h hnamed)
  | _ => exact hother

private theorem follows_unique {before a b : Option Nat} {value : Option (List Char)}
    (ha : Follows before a value) (hb : Follows before b value) : a = b := by
  cases value with
  | none => exact ha.trans hb.symm
  | some value =>
    by_cases htime : ∃ milliseconds, IsTime value milliseconds
    · obtain ⟨milliseconds, htime⟩ := htime
      exact (ha.1 _ htime).trans (hb.1 _ htime).symm
    · have hnone := not_exists.mp htime
      exact (ha.2 hnone).trans (hb.2 hnone).symm

private theorem TimeoutTracked.inForce {timeout : Option Nat} {s : Connection E}
    {statements : List Statement} (h : TimeoutTracked E timeout s statements) :
    InForce timeout s := by
  cases statements with
  | nil => exact h
  | cons statement statements => exact h.1

private theorem tracked_of_meets {s : Connection E} {statements : List Statement}
    (h : MeetsTimeouts E (getStatementTimeout s.metadata) statements) :
    TimeoutTracked E (getStatementTimeout s.metadata) s statements := by
  induction statements generalizing s with
  | nil => exact inForce_kept s
  | cons statement statements ih =>
    obtain ⟨hmeets, after, hafter, hrest⟩ := h
    obtain ⟨hproduct, hfollows⟩ := (meetsTimeout_iff _ statement).mpr hmeets
    obtain ⟨answer, s', hrun, hkept⟩ := answerStatement_timeout statement s
    rw [← hkept] at hfollows
    rw [follows_unique hafter hfollows] at hrest
    exact ⟨inForce_kept s, answer, s', _, hrun, hproduct, hfollows, ih hrest⟩

private theorem meets_of_tracked {timeout : Option Nat} {s : Connection E}
    {statements : List Statement} (h : TimeoutTracked E timeout s statements) :
    MeetsTimeouts E timeout statements := by
  induction statements generalizing timeout s with
  | nil => trivial
  | cons statement statements ih =>
    obtain ⟨hin, answer, s', after, hrun, hproduct, hfollows, hrest⟩ := h
    obtain ⟨answer', s'', hrun', hkept⟩ := answerStatement_timeout statement s
    cases hrun.symm.trans hrun'
    refine ⟨(meetsTimeout_iff _ statement).mp ⟨hproduct, ?_⟩, after, hfollows, ih hrest⟩
    rw [← hin.kept, ← hkept, hrest.inForce.kept, hin.kept]
    exact hfollows

/-- The timeout follows the values of all SETs of a run exactly if every SET meets the
condition. -/
theorem timeoutTracked_iff (E : Engine) (s : Connection E) (statements : List Statement) :
    TimeoutTracked E (getStatementTimeout s.metadata) s statements ↔
      MeetsTimeouts E (getStatementTimeout s.metadata) statements :=
  ⟨meets_of_tracked, tracked_of_meets⟩

/-- `SET statement_timeout = '2 h'` removes the limit. -/
theorem setTwoHours_not_tracked :
    ¬ TimeoutTracked referenceEngine none (referenceConnection .idle)
      [setStatement "statement_timeout" (.stringLiteral "2 h" "'2 h'")] := by
  intro h
  obtain ⟨hmeets, -⟩ := meets_of_tracked h
  have hmeant : IsTime ['2', ' ', 'h'] 7200000 :=
    ⟨['2'], 2, ⟨['2'], by decide, List.forall_mem_singleton.mpr (by decide), .inl rfl, rfl⟩,
      .inr ⟨[' '], .h, List.forall_mem_singleton.mpr (by decide), rfl, rfl⟩⟩
  have hvalue : [',', ' '].intercalate ([SetExpr.stringLiteral "2 h" "'2 h'"].map SetExpr.setting) =
      ['2', ' ', 'h'] := by decide +kernel
  have htaken : timeoutProduct (unquoted "'2 h'") = none := by decide +kernel
  have hnamed : namedVariable referenceEngine "statement_timeout" = "statement_timeout" := by
    decide +kernel
  have hlower : referenceEngine.toLowercase "statement_timeout" = "statement_timeout" := by
    decide +kernel
  have hread := hmeets hnamed
  dsimp only at hread
  rw [if_pos ⟨rfl, hlower⟩, hvalue] at hread
  rcases hread with ⟨a, ha, -⟩ | ⟨-, hzero | ⟨hnone, -⟩⟩
  · cases htaken.symm.trans (timeoutProduct_eq_some_iff.mpr ha)
  · exact absurd (hzero.unique hmeant) (by decide)
  · exact hnone _ hmeant

end Runs
end DatafusionPostgres.Session

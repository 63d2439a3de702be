import DatafusionPostgres.Library.StateProgram
import DatafusionPostgres.Session.ReferenceEngine

/-! The FETCH statements of one cursor: slices of its result, one after the other. -/
namespace DatafusionPostgres.Session
open ArrowPg Library

/-- Digits as the parser takes them: an underscore may stand in front of one. -/
inductive DigitGroup : List Char → Prop
  | nil : DigitGroup []
  | digit {c : Char} {cs : List Char} (hc : c.isDigit) (hcs : DigitGroup cs) : DigitGroup (c :: cs)
  | separated {c : Char} {cs : List Char} (hc : c.isDigit) (hcs : DigitGroup cs) :
    DigitGroup ('_' :: c :: cs)

/-- The numbers that the parser takes, without a sign, and what they stand for. -/
inductive NumberToken : List Char → ℚ → Prop
  | mk {whole fraction digits exponent : List Char} {power : Int} (hwhole : DigitGroup whole)
    (hfraction : FractionText fraction digits) (hdigits : DigitGroup digits)
    (hexponent : ExponentText exponent power) (hne : whole ++ digits ≠ []) :
    NumberToken (whole ++ (fraction ++ exponent))
      (digitsValue ((whole ++ digits).filter Char.isDigit) *
        10 ^ (power - (digits.filter Char.isDigit).length))

/-- The rows that a forward FETCH asks for: a written number as it stands. -/
inductive RowCount
  | all
  | one
  | written (text : List Char) (number : ℚ)

def RowCount.number : RowCount → Option ℚ
  | .all => none
  | .one => some 1
  | .written _ number => some number

inductive AsksFor : FetchDirection → RowCount → Prop
  | next : AsksFor .next .one
  | forward : AsksFor (.forward none) .one
  | all : AsksFor .all .all
  | forwardAll : AsksFor .forwardAll .all
  | count (text : String) {number : ℚ} (h : NumberToken text.toList number) :
    AsksFor (.count (.number text)) (.written text.toList number)
  | forwardCount (text : String) {number : ℚ} (h : NumberToken text.toList number) :
    AsksFor (.forward (some (.number text))) (.written text.toList number)

section Slices
variable {ρ : Type}

/-- As many rows as are asked for, or all there are. -/
def SliceLength (taken total : Nat) : Option ℚ → Prop
  | none => taken = total
  | some number => (taken : ℚ) = min number total

/-- The slices that the numbers cut off the rows, one after the other. -/
inductive Slices : List (Option ℚ) → List ρ → List (List ρ) → Prop
  | nil {rows : List ρ} : Slices [] rows []
  | cons {number : Option ℚ} {numbers : List (Option ℚ)} {taken left : List ρ}
    {slices : List (List ρ)} (h : SliceLength taken.length (taken ++ left).length number)
    (hleft : Slices numbers left slices) : Slices (number :: numbers) (taken ++ left)
      (taken :: slices)

/-- The number that digits below `2^64` stand for. -/
def plainCount (text : List Char) : Option Nat :=
  if text.all Char.isDigit ∧ digitsValue text < 2 ^ 64 then some (digitsValue text) else none

/-- Every written count that is met while rows are left is positive, and one that is not plain
digits below `2^64` is not below the number of rows left. -/
def CountsFit : List RowCount → Nat → Prop
  | [], _ => True
  | .all :: counts, _ => CountsFit counts 0
  | .one :: counts, left => CountsFit counts (left - 1)
  | .written text number :: counts, left =>
    match plainCount text with
    | some n => (left = 0 ∨ 0 < n) ∧ CountsFit counts (left - n)
    | none => (left : ℚ) ≤ number ∧ CountsFit counts 0

/-- The row limit that a count becomes. -/
def RowCount.limit : RowCount → Nat
  | .all => 0
  | .one => 1
  | .written text _ => (plainCount text).getD 0

/-- `portal.fetch`: the next rows, all of them for a limit of zero. -/
def takeRows (limit : Nat) (rows : List ρ) : List ρ × List ρ :=
  if limit = 0 then (rows, []) else (rows.take limit, rows.drop limit)

theorem takeRows_append (limit : Nat) (rows : List ρ) :
    (takeRows limit rows).1 ++ (takeRows limit rows).2 = rows := by
  unfold takeRows
  split
  · exact List.append_nil rows
  · exact List.take_append_drop limit rows

private theorem slices_cons_iff {number : Option ℚ} {numbers : List (Option ℚ)}
    {taken left : List ρ} {slices : List (List ρ)} :
    Slices (number :: numbers) (taken ++ left) (taken :: slices) ↔
      SliceLength taken.length (taken ++ left).length number ∧ Slices numbers left slices := by
  constructor
  · generalize hrows : taken ++ left = rows
    rintro (_ | ⟨h, hleft⟩)
    cases List.append_cancel_left hrows
    exact ⟨h, hleft⟩
  · rintro ⟨h, hleft⟩
    exact .cons h hleft

private theorem slices_ne_nil {number : Option ℚ} {numbers : List (Option ℚ)} {rows : List ρ}
    {slices : List (List ρ)} (h : Slices (number :: numbers) rows slices) : slices ≠ [] := by
  cases h
  exact List.cons_ne_nil _ _

end Slices

section Tokens
variable {text : List Char} {number : ℚ}

private theorem NumberToken.ne_nil (h : NumberToken text number) : text ≠ [] := by
  obtain ⟨-, hfraction, -, -, hne⟩ := h
  intro hnil
  obtain ⟨rfl, hrest⟩ := List.append_eq_nil_iff.mp hnil
  cases hfraction with
  | none => exact hne rfl
  | point => cases hrest

private theorem NumberToken.not_plus {cs : List Char} (h : NumberToken ('+' :: cs) number) :
    False := by
  generalize htext : '+' :: cs = text at h
  obtain ⟨hwhole, hfraction, -, -, hne⟩ := h
  cases hwhole with
  | nil =>
    cases hfraction with
    | none => exact hne rfl
    | point => cases htext
  | digit hc =>
    cases htext
    cases hc
  | separated => cases htext

private theorem NumberToken.plain (h : NumberToken text number) (hdigits : ∀ c ∈ text, c.isDigit) :
    number = digitsValue text := by
  obtain ⟨-, hfraction, -, hexponent, -⟩ := h
  cases hfraction with
  | point => exact absurd (hdigits '.' (by simp)) (by decide)
  | none =>
    cases hexponent with
    | none =>
      rw [List.append_nil, List.append_nil] at hdigits ⊢
      rw [List.append_nil, List.filter_eq_self.mpr hdigits]
      simp
    | @positive e _ _ he =>
      have he' : e.isDigit := hdigits e (by simp)
      rcases he with rfl | rfl <;> cases he'
    | @negative e _ he =>
      have he' : e.isDigit := hdigits e (by simp)
      rcases he with rfl | rfl <;> cases he'

private theorem NumberToken.parse (h : NumberToken text number) :
    parseUnsigned (2 ^ 64) text = plainCount text := by
  unfold plainCount
  split
  · rename_i hplain
    rw [parseUnsigned_digits h.ne_nil (List.all_eq_true.mp hplain.1), if_pos hplain.2]
  · rename_i hplain
    refine Option.eq_none_iff_forall_ne_some.mpr fun n hn => ?_
    obtain ⟨⟨digits, -, hdigits, rfl | rfl, rfl⟩, hlt⟩ := parseUnsigned_eq_some_iff.mp hn
    · exact hplain ⟨List.all_eq_true.mpr hdigits, hlt⟩
    · exact h.not_plus

end Tokens

section Counts
variable {ρ : Type}

private theorem takeRows_pos {n : Nat} (hn : 0 < n) (rows : List ρ) :
    SliceLength (takeRows n rows).1.length rows.length (some n) ∧
      (takeRows n rows).2.length = rows.length - n := by
  rw [takeRows, if_neg (Nat.ne_of_gt hn), List.length_take, List.length_drop]
  refine ⟨?_, rfl⟩
  change ((min n rows.length : Nat) : ℚ) = _
  push_cast
  rfl

private theorem takeRows_fits {direction : FetchDirection} {count : RowCount}
    (hask : AsksFor direction count) (counts : List RowCount) (rows : List ρ) :
    SliceLength (takeRows count.limit rows).1.length rows.length count.number ∧
        CountsFit counts (takeRows count.limit rows).2.length ↔
      CountsFit (count :: counts) rows.length := by
  have hwritten : ∀ {text : List Char} {number : ℚ}, NumberToken text number →
      (SliceLength (takeRows (RowCount.written text number).limit rows).1.length rows.length
          (some number) ∧
        CountsFit counts (takeRows (RowCount.written text number).limit rows).2.length ↔
      CountsFit (.written text number :: counts) rows.length) := by
    intro text number htoken
    rw [RowCount.limit, CountsFit]
    cases hplain : plainCount text with
    | none =>
      refine and_congr ?_ Iff.rfl
      change (rows.length : ℚ) = min number rows.length ↔ _
      rw [eq_comm, min_eq_right_iff]
    | some n =>
      have hdigits := hplain
      unfold plainCount at hdigits
      split at hdigits
      · rename_i h
        obtain rfl := (Option.some.inj hdigits).symm
        rw [htoken.plain (List.all_eq_true.mp h.1), Option.getD_some]
        rcases Nat.eq_zero_or_pos (digitsValue text) with hzero | hpos
        · rw [hzero]
          change (rows.length : ℚ) = min ((0 : Nat) : ℚ) rows.length ∧ CountsFit counts 0 ↔
            (rows.length = 0 ∨ 0 < 0) ∧ CountsFit counts rows.length
          rw [eq_comm, min_eq_right_iff, Nat.cast_le, Nat.le_zero, or_iff_left (Nat.lt_irrefl 0)]
          refine and_congr_right fun hnone => ?_
          rw [hnone]
        · obtain ⟨hslice, hleft⟩ := takeRows_pos hpos rows
          rw [hleft]
          exact and_congr (iff_of_true hslice (.inr hpos)) Iff.rfl
      · cases hdigits
  cases hask with
  | next | forward =>
    obtain ⟨hslice, hleft⟩ := takeRows_pos Nat.one_pos rows
    rw [RowCount.limit, hleft]
    exact and_iff_right (by exact_mod_cast hslice)
  | all | forwardAll => exact and_iff_right rfl
  | count _ h => exact hwritten h
  | forwardCount _ h => exact hwritten h

end Counts


section Fetches
variable {E : Engine}

/-- The rows that a cursor has not given yet, with what its responses say besides. -/
def CursorAt (s : Connection E) (cursorName : String) (fields : List FieldInfo) (scans : Bool)
    (rows : List DataRow) : Prop :=
  ∃ portal, s.portals.get cursorName = some (some portal) ∧
    portal.response = some ⟨fields, rows.map .ok, scans⟩

/-- The statements `FETCH` of the cursor in their order, with their answers. -/
def handleFetches (cursorName : String) : List FetchDirection → Handler E (List Answer)
  | [] => return []
  | direction :: directions => do
    let answer ← handleFetch cursorName direction
    let answers ← handleFetches cursorName directions
    return answer :: answers

def sliceAnswer (fields : List FieldInfo) (scans : Bool) (rows : List DataRow) : Answer :=
  .ok (.query ⟨fields, rows.map .ok, scans⟩)

/-- What the code makes of the count: what is not a `usize` becomes zero, as all rows do. -/
theorem fetchMaxRows_asksFor {direction : FetchDirection} {count : RowCount}
    (h : AsksFor direction count) :
    ∃ maxRows, fetchMaxRows direction = .ok maxRows ∧ maxRows.getD 0 = count.limit := by
  cases h with
  | next => exact ⟨_, rfl, rfl⟩
  | forward => exact ⟨_, rfl, rfl⟩
  | all => exact ⟨_, rfl, rfl⟩
  | forwardAll => exact ⟨_, rfl, rfl⟩
  | count _ h => exact ⟨_, rfl, congrArg (Option.getD · 0) h.parse⟩
  | forwardCount _ h => exact ⟨_, rfl, congrArg (Option.getD · 0) h.parse⟩

theorem sliceAnswer_inj {fields : List FieldInfo} {scans : Bool} {rows rows' : List DataRow} :
    sliceAnswer fields scans rows = sliceAnswer fields scans rows' ↔ rows = rows' := by
  refine ⟨fun h => ?_, congrArg _⟩
  have hrows := congrArg QueryResponse.rows (Response.query.inj (Except.ok.inj h))
  exact List.map_injective_iff.mpr (fun _ _ => Except.ok.inj) hrows

variable (hfetch : ∀ (rows : List DataRow) (limit : Nat),
    E.fetchRows (some (rows.map .ok)) limit =
      .ok ((takeRows limit rows).1.map .ok, (takeRows limit rows).2.map .ok))
include hfetch

theorem handleFetch_asksFor {s : Connection E} {cursorName : String} {fields : List FieldInfo}
    {scans : Bool} {rows : List DataRow} (hcursor : CursorAt s cursorName fields scans rows)
    {direction : FetchDirection} {count : RowCount} (hasks : AsksFor direction count) :
    ∃ s', handleFetch cursorName direction s =
        .ok (sliceAnswer fields scans (takeRows count.limit rows).1) s' ∧
      CursorAt s' cursorName fields scans (takeRows count.limit rows).2 := by
  obtain ⟨portal, hportal, hresponse⟩ := hcursor
  obtain ⟨maxRows, hmax, hlimit⟩ := fetchMaxRows_asksFor hasks
  have hnamed : ({ portal with name := cursorName } : StoredPortal E).response =
      some ⟨fields, rows.map .ok, scans⟩ := hresponse
  rw [handleFetch_of_get hmax hportal, hlimit]
  exact ⟨_, fetchPortal_of_ok hnamed (hfetch rows _) s, _, HashMap.get_insert_self _ _ _, rfl⟩

omit hfetch in
private theorem handleFetches_cons {s s' : Connection E} {cursorName : String}
    {direction : FetchDirection} {directions : List FetchDirection} {answer answer' : Answer}
    {answers : List Answer} (hrun : handleFetch cursorName direction s = .ok answer s') :
    (∃ s'', handleFetches cursorName (direction :: directions) s =
        .ok (answer' :: answers) s'') ↔
      answer = answer' ∧ ∃ s'', handleFetches cursorName directions s' = .ok answers s'' := by
  rw [handleFetches, run_bind_ok hrun]
  cases hrest : handleFetches cursorName directions s' with
  | ok rest s'' =>
    rw [run_bind_ok hrest]
    constructor
    · rintro ⟨s₃, h⟩
      cases h
      exact ⟨rfl, s'', rfl⟩
    · rintro ⟨rfl, s₃, h⟩
      cases h
      exact ⟨s'', rfl⟩
  | error e s'' =>
    rw [run_bind_error hrest]
    refine iff_of_false ?_ ?_
    · rintro ⟨s₃, h⟩
      cases h
    · rintro ⟨-, s₃, h⟩
      cases h

/-- Each of the FETCH statements gives its slice of the rows exactly if all counts fit. -/
theorem handleFetches_slices_iff {s : Connection E} {cursorName : String} {fields : List FieldInfo}
    {scans : Bool} {rows : List DataRow} (hcursor : CursorAt s cursorName fields scans rows)
    {directions : List FetchDirection} {counts : List RowCount}
    (hasks : List.Forall₂ AsksFor directions counts) :
    (∃ slices s', Slices (counts.map RowCount.number) rows slices ∧
        handleFetches cursorName directions s = .ok (slices.map (sliceAnswer fields scans)) s') ↔
      CountsFit counts rows.length := by
  induction hasks generalizing s rows with
  | nil => exact iff_of_true ⟨[], s, .nil, rfl⟩ trivial
  | @cons direction count directions counts hask _ ih =>
    obtain ⟨s', hrun, hleft⟩ := handleFetch_asksFor hfetch hcursor hask
    rw [← takeRows_fits hask, ← ih hleft]
    have hrows := takeRows_append count.limit rows
    generalize (takeRows count.limit rows).1 = taken at *
    generalize (takeRows count.limit rows).2 = left at *
    subst hrows
    constructor
    · rintro ⟨slices, s₂, hslices, hanswers⟩
      cases slices with
      | nil => exact absurd rfl (slices_ne_nil hslices)
      | cons slice slices =>
        obtain ⟨hslice, s₃, hrest⟩ := (handleFetches_cons hrun).mp ⟨s₂, hanswers⟩
        cases sliceAnswer_inj.mp hslice
        obtain ⟨hlength, hslices⟩ := slices_cons_iff.mp hslices
        exact ⟨hlength, slices, s₃, hslices, hrest⟩
    · rintro ⟨hlength, slices, s₃, hslices, hrest⟩
      obtain ⟨s₂, hanswers⟩ := (handleFetches_cons hrun).mpr ⟨rfl, s₃, hrest⟩
      exact ⟨taken :: slices, s₂, slices_cons_iff.mpr ⟨hlength, hslices⟩, hanswers⟩

omit hfetch

/-- A connection with one cursor open. -/
def cursorConnection (rows : List DataRow) : Connection referenceEngine :=
  { referenceConnection .idle with
    portals := HashMap.empty.insert "c"
      (some ⟨"c", ("SELECT 1", none), ⟨[], []⟩, unifiedText, some ⟨[], rows.map .ok, false⟩⟩) }

theorem cursorAt_cursorConnection (rows : List DataRow) :
    CursorAt (cursorConnection rows) "c" [] false rows := ⟨_, rfl, rfl⟩

theorem referenceEngine_fetchRows (rows : List DataRow) (limit : Nat) :
    referenceEngine.fetchRows (some (rows.map .ok)) limit =
      .ok ((takeRows limit rows).1.map .ok, (takeRows limit rows).2.map .ok) := by
  cases limit with
  | zero => rfl
  | succ limit =>
    rw [takeRows, if_neg (Nat.succ_ne_zero limit), List.map_take, List.map_drop]
    exact congrArg Except.ok List.splitAt_eq

private theorem numberToken_digits {c : Char} (hc : c.isDigit) :
    NumberToken [c] (digitsValue [c]) := by
  have h := NumberToken.mk (.digit hc .nil) .none .nil .none (List.cons_ne_nil c _)
  simpa [hc] using h

/-- `FETCH 2; FETCH ALL` over three rows. -/
theorem twoFetches_slices :
    (∃ slices s', Slices [some 2, none] [[none], [some []], [some [49]]] slices ∧
      handleFetches "c" [.count (.number "2"), .all]
          (cursorConnection [[none], [some []], [some [49]]]) =
        .ok (slices.map (sliceAnswer [] false)) s') ↔
      CountsFit [.written ['2'] 2, .all] 3 :=
  have htwo : NumberToken ['2'] 2 := by exact_mod_cast numberToken_digits (show '2'.isDigit from rfl)
  handleFetches_slices_iff referenceEngine_fetchRows (cursorAt_cursorConnection _)
    (.cons (.count "2" htwo) (.cons .all .nil))

/-- `FETCH 0` gives all rows. -/
theorem fetchZero_notEmpty :
    ¬ ∃ slices s', Slices [some 0] [[none]] slices ∧
      handleFetches "c" [.count (.number "0")] (cursorConnection [[none]]) =
        .ok (slices.map (sliceAnswer [] false)) s' := by
  rintro ⟨slices, s', hslices, h⟩
  have hzero : NumberToken ['0'] 0 := by exact_mod_cast numberToken_digits (show '0'.isDigit from rfl)
  obtain ⟨s'', hrun, -⟩ := handleFetch_asksFor referenceEngine_fetchRows
    (cursorAt_cursorConnection [[none]]) (.count "0" hzero)
  cases slices with
  | nil => exact slices_ne_nil hslices rfl
  | cons slice slices =>
    cases sliceAnswer_inj.mp ((handleFetches_cons hrun).mp ⟨s', h⟩).1
    have hslices : Slices [some 0] ([[none]] ++ []) ([[none]] :: slices) := hslices
    obtain ⟨hlength, -⟩ := slices_cons_iff.mp hslices
    change ((1 : Nat) : ℚ) = min 0 (1 : Nat) at hlength
    norm_num at hlength

end Fetches
end DatafusionPostgres.Session

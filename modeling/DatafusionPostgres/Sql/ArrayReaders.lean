import DatafusionPostgres.ArrowPg.ReferenceLibraries
import DatafusionPostgres.Sql.Rewriting

/-! The three readers of an array in braces: both array rules and the parameters without a
type. -/
namespace DatafusionPostgres.Sql
open DatafusionPostgres.Library
open DatafusionPostgres.ArrowPg (ParamLibraries ScalarValue textOrArray referenceLibraries
  referenceLibraries_buildsLists)

def literal (text : String) : Expr := .mk (.value (.singleQuotedString text))

section Texts

def literalText? : Expr → Option String
  | .mk (.value (.singleQuotedString text)) => some text
  | _ => none

/-- The texts of an array of text literals. -/
def arrayTexts? : Expr → Option (List String)
  | .mk (.array elem _) => elem.mapM literalText?
  | _ => none

/-- The texts that a lowered comparison looks its left operand up in. -/
def containsTexts? : Expr → Option (List String)
  | .mk (.function ⟨_, .list [.unnamed array, _] _, _⟩) => arrayTexts? array
  | _ => none

/-- The texts of the array under a cast. -/
def castTexts? : Expr → Option (List String)
  | .mk (.cast _ operand _ _) => arrayTexts? operand
  | _ => none

def scalarText? : ScalarValue → Option String
  | .utf8 text => text
  | _ => none

/-- The texts of a parameter that became one list. -/
def parameterTexts? : Except ArrowPg.Failure (List ScalarValue) → Option (List String)
  | .ok [.list _ values] => values.mapM scalarText?
  | _ => none

private theorem mapM_map {α : Type} (read : α → Option String) (write : String → α)
    (h : ∀ text, read (write text) = some text) (texts : List String) :
    (texts.map write).mapM read = some texts := by
  induction texts with
  | nil => rfl
  | cons text texts ih =>
    rw [List.map_cons, List.mapM_cons, h, ih]
    rfl

end Texts

section Readers

/-- A text that looks like an array to the readers. -/
def Braced (text : String) : Prop :=
  text.toList.head? = some '{' ∧ text.toList.getLast? = some '}'

/-- What the readers cut at the commas. -/
def arrayPieces (text : String) : List (List Char) :=
  (trimMatches (fun c => c == '{' || c == '}' || c == ' ') text.toList).splitOn ','

/-- A piece of nothing but white space, such as the only one of an empty array. -/
def BlankPiece (text : String) : Prop :=
  ∃ piece ∈ arrayPieces text, ∀ c ∈ piece, isWhitespace c

theorem castTexts {arr : ArrayElemTypeDef} (harr : FixArrayLiteral.isText arr) (rest : Rest Node)
    (text : String) :
    castTexts? (FixArrayLiteral.preVisitExpr
      (.mk (.cast .doubleColon (literal text) (.array arr) rest))) =
      some (arrayItems text.toList) := by
  change ((arrayItems text.toList).map (FixArrayLiteral.arrayElem arr)).mapM literalText? = _
  refine mapM_map _ _ (fun item => ?_) _
  rw [FixArrayLiteral.arrayElem, if_pos harr]
  rfl

variable {text : String} (htext : Braced text)
include htext

private theorem trim_braced : trimMatches isWhitespace text.toList = text.toList := by
  refine trimMatches_eq_self (fun c hc => ?_) fun c hc => ?_
  · rw [htext.1] at hc
    rw [← Option.some.inj hc]
    decide
  · rw [htext.2] at hc
    rw [← Option.some.inj hc]
    decide

theorem anyTexts (left : Expr) (isSome : Bool) :
    containsTexts? (RewriteArrayAnyAllOperation.preVisitExpr
      (.mk (.anyOp left .eq (literal text) isSome))) = some (arrayItems text.toList) := by
  have harray : RewriteArrayAnyAllOperation.arrayOperand (literal text) =
      .mk (.array ((arrayItems text.toList).map literal) true) := by
    rw [literal, RewriteArrayAnyAllOperation.arrayOperand, trim_braced htext]
    exact if_pos htext
  change arrayTexts? (RewriteArrayAnyAllOperation.arrayOperand (literal text)) = _
  rw [harray]
  exact mapM_map literalText? literal (fun _ => rfl) _

theorem parameterTexts {libs : ParamLibraries} (hlist : libs.BuildsLists) :
    parameterTexts? (textOrArray libs text) =
      some ((arrayPieces text).map fun piece => String.ofList (trimMatches isWhitespace piece)) := by
  have hread : textOrArray libs text = (do
      return [← libs.newListNullable ((arrayPieces text).map fun piece =>
        .utf8 (some (String.ofList (trimMatches isWhitespace piece)))) .utf8]) := by
    rw [textOrArray]
    exact if_pos htext
  have htype : ∀ v ∈ (arrayPieces text).map (fun piece =>
      ScalarValue.utf8 (some (String.ofList (trimMatches isWhitespace piece)))),
      v.dataType = .utf8 := by
    intro v hv
    obtain ⟨piece, -, rfl⟩ := List.mem_map.mp hv
    rfl
  rw [hread, hlist.list _ _ htype fun _ => trivial]
  have hmap := mapM_map scalarText? (fun text => .utf8 (some text)) (fun _ => rfl)
    ((arrayPieces text).map fun piece => String.ofList (trimMatches isWhitespace piece))
  rw [List.map_map] at hmap
  exact hmap

end Readers

/-- The rules leave out what is blank between the commas; the parameters keep it. -/
theorem arrayItems_eq_iff (text : String) :
    arrayItems text.toList =
        (arrayPieces text).map (fun piece => String.ofList (trimMatches isWhitespace piece)) ↔
      ¬ BlankPiece text := by
  have hmap : (arrayPieces text).map (fun piece => String.ofList (trimMatches isWhitespace piece)) =
      ((arrayPieces text).map (trimMatches isWhitespace)).map String.ofList := by
    rw [List.map_map]
    rfl
  have hinj : Function.Injective String.ofList := fun _ _ => String.ofList_injective
  rw [hmap, arrayItems]
  refine (List.map_injective_iff.mpr hinj).eq_iff.trans (List.filter_eq_self.trans ?_)
  constructor
  · rintro h ⟨piece, hpiece, hblank⟩
    have := h _ (List.mem_map_of_mem hpiece)
    rw [trimMatches_eq_nil_iff.mpr hblank] at this
    exact absurd this (by decide)
  · intro h item hitem
    obtain ⟨piece, hpiece, rfl⟩ := List.mem_map.mp hitem
    cases hp : trimMatches isWhitespace piece with
    | nil => exact absurd ⟨piece, hpiece, trimMatches_eq_nil_iff.mp hp⟩ h
    | cons c cs => rfl

/-- The three readers agree on a text in braces exactly if none of its pieces is blank. -/
theorem arrayReaders_agree_iff {libs : ParamLibraries} (hlist : libs.BuildsLists)
    {arr : ArrayElemTypeDef} (harr : FixArrayLiteral.isText arr) {text : String}
    (htext : Braced text) (left : Expr) (isSome : Bool) (rest : Rest Node) :
    (∃ texts : List String,
      containsTexts? (RewriteArrayAnyAllOperation.preVisitExpr
        (.mk (.anyOp left .eq (literal text) isSome))) = some texts ∧
      castTexts? (FixArrayLiteral.preVisitExpr
        (.mk (.cast .doubleColon (literal text) (.array arr) rest))) = some texts ∧
      parameterTexts? (textOrArray libs text) = some texts) ↔ ¬ BlankPiece text := by
  rw [anyTexts htext, castTexts harr, parameterTexts htext hlist, ← arrayItems_eq_iff]
  constructor
  · rintro ⟨texts, hany, -, hparameter⟩
    exact Option.some.inj (hany.trans hparameter.symm)
  · intro h
    exact ⟨_, rfl, rfl, congrArg some h.symm⟩

/-- `x = ANY('{a, b}')`, `'{a, b}'::text[]` and a parameter `{a, b}` read the same texts. -/
theorem twoItems_readers_agree :
    ∃ texts : List String,
      containsTexts? (RewriteArrayAnyAllOperation.preVisitExpr
        (.mk (.anyOp (.mk (.identifier (Ident.new "x"))) .eq (literal "{a, b}") false))) =
          some texts ∧
      castTexts? (FixArrayLiteral.preVisitExpr
        (.mk (.cast .doubleColon (literal "{a, b}") (.array (.squareBracket .text none)) .none))) =
          some texts ∧
      parameterTexts? (textOrArray referenceLibraries "{a, b}") = some texts := by
  refine (arrayReaders_agree_iff referenceLibraries_buildsLists rfl ⟨rfl, rfl⟩ _ _ _).mpr
    ?_
  rintro ⟨piece, hpiece, hblank⟩
  have hpieces : arrayPieces "{a, b}" = [['a'], [' ', 'b']] := by decide
  rw [hpieces] at hpiece
  rcases List.mem_cons.mp hpiece with rfl | hpiece
  · exact absurd (hblank 'a' List.mem_cons_self) (by decide)
  · rw [List.mem_singleton.mp hpiece] at hblank
    exact absurd (hblank 'b' (by decide)) (by decide)

/-- The empty array has no element for the rules, and the empty text for a parameter. -/
theorem emptyArray_readers_disagree :
    Braced "{}" ∧ ¬ ∃ texts : List String,
      containsTexts? (RewriteArrayAnyAllOperation.preVisitExpr
        (.mk (.anyOp (.mk (.identifier (Ident.new "x"))) .eq (literal "{}") false))) =
          some texts ∧
      castTexts? (FixArrayLiteral.preVisitExpr
        (.mk (.cast .doubleColon (literal "{}") (.array (.squareBracket .text none)) .none))) =
          some texts ∧
      parameterTexts? (textOrArray referenceLibraries "{}") = some texts := by
  refine ⟨⟨rfl, rfl⟩, ?_⟩
  rintro ⟨texts, hany, -, hparameter⟩
  have hempty : some texts = some [] := hany.symm.trans (by decide)
  have hone : some texts = some [""] := hparameter.symm.trans (by rfl)
  exact absurd (hempty.symm.trans hone) (by decide)

end DatafusionPostgres.Sql

import DatafusionPostgres.Sql.ArrayReaders

/-! Arrays of texts as the server writes them, where an element may be missing. -/
namespace DatafusionPostgres.Sql
open DatafusionPostgres.Library
open DatafusionPostgres.ArrowPg (ParamLibraries ScalarValue textOrArray referenceLibraries
  referenceLibraries_buildsLists)

/-- A text that an array shows without quotes, such as one of letters, digits and underscores. -/
structure SimpleString (s : List Char) : Prop where
  nonempty : s ≠ []
  plain : ∀ c ∈ s, isWhitespace c = false ∧ c ∉ [',', '{', '}', '"', '\\']
  notNull : s.map Char.toLower ≠ "null".toList

def writtenElement : Option (List Char) → List Char
  | some s => s
  | none => "NULL".toList

/-- `array_out`, on elements that need no quotes. -/
def arrayOut (elements : List (Option (List Char))) : String :=
  String.ofList ('{' :: ([','].intercalate (elements.map writtenElement) ++ ['}']))

def elementText : Option (List Char) → Option String := Option.map String.ofList

/-- A literal that is a text or NULL. -/
def literalValue? : Expr → Option (Option String)
  | .mk (.value (.singleQuotedString text)) => some (some text)
  | .mk (.value .null) => some none
  | _ => none

def arrayValues? : Expr → Option (List (Option String))
  | .mk (.array elem _) => elem.mapM literalValue?
  | _ => none

/-- What `array_contains` searches. -/
def containsValues? : Expr → Option (List (Option String))
  | .mk (.function ⟨_, .list [.unnamed array, _] _, _⟩) => arrayValues? array
  | _ => none

def castValues? : Expr → Option (List (Option String))
  | .mk (.cast _ operand _ _) => arrayValues? operand
  | _ => none

def scalarValue? : ScalarValue → Option (Option String)
  | .utf8 text => some text
  | _ => none

def parameterValues? : Except ArrowPg.Failure (List ScalarValue) → Option (List (Option String))
  | .ok [.list _ values] => values.mapM scalarValue?
  | _ => none

section Reading

private theorem mapM_refine {α β γ : Type} {read : α → Option β} {read' : α → Option γ} {f : β → γ}
    (h : ∀ a b, read a = some b → read' a = some (f b)) {as : List α} {bs : List β}
    (has : as.mapM read = some bs) : as.mapM read' = some (bs.map f) := by
  induction as generalizing bs with
  | nil =>
    cases has
    rfl
  | cons a as ih =>
    rw [List.mapM_cons] at has
    obtain ⟨b, hb, has⟩ := Option.bind_eq_some_iff.mp has
    obtain ⟨bs, hbs, has⟩ := Option.bind_eq_some_iff.mp has
    cases has
    rw [List.mapM_cons, h a b hb, ih hbs]
    rfl

private theorem literalValue_of_text {e : Expr} {text : String} (h : literalText? e = some text) :
    literalValue? e = some (some text) := by
  unfold literalText? at h
  split at h
  · cases h
    rfl
  · cases h

private theorem arrayValues_of_texts {e : Expr} {texts : List String}
    (h : arrayTexts? e = some texts) : arrayValues? e = some (texts.map some) := by
  unfold arrayTexts? at h
  split at h
  · exact mapM_refine (fun _ _ => literalValue_of_text) h
  · cases h

theorem containsValues_of_texts {e : Expr} {texts : List String}
    (h : containsTexts? e = some texts) : containsValues? e = some (texts.map some) := by
  unfold containsTexts? at h
  split at h
  · exact arrayValues_of_texts h
  · cases h

theorem castValues_of_texts {e : Expr} {texts : List String} (h : castTexts? e = some texts) :
    castValues? e = some (texts.map some) := by
  unfold castTexts? at h
  split at h
  · exact arrayValues_of_texts h
  · cases h

theorem parameterValues_of_texts {r : Except ArrowPg.Failure (List ScalarValue)}
    {texts : List String} (h : parameterTexts? r = some texts) :
    parameterValues? r = some (texts.map some) := by
  unfold parameterTexts? at h
  split at h
  · refine mapM_refine (fun value text hvalue => ?_) h
    cases value with
    | utf8 => exact congrArg some hvalue
    | _ => cases hvalue
  · cases h

theorem mem_intercalate_comma {words : List (List Char)} {c : Char}
    (hc : c ∈ [','].intercalate words) : c = ',' ∨ ∃ word ∈ words, c ∈ word := by
  induction words with
  | nil => cases hc
  | cons word words ih =>
    cases words with
    | nil =>
      rw [List.intercalate_singleton] at hc
      exact .inr ⟨word, List.mem_singleton_self _, hc⟩
    | cons next words =>
      rw [List.intercalate_cons_cons] at hc
      rcases List.mem_append.mp hc with hc | hc
      · rcases List.mem_append.mp hc with hc | hc
        · exact .inr ⟨word, List.mem_cons_self, hc⟩
        · exact .inl (List.mem_singleton.mp hc)
      · rcases ih hc with hcomma | ⟨word', hword', hc⟩
        · exact .inl hcomma
        · exact .inr ⟨word', List.mem_cons_of_mem _ hword', hc⟩

variable {elements : List (Option (List Char))}
  (hsimple : ∀ s, some s ∈ elements → SimpleString s)

theorem braced_arrayOut (elements : List (Option (List Char))) : Braced (arrayOut elements) := by
  rw [Braced, arrayOut, String.toList_ofList]
  exact ⟨rfl, by rw [List.getLast?_cons, List.getLast?_concat]; rfl⟩

include hsimple

theorem plain_written {word : List Char} (h : word ∈ elements.map writtenElement) :
    word ≠ [] ∧ ∀ c ∈ word, isWhitespace c = false ∧ c ∉ [',', '{', '}', '"', '\\'] := by
  obtain ⟨element, helement, rfl⟩ := List.mem_map.mp h
  cases element with
  | none =>
    refine ⟨List.cons_ne_nil _ _, ?_⟩
    change ∀ c ∈ ['N', 'U', 'L', 'L'], _
    simp only [List.forall_mem_cons]
    exact ⟨by decide, by decide, by decide, by decide, fun _ hc => nomatch hc⟩
  | some s => exact ⟨(hsimple s helement).nonempty, (hsimple s helement).plain⟩

theorem trim_written {word : List Char} (h : word ∈ elements.map writtenElement) :
    trimMatches isWhitespace word = word :=
  have hplain := (plain_written hsimple h).2
  trimMatches_eq_self (fun c hc => (hplain c (List.mem_of_head? hc)).1)
    fun c hc => (hplain c (List.mem_of_getLast? hc)).1

theorem intercalate_written_ne_nil (hne : elements ≠ []) :
    [','].intercalate (elements.map writtenElement) ≠ [] := by
  obtain ⟨element, rest, rfl⟩ := List.exists_cons_of_ne_nil hne
  have hword := (plain_written hsimple (List.mem_map_of_mem List.mem_cons_self)).1
  cases rest with
  | nil => rwa [List.map_singleton, List.intercalate_singleton]
  | cons next rest =>
    rw [List.map_cons, List.map_cons, List.intercalate_cons_cons, List.append_assoc]
    exact List.append_ne_nil_of_left_ne_nil hword _

/-- Neither end of the words between the braces is trimmed off with them. -/
theorem trim_arrayOut (hne : elements ≠ []) :
    trimMatches (fun c => c == '{' || c == '}' || c == ' ') (arrayOut elements).toList =
      [','].intercalate (elements.map writtenElement) := by
  have hkeep : ∀ c ∈ [','].intercalate (elements.map writtenElement),
      (c == '{' || c == '}' || c == ' ') = false := by
    intro c hc
    rcases mem_intercalate_comma hc with rfl | ⟨word, hword, hc⟩
    · rfl
    · have hplain := (plain_written hsimple hword).2 c hc
      have hspace : c ≠ ' ' := by
        rintro rfl
        exact absurd hplain.1 (by decide)
      simp only [List.mem_cons, not_or] at hplain
      simp [hplain.2.2.1, hplain.2.2.2.1, hspace]
  have hwords := intercalate_written_ne_nil hsimple hne
  rw [arrayOut, String.toList_ofList]
  change trimMatches _ (['{'] ++ (_ ++ ['}'])) = _
  refine trimMatches_append (List.forall_mem_singleton.mpr rfl) (List.forall_mem_singleton.mpr rfl)
    ?_ ?_
  · exact ⟨_, List.head?_eq_some_head hwords, hkeep _ (List.head_mem hwords)⟩
  · exact ⟨_, List.getLast?_eq_some_getLast hwords, hkeep _ (List.getLast_mem hwords)⟩

theorem arrayPieces_arrayOut (hne : elements ≠ []) :
    arrayPieces (arrayOut elements) = elements.map writtenElement := by
  rw [arrayPieces, trim_arrayOut hsimple hne]
  refine List.splitOn_intercalate _ (fun word hword hcomma => ?_) (List.map_eq_nil_iff.not.mpr hne)
  exact ((plain_written hsimple hword).2 ',' hcomma).2 List.mem_cons_self

/-- A missing element is read as the word that stands for it. -/
def readElement (element : Option (List Char)) : String := String.ofList (writtenElement element)

theorem texts_arrayOut (hne : elements ≠ []) :
    (arrayPieces (arrayOut elements)).map
        (fun piece => String.ofList (trimMatches isWhitespace piece)) =
      elements.map readElement := by
  rw [arrayPieces_arrayOut hsimple hne, List.map_map]
  exact List.map_congr_left fun element helement =>
    congrArg String.ofList (trim_written hsimple (List.mem_map_of_mem helement))

theorem arrayItems_arrayOut :
    arrayItems (arrayOut elements).toList = elements.map readElement := by
  by_cases hne : elements = []
  · rw [hne]
    decide
  rw [(arrayItems_eq_iff _).mpr ?_, texts_arrayOut hsimple hne]
  rintro ⟨piece, hpiece, hblank⟩
  rw [arrayPieces_arrayOut hsimple hne] at hpiece
  obtain ⟨hword, hplain⟩ := plain_written hsimple hpiece
  obtain ⟨c, hc⟩ := List.exists_mem_of_ne_nil piece hword
  exact absurd ((hplain c hc).1.symm.trans (hblank c hc)) Bool.false_ne_true

omit hsimple in
theorem readElement_eq_iff :
    (elements.map readElement).map some = elements.map elementText ↔ none ∉ elements := by
  rw [List.map_map, List.map_inj_left]
  constructor
  · intro h hnone
    cases h none hnone
  · intro h element helement
    cases element with
    | none => exact absurd helement h
    | some s => rfl

/-- Each reader gives back the elements exactly if none is missing; a parameter also takes the
empty array for an empty text. -/
theorem arrayOut_read_iff {libs : ParamLibraries} (hlist : libs.BuildsLists)
    {arr : ArrayElemTypeDef} (harr : FixArrayLiteral.isText arr) (left : Expr) (rest : Rest Node) :
    (containsValues? (RewriteArrayAnyAllOperation.anyToArrayContains left
        (literal (arrayOut elements))) = some (elements.map elementText) ↔ none ∉ elements) ∧
      (castValues? (FixArrayLiteral.preVisitExpr
        (.mk (.cast .doubleColon (literal (arrayOut elements)) (.array arr) rest))) =
          some (elements.map elementText) ↔ none ∉ elements) ∧
      (parameterValues? (textOrArray libs (arrayOut elements)) =
        some (elements.map elementText) ↔ none ∉ elements ∧ elements ≠ []) := by
  have hitems := arrayItems_arrayOut hsimple
  have hany := containsValues_of_texts (anyTexts (braced_arrayOut elements) left false)
  have hcast := castValues_of_texts (castTexts harr rest (arrayOut elements))
  have hparameter := parameterValues_of_texts
    (parameterTexts (braced_arrayOut elements) hlist)
  rw [hitems] at hany hcast
  refine ⟨?_, ?_, ?_⟩
  · change containsValues? (RewriteArrayAnyAllOperation.preVisitExpr
      (.mk (.anyOp left .eq (literal (arrayOut elements)) false))) = _ ↔ _
    rw [hany, Option.some_inj, readElement_eq_iff]
  · rw [hcast, Option.some_inj, readElement_eq_iff]
  · rw [hparameter, Option.some_inj]
    by_cases hne : elements = []
    · subst hne
      exact iff_of_false (by decide) fun h => h.2 rfl
    · rw [texts_arrayOut hsimple hne, readElement_eq_iff, and_iff_left hne]

end Reading

/-- The array `{a,_1}`. -/
theorem twoWords_read :
    (containsValues? (RewriteArrayAnyAllOperation.anyToArrayContains
        (.mk (.identifier (Ident.new "x"))) (literal (arrayOut [some ['a'], some ['_', '1']]))) =
        some [some "a", some "_1"] ↔ none ∉ [some ['a'], some ['_', '1']]) ∧
      (castValues? (FixArrayLiteral.preVisitExpr
        (.mk (.cast .doubleColon (literal (arrayOut [some ['a'], some ['_', '1']]))
          (.array (.squareBracket .text none)) .none))) =
        some [some "a", some "_1"] ↔ none ∉ [some ['a'], some ['_', '1']]) ∧
      (parameterValues? (textOrArray referenceLibraries (arrayOut [some ['a'], some ['_', '1']])) =
        some [some "a", some "_1"] ↔
          none ∉ [some ['a'], some ['_', '1']] ∧ [some ['a'], some ['_', '1']] ≠ []) := by
  refine arrayOut_read_iff (fun s hs => ?_) referenceLibraries_buildsLists rfl _ _
  rcases List.mem_cons.mp hs with heq | hs
  · cases heq
    exact ⟨List.cons_ne_nil _ _, List.forall_mem_singleton.mpr (by decide), by decide⟩
  · cases List.mem_singleton.mp hs
    exact ⟨List.cons_ne_nil _ _, List.forall_mem_cons.mpr
      ⟨by decide, List.forall_mem_singleton.mpr (by decide)⟩, by decide⟩

/-- The array `{NULL}`, whose only element is missing. -/
theorem missingElement_misread :
    containsValues? (RewriteArrayAnyAllOperation.anyToArrayContains
        (.mk (.identifier (Ident.new "x"))) (literal (arrayOut [none]))) ≠ some [none] ∧
      castValues? (FixArrayLiteral.preVisitExpr
        (.mk (.cast .doubleColon (literal (arrayOut [none])) (.array (.squareBracket .text none))
          .none))) ≠ some [none] ∧
      parameterValues? (textOrArray referenceLibraries (arrayOut [none])) ≠ some [none] := by
  have hany : containsValues? (RewriteArrayAnyAllOperation.anyToArrayContains
      (.mk (.identifier (Ident.new "x"))) (literal (arrayOut [none]))) = some [some "NULL"] := by
    decide
  have hcast : castValues? (FixArrayLiteral.preVisitExpr
      (.mk (.cast .doubleColon (literal (arrayOut [none])) (.array (.squareBracket .text none))
        .none))) = some [some "NULL"] := by decide
  have hparameter : parameterValues? (textOrArray referenceLibraries (arrayOut [none])) =
      some [some "NULL"] := rfl
  rw [hany, hcast, hparameter]
  decide

end DatafusionPostgres.Sql

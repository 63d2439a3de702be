import DatafusionPostgres.Sql.ArrayText
import Mathlib.Algebra.Ring.Parity

/-! The items of an array text: what quoting makes of them, and when they are the elements. -/
namespace DatafusionPostgres.Sql
open DatafusionPostgres.Library

def singleQuote : Char := Char.ofNat 39

/-- The text between quotes, where a quote of its own stands doubled. -/
def unquoted : List Char → Option (List Char)
  | [] => some []
  | [c] => if c = singleQuote then none else some [c]
  | c :: next :: cs =>
    if c = singleQuote then
      if next = singleQuote then (unquoted cs).map (singleQuote :: ·) else none
    else (unquoted (next :: cs)).map (c :: ·)

/-- An odd number of quotes stands right after a backslash. -/
def OddQuotes (cs : List Char) : Prop :=
  ∃ before after, cs = before ++ '\\' :: after ∧
    Odd (after.takeWhile (· = singleQuote)).length

section Quotes

theorem not_oddQuotes_nil : ¬ OddQuotes [] := by
  rintro ⟨before, after, heq, -⟩
  cases before <;> cases heq

theorem oddQuotes_cons {c : Char} {cs : List Char} :
    OddQuotes (c :: cs) ↔
      (c = '\\' ∧ Odd (cs.takeWhile (· = singleQuote)).length) ∨ OddQuotes cs := by
  constructor
  · rintro ⟨before, after, heq, hodd⟩
    cases before with
    | nil =>
      cases heq
      exact .inl ⟨rfl, hodd⟩
    | cons _ before =>
      cases heq
      exact .inr ⟨before, after, rfl, hodd⟩
  · rintro (⟨rfl, hodd⟩ | ⟨before, after, rfl, hodd⟩)
    · exact ⟨[], cs, rfl, hodd⟩
    · exact ⟨c :: before, after, rfl, hodd⟩

theorem oddQuotes_quote {cs : List Char} : OddQuotes (singleQuote :: cs) ↔ OddQuotes cs := by
  rw [oddQuotes_cons]
  exact or_iff_right fun h => absurd h.1 (by decide)

private theorem escape_afterBackslash (cs : List Char) :
    escapeQuotedString singleQuote '\\' (singleQuote :: cs) =
      singleQuote :: escapeQuotedString singleQuote '\\' cs := by
  cases cs with
  | nil => rfl
  | cons c cs => rw [escapeQuotedString, if_pos rfl, if_pos rfl]

private theorem unquoted_quotes (cs : List Char) :
    (unquoted (singleQuote :: singleQuote :: cs)).isSome = (unquoted cs).isSome := by
  rw [unquoted, if_pos rfl, if_pos rfl, Option.isSome_map]

private theorem unquoted_cons {c : Char} (hc : c ≠ singleQuote) (cs : List Char) :
    (unquoted (c :: cs)).isSome = (unquoted cs).isSome := by
  cases cs with
  | nil =>
    simp only [unquoted, if_neg hc]
    rfl
  | cons next cs => rw [unquoted, if_neg hc, Option.isSome_map]

private theorem oddQuotes_pair {cs : List Char} :
    OddQuotes ('\\' :: singleQuote :: singleQuote :: cs) ↔ OddQuotes ('\\' :: cs) := by
  rw [oddQuotes_cons, oddQuotes_quote, oddQuotes_quote, oddQuotes_cons]
  simp only [List.takeWhile_cons_of_pos, decide_true, List.length_cons, Nat.odd_add_one,
    Nat.not_odd_iff_even, Nat.not_even_iff_odd]

private theorem oddQuotes_single {cs : List Char} (hcs : cs.head? ≠ some singleQuote) :
    OddQuotes ('\\' :: singleQuote :: cs) := by
  rw [oddQuotes_cons]
  refine .inl ⟨rfl, ?_⟩
  cases cs with
  | nil => decide
  | cons c cs =>
    have hc : c ≠ singleQuote := fun heq => hcs (congrArg some heq)
    simp [hc]

private theorem oddQuotes_skip {previous c : Char} {cs : List Char}
    (h : previous ≠ '\\' ∨ c ≠ singleQuote) :
    OddQuotes (previous :: c :: cs) ↔ OddQuotes (c :: cs) := by
  rw [oddQuotes_cons]
  refine or_iff_right ?_
  rintro ⟨rfl, hodd⟩
  rw [List.takeWhile_cons_of_neg (by simpa using h)] at hodd
  exact absurd hodd (by decide)

private theorem escape_plain {previous c : Char} (hc : c ≠ singleQuote) (cs : List Char) :
    escapeQuotedString singleQuote previous (c :: cs) =
      c :: escapeQuotedString singleQuote c cs := by
  cases cs with
  | nil => simp only [escapeQuotedString, hc, false_and, if_false]
  | cons next cs => rw [escapeQuotedString, if_neg hc]

private theorem escape_doubled {previous : Char} (hprevious : previous ≠ '\\') (cs : List Char) :
    escapeQuotedString singleQuote previous (singleQuote :: cs) =
      singleQuote :: singleQuote :: escapeQuotedString singleQuote singleQuote
        (if cs.head? = some singleQuote then cs.tail else cs) := by
  cases cs with
  | nil =>
    rw [escapeQuotedString, if_pos ⟨rfl, hprevious⟩]
    rfl
  | cons next cs =>
    rw [escapeQuotedString, if_pos rfl, if_neg hprevious]
    by_cases hnext : next = singleQuote
    · subst hnext
      rw [if_pos rfl, List.head?_cons, if_pos rfl, List.tail_cons]
    · rw [if_neg hnext, List.head?_cons, if_neg fun h => hnext (Option.some.inj h)]

private theorem unquoted_single {cs : List Char} (hcs : cs.head? ≠ some singleQuote) :
    unquoted (singleQuote :: cs) = none := by
  cases cs with
  | nil => rfl
  | cons c cs =>
    rw [unquoted, if_pos rfl, if_neg fun h => hcs (congrArg some h)]

private theorem head_escape {previous : Char} {cs : List Char}
    (hcs : cs.head? ≠ some singleQuote) :
    (escapeQuotedString singleQuote previous cs).head? ≠ some singleQuote := by
  cases cs with
  | nil =>
    rw [escapeQuotedString]
    exact hcs
  | cons c cs =>
    rw [escape_plain fun h => hcs (congrArg some h)]
    exact hcs

/-- What is printed reads back exactly if there are no odd quotes after a backslash. -/
theorem unquoted_escape_isSome (previous : Char) (cs : List Char) :
    (unquoted (escapeQuotedString singleQuote previous cs)).isSome ↔
      ¬ OddQuotes (previous :: cs) := by
  induction hn : cs.length using Nat.strong_induction_on generalizing previous cs with
  | _ n ih =>
    subst hn
    cases cs with
    | nil =>
      refine iff_of_true rfl ?_
      rw [oddQuotes_cons]
      rintro (⟨-, hodd⟩ | hodd)
      · exact absurd hodd (by decide)
      · exact not_oddQuotes_nil hodd
    | cons c cs =>
      by_cases hc : c = singleQuote
      · subst hc
        by_cases hprevious : previous = '\\'
        · subst hprevious
          rw [escape_afterBackslash]
          by_cases hnext : cs.head? = some singleQuote
          · obtain ⟨rest, rfl⟩ := List.head?_eq_some_iff.mp hnext
            rw [escape_afterBackslash, unquoted_quotes, oddQuotes_pair]
            exact ih rest.length (by simp only [List.length_cons]; omega) '\\' rest rfl
          · refine iff_of_false ?_ (not_not.mpr (oddQuotes_single hnext))
            rw [unquoted_single (head_escape hnext)]
            exact Bool.false_ne_true
        · rw [escape_doubled hprevious, unquoted_quotes, oddQuotes_skip (.inl hprevious)]
          by_cases hnext : cs.head? = some singleQuote
          · obtain ⟨rest, rfl⟩ := List.head?_eq_some_iff.mp hnext
            rw [if_pos hnext, oddQuotes_quote]
            exact ih rest.length (by simp only [List.length_cons]; omega) singleQuote rest rfl
          · rw [if_neg hnext]
            exact ih cs.length (Nat.lt_succ_self _) singleQuote cs rfl
      · rw [escape_plain hc, unquoted_cons hc, oddQuotes_skip (.inr hc)]
        exact ih cs.length (Nat.lt_succ_self _) c cs rfl

/-- Without quotes nothing is doubled. -/
theorem escape_of_notMem {cs : List Char} (h : singleQuote ∉ cs) (previous : Char) :
    escapeQuotedString singleQuote previous cs = cs := by
  induction cs generalizing previous with
  | nil => rw [escapeQuotedString]
  | cons c cs ih =>
    rw [escape_plain (fun heq => h (List.mem_cons.mpr (.inl heq.symm))),
      ih fun hc => h (List.mem_cons_of_mem _ hc)]

theorem unquoted_of_notMem {cs : List Char} (h : singleQuote ∉ cs) : unquoted cs = some cs := by
  induction cs with
  | nil => rfl
  | cons c cs ih =>
    have hc : c ≠ singleQuote := fun heq => h (List.mem_cons.mpr (.inl heq.symm))
    have hcs := ih fun hmem => h (List.mem_cons_of_mem _ hmem)
    cases cs with
    | nil => rw [unquoted, if_neg hc]
    | cons next cs =>
      rw [unquoted, if_neg hc, hcs]
      rfl

/-- A character that is no quote ends the quotes after a backslash. -/
theorem oddQuotes_append {front back : List Char} (hback : back.head? ≠ some singleQuote) :
    OddQuotes (front ++ back) ↔ OddQuotes front ∨ OddQuotes back := by
  induction front with
  | nil => exact (or_iff_right not_oddQuotes_nil).symm
  | cons c front ih =>
    have hquotes : (front ++ back).takeWhile (· = singleQuote) =
        front.takeWhile (· = singleQuote) := by
      rw [List.takeWhile_append]
      split
      · rename_i hall
        have hfront := (List.takeWhile_prefix (l := front) (· = singleQuote)).eq_of_length hall
        cases back with
        | nil => rw [List.takeWhile_nil, List.append_nil, hfront]
        | cons d back =>
          have hd : d ≠ singleQuote := fun heq => hback (congrArg some heq)
          rw [List.takeWhile_cons_of_neg (by simpa using hd), List.append_nil, hfront]
      · rfl
    rw [List.cons_append, oddQuotes_cons, oddQuotes_cons, hquotes, ih, or_assoc]

/-- Characters that are neither quotes nor backslashes do not count. -/
theorem not_oddQuotes_of_plain {cs : List Char} (h : ∀ c ∈ cs, c ≠ '\\') : ¬ OddQuotes cs := by
  rintro ⟨before, after, rfl, -⟩
  exact h '\\' (List.mem_append_right _ List.mem_cons_self) rfl

end Quotes

section Items

private theorem oddQuotes_dropWhile {p : Char → Bool} (hp : p '\\' = false) (cs : List Char) :
    OddQuotes (cs.dropWhile p) ↔ OddQuotes cs := by
  induction cs with
  | nil => rfl
  | cons c cs ih =>
    rw [List.dropWhile_cons]
    split
    · rename_i hc
      rw [ih, oddQuotes_cons]
      refine (or_iff_right ?_).symm
      rintro ⟨rfl, -⟩
      rw [hp] at hc
      exact absurd hc Bool.false_ne_true
    · rfl

private theorem oddQuotes_rdropWhile {p : Char → Bool} (hbackslash : p '\\' = false)
    (hquote : p singleQuote = false) (cs : List Char) :
    OddQuotes (cs.rdropWhile p) ↔ OddQuotes cs := by
  induction cs using List.reverseRecOn with
  | nil => rfl
  | append_singleton cs c ih =>
    rw [List.rdropWhile_concat]
    split
    · rename_i hc
      have hne : c ≠ '\\' ∧ c ≠ singleQuote := by
        refine ⟨?_, ?_⟩ <;> rintro rfl
        · exact absurd hc (by rw [hbackslash]; exact Bool.false_ne_true)
        · exact absurd hc (by rw [hquote]; exact Bool.false_ne_true)
      have hlast : [c].head? ≠ some singleQuote := fun heq => hne.2 (Option.some.inj heq)
      rw [ih, oddQuotes_append hlast]
      refine (or_iff_left ?_).symm
      exact not_oddQuotes_of_plain fun d hd => by
        rw [List.mem_singleton.mp hd]
        exact hne.1
    · rfl

theorem oddQuotes_trim {p : Char → Bool} (hbackslash : p '\\' = false)
    (hquote : p singleQuote = false) (cs : List Char) :
    OddQuotes (trimMatches p cs) ↔ OddQuotes cs :=
  (oddQuotes_rdropWhile hbackslash hquote _).trans (oddQuotes_dropWhile hbackslash cs)

theorem oddQuotes_intercalate (pieces : List (List Char)) :
    OddQuotes ([','].intercalate pieces) ↔ ∃ piece ∈ pieces, OddQuotes piece := by
  induction pieces with
  | nil => exact iff_of_false not_oddQuotes_nil fun ⟨_, hpiece, _⟩ => absurd hpiece List.not_mem_nil
  | cons piece pieces ih =>
    rw [List.exists_mem_cons_iff]
    by_cases hpieces : pieces = []
    · subst hpieces
      rw [List.intercalate_singleton]
      exact (or_iff_left fun ⟨_, hpiece, _⟩ => List.not_mem_nil hpiece).symm
    · have hcomma : (',' :: [','].intercalate pieces).head? ≠ some singleQuote := by
        rw [List.head?_cons]
        decide
      rw [List.intercalate_cons_of_ne_nil hpieces, List.append_assoc, List.singleton_append,
        oddQuotes_append hcomma, ← ih]
      refine or_congr_right ?_
      rw [oddQuotes_cons]
      exact or_iff_right fun h => absurd h.1 (by decide)

theorem mem_arrayItems {text : List Char} {item : String} :
    item ∈ arrayItems text ↔ ∃ piece ∈ (trimMatches isBraceOrSpace text).splitOn ',',
      trimMatches isWhitespace piece ≠ [] ∧ item = String.ofList (trimMatches isWhitespace piece) := by
  change item ∈ (List.filter _ (List.map _ (List.splitOn ',' (trimMatches isBraceOrSpace text)))).map
    _ ↔ _
  simp only [List.mem_map, List.mem_filter]
  constructor
  · rintro ⟨-, ⟨⟨piece, hpiece, rfl⟩, hne⟩, rfl⟩
    exact ⟨piece, hpiece, by simpa using hne, rfl⟩
  · rintro ⟨piece, hpiece, hne, rfl⟩
    exact ⟨_, ⟨⟨piece, hpiece, rfl⟩, by simpa using hne⟩, rfl⟩

theorem oddQuotes_arrayItems (text : List Char) :
    (∃ item ∈ arrayItems text, OddQuotes item.toList) ↔ OddQuotes text := by
  have htrim := oddQuotes_trim (p := isBraceOrSpace) (by decide) (by decide) text
  have hsplit := oddQuotes_intercalate ((trimMatches isBraceOrSpace text).splitOn ',')
  rw [List.intercalate_splitOn ',', htrim] at hsplit
  rw [hsplit]
  constructor
  · rintro ⟨item, hitem, hodd⟩
    obtain ⟨piece, hpiece, -, rfl⟩ := mem_arrayItems.mp hitem
    rw [String.toList_ofList, oddQuotes_trim (by decide) (by decide)] at hodd
    exact ⟨piece, hpiece, hodd⟩
  · rintro ⟨piece, hpiece, hodd⟩
    rw [← oddQuotes_trim (p := isWhitespace) (by decide) (by decide)] at hodd
    refine ⟨_, mem_arrayItems.mpr ⟨piece, hpiece, fun hnil => ?_, rfl⟩, ?_⟩
    · rw [hnil] at hodd
      exact not_oddQuotes_nil hodd
    · rw [String.toList_ofList]
      exact hodd

private theorem intercalate_pieces (text : List Char) :
    [','].intercalate ((trimMatches isBraceOrSpace text).splitOn ',') =
      trimMatches isBraceOrSpace text :=
  List.intercalate_splitOn ','

/-- A character that is neither trimmed nor a comma is found in an item. -/
theorem exists_arrayItem {text : List Char} {c : Char} (hc : c ∈ trimMatches isBraceOrSpace text)
    (hcomma : c ≠ ',') (hblank : isWhitespace c = false) :
    ∃ item ∈ arrayItems text, c ∈ item.toList := by
  rw [← intercalate_pieces] at hc
  obtain ⟨piece, hpiece, hmem⟩ := (mem_or_mem_of_mem_intercalate hc).resolve_left
    fun hsep => hcomma (List.mem_singleton.mp hsep)
  have htrim := mem_trimMatches hblank hmem
  refine ⟨_, mem_arrayItems.mpr ⟨piece, hpiece, List.ne_nil_of_mem htrim, rfl⟩, ?_⟩
  rw [String.toList_ofList]
  exact htrim

/-- An item stands in the text as it is. -/
theorem isInfix_of_mem_arrayItems {text : List Char} {item : String} (h : item ∈ arrayItems text) :
    item.toList <:+: text := by
  obtain ⟨piece, hpiece, -, rfl⟩ := mem_arrayItems.mp h
  rw [String.toList_ofList]
  refine (isInfix_trimMatches _ _).trans (List.IsInfix.trans ?_ (isInfix_trimMatches isBraceOrSpace _))
  rw [← intercalate_pieces]
  exact infix_intercalate hpiece

/-- An item has no white space at its ends. -/
theorem arrayItem_ends {text : List Char} {item : String} (h : item ∈ arrayItems text) :
    (∀ c, item.toList.head? = some c → isWhitespace c = false) ∧
      ∀ c, item.toList.getLast? = some c → isWhitespace c = false := by
  obtain ⟨piece, hpiece, -, rfl⟩ := mem_arrayItems.mp h
  rw [String.toList_ofList]
  exact ⟨fun c hc => head_trimMatches hc, fun c hc => last_trimMatches hc⟩

end Items

section ArrayTexts
variable {text : List Char} {elements : List (List Char)}

private theorem padded_of_mem {pieces : List (List Char)}
    (hpieces : List.Forall₂ Padded pieces elements) {piece : List Char} (h : piece ∈ pieces) :
    ∃ element ∈ elements, Padded piece element := by
  induction hpieces with
  | nil => exact absurd h List.not_mem_nil
  | cons hpiece _ ih =>
    rcases List.mem_cons.mp h with rfl | h
    · exact ⟨_, List.mem_cons_self, hpiece⟩
    · obtain ⟨element, helement, hpadded⟩ := ih h
      exact ⟨element, List.mem_cons_of_mem _ helement, hpadded⟩

private theorem mem_arrayBody {body : List Char} (hbody : ArrayBody body elements) {c : Char}
    (hc : c ∈ body) : isWhitespace c ∨ c = ',' ∨ ∃ element ∈ elements, c ∈ element := by
  cases hbody with
  | empty hblank => exact .inl (hblank c hc)
  | elements _ hpieces =>
    obtain hcomma | ⟨piece, hpiece, hmem⟩ := mem_or_mem_of_mem_intercalate hc
    · exact .inr (.inl (List.mem_singleton.mp hcomma))
    obtain ⟨element, helement, before, after, hbefore, hafter, rfl⟩ :=
      padded_of_mem hpieces hpiece
    rcases List.mem_append.mp hmem with hmem | hmem
    · exact .inl (hbefore c hmem)
    rcases List.mem_append.mp hmem with hmem | hmem
    · exact .inr (.inr ⟨element, helement, hmem⟩)
    · exact .inl (hafter c hmem)

/-- A character that stands neither around the braces nor between them in an array text. -/
private abbrev Special (c : Char) : Prop := c ∈ ['{', '}', '"', '\\', singleQuote]

private theorem special_notBlank {c : Char} (hc : Special c) : isWhitespace c = false := by
  simp only [Special, List.mem_cons, List.not_mem_nil, or_false] at hc
  rcases hc with rfl | rfl | rfl | rfl | rfl <;> decide

private theorem notMem_blank {c : Char} (hc : Special c) {cs : List Char} (h : Blank cs) :
    c ∉ cs := by
  intro hmem
  have hblank := h c hmem
  rw [special_notBlank hc] at hblank
  cases hblank

private theorem notMem_arrayBody {c : Char} (hc : Special c) {body : List Char}
    (hbody : ArrayBody body elements) (hsimple : ∀ element ∈ elements, SimpleElement element) :
    c ∉ body := by
  intro hmem
  rcases mem_arrayBody hbody hmem with hblank | rfl | ⟨element, helement, hmem⟩
  · rw [special_notBlank hc] at hblank
    cases hblank
  · exact absurd hc (by decide)
  · exact (hsimple element helement).plain c hmem (List.mem_cons_of_mem _ hc)

private theorem arrayText_parts (h : ArrayText text elements) :
    ∃ before body after, text = before ++ '{' :: (body ++ '}' :: after) ∧
      Blank before ∧ ArrayBody body elements ∧ Blank after := by
  obtain ⟨before, body, after, hbefore, hafter, hbody, rfl⟩ := h.shape
  exact ⟨before, body, after, by simp, hbefore, hbody, hafter⟩

theorem notMem_arrayText (h : ArrayText text elements) {c : Char}
    (hc : c ∈ ['"', '\\', singleQuote]) : c ∉ text := by
  obtain ⟨before, body, after, rfl, hbefore, hbody, hafter⟩ := arrayText_parts h
  have hspecial : Special c := List.mem_cons_of_mem _ (List.mem_cons_of_mem _ hc)
  have hopen : c ≠ '{' := by
    rintro rfl
    exact absurd hc (by decide)
  have hclose : c ≠ '}' := by
    rintro rfl
    exact absurd hc (by decide)
  simp only [List.mem_append, List.mem_cons, hopen, hclose, false_or, not_or]
  exact ⟨notMem_blank hspecial hbefore, notMem_arrayBody hspecial hbody h.simple,
    notMem_blank hspecial hafter⟩

/-- If an item holds a brace, then the opening one in front or the closing one at the end. -/
theorem arrayItem_brace (h : ArrayText text elements) {item : String}
    (hitem : item ∈ arrayItems text) (hbrace : '{' ∈ item.toList ∨ '}' ∈ item.toList) :
    item.toList.head? = some '{' ∨ item.toList.getLast? = some '}' := by
  obtain ⟨before, body, after, rfl, hbefore, hbody, hafter⟩ := arrayText_parts h
  obtain ⟨front, back, htext⟩ := isInfix_of_mem_arrayItems hitem
  obtain ⟨hhead, hlast⟩ := arrayItem_ends hitem
  rcases hbrace with hbrace | hbrace
  · obtain ⟨xs, ys, hxs⟩ := List.append_of_mem hbrace
    have hopen : Special '{' := by decide
    have hrest : '{' ∉ body ++ '}' :: after := by
      rw [List.mem_append, List.mem_cons, not_or, not_or]
      exact ⟨notMem_arrayBody hopen hbody h.simple, by decide, notMem_blank hopen hafter⟩
    have heq : before ++ '{' :: (body ++ '}' :: after) = (front ++ xs) ++ '{' :: (ys ++ back) := by
      rw [← htext, hxs]
      simp only [List.append_assoc, List.cons_append]
    obtain ⟨rfl, -, -⟩ :=
      (List.append_cons_inj_of_notMem (notMem_blank hopen hbefore) hrest).mp heq
    cases xs with
    | nil => exact .inl (by rw [hxs]; rfl)
    | cons x xs =>
      have hx := hhead x (by rw [hxs]; rfl)
      rw [hbefore x (List.mem_append_right _ List.mem_cons_self)] at hx
      cases hx
  · obtain ⟨xs, ys, hxs⟩ := List.append_of_mem hbrace
    have hclose : Special '}' := by decide
    have hfront : '}' ∉ before ++ '{' :: body := by
      rw [List.mem_append, List.mem_cons, not_or, not_or]
      exact ⟨notMem_blank hclose hbefore, by decide, notMem_arrayBody hclose hbody h.simple⟩
    have heq : (before ++ '{' :: body) ++ '}' :: after = (front ++ xs) ++ '}' :: (ys ++ back) := by
      rw [List.append_assoc, List.cons_append, ← htext, hxs]
      simp only [List.append_assoc, List.cons_append]
    obtain ⟨-, -, rfl⟩ :=
      (List.append_cons_inj_of_notMem hfront (notMem_blank hclose hafter)).mp heq
    cases hys : ys.getLast? with
    | none =>
      rw [List.getLast?_eq_none_iff.mp hys] at hxs
      exact .inr (by rw [hxs, List.getLast?_concat])
    | some y =>
      have hy := hlast y (by rw [hxs, List.getLast?_append, List.getLast?_cons, hys]; rfl)
      rw [hafter y (List.mem_append_left _ (List.mem_of_getLast? hys))] at hy
      cases hy

private theorem arrayItems_of_blank (h : Blank (trimMatches isBraceOrSpace text)) :
    arrayItems text = [] := by
  refine List.eq_nil_iff_forall_not_mem.mpr fun item hitem => ?_
  obtain ⟨piece, hpiece, hne, -⟩ := mem_arrayItems.mp hitem
  refine hne (trimMatches_eq_nil_iff.mpr fun c hc => h c ?_)
  rw [← intercalate_pieces]
  exact (infix_intercalate hpiece).subset hc

private theorem arrayItems_congr {text' : List Char}
    (h : trimMatches isBraceOrSpace text = trimMatches isBraceOrSpace text') :
    arrayItems text = arrayItems text' := by
  change List.map _ (List.filter _ (List.map _ (List.splitOn ','
    (trimMatches isBraceOrSpace text)))) = _
  rw [h]
  rfl

/-- A brace is left when braces and blanks are trimmed off. -/
def InnerBrace (text : List Char) : Prop :=
  '{' ∈ trimMatches isBraceOrSpace text ∨ '}' ∈ trimMatches isBraceOrSpace text

section Body
variable {before body after : List Char}

private theorem trim_body_front (hbody : ∃ c ∈ body, isBraceOrSpace c = false)
    (hbrace : ¬ InnerBrace (before ++ ('{' :: (body ++ ['}']) ++ after))) :
    ∀ c ∈ before, isBraceOrSpace c := by
  by_contra hbefore
  have hmem : ∃ c ∈ before, isBraceOrSpace c = false := by
    simpa only [not_forall, exists_prop, Bool.not_eq_true] using hbefore
  have hrest : ('{' :: (body ++ ['}']) ++ after).rdropWhile isBraceOrSpace ≠ [] := by
    obtain ⟨c, hc, hp⟩ := hbody
    intro hnil
    have hall := List.rdropWhile_eq_nil_iff.mp hnil c
      (List.mem_append_left _ (List.mem_cons_of_mem _ (List.mem_append_left _ hc)))
    rw [hp] at hall
    cases hall
  refine hbrace (.inl ?_)
  change '{' ∈ (List.dropWhile isBraceOrSpace _).rdropWhile isBraceOrSpace
  rw [dropWhile_append_of_mem hmem, rdropWhile_append_of_ne_nil hrest]
  refine List.mem_append_right _ (List.mem_of_head? ?_)
  rw [List.head?_eq_some_head hrest]
  exact congrArg some ((List.rdropWhile_prefix _ _).head hrest)

private theorem dropWhile_body (hbody : ∃ c ∈ body, isBraceOrSpace c = false)
    (hbefore : ∀ c ∈ before, isBraceOrSpace c) :
    (before ++ ('{' :: (body ++ ['}']) ++ after)).dropWhile isBraceOrSpace =
      ('{' :: (body ++ ['}'])).dropWhile isBraceOrSpace ++ after := by
  obtain ⟨c, hc, hp⟩ := hbody
  rw [List.dropWhile_append_of_pos hbefore, dropWhile_append_of_mem]
  exact ⟨c, List.mem_cons_of_mem _ (List.mem_append_left _ hc), hp⟩

private theorem trim_body_back (hbody : ∃ c ∈ body, isBraceOrSpace c = false)
    (hbefore : ∀ c ∈ before, isBraceOrSpace c)
    (hbrace : ¬ InnerBrace (before ++ ('{' :: (body ++ ['}']) ++ after))) :
    ∀ c ∈ after, isBraceOrSpace c := by
  by_contra hafter
  refine hbrace (.inr ?_)
  change '}' ∈ (List.dropWhile isBraceOrSpace _).rdropWhile isBraceOrSpace
  rw [dropWhile_body hbody hbefore,
    rdropWhile_append_of_ne_nil fun hnil => hafter (List.rdropWhile_eq_nil_iff.mp hnil)]
  refine List.mem_append_left _ ?_
  rw [List.dropWhile_cons_of_pos rfl, dropWhile_append_of_mem hbody]
  exact List.mem_append_right _ List.mem_cons_self

private theorem trim_body (hbody : ∃ c ∈ body, isBraceOrSpace c = false)
    (hbrace : ¬ InnerBrace (before ++ ('{' :: (body ++ ['}']) ++ after))) :
    trimMatches isBraceOrSpace (before ++ ('{' :: (body ++ ['}']) ++ after)) =
      trimMatches isBraceOrSpace ('{' :: (body ++ ['}'])) := by
  have hbefore := trim_body_front hbody hbrace
  have hafter := trim_body_back hbody hbefore hbrace
  change (List.dropWhile isBraceOrSpace _).rdropWhile isBraceOrSpace =
    (List.dropWhile isBraceOrSpace _).rdropWhile isBraceOrSpace
  rw [dropWhile_body hbody hbefore, List.rdropWhile, List.reverse_append,
    List.dropWhile_append_of_pos fun c hc => hafter c (List.mem_reverse.mp hc)]
  rfl

end Body

/-- Unless a brace is left inside, the items are the elements. -/
theorem arrayItems_arrayText (h : ArrayText text elements) (hbrace : ¬ InnerBrace text) :
    arrayItems text = elements.map String.ofList := by
  obtain ⟨before, body, after, hbefore, hafter, hbody, rfl⟩ := h.shape
  rw [← arrayItems_body hbody h.simple]
  by_cases hall : ∃ c ∈ body, isBraceOrSpace c = false
  · exact arrayItems_congr (trim_body hall hbrace)
  have hblank : ∀ c ∈ body, isBraceOrSpace c := by
    intro c hc
    by_contra hp
    exact hall ⟨c, hc, eq_false_of_ne_true hp⟩
  have hnone : arrayItems ('{' :: (body ++ ['}'])) = [] := by
    have htrim : trimMatches isBraceOrSpace ('{' :: (body ++ ['}'])) = [] := by
      refine trimMatches_eq_nil_iff.mpr (List.forall_mem_cons.mpr ⟨rfl, fun c hc => ?_⟩)
      rcases List.mem_append.mp hc with hc | hc
      · exact hblank c hc
      · rw [List.mem_singleton.mp hc]
        rfl
    refine arrayItems_of_blank ?_
    rw [htrim]
    exact List.forall_mem_nil _
  rw [hnone]
  refine arrayItems_of_blank fun c hc => ?_
  have hopen : c ≠ '{' := fun heq => hbrace (.inl (heq ▸ hc))
  have hclose : c ≠ '}' := fun heq => hbrace (.inr (heq ▸ hc))
  have hmem := (isInfix_trimMatches _ _).subset hc
  simp only [List.mem_append, List.mem_cons, List.not_mem_nil, hopen, hclose, false_or,
    or_false] at hmem
  rcases hmem with hmem | hmem | hmem
  · exact hbefore c hmem
  · have hspace := hblank c hmem
    simp only [isBraceOrSpace, Bool.or_eq_true, beq_iff_eq, hopen, hclose, false_or] at hspace
    rw [hspace]
    rfl
  · exact hafter c hmem

end ArrayTexts
end DatafusionPostgres.Sql

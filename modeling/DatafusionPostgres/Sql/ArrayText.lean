import DatafusionPostgres.Sql.Rules

/-! Arrays as clients write them: texts of simple elements in braces, with blanks around. -/
namespace DatafusionPostgres.Sql
open DatafusionPostgres.Library

/-- Nothing but white space, as it is trimmed. -/
def Blank (cs : List Char) : Prop := ∀ c ∈ cs, isWhitespace c

/-- An element that needs no quotes: nonempty, without special characters, not the word for a
missing element, and without blanks of its own at the ends. -/
structure SimpleElement (element : List Char) : Prop where
  plain : ∀ c ∈ element, c ∉ [',', '{', '}', '"', '\\', Char.ofNat 39]
  notNull : element.map Char.toLower ≠ "null".toList
  head : ∃ c, element.head? = some c ∧ isWhitespace c = false
  last : ∃ c, element.getLast? = some c ∧ isWhitespace c = false

/-- An element with the blanks around it. -/
def Padded (piece element : List Char) : Prop :=
  ∃ before after, Blank before ∧ Blank after ∧ piece = before ++ (element ++ after)

/-- What stands between the braces of an array of the elements. -/
inductive ArrayBody : List Char → List (List Char) → Prop
  | empty {body : List Char} (hbody : Blank body) : ArrayBody body []
  | elements {pieces elements : List (List Char)} (hne : pieces ≠ [])
    (hpieces : List.Forall₂ Padded pieces elements) :
    ArrayBody ([','].intercalate pieces) elements

/-- The text of an array of simple elements. -/
structure ArrayText (text : List Char) (elements : List (List Char)) : Prop where
  simple : ∀ element ∈ elements, SimpleElement element
  shape : ∃ before body after, Blank before ∧ Blank after ∧ ArrayBody body elements ∧
    text = before ++ ('{' :: (body ++ ['}']) ++ after)

section Reading

private theorem blank_notComma {c : Char} (h : isWhitespace c = true) : c ≠ ',' := by
  rintro rfl
  exact absurd h (by decide)

theorem trim_padded {piece element : List Char} (h : Padded piece element)
    (helement : SimpleElement element) : trimMatches isWhitespace piece = element := by
  obtain ⟨before, after, hbefore, hafter, rfl⟩ := h
  exact trimMatches_append hbefore hafter helement.head helement.last

theorem notComma_padded {piece element : List Char} (h : Padded piece element)
    (helement : SimpleElement element) : ',' ∉ piece := by
  obtain ⟨before, after, hbefore, hafter, rfl⟩ := h
  intro hc
  rcases List.mem_append.mp hc with hc | hc
  · exact blank_notComma (hbefore _ hc) rfl
  rcases List.mem_append.mp hc with hc | hc
  · exact helement.plain _ hc (by decide)
  · exact blank_notComma (hafter _ hc) rfl

def isBraceOrSpace (c : Char) : Bool := c == '{' || c == '}' || c == ' '

private theorem isBraceOrSpace_plain {element : List Char} (h : SimpleElement element) :
    ∀ c ∈ element, isBraceOrSpace c → isWhitespace c := by
  intro c hc hspace
  have hplain := h.plain c hc
  simp only [isBraceOrSpace, Bool.or_eq_true, beq_iff_eq] at hspace
  rcases hspace with (rfl | rfl) | rfl
  · exact absurd (by decide) hplain
  · exact absurd (by decide) hplain
  · rfl

private theorem head_notTrimmed {element : List Char} (h : SimpleElement element) :
    ∃ c, element.head? = some c ∧ isBraceOrSpace c = false := by
  obtain ⟨c, hc, hblank⟩ := h.head
  refine ⟨c, hc, eq_false_of_ne_true fun hspace => ?_⟩
  rw [isBraceOrSpace_plain h c (List.mem_of_head? hc) hspace] at hblank
  exact absurd hblank (by decide)

private theorem last_notTrimmed {element : List Char} (h : SimpleElement element) :
    ∃ c, element.getLast? = some c ∧ isBraceOrSpace c = false := by
  obtain ⟨c, hc, hblank⟩ := h.last
  refine ⟨c, hc, eq_false_of_ne_true fun hspace => ?_⟩
  rw [isBraceOrSpace_plain h c (List.mem_of_getLast? hc) hspace] at hblank
  exact absurd hblank (by decide)

private theorem blank_dropWhile {cs : List Char} (h : Blank cs) :
    Blank (cs.dropWhile isBraceOrSpace) :=
  fun c hc => h c ((List.dropWhile_sublist _).subset hc)

private theorem blank_rdropWhile {cs : List Char} (h : Blank cs) :
    Blank (cs.rdropWhile isBraceOrSpace) :=
  fun c hc => h c ((List.rdropWhile_prefix _ cs).subset hc)

private theorem intercalate_cons (pieces : List (List Char)) :
    ∃ tail, ∀ piece, [','].intercalate (piece :: pieces) = piece ++ tail := by
  cases pieces with
  | nil => exact ⟨[], fun piece => by simp⟩
  | cons next pieces => exact ⟨[','] ++ [','].intercalate (next :: pieces), fun piece => by simp⟩

private theorem trim_front {pieces elements : List (List Char)}
    (hpieces : List.Forall₂ Padded pieces elements)
    (hsimple : ∀ element ∈ elements, SimpleElement element) (hne : pieces ≠ []) (rest : List Char) :
    ∃ pieces', List.Forall₂ Padded pieces' elements ∧ pieces' ≠ [] ∧
      ([','].intercalate pieces ++ rest).dropWhile isBraceOrSpace =
        [','].intercalate pieces' ++ rest := by
  cases hpieces with
  | nil => exact absurd rfl hne
  | cons hpiece hpieces =>
    rename_i piece element pieces elements
    obtain ⟨before, after, hbefore, hafter, rfl⟩ := hpiece
    obtain ⟨c, hc, hspace⟩ := head_notTrimmed (hsimple element List.mem_cons_self)
    obtain ⟨tail, htail⟩ := intercalate_cons pieces
    refine ⟨(before.dropWhile isBraceOrSpace ++ (element ++ after)) :: pieces,
      .cons ⟨_, after, blank_dropWhile hbefore, hafter, rfl⟩ hpieces, List.cons_ne_nil _ _, ?_⟩
    rw [htail, htail]
    simp only [List.append_assoc]
    refine dropWhile_append_of_head ⟨c, ?_, hspace⟩
    rw [List.head?_append, hc]
    rfl

private theorem intercalate_ne_nil {pieces elements : List (List Char)}
    (hpieces : List.Forall₂ Padded pieces elements) (hne : pieces ≠ [])
    (hsimple : ∀ element ∈ elements, SimpleElement element) : [','].intercalate pieces ≠ [] := by
  cases hpieces with
  | nil => exact absurd rfl hne
  | cons hpiece hpieces =>
    rename_i piece element pieces elements
    obtain ⟨before, after, -, -, rfl⟩ := hpiece
    obtain ⟨tail, htail⟩ := intercalate_cons pieces
    obtain ⟨c, hc, -⟩ := (hsimple element List.mem_cons_self).head
    rw [htail]
    intro hnil
    simp only [List.append_eq_nil_iff] at hnil
    rw [hnil.1.2.1] at hc
    exact absurd hc nofun

private theorem trim_back {pieces elements : List (List Char)}
    (hpieces : List.Forall₂ Padded pieces elements)
    (hsimple : ∀ element ∈ elements, SimpleElement element) (hne : pieces ≠ []) :
    ∃ pieces', List.Forall₂ Padded pieces' elements ∧ pieces' ≠ [] ∧
      ([','].intercalate pieces).rdropWhile isBraceOrSpace = [','].intercalate pieces' := by
  induction hpieces with
  | nil => exact absurd rfl hne
  | cons hpiece hpieces ih =>
    rename_i piece element pieces elements
    by_cases hlast : pieces = []
    · subst hlast
      obtain ⟨before, after, hbefore, hafter, rfl⟩ := hpiece
      obtain ⟨c, hc, hspace⟩ := last_notTrimmed (hsimple element List.mem_cons_self)
      refine ⟨[before ++ (element ++ after.rdropWhile isBraceOrSpace)],
        .cons ⟨before, _, hbefore, blank_rdropWhile hafter, rfl⟩ hpieces, List.cons_ne_nil _ _, ?_⟩
      rw [List.intercalate_singleton, List.intercalate_singleton, ← List.append_assoc,
        rdropWhile_append_of_last, List.append_assoc]
      refine ⟨c, ?_, hspace⟩
      rw [List.getLast?_append, hc]
      rfl
    · obtain ⟨pieces', hpieces', hne', htrim⟩ :=
        ih (fun element h => hsimple element (List.mem_cons_of_mem _ h)) hlast
      refine ⟨piece :: pieces', .cons hpiece hpieces', List.cons_ne_nil _ _, ?_⟩
      have hback : ([','].intercalate pieces).rdropWhile isBraceOrSpace ≠ [] := by
        rw [htrim]
        exact intercalate_ne_nil hpieces' hne'
          fun element h => hsimple element (List.mem_cons_of_mem _ h)
      rw [List.intercalate_cons_of_ne_nil hlast, List.intercalate_cons_of_ne_nil hne', ← htrim]
      exact rdropWhile_append_of_ne_nil hback

private theorem items_pieces {pieces elements : List (List Char)}
    (hpieces : List.Forall₂ Padded pieces elements)
    (hsimple : ∀ element ∈ elements, SimpleElement element) :
    (pieces.map (trimMatches isWhitespace)).filter (fun item => !item.isEmpty) = elements := by
  induction hpieces with
  | nil => rfl
  | cons hpiece hpieces ih =>
    rename_i piece element pieces elements
    have helement := hsimple element List.mem_cons_self
    have hne : element.isEmpty = false := by
      obtain ⟨c, hc, -⟩ := helement.head
      cases element with
      | nil => exact absurd hc nofun
      | cons c cs => rfl
    rw [List.map_cons, trim_padded hpiece helement, List.filter_cons, hne, Bool.not_false,
      if_pos rfl, ih fun element h => hsimple element (List.mem_cons_of_mem _ h)]

private theorem notComma_pieces {pieces elements : List (List Char)}
    (hpieces : List.Forall₂ Padded pieces elements)
    (hsimple : ∀ element ∈ elements, SimpleElement element) : ∀ piece ∈ pieces, ',' ∉ piece := by
  induction hpieces with
  | nil => exact nofun
  | cons hpiece hpieces ih =>
    refine List.forall_mem_cons.mpr ⟨?_, ih fun element h => hsimple element ?_⟩
    · exact notComma_padded hpiece (hsimple _ List.mem_cons_self)
    · exact List.mem_cons_of_mem _ h

private theorem trim_blank {body : List Char} (hbody : Blank body) :
    Blank (trimMatches isBraceOrSpace ('{' :: (body ++ ['}']))) := by
  rw [trimMatches, List.dropWhile_cons_of_pos rfl, List.dropWhile_append]
  split
  · exact List.forall_mem_nil _
  · have hclose : (body.dropWhile isBraceOrSpace ++ ['}']).rdropWhile isBraceOrSpace =
        (body.dropWhile isBraceOrSpace).rdropWhile isBraceOrSpace :=
      List.rdropWhile_concat_pos _ _ _ rfl
    change Blank ((body.dropWhile isBraceOrSpace ++ ['}']).rdropWhile isBraceOrSpace)
    rw [hclose]
    exact blank_rdropWhile (blank_dropWhile hbody)

/-- The readers find exactly the elements between the braces. -/
theorem arrayItems_body {body : List Char} {elements : List (List Char)}
    (hbody : ArrayBody body elements) (hsimple : ∀ element ∈ elements, SimpleElement element) :
    arrayItems ('{' :: (body ++ ['}'])) = elements.map String.ofList := by
  refine congrArg (List.map String.ofList) ?_
  change ((List.splitOn ',' (trimMatches isBraceOrSpace ('{' :: (body ++ ['}'])))).map
    (trimMatches isWhitespace)).filter (fun item => !item.isEmpty) = elements
  cases hbody with
  | empty hblank =>
    have htrim := trim_blank hblank
    rw [List.splitOn_eq_singleton fun h => blank_notComma (htrim _ h) rfl, List.map_singleton,
      trimMatches_eq_nil_iff.mpr htrim]
    rfl
  | elements hne hpieces =>
    rename_i pieces
    obtain ⟨pieces₁, hpieces₁, hne₁, hfront⟩ := trim_front hpieces hsimple hne ['}']
    obtain ⟨pieces₂, hpieces₂, hne₂, hback⟩ := trim_back hpieces₁ hsimple hne₁
    have htrim : trimMatches isBraceOrSpace ('{' :: ([','].intercalate pieces ++ ['}'])) =
        [','].intercalate pieces₂ := by
      rw [trimMatches, List.dropWhile_cons_of_pos rfl, hfront]
      exact (List.rdropWhile_concat_pos _ _ _ rfl).trans hback
    rw [htrim, List.splitOn_intercalate _ (notComma_pieces hpieces₂ hsimple) hne₂,
      items_pieces hpieces₂ hsimple]

theorem trim_arrayText {text : List Char} {elements : List (List Char)}
    (h : ArrayText text elements) :
    ∃ body, ArrayBody body elements ∧
      trimMatches isWhitespace text = '{' :: (body ++ ['}']) := by
  obtain ⟨before, body, after, hbefore, hafter, hbody, rfl⟩ := h.shape
  refine ⟨body, hbody, ?_⟩
  exact trimMatches_append hbefore hafter ⟨'{', rfl, rfl⟩
    ⟨'}', by rw [List.getLast?_cons, List.getLast?_concat]; rfl, rfl⟩

end Reading
end DatafusionPostgres.Sql

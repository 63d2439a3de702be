import Mathlib.Data.List.Chain

/-! Text in quotes, where a quote of its own stands doubled, and a text as the pieces that its
quotes and separators cut it into. -/
namespace DatafusionPostgres.Library

/-- A text as it stands between two quotes. -/
def doubled (quote : Char) (text : List Char) : List Char :=
  text.flatMap fun c => if c = quote then [quote, quote] else [c]

theorem doubled_cons_quote (quote : Char) (text : List Char) :
    doubled quote (quote :: text) = quote :: quote :: doubled quote text := by
  rw [doubled, List.flatMap_cons, if_pos rfl]
  rfl

theorem doubled_cons_of_ne {quote c : Char} (hc : c ≠ quote) (text : List Char) :
    doubled quote (c :: text) = c :: doubled quote text := by
  rw [doubled, List.flatMap_cons, if_neg hc]
  rfl

/-- The text before the closing quote that ends it all, with no doubled quotes left. -/
def readQuoted (quote : Char) : List Char → Option (List Char)
  | [] => none
  | [c] => if c = quote then some [] else none
  | c :: next :: cs =>
    if c = quote then
      if next = quote then (readQuoted quote cs).map (quote :: ·) else none
    else (readQuoted quote (next :: cs)).map (c :: ·)

theorem readQuoted_doubled (quote : Char) (text : List Char) :
    readQuoted quote (doubled quote text ++ [quote]) = some text := by
  induction text with
  | nil => exact if_pos rfl
  | cons c text ih =>
    by_cases hc : c = quote
    · subst hc
      rw [doubled_cons_quote, List.cons_append, List.cons_append, readQuoted, if_pos rfl,
        if_pos rfl, ih]
      rfl
    · rw [doubled_cons_of_ne hc]
      obtain ⟨next, rest, hrest⟩ := List.exists_cons_of_ne_nil
        (List.append_ne_nil_of_right_ne_nil (doubled quote text) (List.cons_ne_nil quote []))
      rw [List.cons_append, hrest, readQuoted, if_neg hc, ← hrest, ih]
      rfl

theorem eq_doubled_of_readQuoted {quote : Char} {cs text : List Char}
    (h : readQuoted quote cs = some text) : cs = doubled quote text ++ [quote] := by
  fun_induction readQuoted quote cs generalizing text with
  | case1 => cases h
  | case2 =>
    cases h
    rfl
  | case3 => cases h
  | case4 cs ih =>
    obtain ⟨rest, hrest, rfl⟩ := Option.map_eq_some_iff.mp h
    rw [doubled_cons_quote, ih hrest]
    rfl
  | case5 => cases h
  | case6 c next cs hc ih =>
    obtain ⟨rest, hrest, rfl⟩ := Option.map_eq_some_iff.mp h
    rw [doubled_cons_of_ne hc, ih hrest]
    rfl

theorem length_doubled (quote : Char) (text : List Char) :
    (doubled quote text).length = text.length + text.count quote := by
  induction text with
  | nil => rfl
  | cons c text ih =>
    by_cases hc : c = quote
    · subst hc
      rw [doubled_cons_quote, List.count_cons_self, List.length_cons, List.length_cons, ih,
        List.length_cons]
      omega
    · rw [doubled_cons_of_ne hc, List.count_cons_of_ne hc, List.length_cons, ih, List.length_cons]
      omega

inductive Piece where
  | separator
  | run (text : List Char)
  | quoted (text : List Char)
  deriving DecidableEq, Repr

/-- One more character in front, outside of quotes. -/
def joinRun (c : Char) : List Piece → List Piece
  | .run text :: pieces => .run (c :: text) :: pieces
  | pieces => .run [c] :: pieces

/-- One more character in front, in the quotes that the first piece closes. -/
def joinQuoted (c : Char) : List Piece → List Piece
  | .quoted text :: pieces => .quoted (c :: text) :: pieces
  | pieces => pieces

section Pieces
variable (quote separator : Char)

/-- The pieces of a text, of which the first is in quotes already if `inQuotes`; none if a quote
is not closed. -/
def pieces? : Bool → List Char → Option (List Piece)
  | false, [] => some []
  | true, [] => none
  | false, c :: cs =>
    if c = quote then pieces? true cs
    else if c = separator then (pieces? false cs).map (.separator :: ·)
    else (pieces? false cs).map (joinRun c)
  | true, [c] => if c = quote then some [.quoted []] else none
  | true, c :: next :: cs =>
    if c = quote then
      if next = quote then (pieces? true cs).map (joinQuoted quote)
      else (pieces? false (next :: cs)).map (.quoted [] :: ·)
    else (pieces? true (next :: cs)).map (joinQuoted c)

def Piece.written : Piece → List Char
  | .separator => [separator]
  | .run text => text
  | .quoted text => quote :: (doubled quote text ++ [quote])

def written (pieces : List Piece) : List Char := pieces.flatMap (Piece.written quote separator)

end Pieces

/-- The pieces of a text, by the way it is read. -/
inductive Cut (quote separator : Char) : Bool → List Char → List Piece → Prop
  | done : Cut quote separator false [] []
  | opening {cs pieces} (h : Cut quote separator true cs pieces) :
      Cut quote separator false (quote :: cs) pieces
  | separator {cs pieces} (h : Cut quote separator false cs pieces) :
      Cut quote separator false (separator :: cs) (.separator :: pieces)
  | plain {c cs pieces} (hquote : c ≠ quote) (hsep : c ≠ separator)
      (h : Cut quote separator false cs pieces) :
      Cut quote separator false (c :: cs) (joinRun c pieces)
  | closing {cs pieces} (hnext : cs.head? ≠ some quote) (h : Cut quote separator false cs pieces) :
      Cut quote separator true (quote :: cs) (.quoted [] :: pieces)
  | escaped {cs text pieces} (h : Cut quote separator true cs (.quoted text :: pieces)) :
      Cut quote separator true (quote :: quote :: cs) (.quoted (quote :: text) :: pieces)
  | inside {c cs text pieces} (hquote : c ≠ quote)
      (h : Cut quote separator true cs (.quoted text :: pieces)) :
      Cut quote separator true (c :: cs) (.quoted (c :: text) :: pieces)

section Reading
variable {quote separator : Char}

theorem Cut.exists_quoted {cs : List Char} {pieces : List Piece}
    (h : Cut quote separator true cs pieces) : ∃ text rest, pieces = .quoted text :: rest := by
  cases h with
  | closing => exact ⟨_, _, rfl⟩
  | escaped => exact ⟨_, _, rfl⟩
  | inside => exact ⟨_, _, rfl⟩

theorem cut_of_pieces? {inQuotes : Bool} {cs : List Char} {pieces : List Piece}
    (h : pieces? quote separator inQuotes cs = some pieces) :
    Cut quote separator inQuotes cs pieces := by
  fun_induction pieces? quote separator inQuotes cs generalizing pieces with
  | case1 =>
    cases h
    exact .done
  | case2 => cases h
  | case3 cs ih => exact .opening (ih h)
  | case4 cs hquote ih =>
    obtain ⟨rest, hrest, rfl⟩ := Option.map_eq_some_iff.mp h
    exact .separator (ih hrest)
  | case5 c cs hquote hsep ih =>
    obtain ⟨rest, hrest, rfl⟩ := Option.map_eq_some_iff.mp h
    exact .plain hquote hsep (ih hrest)
  | case6 =>
    cases h
    exact .closing (by rintro ⟨⟩) .done
  | case7 => cases h
  | case8 cs ih =>
    obtain ⟨rest, hrest, rfl⟩ := Option.map_eq_some_iff.mp h
    obtain ⟨text, rest, rfl⟩ := (ih hrest).exists_quoted
    exact .escaped (ih hrest)
  | case9 next cs hnext ih =>
    obtain ⟨rest, hrest, rfl⟩ := Option.map_eq_some_iff.mp h
    exact .closing (fun heq => hnext (Option.some.inj heq)) (ih hrest)
  | case10 c next cs hquote ih =>
    obtain ⟨rest, hrest, rfl⟩ := Option.map_eq_some_iff.mp h
    obtain ⟨text, rest, rfl⟩ := (ih hrest).exists_quoted
    exact .inside hquote (ih hrest)

theorem pieces?_of_cut (hne : quote ≠ separator) {inQuotes : Bool} {cs : List Char}
    {pieces : List Piece} (h : Cut quote separator inQuotes cs pieces) :
    pieces? quote separator inQuotes cs = some pieces := by
  induction h with
  | done => rfl
  | opening _ ih => rw [pieces?, if_pos rfl, ih]
  | separator _ ih =>
    rw [pieces?, if_neg hne.symm, if_pos rfl, ih]
    rfl
  | plain hquote hsep _ ih =>
    rw [pieces?, if_neg hquote, if_neg hsep, ih]
    rfl
  | @closing cs pieces hnext h ih =>
    cases cs with
    | nil =>
      cases h
      rw [pieces?, if_pos rfl]
    | cons next cs =>
      rw [pieces?, if_pos rfl, if_neg fun heq => hnext (congrArg some heq), ih]
      rfl
  | escaped _ ih =>
    rw [pieces?, if_pos rfl, if_pos rfl, ih]
    rfl
  | @inside c cs text pieces hquote h ih =>
    cases cs with
    | nil => cases h
    | cons next cs =>
      rw [pieces?, if_neg hquote, ih]
      rfl

theorem written_cons (piece : Piece) (pieces : List Piece) :
    written quote separator (piece :: pieces) =
      piece.written quote separator ++ written quote separator pieces := rfl

private theorem written_joinRun (c : Char) (pieces : List Piece) :
    written quote separator (joinRun c pieces) = c :: written quote separator pieces := by
  cases pieces with
  | nil => rfl
  | cons piece pieces => cases piece <;> rfl

/-- The pieces of a text, written one after the other, are the text. -/
theorem Cut.written_eq {inQuotes : Bool} {cs : List Char} {pieces : List Piece}
    (h : Cut quote separator inQuotes cs pieces) :
    written quote separator pieces = if inQuotes then quote :: cs else cs := by
  induction h with
  | done => rfl
  | opening _ ih => exact ih
  | separator _ ih =>
    rw [written_cons, ih]
    rfl
  | plain _ _ _ ih =>
    rw [written_joinRun, ih]
    rfl
  | closing _ _ ih =>
    rw [written_cons, ih]
    rfl
  | @escaped cs text pieces _ ih =>
    have htail : doubled quote text ++ quote :: written quote separator pieces = cs := by
      rw [written_cons, Piece.written, List.cons_append, List.append_assoc] at ih
      exact (List.cons.inj ih).2
    rw [written_cons, Piece.written, doubled_cons_quote]
    simp only [List.cons_append, List.append_assoc, List.nil_append, htail, if_true]
  | @inside c cs text pieces hquote _ ih =>
    have htail : doubled quote text ++ quote :: written quote separator pieces = cs := by
      rw [written_cons, Piece.written, List.cons_append, List.append_assoc] at ih
      exact (List.cons.inj ih).2
    rw [written_cons, Piece.written, doubled_cons_of_ne hquote]
    simp only [List.cons_append, List.append_assoc, List.nil_append, htail, if_true]

/-- What stands in a run. -/
def Piece.Legible (quote separator : Char) : Piece → Prop
  | .run text => text ≠ [] ∧ quote ∉ text ∧ separator ∉ text
  | _ => True

private theorem legible_joinRun {c : Char} {pieces : List Piece} (hquote : c ≠ quote)
    (hsep : c ≠ separator) (h : ∀ piece ∈ pieces, piece.Legible quote separator) :
    ∀ piece ∈ joinRun c pieces, piece.Legible quote separator := by
  have hone : (Piece.run [c]).Legible quote separator :=
    ⟨List.cons_ne_nil _ _, by simpa using hquote.symm, by simpa using hsep.symm⟩
  cases pieces with
  | nil => exact List.forall_mem_cons.mpr ⟨hone, h⟩
  | cons piece pieces =>
    cases piece with
    | run text =>
      obtain ⟨⟨-, hq, hs⟩, hrest⟩ := List.forall_mem_cons.mp h
      refine List.forall_mem_cons.mpr ⟨⟨List.cons_ne_nil _ _, ?_, ?_⟩, hrest⟩
      · exact List.not_mem_cons_of_ne_of_not_mem hquote.symm hq
      · exact List.not_mem_cons_of_ne_of_not_mem hsep.symm hs
    | separator => exact List.forall_mem_cons.mpr ⟨hone, h⟩
    | quoted text => exact List.forall_mem_cons.mpr ⟨hone, h⟩

theorem Cut.legible {inQuotes : Bool} {cs : List Char} {pieces : List Piece}
    (h : Cut quote separator inQuotes cs pieces) :
    ∀ piece ∈ pieces, piece.Legible quote separator := by
  induction h with
  | done => exact fun _ h => absurd h List.not_mem_nil
  | opening _ ih => exact ih
  | separator _ ih => exact List.forall_mem_cons.mpr ⟨trivial, ih⟩
  | plain hquote hsep _ ih => exact legible_joinRun hquote hsep ih
  | closing _ _ ih => exact List.forall_mem_cons.mpr ⟨trivial, ih⟩
  | escaped _ ih => exact List.forall_mem_cons.mpr ⟨trivial, (List.forall_mem_cons.mp ih).2⟩
  | inside _ _ ih => exact List.forall_mem_cons.mpr ⟨trivial, (List.forall_mem_cons.mp ih).2⟩

/-- Two quoted pieces do not stand side by side. -/
def QuotedApart : List Piece → Prop :=
  List.IsChain fun a b => ∀ s t, a = .quoted s → b ≠ .quoted t

private theorem quotedApart_cons {piece : Piece} {pieces : List Piece}
    (hpiece : ∀ text, piece ≠ .quoted text) (h : QuotedApart pieces) :
    QuotedApart (piece :: pieces) :=
  List.isChain_cons.mpr ⟨fun _ _ s _ heq => absurd heq (hpiece s), h⟩

private theorem quotedApart_change {s t : List Char} {pieces : List Piece}
    (h : QuotedApart (.quoted s :: pieces)) : QuotedApart (.quoted t :: pieces) := by
  rw [QuotedApart, List.isChain_cons] at h ⊢
  exact ⟨fun b hb _ u _ => h.1 b hb s u rfl, h.2⟩

theorem Cut.quotedApart {inQuotes : Bool} {cs : List Char} {pieces : List Piece}
    (h : Cut quote separator inQuotes cs pieces) : QuotedApart pieces := by
  induction h with
  | done => exact .nil
  | opening _ ih => exact ih
  | separator _ ih => exact quotedApart_cons (by rintro _ ⟨⟩) ih
  | @plain c cs pieces _ _ _ ih =>
    cases pieces with
    | nil => exact .singleton _
    | cons piece pieces =>
      cases piece with
      | run text => exact quotedApart_cons (by rintro _ ⟨⟩) (List.isChain_cons.mp ih).2
      | separator => exact quotedApart_cons (by rintro _ ⟨⟩) ih
      | quoted text => exact quotedApart_cons (by rintro _ ⟨⟩) ih
  | @closing cs pieces hnext h ih =>
    refine List.isChain_cons.mpr ⟨?_, ih⟩
    rintro b hb _ t - rfl
    obtain ⟨rest, rfl⟩ := List.head?_eq_some_iff.mp hb
    have hcs : _ = cs := h.written_eq
    rw [← hcs] at hnext
    exact hnext rfl
  | escaped _ ih => exact quotedApart_change ih
  | inside _ _ ih => exact quotedApart_change ih

/-- A text in quotes is cut off as one piece, if no other quote comes right after it. -/
theorem Cut.cons_quoted {text cs : List Char} {pieces : List Piece}
    (hnext : cs.head? ≠ some quote) (h : Cut quote separator false cs pieces) :
    Cut quote separator true (doubled quote text ++ quote :: cs) (.quoted text :: pieces) := by
  induction text with
  | nil => exact .closing hnext h
  | cons c text ih =>
    by_cases hc : c = quote
    · subst hc
      rw [doubled_cons_quote]
      exact .escaped ih
    · rw [doubled_cons_of_ne hc]
      exact .inside hc ih

/-- A run is cut off as one piece, if no other run comes right after it. -/
theorem Cut.cons_run {text cs : List Char} {pieces : List Piece}
    (hlegible : (Piece.run text).Legible quote separator)
    (hnext : ∀ t, pieces.head? ≠ some (.run t)) (h : Cut quote separator false cs pieces) :
    Cut quote separator false (text ++ cs) (.run text :: pieces) := by
  have hlone : ∀ c, joinRun c pieces = .run [c] :: pieces := by
    intro c
    cases pieces with
    | nil => rfl
    | cons piece pieces =>
      cases piece with
      | run t => exact absurd rfl (hnext t)
      | separator => rfl
      | quoted t => rfl
  obtain ⟨hne, hquote, hsep⟩ := hlegible
  induction text with
  | nil => exact absurd rfl hne
  | cons c text ih =>
    obtain ⟨hq, hquote⟩ := List.ne_and_not_mem_of_not_mem_cons hquote
    obtain ⟨hs, hsep⟩ := List.ne_and_not_mem_of_not_mem_cons hsep
    cases text with
    | nil =>
      rw [← hlone c]
      exact .plain hq.symm hs.symm h
    | cons d text => exact .plain hq.symm hs.symm (ih (List.cons_ne_nil _ _) hquote hsep)

end Reading

/-! ## What the pieces hold -/

/-- The text of a piece, without its quotes. -/
def Piece.content : Piece → List Char
  | .separator => []
  | .run text => text
  | .quoted text => text

def content (pieces : List Piece) : List Char := pieces.flatMap Piece.content

section Contents
variable {quote separator : Char} {cs : List Char} {pieces : List Piece}

theorem doubled_append (quote : Char) (s t : List Char) :
    doubled quote (s ++ t) = doubled quote s ++ doubled quote t := List.flatMap_append

theorem doubled_of_not_mem {text : List Char} (h : quote ∉ text) : doubled quote text = text := by
  induction text with
  | nil => rfl
  | cons c text ih =>
    obtain ⟨hc, htext⟩ := List.ne_and_not_mem_of_not_mem_cons h
    rw [doubled_cons_of_ne hc.symm, ih htext]

/-- A text with its quotes doubled has no open quote. -/
theorem exists_cut_doubled (text : List Char) :
    (∃ pieces, Cut quote separator false (doubled quote text) pieces) ∧
      ∃ pieces, Cut quote separator true (quote :: doubled quote text) pieces := by
  induction text with
  | nil => exact ⟨⟨_, .done⟩, _, .closing (by rintro ⟨⟩) .done⟩
  | cons c text ih =>
    obtain ⟨⟨plain, hplain⟩, quoted, hquoted⟩ := ih
    by_cases hc : c = quote
    · subst hc
      rw [doubled_cons_quote]
      obtain ⟨inner, rest, rfl⟩ := hquoted.exists_quoted
      exact ⟨⟨_, .opening hquoted⟩, _, .escaped hquoted⟩
    · rw [doubled_cons_of_ne hc]
      have hcons : ∃ pieces, Cut quote separator false (c :: doubled quote text) pieces := by
        by_cases hsep : c = separator
        · subst hsep
          exact ⟨_, .separator hplain⟩
        · exact ⟨_, .plain hc hsep hplain⟩
      obtain ⟨pieces, hcut⟩ := hcons
      exact ⟨⟨_, hcut⟩, _, .closing (fun h => hc (Option.some.inj h)) hcut⟩

/-- Two texts with a separator between them. -/
theorem Cut.append (hne : quote ≠ separator) {inQuotes : Bool} {cs' : List Char}
    {pieces' : List Piece} (h : Cut quote separator inQuotes cs pieces)
    (h' : Cut quote separator false cs' pieces') :
    Cut quote separator inQuotes (cs ++ separator :: cs') (pieces ++ .separator :: pieces') := by
  induction h with
  | done => exact .separator h'
  | opening _ ih => exact .opening ih
  | separator _ ih => exact .separator ih
  | @plain c cs pieces hquote hsep _ ih =>
    have hjoin : joinRun c pieces ++ .separator :: pieces' =
        joinRun c (pieces ++ .separator :: pieces') := by
      cases pieces with
      | nil => rfl
      | cons piece pieces => cases piece <;> rfl
    rw [hjoin]
    exact .plain hquote hsep ih
  | @closing cs pieces hnext _ ih =>
    refine .closing ?_ ih
    cases cs with
    | nil => exact fun h => hne (Option.some.inj h).symm
    | cons c cs => exact hnext
  | escaped _ ih => exact .escaped ih
  | inside hquote _ ih => exact .inside hquote ih

private theorem length_content_written (h : ∀ piece ∈ pieces, piece.Legible quote separator) :
    (doubled quote (content pieces)).length ≤ (written quote separator pieces).length := by
  induction pieces with
  | nil => exact Nat.le_refl _
  | cons piece pieces ih =>
    obtain ⟨hpiece, hrest⟩ := List.forall_mem_cons.mp h
    rw [content, List.flatMap_cons, doubled_append, written_cons, List.length_append,
      List.length_append]
    refine Nat.add_le_add ?_ (ih hrest)
    cases piece with
    | separator => exact Nat.zero_le _
    | run text =>
      rw [Piece.content, doubled_of_not_mem hpiece.2.1]
      exact Nat.le_refl _
    | quoted text =>
      rw [Piece.content, Piece.written, List.length_cons, List.length_append]
      omega

/-- A text is at least as long as what its pieces hold, with the quotes doubled. -/
theorem Cut.length_content (h : Cut quote separator false cs pieces) :
    (doubled quote (content pieces)).length ≤ cs.length := by
  have hwritten : written quote separator pieces = cs := h.written_eq
  rw [← hwritten]
  exact length_content_written h.legible

/-- It is longer if it begins with a quote. -/
theorem Cut.length_content_lt (hne : quote ≠ separator) (h : Cut quote separator false cs pieces)
    (hhead : cs.head? = some quote) : (doubled quote (content pieces)).length < cs.length := by
  have hwritten : written quote separator pieces = cs := h.written_eq
  have hlegible := h.legible
  cases h with
  | done => cases hhead
  | opening h =>
    obtain ⟨text, rest, rfl⟩ := h.exists_quoted
    have hrest := length_content_written (List.forall_mem_cons.mp hlegible).2
    rw [← hwritten, content, List.flatMap_cons, doubled_append, written_cons, List.length_append,
      List.length_append, Piece.content, Piece.written, List.length_cons, List.length_append]
    rw [content] at hrest
    omega
  | separator h => exact absurd (Option.some.inj hhead).symm hne
  | plain hquote _ _ => exact absurd (Option.some.inj hhead) hquote

end Contents
end DatafusionPostgres.Library

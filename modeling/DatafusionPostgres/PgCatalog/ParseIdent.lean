import DatafusionPostgres.Library.Quoting
import DatafusionPostgres.Library.Success

/-! `datafusion-pg-catalog/src/pg_catalog/quote_ident_udf.rs`: the reader of `parse_ident`,
against the grammar of qualified names. -/
namespace DatafusionPostgres.PgCatalog
open Library

/-- The variables of the loop. -/
structure IdentScan where
  parts : List String
  currentPart : List Char
  inQuotes : Bool
  deriving DecidableEq, Repr

namespace IdentScan

def start : IdentScan := ⟨[], [], false⟩

def push (c : Char) (s : IdentScan) : IdentScan := { s with currentPart := s.currentPart ++ [c] }

/-- The current part goes to the parts if there is one. -/
def flush (s : IdentScan) : IdentScan :=
  if s.currentPart.isEmpty then s
  else { s with parts := s.parts ++ [String.ofList s.currentPart], currentPart := [] }

end IdentScan

def parseIdentLoop (strict : Bool) : List Char → IdentScan → Except String IdentScan
  | [], s => .ok s
  | c :: chars, s =>
    if c = '"' ∧ s.inQuotes = false then parseIdentLoop strict chars { s with inQuotes := true }
    else if c = '"' then
      match chars with
      | '"' :: chars => parseIdentLoop strict chars (s.push '"')
      | chars => parseIdentLoop strict chars { s with inQuotes := false }.flush
    else if c = '.' ∧ s.inQuotes = false then
      if s.currentPart.isEmpty ∧ strict then .error "empty identifier part"
      else parseIdentLoop strict chars s.flush
    else parseIdentLoop strict chars (s.push c)

/-- What comes after the loop. -/
def IdentScan.finish (ident : String) (strict : Bool) (s : IdentScan) :
    Except String (List String) :=
  if s.inQuotes then .error "unterminated quoted identifier"
  else if s.currentPart.isEmpty ∧ ident.toList.getLast? = some '.' ∧ strict then
    .error "empty identifier part"
  else if s.flush.parts.isEmpty then .error "no valid identifier parts"
  else .ok s.flush.parts

def parseIdentString (ident : String) (strict : Bool) : Except String (List String) :=
  if ident.isEmpty then .error "empty identifier"
  else (parseIdentLoop strict ident.toList .start).bind (·.finish ident strict)

section Loop
variable (strict : Bool) {s : IdentScan} {c : Char} {chars : List Char}

private theorem parseIdentLoop_cons :
    parseIdentLoop strict (c :: chars) s =
      if c = '"' ∧ s.inQuotes = false then parseIdentLoop strict chars { s with inQuotes := true }
      else if c = '"' then
        match chars with
        | '"' :: chars => parseIdentLoop strict chars (s.push '"')
        | chars => parseIdentLoop strict chars { s with inQuotes := false }.flush
      else if c = '.' ∧ s.inQuotes = false then
        if s.currentPart.isEmpty ∧ strict then .error "empty identifier part"
        else parseIdentLoop strict chars s.flush
      else parseIdentLoop strict chars (s.push c) := by
  rw [parseIdentLoop.eq_def]

private theorem parseIdentLoop_opening (hs : s.inQuotes = false) :
    parseIdentLoop strict ('"' :: chars) s =
      parseIdentLoop strict chars { s with inQuotes := true } := by
  rw [parseIdentLoop_cons, if_pos ⟨rfl, hs⟩]

private theorem parseIdentLoop_escaped (hs : s.inQuotes = true) :
    parseIdentLoop strict ('"' :: '"' :: chars) s = parseIdentLoop strict chars (s.push '"') := by
  rw [parseIdentLoop_cons, if_neg (by simp [hs]), if_pos rfl]
  rfl

private theorem parseIdentLoop_closing (hs : s.inQuotes = true) (hnext : chars.head? ≠ some '"') :
    parseIdentLoop strict ('"' :: chars) s =
      parseIdentLoop strict chars { s with inQuotes := false }.flush := by
  rw [parseIdentLoop_cons, if_neg (by simp [hs]), if_pos rfl]
  split
  · exact absurd rfl hnext
  · rfl

private theorem parseIdentLoop_dot (hs : s.inQuotes = false) :
    parseIdentLoop strict ('.' :: chars) s =
      if s.currentPart.isEmpty ∧ strict then .error "empty identifier part"
      else parseIdentLoop strict chars s.flush := by
  rw [parseIdentLoop_cons, if_neg (by simp), if_neg (by decide), if_pos ⟨rfl, hs⟩]

private theorem parseIdentLoop_push (hquote : c ≠ '"') (hdot : c ≠ '.' ∨ s.inQuotes = true) :
    parseIdentLoop strict (c :: chars) s = parseIdentLoop strict chars (s.push c) := by
  rw [parseIdentLoop_cons, if_neg fun h => hquote h.1, if_neg hquote, if_neg]
  rintro ⟨hc, hs⟩
  rcases hdot with hdot | hdot
  · exact hdot hc
  · rw [hs] at hdot
    cases hdot

end Loop

/-- What the loop does over one piece of a text. -/
def readPiece (strict : Bool) (s : IdentScan) : Piece → Except String IdentScan
  | .separator =>
    if s.currentPart.isEmpty ∧ strict then .error "empty identifier part" else .ok s.flush
  | .run text => .ok { s with currentPart := s.currentPart ++ text }
  | .quoted text => .ok { s with currentPart := s.currentPart ++ text, inQuotes := false }.flush

section Pieces
variable (strict : Bool)

private theorem foldlM_joinRun (c : Char) (pieces : List Piece) (s : IdentScan) :
    (joinRun c pieces).foldlM (readPiece strict) s =
      pieces.foldlM (readPiece strict) (s.push c) := by
  cases pieces with
  | nil => rfl
  | cons piece pieces =>
    cases piece with
    | run text =>
      change pieces.foldlM (readPiece strict) { s with currentPart := s.currentPart ++ c :: text } =
        pieces.foldlM (readPiece strict)
          { s with currentPart := s.currentPart ++ [c] ++ text }
      rw [List.append_assoc]
      rfl
    | separator => rfl
    | quoted text => rfl

/-- The loop reads a text with closed quotes piece by piece. -/
theorem parseIdentLoop_of_cut {inQuotes : Bool} {chars : List Char} {pieces : List Piece}
    (h : Cut '"' '.' inQuotes chars pieces) {s : IdentScan} (hs : s.inQuotes = inQuotes) :
    parseIdentLoop strict chars s = pieces.foldlM (readPiece strict) s := by
  induction h generalizing s with
  | done => rfl
  | opening h ih =>
    obtain ⟨text, rest, rfl⟩ := h.exists_quoted
    rw [parseIdentLoop_opening strict hs, ih rfl]
    rfl
  | separator _ ih =>
    rw [parseIdentLoop_dot strict hs, List.foldlM_cons, readPiece]
    split
    · rfl
    · refine ih ?_
      rw [← hs, IdentScan.flush]
      split <;> rfl
  | plain hquote hsep _ ih =>
    rw [parseIdentLoop_push strict hquote (.inl hsep), foldlM_joinRun]
    exact ih hs
  | @closing chars pieces hnext h ih =>
    rw [parseIdentLoop_closing strict hs hnext, List.foldlM_cons, readPiece, List.append_nil]
    refine ih ?_
    rw [IdentScan.flush]
    split <;> rfl
  | @escaped chars text pieces _ ih =>
    rw [parseIdentLoop_escaped strict hs, ih (s := s.push '"') hs, List.foldlM_cons, List.foldlM_cons]
    simp only [readPiece, IdentScan.push, List.append_assoc, List.singleton_append]
  | @inside c chars text pieces hquote _ ih =>
    rw [parseIdentLoop_push strict hquote (.inr hs), ih (s := s.push c) hs, List.foldlM_cons, List.foldlM_cons]
    simp only [readPiece, IdentScan.push, List.append_assoc, List.singleton_append]

/-- At the end of a text with an open quote the loop is in quotes. -/
theorem inQuotes_of_unclosed {inQuotes : Bool} {chars : List Char}
    (h : pieces? '"' '.' inQuotes chars = none) {s s' : IdentScan} (hs : s.inQuotes = inQuotes)
    (hloop : parseIdentLoop strict chars s = .ok s') : s'.inQuotes = true := by
  fun_induction pieces? '"' '.' inQuotes chars generalizing s with
  | case1 => cases h
  | case2 =>
    cases hloop
    exact hs
  | case3 chars ih =>
    rw [parseIdentLoop_opening strict hs] at hloop
    exact ih h rfl hloop
  | case4 chars _ ih =>
    rw [parseIdentLoop_dot strict hs] at hloop
    split at hloop
    · cases hloop
    · refine ih (Option.map_eq_none_iff.mp h) ?_ hloop
      rw [← hs, IdentScan.flush]
      split <;> rfl
  | case5 c chars hquote hsep ih =>
    rw [parseIdentLoop_push strict hquote (.inl hsep)] at hloop
    exact ih (s := s.push c) (Option.map_eq_none_iff.mp h) hs hloop
  | case6 => cases h
  | case7 c hquote =>
    rw [parseIdentLoop_push strict hquote (.inr hs)] at hloop
    cases hloop
    exact hs
  | case8 chars ih =>
    rw [parseIdentLoop_escaped strict hs] at hloop
    exact ih (s := s.push '"') (Option.map_eq_none_iff.mp h) hs hloop
  | case9 next chars hnext ih =>
    rw [parseIdentLoop_closing strict hs (by simpa using hnext)] at hloop
    refine ih (Option.map_eq_none_iff.mp h) ?_ hloop
    rw [IdentScan.flush]
    split <;> rfl
  | case10 c next chars hquote ih =>
    rw [parseIdentLoop_push strict hquote (.inr hs)] at hloop
    exact ih (s := s.push c) (Option.map_eq_none_iff.mp h) hs hloop

end Pieces

/-- A component of a qualified name. -/
inductive IdentComponent where
  | bare (text : String)
  | quoted (text : String)
  deriving DecidableEq, Repr

namespace IdentComponent

def text : IdentComponent → String
  | .bare text => text
  | .quoted text => text

def Valid : IdentComponent → Prop
  | .bare text => text ≠ "" ∧ '"' ∉ text.toList ∧ '.' ∉ text.toList
  | .quoted text => text ≠ ""

instance : (c : IdentComponent) → Decidable c.Valid
  | .bare text =>
    inferInstanceAs (Decidable (text ≠ "" ∧ '"' ∉ text.toList ∧ '.' ∉ text.toList))
  | .quoted text => inferInstanceAs (Decidable (text ≠ ""))

def written : IdentComponent → String
  | .bare text => text
  | .quoted text => String.ofList ('"' :: (doubled '"' text.toList ++ ['"']))

def piece : IdentComponent → Piece
  | .bare text => .run text.toList
  | .quoted text => .quoted text.toList

theorem piece_ne_separator (c : IdentComponent) : c.piece ≠ .separator := by
  cases c <;> rintro ⟨⟩

end IdentComponent

/-- The text is a qualified name with these parts. -/
def Qualifies (ident : String) (parts : List String) : Prop :=
  ∃ components : List IdentComponent, components ≠ [] ∧ (∀ c ∈ components, c.Valid) ∧
    ident = ".".intercalate (components.map IdentComponent.written) ∧
    parts = components.map IdentComponent.text

def componentPieces (components : List IdentComponent) : List Piece :=
  (components.map IdentComponent.piece).intersperse .separator

section Grammar

private theorem cut_component {c : IdentComponent} {chars : List Char} {pieces : List Piece}
    (hvalid : c.Valid) (hnext : chars.head? ≠ some '"')
    (hpieces : ∀ t, pieces.head? ≠ some (.run t)) (h : Cut '"' '.' false chars pieces) :
    Cut '"' '.' false (c.written.toList ++ chars) (c.piece :: pieces) := by
  cases c with
  | bare text =>
    obtain ⟨hne, hquote, hdot⟩ := hvalid
    exact h.cons_run ⟨fun hnil => hne (String.toList_eq_nil_iff.mp hnil), hquote, hdot⟩ hpieces
  | quoted text =>
    rw [IdentComponent.written, String.toList_ofList, List.cons_append, List.append_assoc]
    exact .opening (h.cons_quoted hnext)

/-- A qualified name is cut into its components and the dots between them. -/
theorem cut_components {components : List IdentComponent} (hne : components ≠ [])
    (hvalid : ∀ c ∈ components, c.Valid) :
    Cut '"' '.' false (".".intercalate (components.map IdentComponent.written)).toList
      (componentPieces components) := by
  induction components with
  | nil => exact absurd rfl hne
  | cons c components ih =>
    obtain ⟨hc, hvalid⟩ := List.forall_mem_cons.mp hvalid
    cases components with
    | nil =>
      have hone : Cut '"' '.' false (c.written.toList ++ []) [c.piece] :=
        cut_component hc (by rintro ⟨⟩) (by rintro _ ⟨⟩) .done
      rw [List.append_nil] at hone
      rw [List.map_singleton, String.intercalate_singleton]
      exact hone
    | cons d components =>
      have hrest := ih (List.cons_ne_nil _ _) hvalid
      rw [List.map_cons, List.map_cons, String.intercalate_cons_cons, ← List.map_cons,
        String.append_assoc, String.toList_append, String.toList_append]
      exact cut_component hc (by rintro ⟨⟩) (by rintro _ ⟨⟩) (.separator hrest)

private theorem readPiece_component {s : IdentScan} {c : IdentComponent} (hvalid : c.Valid)
    (hpart : s.currentPart = []) (hs : s.inQuotes = false) (strict : Bool) :
    ∃ s', readPiece strict s c.piece = .ok s' ∧ s'.inQuotes = false ∧
      s'.flush = ⟨s.parts ++ [c.text], [], false⟩ := by
  obtain ⟨parts, currentPart, inQuotes⟩ := s
  cases hpart
  cases hs
  cases c with
  | bare text =>
    refine ⟨_, rfl, rfl, ?_⟩
    have hne : text.toList.isEmpty = false :=
      List.isEmpty_eq_false_iff.mpr fun hnil => hvalid.1 (String.toList_eq_nil_iff.mp hnil)
    rw [IdentScan.flush, if_neg (by simp [hne])]
    simp [IdentComponent.text]
  | quoted text =>
    have hne : text.toList.isEmpty = false :=
      List.isEmpty_eq_false_iff.mpr fun hnil => hvalid (String.toList_eq_nil_iff.mp hnil)
    have hflush : (⟨parts, [] ++ text.toList, false⟩ : IdentScan).flush =
        ⟨parts ++ [text], [], false⟩ := by
      rw [IdentScan.flush, if_neg (by simp [hne])]
      simp
    refine ⟨_, rfl, ?_, ?_⟩
    · exact congrArg IdentScan.inQuotes hflush
    · exact (congrArg IdentScan.flush hflush).trans rfl

private theorem foldlM_components {components : List IdentComponent}
    (hvalid : ∀ c ∈ components, c.Valid) {s : IdentScan} (hpart : s.currentPart = [])
    (hs : s.inQuotes = false) :
    ∃ s', (componentPieces components).foldlM (readPiece false) s = .ok s' ∧
      s'.inQuotes = false ∧
      s'.flush.parts = s.parts ++ components.map IdentComponent.text := by
  induction components generalizing s with
  | nil =>
    refine ⟨s, rfl, hs, ?_⟩
    rw [IdentScan.flush, hpart]
    exact (List.append_nil _).symm
  | cons c components ih =>
    obtain ⟨hc, hvalid⟩ := List.forall_mem_cons.mp hvalid
    obtain ⟨s1, hread, hs1, hflush⟩ := readPiece_component hc hpart hs false
    cases components with
    | nil =>
      refine ⟨s1, ?_, hs1, by rw [hflush, List.map_singleton]⟩
      change (readPiece false s c.piece).bind _ = _
      rw [hread]
      rfl
    | cons d components =>
      obtain ⟨s', hfold, hs', hparts⟩ := ih hvalid (s := s1.flush) (by rw [hflush]) (by rw [hflush])
      refine ⟨s', ?_, hs', by rw [hparts, hflush, List.append_assoc]; rfl⟩
      change (readPiece false s c.piece).bind _ = _
      rw [hread]
      change (readPiece false s1 .separator).bind _ = _
      rw [readPiece, if_neg (by simp)]
      exact hfold

end Grammar

section Reading
variable {ident : String} {parts : List String}

theorem parseIdentString_of_pieces {pieces : List Piece} (hne : ident ≠ "")
    (h : pieces? '"' '.' false ident.toList = some pieces) (strict : Bool) :
    parseIdentString ident strict =
      (pieces.foldlM (readPiece strict) .start).bind (·.finish ident strict) := by
  rw [parseIdentString, if_neg (by simpa using hne),
    parseIdentLoop_of_cut strict (cut_of_pieces? h) rfl]

/-- Without the strict mode a qualified name is read as its parts. -/
theorem parseIdentString_of_qualifies (h : Qualifies ident parts) :
    parseIdentString ident false = .ok parts := by
  obtain ⟨components, hne, hvalid, rfl, rfl⟩ := h
  have hcut := cut_components hne hvalid
  obtain ⟨s', hfold, hs', hparts⟩ := foldlM_components hvalid (s := .start) rfl rfl
  have hnonempty : ".".intercalate (components.map IdentComponent.written) ≠ "" := by
    intro hempty
    rw [hempty] at hcut
    generalize hpieces : componentPieces components = pieces at hcut
    cases hcut
    cases components with
    | nil => exact hne rfl
    | cons c components => cases components <;> cases hpieces
  rw [parseIdentString_of_pieces hnonempty (pieces?_of_cut (by decide) hcut), hfold]
  change s'.finish _ false = _
  have hsome : s'.flush.parts.isEmpty = false := by
    rw [hparts]
    simpa [IdentScan.start] using hne
  rw [IdentScan.finish, if_neg (by simp [hs']), if_neg (by simp), if_neg (by simp [hsome]), hparts]
  rfl

/-- The name is written in quotes, and a quote in it twice. -/
def quotedName (name : String) : String :=
  String.ofList ('"' :: (doubled '"' name.toList ++ ['"']))

theorem parseIdentString_quotedNames {names : List String} (hne : names ≠ [])
    (hnames : ∀ name ∈ names, name ≠ "") :
    parseIdentString (".".intercalate (names.map quotedName)) false = .ok names := by
  refine parseIdentString_of_qualifies ⟨names.map .quoted, ?_, ?_, ?_, ?_⟩
  · exact fun h => hne (List.map_eq_nil_iff.mp h)
  · intro c hc
    obtain ⟨name, hname, rfl⟩ := List.mem_map.mp hc
    exact hnames name hname
  · rw [List.map_map]
    rfl
  · rw [List.map_map]
    exact (List.map_id _).symm

theorem parseIdentString_dottedName :
    parseIdentString (".".intercalate (["my.schema", "say \"hi\""].map quotedName)) false =
      .ok ["my.schema", "say \"hi\""] :=
  parseIdentString_quotedNames (by decide) (by decide)

end Reading

/-! ## The strict mode -/

section Strict
variable {ident : String} {parts : List String} {pieces : List Piece}

private theorem readPiece_of_strict {s s' : IdentScan} {piece : Piece}
    (h : readPiece true s piece = .ok s') : readPiece false s piece = .ok s' := by
  cases piece with
  | separator =>
    rw [readPiece] at h ⊢
    rw [if_neg (by simp)]
    split at h
    · cases h
    · exact h
  | run text => exact h
  | quoted text => exact h

private theorem foldlM_of_strict {s s' : IdentScan}
    (h : pieces.foldlM (readPiece true) s = .ok s') :
    pieces.foldlM (readPiece false) s = .ok s' := by
  induction pieces generalizing s with
  | nil => exact h
  | cons piece pieces ih =>
    rw [List.foldlM_cons] at h ⊢
    obtain ⟨s1, hread, hrest⟩ := bind_eq_ok.mp h
    exact bind_eq_ok.mpr ⟨s1, readPiece_of_strict hread, ih hrest⟩

private theorem finish_of_strict {s : IdentScan} (h : s.finish ident true = .ok parts) :
    s.finish ident false = .ok parts := by
  rw [IdentScan.finish] at h ⊢
  split at h
  · cases h
  · rename_i hclosed
    rw [if_neg hclosed, if_neg (by simp)]
    split at h
    · cases h
    · exact h

private theorem inQuotes_flush (s : IdentScan) : s.flush.inQuotes = s.inQuotes := by
  rw [IdentScan.flush]
  split <;> rfl

theorem currentPart_flush (s : IdentScan) : s.flush.currentPart = [] := by
  rw [IdentScan.flush]
  split
  · exact List.isEmpty_iff.mp ‹_›
  · rfl

private theorem inQuotes_readPiece {strict : Bool} {piece : Piece} {s s' : IdentScan}
    (hs : s.inQuotes = false) (h : readPiece strict s piece = .ok s') : s'.inQuotes = false := by
  cases piece with
  | separator =>
    rw [readPiece] at h
    split at h
    · cases h
    · cases h
      rw [inQuotes_flush, hs]
  | run text =>
    cases h
    exact hs
  | quoted text =>
    cases h
    exact inQuotes_flush _

/-- Every dot comes after a run, as the strict reader asks. -/
def DotsFollowRuns : List Piece → Prop :=
  List.IsChain fun a b => b = .separator → ∃ text, a = .run text

private theorem foldlM_strict_iff (hlegible : ∀ piece ∈ pieces, piece.Legible '"' '.')
    (s : IdentScan) :
    Succeeds (pieces.foldlM (readPiece true) s) ↔
      (s.currentPart = [] → pieces.head? ≠ some .separator) ∧ DotsFollowRuns pieces := by
  induction pieces generalizing s with
  | nil => exact iff_of_true (.ok s) ⟨fun _ => by rintro ⟨⟩, .nil⟩
  | cons piece pieces ih =>
    obtain ⟨hpiece, hrest⟩ := List.forall_mem_cons.mp hlegible
    rw [List.foldlM_cons, DotsFollowRuns, List.isChain_cons]
    cases piece with
    | separator =>
      rw [readPiece]
      split
      · rename_i hempty
        refine iff_of_false (Succeeds.not_error _) fun h => ?_
        exact h.1 (List.isEmpty_iff.mp hempty.1) rfl
      · rename_i hpart
        refine (ih hrest s.flush).trans ?_
        constructor
        · rintro ⟨hhead, hchain⟩
          refine ⟨fun hempty => absurd ⟨by rw [hempty]; rfl, rfl⟩ hpart, ?_, hchain⟩
          rintro b hb rfl
          exact absurd hb (hhead (currentPart_flush s))
        · rintro ⟨-, hnext, hchain⟩
          refine ⟨fun _ hhead => ?_, hchain⟩
          obtain ⟨_, ⟨⟩⟩ := hnext _ hhead rfl
    | run text =>
      refine (ih hrest _).trans ?_
      constructor
      · rintro ⟨-, hchain⟩
        exact ⟨fun _ => by rintro ⟨⟩, fun _ _ _ => ⟨text, rfl⟩, hchain⟩
      · rintro ⟨-, -, hchain⟩
        exact ⟨fun hempty => absurd (List.append_eq_nil_iff.mp hempty).2 hpiece.1, hchain⟩
    | quoted text =>
      refine (ih hrest _).trans ?_
      constructor
      · rintro ⟨hhead, hchain⟩
        refine ⟨fun _ => by rintro ⟨⟩, ?_, hchain⟩
        rintro b hb rfl
        exact absurd hb (hhead (currentPart_flush _))
      · rintro ⟨-, hnext, hchain⟩
        refine ⟨fun _ hhead => ?_, hchain⟩
        obtain ⟨_, ⟨⟩⟩ := hnext _ hhead rfl

/-- Some text has been read. -/
def IdentScan.HasText (s : IdentScan) : Prop := s.parts ≠ [] ∨ s.currentPart ≠ []

private theorem hasText_flush {s : IdentScan} : s.flush.HasText ↔ s.HasText := by
  rw [IdentScan.flush]
  split
  · rfl
  · rename_i hpart
    refine iff_of_true (.inl (List.append_ne_nil_of_right_ne_nil _ (List.cons_ne_nil _ _))) ?_
    exact .inr fun hempty => hpart (by rw [hempty]; rfl)

private theorem parts_flush_isEmpty {s : IdentScan} : s.flush.parts.isEmpty = false ↔ s.HasText := by
  rw [← hasText_flush, List.isEmpty_eq_false_iff, IdentScan.HasText, currentPart_flush]
  exact (or_iff_left (by simp)).symm

private theorem hasText_readPiece {piece : Piece} {s s' : IdentScan}
    (hlegible : piece.Legible '"' '.') (htext : s.HasText ∨ piece ≠ .quoted [])
    (h : readPiece true s piece = .ok s') : s'.HasText := by
  cases piece with
  | separator =>
    rw [readPiece] at h
    split at h
    · cases h
    · rename_i hpart
      cases h
      exact hasText_flush.mpr (.inr fun hempty => hpart ⟨by rw [hempty]; rfl, rfl⟩)
  | run text =>
    cases h
    exact .inr fun hempty => hlegible.1 (List.append_eq_nil_iff.mp hempty).2
  | quoted text =>
    cases h
    refine hasText_flush.mpr ?_
    rcases htext with (hparts | hpart) | htext
    · exact .inl hparts
    · exact .inr fun hempty => hpart (List.append_eq_nil_iff.mp hempty).1
    · exact .inr fun hempty => htext (by rw [(List.append_eq_nil_iff.mp hempty).2])

private theorem hasText_foldlM (hlegible : ∀ piece ∈ pieces, piece.Legible '"' '.')
    (hapart : QuotedApart pieces) {s' : IdentScan}
    (h : pieces.foldlM (readPiece true) .start = .ok s') :
    s'.HasText ↔ pieces ≠ [] ∧ pieces ≠ [.quoted []] := by
  have hkeep : ∀ {pieces : List Piece} {s : IdentScan},
      (∀ piece ∈ pieces, piece.Legible '"' '.') → s.HasText →
      pieces.foldlM (readPiece true) s = .ok s' → s'.HasText := fun hlegible =>
    foldlM_invariant fun piece hpiece _ _ htext => hasText_readPiece (hlegible piece hpiece) (.inl htext)
  cases pieces with
  | nil =>
    cases h
    exact iff_of_false (by rintro (h | h) <;> exact h rfl) fun h => h.1 rfl
  | cons piece rest =>
    obtain ⟨hpiece, hrest⟩ := List.forall_mem_cons.mp hlegible
    rw [List.foldlM_cons] at h
    obtain ⟨s1, hread, hfold⟩ := bind_eq_ok.mp h
    by_cases hquoted : piece = .quoted []
    · subst hquoted
      cases rest with
      | nil =>
        cases hread
        cases hfold
        exact iff_of_false (by rintro (h | h) <;> exact h rfl) fun h => h.2 rfl
      | cons next rest =>
        have hnext : next ≠ .quoted [] :=
          (List.isChain_cons_cons.mp hapart).1 _ _ rfl
        obtain ⟨hlegible', hrest⟩ := List.forall_mem_cons.mp hrest
        rw [List.foldlM_cons] at hfold
        obtain ⟨s2, hread', hfold⟩ := bind_eq_ok.mp hfold
        refine iff_of_true (hkeep hrest (hasText_readPiece hlegible' (.inr hnext) hread') hfold) ?_
        exact ⟨List.cons_ne_nil _ _, by simp⟩
    · refine iff_of_true (hkeep hrest (hasText_readPiece hpiece (.inr hquoted) hread) hfold) ?_
      exact ⟨List.cons_ne_nil _ _, fun heq => hquoted (List.cons.inj heq).1⟩

private theorem getLast?_written (hlegible : ∀ piece ∈ pieces, piece.Legible '"' '.') :
    (written '"' '.' pieces).getLast? = some '.' ↔ pieces.getLast? = some .separator := by
  rcases List.eq_nil_or_concat pieces with rfl | ⟨front, piece, rfl⟩
  · exact iff_of_false (by rintro ⟨⟩) (by rintro ⟨⟩)
  · rw [List.concat_eq_append, List.getLast?_concat, written, List.flatMap_append,
      List.flatMap_singleton, List.getLast?_append]
    have hpiece := hlegible piece (by simp)
    cases piece with
    | separator => exact iff_of_true rfl rfl
    | run text =>
      refine iff_of_false ?_ (by rintro ⟨⟩)
      rw [Piece.written, List.getLast?_eq_some_getLast hpiece.1]
      intro heq
      refine hpiece.2.2 ?_
      rw [← Option.some.inj heq]
      exact List.getLast_mem _
    | quoted text =>
      refine iff_of_false ?_ (by rintro ⟨⟩)
      rw [Piece.written, ← List.cons_append, List.getLast?_concat]
      change ¬ some '"' = some '.'
      decide

private theorem currentPart_foldlM {strict : Bool} {s s' : IdentScan}
    (hlast : pieces.getLast? = some .separator)
    (h : pieces.foldlM (readPiece strict) s = .ok s') : s'.currentPart = [] := by
  obtain ⟨front, rfl⟩ := List.getLast?_eq_some_iff.mp hlast
  rw [List.foldlM_append] at h
  obtain ⟨s1, -, hread⟩ := bind_eq_ok.mp h
  rw [List.foldlM_cons] at hread
  obtain ⟨s2, hread, hdone⟩ := bind_eq_ok.mp hread
  cases hdone
  rw [readPiece] at hread
  split at hread
  · cases hread
  · cases hread
    exact currentPart_flush s1

private theorem not_succeeds_of_unclosed (h : pieces? '"' '.' false ident.toList = none) :
    ¬ Succeeds (parseIdentString ident true) := by
  rintro ⟨parts, hparse⟩
  rw [parseIdentString] at hparse
  split at hparse
  · cases hparse
  · obtain ⟨s', hloop, hfinish⟩ := bind_eq_ok.mp hparse
    rw [IdentScan.finish, if_pos (inQuotes_of_unclosed true h rfl hloop)] at hfinish
    cases hfinish

/-- What the strict reader returns is what the other one returns. -/
theorem parseIdentString_of_strict (h : parseIdentString ident true = .ok parts) :
    parseIdentString ident false = .ok parts := by
  cases hpieces : pieces? '"' '.' false ident.toList with
  | none => exact absurd ⟨parts, h⟩ (not_succeeds_of_unclosed hpieces)
  | some pieces =>
    have hne : ident ≠ "" := by
      rintro rfl
      cases h
    rw [parseIdentString_of_pieces hne hpieces] at h ⊢
    obtain ⟨s', hfold, hfinish⟩ := bind_eq_ok.mp h
    exact bind_eq_ok.mpr ⟨s', foldlM_of_strict hfold, finish_of_strict hfinish⟩

/-- What the strict reader takes. -/
theorem strict_succeeds_iff (h : pieces? '"' '.' false ident.toList = some pieces) :
    Succeeds (parseIdentString ident true) ↔
      pieces ≠ [] ∧ pieces ≠ [.quoted []] ∧ pieces.head? ≠ some .separator ∧
      pieces.getLast? ≠ some .separator ∧ DotsFollowRuns pieces := by
  have hcut := cut_of_pieces? h
  have hlegible := hcut.legible
  by_cases hempty : ident = ""
  · subst hempty
    have hnil : pieces = [] := by
      have hdone : Cut '"' '.' false [] pieces := hcut
      cases hdone
      rfl
    refine iff_of_false ?_ fun h => h.1 hnil
    exact Succeeds.not_error _
  · rw [parseIdentString_of_pieces hempty h]
    refine Succeeds.bind.trans ?_
    have hwritten : (ident.toList.getLast? = some '.') ↔ pieces.getLast? = some .separator := by
      have htext : written '"' '.' pieces = ident.toList := hcut.written_eq
      rw [← htext]
      exact getLast?_written hlegible
    constructor
    · rintro ⟨s', hfold, hfinish⟩
      obtain ⟨hhead, hdots⟩ := (foldlM_strict_iff hlegible .start).mp ⟨s', hfold⟩
      rw [IdentScan.finish] at hfinish
      split at hfinish
      · exact absurd hfinish (Succeeds.not_error _)
      split at hfinish
      · exact absurd hfinish (Succeeds.not_error _)
      rename_i hlast
      split at hfinish
      · exact absurd hfinish (Succeeds.not_error _)
      rename_i hparts
      obtain ⟨hne, hquoted⟩ := (hasText_foldlM hlegible hcut.quotedApart hfold).mp
        (parts_flush_isEmpty.mp (Bool.eq_false_iff.mpr hparts))
      refine ⟨hne, hquoted, hhead rfl, fun hsep => hlast ⟨?_, hwritten.mpr hsep, rfl⟩, hdots⟩
      rw [currentPart_foldlM hsep hfold]
      rfl
    · rintro ⟨hne, hquoted, hhead, hlast, hdots⟩
      obtain ⟨s', hfold⟩ := (foldlM_strict_iff hlegible .start).mpr ⟨fun _ => hhead, hdots⟩
      have hclosed : s'.inQuotes = false :=
        foldlM_invariant (P := fun s => s.inQuotes = false)
          (fun _ _ _ _ => inQuotes_readPiece) rfl hfold
      have htext := parts_flush_isEmpty.mpr
        ((hasText_foldlM hlegible hcut.quotedApart hfold).mpr ⟨hne, hquoted⟩)
      refine ⟨s', hfold, s'.flush.parts, ?_⟩
      rw [IdentScan.finish, if_neg (by simp [hclosed]), if_neg, if_neg (by simp [htext])]
      exact fun hdot => hlast (hwritten.mp hdot.2.1)

end Strict

section Shape
variable {ident : String} {parts : List String} {pieces : List Piece}

/-- Components and the dots between them take turns, and no component is empty. -/
structure NameShape (pieces : List Piece) : Prop where
  nonempty : pieces ≠ []
  noEmptyQuotes : .quoted [] ∉ pieces
  head : pieces.head? ≠ some .separator
  last : pieces.getLast? ≠ some .separator
  alternate : pieces.IsChain fun a b => a = .separator ↔ b ≠ .separator

private theorem nameShape_single {piece : Piece} (hsep : piece ≠ .separator)
    (hquoted : piece ≠ .quoted []) : NameShape [piece] where
  nonempty := List.cons_ne_nil _ _
  noEmptyQuotes h := hquoted (List.mem_singleton.mp h).symm
  head h := hsep (Option.some.inj h)
  last h := hsep (Option.some.inj h)
  alternate := .singleton _

private theorem nameShape_cons {piece : Piece} (hsep : piece ≠ .separator) :
    NameShape (piece :: .separator :: pieces) ↔ piece ≠ .quoted [] ∧ NameShape pieces := by
  constructor
  · rintro ⟨-, hquoted, -, hlast, halternate⟩
    obtain ⟨-, hrest⟩ := List.isChain_cons_cons.mp halternate
    obtain ⟨hhead, hrest⟩ := List.isChain_cons.mp hrest
    rw [List.mem_cons, List.mem_cons, not_or, not_or] at hquoted
    cases pieces with
    | nil => exact absurd rfl hlast
    | cons next pieces =>
      rw [List.getLast?_cons_cons, List.getLast?_cons_cons] at hlast
      exact ⟨fun heq => hquoted.1 heq.symm, List.cons_ne_nil _ _, hquoted.2.2,
        fun heq => (hhead _ heq).mp rfl rfl, hlast, hrest⟩
  · rintro ⟨hpiece, hne, hquoted, hhead, hlast, halternate⟩
    refine ⟨List.cons_ne_nil _ _, ?_, fun heq => hsep (Option.some.inj heq), ?_, ?_⟩
    · rw [List.mem_cons, List.mem_cons, not_or, not_or]
      exact ⟨hpiece.symm, by rintro ⟨⟩, hquoted⟩
    · cases pieces with
      | nil => exact absurd rfl hne
      | cons next pieces =>
        rw [List.getLast?_cons_cons, List.getLast?_cons_cons]
        exact hlast
    · refine List.isChain_cons_cons.mpr ⟨by simp [hsep], List.isChain_cons.mpr ⟨?_, halternate⟩⟩
      exact fun b hb => iff_of_true rfl fun heq => hhead (heq ▸ hb)

theorem nameShape_components {components : List IdentComponent} (hne : components ≠ [])
    (hvalid : ∀ c ∈ components, c.Valid) : NameShape (componentPieces components) := by
  induction components with
  | nil => exact absurd rfl hne
  | cons c components ih =>
    obtain ⟨hc, hvalid⟩ := List.forall_mem_cons.mp hvalid
    have hpiece : c.piece ≠ .quoted [] := by
      cases c with
      | bare text => rintro ⟨⟩
      | quoted text => exact fun heq => hc (String.toList_eq_nil_iff.mp (Piece.quoted.inj heq))
    cases components with
    | nil => exact nameShape_single c.piece_ne_separator hpiece
    | cons d components =>
      exact (nameShape_cons c.piece_ne_separator).mpr ⟨hpiece, ih (List.cons_ne_nil _ _) hvalid⟩

private theorem exists_component {piece : Piece} (hlegible : piece.Legible '"' '.')
    (hsep : piece ≠ .separator) (hquoted : piece ≠ .quoted []) :
    ∃ c : IdentComponent, c.Valid ∧ c.piece = piece ∧
      c.written.toList = piece.written '"' '.' := by
  cases piece with
  | separator => exact absurd rfl hsep
  | run text =>
    obtain ⟨hne, hquote, hdot⟩ := hlegible
    refine ⟨.bare (String.ofList text), ⟨?_, ?_, ?_⟩, ?_, ?_⟩
    · exact fun hempty => hne (by rw [← String.toList_ofList (l := text), hempty]; rfl)
    · rw [String.toList_ofList]
      exact hquote
    · rw [String.toList_ofList]
      exact hdot
    · rw [IdentComponent.piece, String.toList_ofList]
    · rw [IdentComponent.written, String.toList_ofList, Piece.written]
  | quoted text =>
    refine ⟨.quoted (String.ofList text), ?_, ?_, ?_⟩
    · intro hempty
      refine hquoted ?_
      rw [← String.toList_ofList (l := text), hempty]
      rfl
    · rw [IdentComponent.piece, String.toList_ofList]
    · rw [IdentComponent.written, String.toList_ofList, Piece.written, String.toList_ofList]

private theorem exists_components {pieces : List Piece}
    (hlegible : ∀ piece ∈ pieces, piece.Legible '"' '.') (h : NameShape pieces) :
    ∃ components : List IdentComponent, components ≠ [] ∧ (∀ c ∈ components, c.Valid) ∧
      (".".intercalate (components.map IdentComponent.written)).toList =
        written '"' '.' pieces := by
  match pieces with
  | [] => exact absurd rfl h.nonempty
  | [piece] =>
    obtain ⟨c, hvalid, -, hwritten⟩ := exists_component (hlegible piece List.mem_cons_self)
      (fun heq => h.head (congrArg some heq)) fun heq => h.noEmptyQuotes (by simp [heq])
    refine ⟨[c], List.cons_ne_nil _ _, by simpa using hvalid, ?_⟩
    rw [List.map_singleton, String.intercalate_singleton, hwritten, written,
      List.flatMap_singleton]
  | piece :: next :: pieces =>
    have hsep : piece ≠ .separator := fun heq => h.head (congrArg some heq)
    have hnext : next = .separator := by
      by_contra hnext
      exact hsep ((List.isChain_cons_cons.mp h.alternate).1.mpr hnext)
    subst hnext
    obtain ⟨hquoted, hrest⟩ := (nameShape_cons hsep).mp h
    obtain ⟨hpiece, -, hlegible⟩ := by
      rw [List.forall_mem_cons, List.forall_mem_cons] at hlegible
      exact hlegible
    obtain ⟨c, hvalid, -, hwritten⟩ := exists_component hpiece hsep hquoted
    obtain ⟨components, hne, hcomponents, htail⟩ := exists_components hlegible hrest
    refine ⟨c :: components, List.cons_ne_nil _ _,
      List.forall_mem_cons.mpr ⟨hvalid, hcomponents⟩, ?_⟩
    rw [List.map_cons, String.intercalate_cons_of_ne_nil (by simpa using hne),
      String.toList_append, String.toList_append, htail, hwritten, List.append_assoc]
    rfl

/-- Which texts are qualified names. -/
theorem qualifies_iff (h : pieces? '"' '.' false ident.toList = some pieces) :
    (∃ parts, Qualifies ident parts) ↔ NameShape pieces := by
  constructor
  · rintro ⟨parts, components, hne, hvalid, rfl, rfl⟩
    have hcut := pieces?_of_cut (by decide) (cut_components hne hvalid)
    cases hcut.symm.trans h
    exact nameShape_components hne hvalid
  · intro hshape
    have hcut := cut_of_pieces? h
    obtain ⟨components, hne, hvalid, hwritten⟩ := exists_components hcut.legible hshape
    refine ⟨_, components, hne, hvalid, ?_, rfl⟩
    rw [← String.ofList_toList (s := ident), ← String.ofList_toList (s := ".".intercalate _)]
    rw [hwritten, hcut.written_eq]
    rfl

end Shape

/-! ## Where the strict reader and the grammar part -/

/-- A dot outside of quotes that does not stand between two texts. -/
def StrayDot (pieces : List Piece) : Prop :=
  pieces.head? = some .separator ∨ pieces.getLast? = some .separator ∨
    [.separator, .separator] <:+: pieces

/-- A quoted text right before a dot. -/
def QuotedBeforeDot (pieces : List Piece) : Prop :=
  ∃ text, [.quoted text, .separator] <:+: pieces

/-- A quoted text that is empty, or two texts without a dot between them. -/
def QuotedAstray (pieces : List Piece) : Prop :=
  .quoted [] ∈ pieces ∨ ∃ a b, a ≠ .separator ∧ b ≠ .separator ∧ [a, b] <:+: pieces

/-- A quote is left open, a dot is astray, there is nothing but a pair of quotes, or a quoted text
stands before a dot exactly if one is astray. -/
def StrictlyGrammatical (ident : String) : Prop :=
  ∀ pieces, pieces? '"' '.' false ident.toList = some pieces →
    StrayDot pieces ∨ pieces = [.quoted []] ∨ (QuotedBeforeDot pieces ↔ QuotedAstray pieces)

section Agreement
variable {pieces : List Piece}

private theorem isChain_iff_infix {R : Piece → Piece → Prop} :
    pieces.IsChain R ↔ ∀ a b, [a, b] <:+: pieces → R a b := by
  constructor
  · rintro h a b ⟨front, back, heq⟩
    rw [← heq, List.append_assoc] at h
    exact (List.isChain_append_cons_cons.mp h).2.1
  · exact fun h => (List.isChain_isInfix pieces).imp h

private theorem dotsFollowRuns_iff :
    DotsFollowRuns pieces ↔
      ¬ [.separator, .separator] <:+: pieces ∧ ¬ QuotedBeforeDot pieces := by
  refine isChain_iff_infix.trans ⟨fun h => ⟨fun hdots => ?_, ?_⟩, ?_⟩
  · obtain ⟨_, ⟨⟩⟩ := h _ _ hdots rfl
  · rintro ⟨text, hquoted⟩
    obtain ⟨_, ⟨⟩⟩ := h _ _ hquoted rfl
  · rintro ⟨hdots, hquoted⟩ a _ hab rfl
    cases a with
    | separator => exact absurd hab hdots
    | run text => exact ⟨text, rfl⟩
    | quoted text => exact absurd ⟨text, hab⟩ hquoted

private theorem nameShape_iff :
    NameShape pieces ↔ pieces ≠ [] ∧ ¬ StrayDot pieces ∧ ¬ QuotedAstray pieces := by
  constructor
  · rintro ⟨hne, hquoted, hhead, hlast, halternate⟩
    have hpair := isChain_iff_infix.mp halternate
    refine ⟨hne, ?_, ?_⟩
    · rintro (h | h | h)
      · exact hhead h
      · exact hlast h
      · exact (hpair _ _ h).mp rfl rfl
    · rintro (h | ⟨a, b, ha, hb, h⟩)
      · exact hquoted h
      · exact ha ((hpair _ _ h).mpr hb)
  · rintro ⟨hne, hdots, hquoted⟩
    refine ⟨hne, fun h => hquoted (.inl h), fun h => hdots (.inl h),
      fun h => hdots (.inr (.inl h)), isChain_iff_infix.mpr fun a b hab => ⟨?_, ?_⟩⟩
    · rintro rfl rfl
      exact hdots (.inr (.inr hab))
    · intro hb
      by_contra ha
      exact hquoted (.inr ⟨a, b, ha, hb, hab⟩)

private theorem strictlyGrammatical_iff {ident : String} :
    StrictlyGrammatical ident ↔
      (Succeeds (parseIdentString ident true) ↔ ∃ parts, Qualifies ident parts) := by
  rw [StrictlyGrammatical]
  cases hpieces : pieces? '"' '.' false ident.toList with
  | none =>
    refine iff_of_true (by rintro _ ⟨⟩) (iff_of_false ?_ ?_)
    · exact not_succeeds_of_unclosed hpieces
    · rintro ⟨parts, components, hne, hvalid, rfl, -⟩
      cases hpieces.symm.trans (pieces?_of_cut (by decide) (cut_components hne hvalid))
  | some pieces =>
    rw [strict_succeeds_iff hpieces, qualifies_iff hpieces, nameShape_iff, dotsFollowRuns_iff]
    have hstray : StrayDot pieces ↔ pieces.head? = some .separator ∨
        pieces.getLast? = some .separator ∨ [.separator, .separator] <:+: pieces := Iff.rfl
    have hnil : pieces = [] → ¬ QuotedBeforeDot pieces ∧ ¬ QuotedAstray pieces := by
      rintro rfl
      refine ⟨?_, ?_⟩
      · rintro ⟨_, h⟩
        cases List.infix_nil.mp h
      · rintro (h | ⟨_, _, -, -, h⟩)
        · cases h
        · cases List.infix_nil.mp h
    have hquotes : pieces = [.quoted []] → QuotedAstray pieces := by
      rintro rfl
      exact .inl List.mem_cons_self
    have hdots : (¬ pieces.head? = some .separator ∧ ¬ pieces.getLast? = some .separator ∧
        ¬ [.separator, .separator] <:+: pieces ∧ ¬ QuotedBeforeDot pieces) ↔
        ¬ StrayDot pieces ∧ ¬ QuotedBeforeDot pieces := by
      rw [hstray, not_or, not_or, and_assoc, and_assoc]
    have hall : (∀ pieces', some pieces = some pieces' → StrayDot pieces' ∨
        pieces' = [.quoted []] ∨ (QuotedBeforeDot pieces' ↔ QuotedAstray pieces')) ↔
        StrayDot pieces ∨ pieces = [.quoted []] ∨
          (QuotedBeforeDot pieces ↔ QuotedAstray pieces) := by
      simp
    rw [hall, hdots]
    by_cases hdot : StrayDot pieces
    · exact iff_of_true (.inl hdot) (iff_of_false (fun h => h.2.2.1 hdot) fun h => h.2.1 hdot)
    by_cases hempty : pieces = []
    · obtain ⟨hbefore, hastray⟩ := hnil hempty
      exact iff_of_true (.inr (.inr (iff_of_false hbefore hastray)))
        (iff_of_false (fun h => h.1 hempty) fun h => h.1 hempty)
    by_cases hpair : pieces = [.quoted []]
    · exact iff_of_true (.inr (.inl hpair))
        (iff_of_false (fun h => h.2.1 hpair) fun h => h.2.2 (hquotes hpair))
    simp only [hdot, hempty, hpair, false_or, ne_eq, not_false_eq_true, true_and]
    exact not_iff_not.symm

end Agreement

/-- On which texts the strict reader accepts what the grammar does, with the same parts. -/
theorem parseIdentString_strict_iff (ident : String) :
    (∀ parts, parseIdentString ident true = .ok parts ↔ Qualifies ident parts) ↔
      StrictlyGrammatical ident := by
  rw [strictlyGrammatical_iff]
  constructor
  · exact fun h => exists_congr h
  · intro hsame parts
    constructor
    · intro hparse
      obtain ⟨parts', hname⟩ := hsame.mp ⟨parts, hparse⟩
      cases (parseIdentString_of_strict hparse).symm.trans (parseIdentString_of_qualifies hname)
      exact hname
    · intro hname
      obtain ⟨parts', hparse⟩ := hsame.mpr ⟨parts, hname⟩
      cases (parseIdentString_of_strict hparse).symm.trans (parseIdentString_of_qualifies hname)
      exact hparse

/-- A quoted schema before a dot is refused, and text that touches a quoted one is taken. -/
theorem quotedSchema_refused :
    (¬ ∀ parts, parseIdentString "\"schema\".\"table\"" true = .ok parts ↔
      Qualifies "\"schema\".\"table\"" parts) ∧
    ¬ ∀ parts, parseIdentString "my\"table\"" true = .ok parts ↔
      Qualifies "my\"table\"" parts := by
  refine ⟨fun h => ?_, fun h => ?_⟩
  · have hname : Qualifies "\"schema\".\"table\"" ["schema", "table"] :=
      ⟨[.quoted "schema", .quoted "table"], List.cons_ne_nil _ _, by decide +kernel,
        by decide +kernel, rfl⟩
    have hrefused : parseIdentString "\"schema\".\"table\"" true =
        .error "empty identifier part" := by decide +kernel
    cases hrefused.symm.trans ((h _).mpr hname)
  · have htaken : parseIdentString "my\"table\"" true = .ok ["mytable"] := by decide +kernel
    have hpieces : pieces? '"' '.' false "my\"table\"".toList =
        some [.run "my".toList, .quoted "table".toList] := by decide +kernel
    have hshape := (qualifies_iff hpieces).mp ⟨_, (h _).mp htaken⟩
    have hpair := (List.isChain_cons_cons.mp hshape.alternate).1
    cases hpair.mpr (by rintro ⟨⟩)

end DatafusionPostgres.PgCatalog

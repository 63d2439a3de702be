import DatafusionPostgres.PgCatalog.ParseIdent
import DatafusionPostgres.PgCatalog.QuoteIdent

/-! `parse_ident` on what `quote_ident` writes: the names that come back, with dots between
them, and those that do not. -/
namespace DatafusionPostgres.PgCatalog
open Library

/-- The text read so far, without the borders between its parts. -/
def IdentScan.content (s : IdentScan) : List Char :=
  s.parts.flatMap String.toList ++ s.currentPart

section Reading
variable {strict : Bool} {ident : String} {parts : List String} {pieces : List Piece}

private theorem content_flush (s : IdentScan) : s.flush.content = s.content := by
  rw [IdentScan.flush]
  split
  · rfl
  · rw [IdentScan.content, IdentScan.content, List.flatMap_append, List.flatMap_singleton,
      String.toList_ofList, List.append_nil]

private theorem content_readPiece {s s' : IdentScan} {piece : Piece}
    (h : readPiece strict s piece = .ok s') : s'.content = s.content ++ piece.content := by
  cases piece with
  | separator =>
    rw [readPiece] at h
    split at h
    · cases h
    · cases h
      rw [content_flush]
      exact (List.append_nil _).symm
  | run text =>
    cases h
    exact (List.append_assoc _ _ _).symm
  | quoted text =>
    cases h
    rw [content_flush]
    exact (List.append_assoc _ _ _).symm

private theorem content_foldlM {s s' : IdentScan}
    (h : pieces.foldlM (readPiece strict) s = .ok s') :
    s'.content = s.content ++ content pieces := by
  induction pieces generalizing s with
  | nil =>
    cases h
    exact (List.append_nil _).symm
  | cons piece pieces ih =>
    rw [List.foldlM_cons] at h
    obtain ⟨s1, hread, hrest⟩ := bind_eq_ok.mp h
    rw [ih hrest, content_readPiece hread, List.append_assoc]
    rfl

private theorem parts_flush {s : IdentScan} (h : ∀ part ∈ s.parts, part ≠ "") :
    ∀ part ∈ s.flush.parts, part ≠ "" := by
  rw [IdentScan.flush]
  split
  · exact h
  · rename_i hpart
    intro part hmem
    rcases List.mem_append.mp hmem with hmem | hmem
    · exact h part hmem
    · rw [List.mem_singleton.mp hmem]
      intro hempty
      exact hpart (List.isEmpty_iff.mpr (String.ofList_eq_empty_iff.mp hempty))

private theorem parts_readPiece {s s' : IdentScan} {piece : Piece}
    (hparts : ∀ part ∈ s.parts, part ≠ "") (h : readPiece strict s piece = .ok s') :
    ∀ part ∈ s'.parts, part ≠ "" := by
  cases piece with
  | separator =>
    rw [readPiece] at h
    split at h
    · cases h
    · cases h
      exact parts_flush hparts
  | run text =>
    cases h
    exact hparts
  | quoted text =>
    cases h
    exact parts_flush hparts

private theorem parts_of_finish {s : IdentScan} (h : s.finish ident strict = .ok parts) :
    parts = s.flush.parts := by
  rw [IdentScan.finish] at h
  split at h
  · cases h
  split at h
  · cases h
  split at h
  · cases h
  · exact (Except.ok.inj h).symm

/-- The parts are never empty, and together they hold what the pieces of the text hold. -/
theorem parts_of_parse (hpieces : pieces? '"' '.' false ident.toList = some pieces)
    (h : parseIdentString ident strict = .ok parts) :
    (∀ part ∈ parts, part ≠ "") ∧ parts.flatMap String.toList = content pieces := by
  have hne : ident ≠ "" := by
    rintro rfl
    cases h
  rw [parseIdentString_of_pieces hne hpieces] at h
  obtain ⟨s, hfold, hfinish⟩ := bind_eq_ok.mp h
  rw [parts_of_finish hfinish]
  constructor
  · have hnone : ∀ part ∈ IdentScan.start.parts, part ≠ "" :=
      fun part hmem => absurd hmem List.not_mem_nil
    exact parts_flush (foldlM_invariant (P := fun s => ∀ part ∈ s.parts, part ≠ "")
      (fun _ _ _ _ => parts_readPiece) hnone hfold)
  · have hcontent := content_foldlM hfold
    rw [← content_flush, IdentScan.content, currentPart_flush, List.append_nil] at hcontent
    exact hcontent

end Reading

section Names
variable (tables : CharTables) {name : String} {names : List String}

/-- The component of a qualified name that `quote_ident` writes. -/
def nameComponent (name : String) : IdentComponent :=
  if needsQuoting tables name then .quoted name else .bare name

theorem text_nameComponent (name : String) : (nameComponent tables name).text = name := by
  rw [nameComponent]
  split <;> rfl

theorem written_nameComponent (h : startsAndEndsQuoted name = false) :
    (nameComponent tables name).written = quoteIdent tables name := by
  rw [quoteIdent, if_neg (by rw [h]; exact Bool.false_ne_true), nameComponent]
  split <;> rfl

private theorem legible_plain (hne : name ≠ "") (h : needsQuoting tables name = false) :
    '"' ∉ name.toList ∧ '.' ∉ name.toList := by
  obtain ⟨first, rest, hname⟩ :=
    List.exists_cons_of_ne_nil fun hnil => hne (String.toList_eq_nil_iff.mp hnil)
  obtain ⟨-, hstart, hrest⟩ := identifier_of_plain tables hname h
  have hpart : ∀ c ∈ name.toList, identPart c := by
    rw [hname]
    refine List.forall_mem_cons.mpr ⟨?_, List.all_eq_true.mp hrest⟩
    rw [identPart, hstart]
    rfl
  exact ⟨fun hmem => absurd (hpart _ hmem) (by decide),
    fun hmem => absurd (hpart _ hmem) (by decide)⟩

theorem valid_nameComponent (hne : name ≠ "") : (nameComponent tables name).Valid := by
  rw [nameComponent]
  split
  · exact hne
  · rename_i hplain
    exact ⟨hne, legible_plain tables hne (Bool.eq_false_iff.mpr hplain)⟩

private theorem exists_cut_quoteIdent (name : String) :
    ∃ pieces, Cut '"' '.' false (quoteIdent tables name).toList pieces ∧
      (doubled '"' (content pieces)).length ≤ (doubled '"' name.toList).length ∧
      (startsAndEndsQuoted name →
        (doubled '"' (content pieces)).length < (doubled '"' name.toList).length) := by
  cases hquoted : startsAndEndsQuoted name with
  | true =>
    obtain ⟨pieces, hcut⟩ : ∃ pieces, Cut '"' '.' false (doubled '"' name.toList) pieces :=
      (exists_cut_doubled name.toList).1
    have hwritten : (quoteIdent tables name).toList = doubled '"' name.toList := by
      rw [quoteIdent, if_pos hquoted, String.toList_ofList]
    refine ⟨pieces, hwritten ▸ hcut, hcut.length_content, fun _ => ?_⟩
    rw [startsAndEndsQuoted, Bool.and_eq_true] at hquoted
    obtain ⟨rest, hname⟩ := List.head?_eq_some_iff.mp (of_decide_eq_true hquoted.1)
    refine hcut.length_content_lt (by decide) ?_
    rw [hname, doubled_cons_quote]
    rfl
  | false =>
    rw [quoteIdent, if_neg (by rw [hquoted]; exact Bool.false_ne_true)]
    cases hneeds : needsQuoting tables name with
    | true =>
      refine ⟨[.quoted name.toList], ?_, ?_, fun h => absurd h Bool.false_ne_true⟩
      · rw [if_pos rfl, String.toList_ofList]
        exact .opening (Cut.cons_quoted (by rintro ⟨⟩) .done)
      · rw [content, List.flatMap_singleton]
        exact Nat.le_refl _
    | false =>
      have hne : name ≠ "" := by
        rintro rfl
        cases hneeds
      have hlegible : (Piece.run name.toList).Legible '"' '.' :=
        ⟨fun hnil => hne (String.toList_eq_nil_iff.mp hnil), legible_plain tables hne hneeds⟩
      refine ⟨[.run name.toList], ?_, ?_, fun h => absurd h Bool.false_ne_true⟩
      · rw [if_neg Bool.false_ne_true]
        have hcut := Cut.cons_run hlegible (by rintro _ ⟨⟩) .done
        rwa [List.append_nil] at hcut
      · rw [content, List.flatMap_singleton]
        exact Nat.le_refl _

private theorem exists_cut_names (hne : names ≠ []) :
    ∃ pieces, Cut '"' '.' false (".".intercalate (names.map (quoteIdent tables))).toList pieces ∧
      (doubled '"' (content pieces)).length ≤
        (doubled '"' (names.flatMap String.toList)).length ∧
      ((∃ name ∈ names, startsAndEndsQuoted name) → (doubled '"' (content pieces)).length <
        (doubled '"' (names.flatMap String.toList)).length) := by
  induction names with
  | nil => exact absurd rfl hne
  | cons name names ih =>
    obtain ⟨pieces, hcut, hle, hlt⟩ := exists_cut_quoteIdent tables name
    cases names with
    | nil =>
      rw [List.map_singleton, String.intercalate_singleton, List.flatMap_singleton]
      refine ⟨pieces, hcut, hle, ?_⟩
      rintro ⟨name', hmem, hquoted⟩
      rw [List.mem_singleton.mp hmem] at hquoted
      exact hlt hquoted
    | cons next names =>
      obtain ⟨pieces', hcut', hle', hlt'⟩ := ih (List.cons_ne_nil _ _)
      have hcontent :
          content (pieces ++ .separator :: pieces') = content pieces ++ content pieces' :=
        List.flatMap_append
      rw [List.map_cons, List.map_cons, String.intercalate_cons_cons, ← List.map_cons,
        String.append_assoc, String.toList_append, String.toList_append]
      refine ⟨_, hcut.append (by decide) hcut', ?_⟩
      rw [hcontent, List.flatMap_cons, doubled_append, doubled_append, List.length_append,
        List.length_append]
      refine ⟨Nat.add_le_add hle hle', ?_⟩
      rintro ⟨name', hmem, hquoted⟩
      rcases List.mem_cons.mp hmem with rfl | hmem
      · exact Nat.add_lt_add_of_lt_of_le (hlt hquoted) hle'
      · exact Nat.add_lt_add_of_le_of_lt hle (hlt' ⟨name', hmem, hquoted⟩)

private theorem qualifies_names (hne : names ≠ [])
    (hnames : ∀ name ∈ names, name ≠ "" ∧ startsAndEndsQuoted name = false) :
    (∀ c ∈ names.map (nameComponent tables), c.Valid) ∧
      ".".intercalate (names.map (quoteIdent tables)) =
        ".".intercalate ((names.map (nameComponent tables)).map IdentComponent.written) ∧
      Qualifies (".".intercalate (names.map (quoteIdent tables))) names := by
  have hvalid : ∀ c ∈ names.map (nameComponent tables), c.Valid := by
    intro c hc
    obtain ⟨name, hname, rfl⟩ := List.mem_map.mp hc
    exact valid_nameComponent tables (hnames name hname).1
  have hwritten : names.map (quoteIdent tables) =
      (names.map (nameComponent tables)).map IdentComponent.written := by
    rw [List.map_map]
    exact List.map_congr_left fun name hname =>
      (written_nameComponent tables (hnames name hname).2).symm
  refine ⟨hvalid, congrArg _ hwritten, names.map (nameComponent tables), ?_, hvalid,
    congrArg _ hwritten, ?_⟩
  · exact fun h => hne (List.map_eq_nil_iff.mp h)
  · rw [List.map_map]
    exact ((List.map_congr_left fun name _ => text_nameComponent tables name).trans
      (List.map_id _)).symm

end Names

section Strict

private theorem dotsFollowRuns_components (components : List IdentComponent) :
    DotsFollowRuns (componentPieces components) ↔
      ∀ c ∈ components.dropLast, ∃ text, c = .bare text := by
  induction components with
  | nil => exact iff_of_true .nil fun c hc => absurd hc List.not_mem_nil
  | cons c components ih =>
    cases components with
    | nil => exact iff_of_true (.singleton _) fun c hc => absurd hc List.not_mem_nil
    | cons d components =>
      have hpieces : componentPieces (c :: d :: components) =
          c.piece :: .separator :: componentPieces (d :: components) := rfl
      have hrun : (∃ text, c.piece = .run text) ↔ ∃ text, c = .bare text := by
        cases c with
        | bare text => exact iff_of_true ⟨_, rfl⟩ ⟨_, rfl⟩
        | quoted text => exact iff_of_false (by rintro ⟨_, ⟨⟩⟩) (by rintro ⟨_, ⟨⟩⟩)
      have hhead : ∀ b ∈ (componentPieces (d :: components)).head?, b ≠ .separator := by
        intro b hb
        cases components with
        | nil =>
          obtain rfl : d.piece = b := Option.some.inj hb
          exact d.piece_ne_separator
        | cons e components =>
          obtain rfl : d.piece = b := Option.some.inj hb
          exact d.piece_ne_separator
      rw [hpieces, DotsFollowRuns, List.isChain_cons_cons, List.isChain_cons,
        List.dropLast_cons_cons,
        List.forall_mem_cons, ← ih, ← hrun]
      constructor
      · rintro ⟨hfirst, -, hrest⟩
        exact ⟨hfirst rfl, hrest⟩
      · rintro ⟨hfirst, hrest⟩
        exact ⟨fun _ => hfirst, fun b hb hsep => absurd hsep (hhead b hb), hrest⟩

variable (tables : CharTables) {names : List String}

private theorem dotsFollowRuns_names :
    DotsFollowRuns (componentPieces (names.map (nameComponent tables))) ↔
      ∀ name ∈ names.dropLast, needsQuoting tables name = false := by
  rw [dotsFollowRuns_components, ← List.map_dropLast]
  constructor
  · intro h name hname
    obtain ⟨text, hbare⟩ := h _ (List.mem_map_of_mem hname)
    rw [nameComponent] at hbare
    split at hbare
    · cases hbare
    · exact Bool.eq_false_iff.mpr ‹_›
  · intro h c hc
    obtain ⟨name, hname, rfl⟩ := List.mem_map.mp hc
    rw [nameComponent, h name hname]
    exact ⟨name, rfl⟩

private theorem strict_names_iff (hne : names ≠ [])
    (hnames : ∀ name ∈ names, name ≠ "" ∧ startsAndEndsQuoted name = false) :
    Succeeds (parseIdentString (".".intercalate (names.map (quoteIdent tables))) true) ↔
      ∀ name ∈ names.dropLast, needsQuoting tables name = false := by
  obtain ⟨hvalid, hwritten, -⟩ := qualifies_names tables hne hnames
  have hcomponents : names.map (nameComponent tables) ≠ [] :=
    fun h => hne (List.map_eq_nil_iff.mp h)
  have hpieces := pieces?_of_cut (by decide) (cut_components hcomponents hvalid)
  have hshape := nameShape_components hcomponents hvalid
  rw [hwritten, strict_succeeds_iff hpieces, dotsFollowRuns_names]
  constructor
  · exact fun h => h.2.2.2.2
  · refine fun h => ⟨hshape.nonempty, fun hquoted => hshape.noEmptyQuotes ?_, hshape.head,
      hshape.last, h⟩
    rw [hquoted]
    exact List.mem_singleton_self _

end Strict

/-- Names that `quote_ident` writes come back from `parse_ident` unless one of them is empty or
has quotes at both ends; and from the strict one if it quoted none before the last. -/
theorem parseIdentString_quoteIdent_iff (tables : CharTables) (names : List String)
    (strict : Bool) :
    parseIdentString (".".intercalate (names.map (quoteIdent tables))) strict = .ok names ↔
      names ≠ [] ∧ (∀ name ∈ names, name ≠ "" ∧ startsAndEndsQuoted name = false) ∧
      (strict = true → ∀ name ∈ names.dropLast, needsQuoting tables name = false) := by
  constructor
  · intro h
    have hne : names ≠ [] := by
      rintro rfl
      cases h
    obtain ⟨pieces, hcut, -, hless⟩ := exists_cut_names tables hne
    obtain ⟨hparts, hcontent⟩ := parts_of_parse (pieces?_of_cut (by decide) hcut) h
    have hnames : ∀ name ∈ names, name ≠ "" ∧ startsAndEndsQuoted name = false := by
      refine fun name hname => ⟨hparts name hname, Bool.eq_false_iff.mpr fun hquoted => ?_⟩
      have hlt := hless ⟨name, hname, hquoted⟩
      rw [hcontent] at hlt
      exact Nat.lt_irrefl _ hlt
    refine ⟨hne, hnames, ?_⟩
    rintro rfl
    exact (strict_names_iff tables hne hnames).mp ⟨names, h⟩
  · rintro ⟨hne, hnames, hstrict⟩
    have hread := parseIdentString_of_qualifies (qualifies_names tables hne hnames).2.2
    cases strict with
    | false => exact hread
    | true =>
      obtain ⟨parts, hparts⟩ := (strict_names_iff tables hne hnames).mpr (hstrict rfl)
      have hsame := (parseIdentString_of_strict hparts).symm.trans hread
      rw [hparts, hsame]

end DatafusionPostgres.PgCatalog

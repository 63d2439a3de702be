import DatafusionPostgres.Sql.Blacklist

/-! Blacklisted patterns in a batch of statements: a match may begin in one and end in another. -/
namespace DatafusionPostgres.Sql
open DatafusionPostgres.Library

/-- The patterns and replacements of the parser, from which the constructor drops the semicolons. -/
structure Blacklist where
  entries : List (List Token × List Token)
  semiColon_notMem : ∀ entry ∈ entries, .semiColon ∉ entry.1 ∧ .semiColon ∉ entry.2

def Token.comparable : Token → Bool
  | .whitespace _ => false
  | .semiColon => false
  | _ => true

/-- The blacklist that `new` builds from the tokens of the mapping. -/
def Blacklist.new (mapping : List (List Token × List Token)) : Blacklist where
  entries := mapping.map fun (sqlFrom, sqlTo) =>
    (sqlFrom.filter Token.comparable, sqlTo.filter Token.comparable)
  semiColon_notMem := by
    intro entry hentry
    obtain ⟨_, _, rfl⟩ := List.mem_map.mp hentry
    exact ⟨fun h => absurd (List.mem_filter.mp h).2 (by decide),
      fun h => absurd (List.mem_filter.mp h).2 (by decide)⟩

def joinStatements (batch : List (List Token)) : List Token := [.semiColon].intercalate batch

/-- The pattern begins with the whole of the tokens and goes on in the statements that follow. -/
def Crosses (pattern tokens following : List Token) : Prop :=
  ∃ head tail, pattern = head ++ tail ∧ tail ≠ [] ∧ List.Forall₂ Token.Fits head tokens ∧
    Begins Token.Fits tail (following.filter (· ≠ .semiColon))

/-- No pattern before one that crosses begins in the tokens. -/
def CrossedFirst (entries : List (List Token × List Token)) (tokens following : List Token) : Prop :=
  ∃ earlier entry later, entries = earlier ++ entry :: later ∧
    NoneBegins Token.Fits earlier tokens ∧ Crosses entry.1 tokens following

/-- The replacement in the statement comes to tokens from which a pattern crosses. -/
def RunsOn (entries : List (List Token × List Token)) (statement following : List Token) : Prop :=
  ∃ tokens, tokens ≠ [] ∧ Scanned Token.Fits entries statement tokens ∧
    CrossedFirst entries tokens following

namespace PostgresCompatibilityParser

theorem consume_append {pattern tokens rest following : List Token}
    (h : consume pattern tokens = some rest) :
    consume pattern (tokens ++ following) = some (rest ++ following) := by
  fun_induction consume pattern tokens with
  | case1 tokens =>
    cases h
    rw [consume]
  | case2 => cases h
  | case3 p pattern tokens ih => rw [List.cons_append, consume, if_pos rfl, ih h]
  | case4 p pattern token tokens hsemi hfits ih =>
    rw [List.cons_append, consume, if_neg hsemi, if_pos hfits, ih h]
  | case5 => cases h

theorem consume_isSome_iff {pattern tokens : List Token} :
    (∃ rest, consume pattern tokens = some rest) ↔
      Begins Token.Fits pattern (tokens.filter (· ≠ .semiColon)) := by
  fun_induction consume pattern tokens with
  | case1 tokens => exact iff_of_true ⟨tokens, rfl⟩ ⟨[], _, .nil, rfl⟩
  | case2 p pattern =>
    refine iff_of_false ?_ (not_begins_nil (List.cons_ne_nil _ _))
    rintro ⟨rest, h⟩
    cases h
  | case3 p pattern tokens ih => rw [ih, List.filter_cons_of_neg (by decide)]
  | case4 p pattern token tokens hsemi hfit ih =>
    rw [ih, List.filter_cons_of_pos (by simpa using hsemi), begins_cons, and_iff_right hfit]
  | case5 p pattern token tokens hsemi hfit =>
    rw [List.filter_cons_of_pos (by simpa using hsemi), begins_cons]
    refine iff_of_false ?_ fun h => hfit h.1
    rintro ⟨rest, h⟩
    cases h

/-- A pattern that does not end in the tokens ends after them exactly if it crosses. -/
theorem consume_crossing {pattern tokens : List Token} (following : List Token)
    (hsemi : .semiColon ∉ tokens) (hnone : consume pattern tokens = none) :
    (∀ rest, consume pattern (tokens ++ .semiColon :: following) = some rest →
        rest <:+ following ∧ Crosses pattern tokens following) ∧
      (Crosses pattern tokens following →
        ∃ rest, consume pattern (tokens ++ .semiColon :: following) = some rest) := by
  fun_induction consume pattern tokens with
  | case1 => cases hnone
  | case2 p pattern =>
    rw [List.nil_append, consume, if_pos rfl]
    constructor
    · intro rest h
      exact ⟨(consume_suffix h).1, [], p :: pattern, rfl, List.cons_ne_nil _ _, .nil,
        consume_isSome_iff.mp ⟨rest, h⟩⟩
    · rintro ⟨head, tail, heq, _, hhead, htail⟩
      cases hhead
      exact consume_isSome_iff.mpr (heq ▸ htail)
  | case3 p pattern tokens ih => exact absurd List.mem_cons_self hsemi
  | case4 p pattern token tokens hne hfit ih =>
    rw [List.cons_append, consume, if_neg hne, if_pos hfit]
    obtain ⟨hsome, hcross⟩ := ih (fun h => hsemi (List.mem_cons_of_mem _ h)) hnone
    constructor
    · intro rest h
      obtain ⟨hsuffix, head, tail, rfl, htail, hhead, hbegins⟩ := hsome rest h
      exact ⟨hsuffix, p :: head, tail, rfl, htail, .cons hfit hhead, hbegins⟩
    · rintro ⟨head, tail, heq, htail, hhead, hbegins⟩
      cases hhead with
      | cons _ hhead =>
        obtain ⟨_, rfl⟩ := List.cons.inj heq
        exact hcross ⟨_, tail, rfl, htail, hhead, hbegins⟩
  | case5 p pattern token tokens hne hfit =>
    rw [List.cons_append, consume, if_neg hne, if_neg hfit]
    constructor
    · intro rest h
      cases h
    · rintro ⟨head, tail, heq, htail, hhead, hbegins⟩
      cases hhead with
      | cons hfit' _ =>
        obtain ⟨rfl, _⟩ := List.cons.inj heq
        exact absurd hfit' hfit

section Batches
variable {entries : List (List Token × List Token)} {tokens following : List Token}

theorem not_crossedFirst_nil : ¬ CrossedFirst [] tokens following := by
  rintro ⟨earlier, _, _, heq, _⟩
  cases earlier <;> cases heq

theorem crossedFirst_cons {entry : List Token × List Token}
    (hfirst : entry.1 ≠ [] → ¬ Begins Token.Fits entry.1 tokens)
    (hcross : ¬ Crosses entry.1 tokens following) :
    CrossedFirst (entry :: entries) tokens following ↔ CrossedFirst entries tokens following := by
  constructor
  · rintro ⟨earlier, crossing, later, heq, hearlier, hcrossing⟩
    cases earlier with
    | nil =>
      obtain ⟨rfl, rfl⟩ := List.cons.inj heq
      exact absurd hcrossing hcross
    | cons _ earlier =>
      obtain ⟨rfl, rfl⟩ := List.cons.inj heq
      exact ⟨earlier, crossing, later, rfl, (noneBegins_cons.mp hearlier).2, hcrossing⟩
  · rintro ⟨earlier, crossing, later, rfl, hearlier, hcrossing⟩
    exact ⟨entry :: earlier, crossing, later, rfl, noneBegins_cons.mpr ⟨hfirst, hearlier⟩,
      hcrossing⟩

theorem not_crossedFirst_cons {entry : List Token × List Token} (hne : entry.1 ≠ [])
    (hbegins : Begins Token.Fits entry.1 tokens) (hcross : ¬ Crosses entry.1 tokens following) :
    ¬ CrossedFirst (entry :: entries) tokens following := by
  rintro ⟨earlier, crossing, later, heq, hearlier, hcrossing⟩
  cases earlier with
  | nil =>
    obtain ⟨rfl, rfl⟩ := List.cons.inj heq
    exact hcross hcrossing
  | cons _ earlier =>
    obtain ⟨rfl, rfl⟩ := List.cons.inj heq
    exact (noneBegins_cons.mp hearlier).1 hne hbegins

theorem Crosses.not_begins {pattern : List Token} (h : Crosses pattern tokens following) :
    ¬ Begins Token.Fits pattern tokens := by
  obtain ⟨head, tail, rfl, htail, hhead, _⟩ := h
  intro hbegins
  have hle := hbegins.length_le
  have hpos := List.length_pos_iff.mpr htail
  rw [List.length_append, hhead.length_eq] at hle
  exact absurd hle (Nat.not_le.mpr (Nat.lt_add_of_pos_right hpos))

/-- What the search for a pattern finds in a statement of a batch: what it finds in the statement
alone, or a pattern that crosses. -/
theorem firstMatch_batch (entries : List (List Token × List Token)) (following : List Token)
    (hsemi : .semiColon ∉ tokens) :
    (∃ replacement rest, rest <:+ following ∧ CrossedFirst entries tokens following ∧
        firstMatch entries (tokens ++ .semiColon :: following) = some (replacement, rest)) ∨
      ¬ CrossedFirst entries tokens following ∧
        firstMatch entries (tokens ++ .semiColon :: following) =
          (firstMatch entries tokens).map fun found =>
            (found.1, found.2 ++ .semiColon :: following) := by
  induction entries with
  | nil => exact .inr ⟨not_crossedFirst_nil, rfl⟩
  | cons entry entries ih =>
    obtain ⟨pattern, replacement⟩ := entry
    by_cases hempty : pattern = []
    · have hcross : ¬ Crosses pattern tokens following := by
        rintro ⟨head, tail, heq, htail, _⟩
        exact htail (List.append_eq_nil_iff.mp (heq.symm.trans hempty)).2
      rw [crossedFirst_cons (fun hne => absurd hempty hne) hcross, firstMatch, if_pos hempty,
        firstMatch, if_pos hempty]
      exact ih
    rw [firstMatch, if_neg hempty, firstMatch, if_neg hempty]
    cases hconsume : consume pattern tokens with
    | some rest =>
      obtain ⟨matched, hbegins⟩ := (consume_eq_some_iff hsemi).mp hconsume
      rw [consume_append hconsume]
      exact .inr ⟨not_crossedFirst_cons hempty ⟨matched, rest, hbegins⟩
        fun hcross => Crosses.not_begins hcross ⟨matched, rest, hbegins⟩, rfl⟩
    | none =>
      obtain ⟨hsome, hcross⟩ := consume_crossing following hsemi hconsume
      cases hbatch : consume pattern (tokens ++ .semiColon :: following) with
      | some rest =>
        obtain ⟨hsuffix, hcrosses⟩ := hsome rest hbatch
        exact .inl ⟨replacement, rest, hsuffix, ⟨[], _, entries, rfl, List.forall_mem_nil _, hcrosses⟩, rfl⟩
      | none =>
        have hnot : ¬ Crosses pattern tokens following := by
          intro h
          obtain ⟨rest, hrest⟩ := hcross h
          cases hbatch.symm.trans hrest
        rw [crossedFirst_cons (fun _ => (consume_eq_none_iff hsemi).mp hconsume) hnot]
        exact ih

theorem runsOn_of_crossedFirst (hne : tokens ≠ []) (h : CrossedFirst entries tokens following) :
    RunsOn entries tokens following := ⟨tokens, hne, .here, h⟩

theorem runsOn_copied {token : Token} (hnone : NoneBegins Token.Fits entries (token :: tokens))
    (hcross : ¬ CrossedFirst entries (token :: tokens) following) :
    RunsOn entries (token :: tokens) following ↔ RunsOn entries tokens following := by
  constructor
  · rintro ⟨later, hne, hscanned, hlater⟩
    cases hscanned with
    | here => exact absurd hlater hcross
    | copied _ hrest => exact ⟨later, hne, hrest, hlater⟩
    | replaced hfirst _ => exact absurd hnone hfirst.not_noneBegins
  · rintro ⟨later, hne, hscanned, hlater⟩
    exact ⟨later, hne, .copied hnone hscanned, hlater⟩

theorem runsOn_replaced {replacement rest : List Token}
    (hfirst : FirstMatch Token.Fits entries tokens replacement rest)
    (hcross : ¬ CrossedFirst entries tokens following) :
    RunsOn entries tokens following ↔ RunsOn entries rest following := by
  constructor
  · rintro ⟨later, hne, hscanned, hlater⟩
    cases hscanned with
    | here => exact absurd hlater hcross
    | copied hnone _ => exact absurd hnone hfirst.not_noneBegins
    | replaced hfirst' hrest =>
      obtain ⟨rfl, rfl⟩ := hfirst.unique hfirst'
      exact ⟨later, hne, hrest, hlater⟩
  · rintro ⟨later, hne, hscanned, hlater⟩
    exact ⟨later, hne, .replaced hfirst hscanned, hlater⟩

theorem not_runsOn_nil : ¬ RunsOn entries [] following := by
  rintro ⟨later, hne, hscanned, _⟩
  cases hscanned with
  | here => exact hne rfl
  | replaced hfirst _ => exact Nat.not_lt_zero _ hfirst.length_lt

theorem firstMatch_mem {replacement rest : List Token}
    (h : firstMatch entries tokens = some (replacement, rest)) :
    ∃ entry ∈ entries, entry.2 = replacement := by
  fun_induction firstMatch entries tokens with
  | case1 => cases h
  | case2 _ _ _ ih =>
    obtain ⟨entry, hentry, heq⟩ := ih h
    exact ⟨entry, List.mem_cons_of_mem _ hentry, heq⟩
  | case3 =>
    cases h
    exact ⟨_, List.mem_cons_self, rfl⟩
  | case4 _ _ _ _ _ _ ih =>
    obtain ⟨entry, hentry, heq⟩ := ih h
    exact ⟨entry, List.mem_cons_of_mem _ hentry, heq⟩

private theorem count_firstMatch (hentries : ∀ entry ∈ entries, .semiColon ∉ entry.2)
    {replacement rest : List Token} (h : firstMatch entries tokens = some (replacement, rest))
    (out : List Token) : (replacement ++ out).count .semiColon = out.count .semiColon := by
  obtain ⟨entry, hentry, rfl⟩ := firstMatch_mem h
  rw [List.count_append, List.count_eq_zero.mpr (hentries entry hentry), Nat.zero_add]

/-- Replacing adds no semicolon. -/
theorem count_scan (hentries : ∀ entry ∈ entries, .semiColon ∉ entry.2) (tokens : List Token) :
    (scan entries tokens).count .semiColon ≤ tokens.count .semiColon := by
  fun_induction scan entries tokens with
  | case1 => exact Nat.le_refl _
  | case2 tokens ih =>
    rw [List.count_cons_self, List.count_cons_self]
    exact Nat.succ_le_succ ih
  | case3 token tokens _ replacement rest hfirst ih =>
    rw [count_firstMatch hentries hfirst]
    exact Nat.le_trans ih ((firstMatch_suffix hfirst).1.sublist.count_le _)
  | case4 token tokens hsemi _ ih =>
    rw [List.count_cons_of_ne hsemi, List.count_cons_of_ne hsemi]
    exact ih

/-- A pattern that runs on takes the semicolon that it crosses. -/
theorem count_crossed (hentries : ∀ entry ∈ entries, .semiColon ∉ entry.2) {token : Token}
    {replacement rest : List Token} (hne : token ≠ .semiColon) (hsuffix : rest <:+ following)
    (hbatch : firstMatch entries (token :: tokens ++ .semiColon :: following) =
      some (replacement, rest)) :
    (scan entries (token :: tokens ++ .semiColon :: following)).count .semiColon ≤
      following.count .semiColon := by
  rw [List.cons_append] at hbatch ⊢
  rw [scan_of_some hne hbatch, count_firstMatch hentries hbatch]
  exact Nat.le_trans (count_scan hentries rest) (hsuffix.sublist.count_le _)

/-- The replacement in a statement that others follow. -/
theorem scan_batch (following : List Token) (hentries : ∀ entry ∈ entries, .semiColon ∉ entry.2)
    (hsemi : .semiColon ∉ tokens) :
    (¬ RunsOn entries tokens following → scan entries (tokens ++ .semiColon :: following) =
        scan entries tokens ++ .semiColon :: scan entries following) ∧
      (RunsOn entries tokens following →
        (scan entries (tokens ++ .semiColon :: following)).count .semiColon ≤
          following.count .semiColon) := by
  fun_induction scan entries tokens with
  | case1 =>
    refine ⟨fun _ => ?_, fun h => absurd h not_runsOn_nil⟩
    rw [List.nil_append, scan_semiColon, List.nil_append]
  | case2 tokens ih => exact absurd List.mem_cons_self hsemi
  | case3 token tokens hne replacement rest hfirst ih =>
    rcases firstMatch_batch entries following hsemi with
      ⟨replacement', rest', hsuffix, hcross, hbatch⟩ | ⟨hcross, hbatch⟩
    · exact ⟨fun h => absurd (runsOn_of_crossedFirst (List.cons_ne_nil _ _) hcross) h,
        fun _ => count_crossed hentries hne hsuffix hbatch⟩
    · rw [hfirst, List.cons_append] at hbatch
      rw [List.cons_append, scan_of_some hne hbatch, count_firstMatch hentries hbatch,
        runsOn_replaced (firstMatch_eq_some hsemi hfirst) hcross]
      obtain ⟨hindependent, hcount⟩ :=
        ih fun h => hsemi ((firstMatch_suffix hfirst).1.subset h)
      exact ⟨fun h => by rw [hindependent h, List.append_assoc], hcount⟩
  | case4 token tokens hne hnone ih =>
    rcases firstMatch_batch entries following hsemi with
      ⟨replacement', rest', hsuffix, hcross, hbatch⟩ | ⟨hcross, hbatch⟩
    · exact ⟨fun h => absurd (runsOn_of_crossedFirst (List.cons_ne_nil _ _) hcross) h,
        fun _ => count_crossed hentries hne hsuffix hbatch⟩
    · rw [hnone, List.cons_append] at hbatch
      rw [List.cons_append, scan_of_none hbatch, List.count_cons_of_ne hne,
        runsOn_copied (firstMatch_eq_none hsemi hnone) hcross]
      obtain ⟨hindependent, hcount⟩ := ih fun h => hsemi (List.mem_cons_of_mem _ h)
      exact ⟨fun h => by rw [hindependent h, List.cons_append], hcount⟩

theorem not_runsOn_last : ¬ RunsOn entries tokens [] := by
  rintro ⟨later, _, _, earlier, entry, _, _, _, head, tail, _, htail, _, hbegins⟩
  exact not_begins_nil htail hbegins

theorem joinStatements_cons {statement next : List Token} {batch : List (List Token)} :
    joinStatements (statement :: next :: batch) =
      statement ++ .semiColon :: joinStatements (next :: batch) := by
  rw [joinStatements, List.intercalate_cons_cons]
  exact List.append_assoc ..

theorem count_joinStatements {next : List Token} {batch : List (List Token)}
    (hsemi : ∀ statement ∈ next :: batch, .semiColon ∉ statement) :
    (joinStatements (next :: batch)).count .semiColon = batch.length := by
  induction batch generalizing next with
  | nil =>
    rw [joinStatements, List.intercalate_singleton]
    exact List.count_eq_zero.mpr (hsemi next (List.mem_singleton_self _))
  | cons following batch ih =>
    rw [joinStatements_cons, List.count_append, List.count_cons_self,
      ih fun statement h => hsemi statement (List.mem_cons_of_mem _ h),
      List.count_eq_zero.mpr (hsemi next List.mem_cons_self), Nat.zero_add, List.length_cons]

theorem notMem_scan (hentries : ∀ entry ∈ entries, .semiColon ∉ entry.2)
    (hsemi : .semiColon ∉ tokens) : .semiColon ∉ scan entries tokens := by
  have hle := count_scan hentries tokens
  rw [List.count_eq_zero.mpr hsemi] at hle
  exact List.count_eq_zero.mp (Nat.le_zero.mp hle)

/-- A batch is replaced statement by statement exactly if no pattern crosses from one. -/
theorem scan_joinStatements (hentries : ∀ entry ∈ entries, .semiColon ∉ entry.2)
    {batch : List (List Token)} (hsemi : ∀ statement ∈ batch, .semiColon ∉ statement) :
    scan entries (joinStatements batch) = joinStatements (batch.map (scan entries)) ↔
      ∀ before statement after, batch = before ++ statement :: after →
        ¬ RunsOn entries statement (joinStatements after) := by
  induction batch with
  | nil =>
    refine iff_of_true scan_nil fun before statement after heq => ?_
    cases before <;> cases heq
  | cons statement batch ih =>
    have hsplit : (∀ before s after, statement :: batch = before ++ s :: after →
          ¬ RunsOn entries s (joinStatements after)) ↔
        ¬ RunsOn entries statement (joinStatements batch) ∧
          ∀ before s after, batch = before ++ s :: after →
            ¬ RunsOn entries s (joinStatements after) := by
      constructor
      · exact fun h => ⟨h [] statement batch rfl, fun before s after heq =>
          h (statement :: before) s after (by rw [heq, List.cons_append])⟩
      · rintro ⟨hhead, htail⟩ before s after heq
        cases before with
        | nil =>
          obtain ⟨rfl, rfl⟩ := List.cons.inj heq
          exact hhead
        | cons _ before => exact htail before s after (List.cons.inj heq).2
    have hbatch := fun s h => hsemi s (List.mem_cons_of_mem _ h)
    rw [hsplit, ← ih hbatch]
    cases batch with
    | nil =>
      refine iff_of_true ?_ ⟨not_runsOn_last, scan_nil⟩
      rw [List.map_singleton, joinStatements, joinStatements, List.intercalate_singleton,
        List.intercalate_singleton]
    | cons next batch =>
      obtain ⟨hindependent, hcount⟩ := scan_batch (joinStatements (next :: batch))
        hentries (hsemi statement List.mem_cons_self)
      rw [joinStatements_cons, List.map_cons, List.map_cons, joinStatements_cons]
      by_cases hruns : RunsOn entries statement (joinStatements (next :: batch))
      · refine iff_of_false (fun heq => ?_) fun h => h.1 hruns
        have hle := hcount hruns
        rw [heq, ← joinStatements_cons, ← List.map_cons, ← List.map_cons, count_joinStatements hbatch,
          List.map_cons, count_joinStatements, List.length_map] at hle
        · exact Nat.not_succ_le_self _ hle
        · intro s hs
          rw [← List.map_cons] at hs
          obtain ⟨s, hmem, rfl⟩ := List.mem_map.mp hs
          exact notMem_scan hentries (hsemi s hmem)
      · rw [hindependent hruns, List.append_cancel_left_eq, and_iff_right hruns]
        exact ⟨fun heq => (List.cons.inj heq).2, congrArg _⟩

theorem filteredTokens_append (tokens tokens' : List Token) :
    filteredTokens (tokens ++ tokens') = filteredTokens tokens ++ filteredTokens tokens' := by
  rw [filteredTokens, List.filter_append, rewriteAbortToRollback, List.map_append]
  rfl

theorem filteredTokens_joinStatements (batch : List (List Token)) :
    filteredTokens (joinStatements batch) = joinStatements (batch.map filteredTokens) := by
  induction batch with
  | nil => rfl
  | cons statement batch ih =>
    cases batch with
    | nil =>
      rw [List.map_singleton, joinStatements, joinStatements, List.intercalate_singleton,
        List.intercalate_singleton]
    | cons next batch =>
      rw [joinStatements_cons, List.map_cons, List.map_cons, joinStatements_cons,
        filteredTokens_append, ← List.map_cons, ← ih]
      rfl

theorem notMem_filteredTokens (hsemi : .semiColon ∉ tokens) :
    .semiColon ∉ filteredTokens tokens := by
  intro h
  obtain ⟨token, htoken, heq⟩ := List.mem_map.mp h
  split at heq
  · cases heq
  · exact hsemi (heq ▸ (List.mem_filter.mp htoken).1)

theorem replaceTokens_eq_scan (tokens : List Token) :
    replaceTokens entries tokens = scan entries (filteredTokens tokens) := by
  rw [replaceTokens]
  cases filteredTokens tokens with
  | nil => exact scan_nil.symm
  | cons token tokens => exact replaceLoop_eq_scan (token :: tokens) 0 []

/-- The statements of a batch are replaced independently exactly if no pattern whose match begins in
one of them goes on in the next ones. -/
theorem replaceTokens_joinStatements (blacklist : Blacklist) {batch : List (List Token)}
    (hsemi : ∀ statement ∈ batch, .semiColon ∉ statement) :
    replaceTokens blacklist.entries (joinStatements batch) =
        joinStatements (batch.map (replaceTokens blacklist.entries)) ↔
      ∀ before statement after, batch = before ++ statement :: after →
        ¬ RunsOn blacklist.entries (filteredTokens statement)
          (filteredTokens (joinStatements after)) := by
  have hentries := fun entry hentry => (blacklist.semiColon_notMem entry hentry).2
  have hfiltered : ∀ s ∈ batch.map filteredTokens, .semiColon ∉ s := by
    intro s hs
    obtain ⟨s, hmem, rfl⟩ := List.mem_map.mp hs
    exact notMem_filteredTokens (hsemi s hmem)
  have hmap : batch.map (replaceTokens blacklist.entries) =
      (batch.map filteredTokens).map (scan blacklist.entries) := by
    rw [List.map_map]
    exact List.map_congr_left fun s _ => replaceTokens_eq_scan s
  rw [hmap, replaceTokens_eq_scan, filteredTokens_joinStatements,
    scan_joinStatements hentries hfiltered]
  constructor
  · rintro h before s after rfl
    rw [filteredTokens_joinStatements]
    exact h _ _ _ (by rw [List.map_append, List.map_cons])
  · intro h before s after heq
    obtain ⟨before, rest, rfl, rfl, hrest⟩ := List.map_eq_append_iff.mp heq
    obtain ⟨s, after, rfl, rfl, rfl⟩ := List.map_eq_cons_iff.mp hrest
    rw [← filteredTokens_joinStatements]
    exact h _ _ _ rfl

/-- `SELECT $1`, replaced by `SHOW`. -/
def selectAnything : Blacklist :=
  .new [([keywordToken "SELECT", .placeholder "$1"], [keywordToken "SHOW"])]

/-- `COMMIT; SELECT` -/
theorem replaceTokens_commit_select :
    replaceTokens selectAnything.entries
        (joinStatements [[keywordToken "COMMIT"], [keywordToken "SELECT"]]) =
      joinStatements ([[keywordToken "COMMIT"], [keywordToken "SELECT"]].map
        (replaceTokens selectAnything.entries)) := by
  refine (replaceTokens_joinStatements selectAnything (by decide)).mpr fun before s after heq => ?_
  have hnone : NoneBegins Token.Fits selectAnything.entries [keywordToken "COMMIT"] := by
    intro entry hentry _ hbegins
    cases List.mem_singleton.mp hentry
    exact absurd hbegins.length_le (by decide)
  cases before with
  | nil =>
    cases heq
    rintro ⟨later, hne, hscanned, earlier, entry, rest, hentries, _, head, tail, hpattern, _, hhead, _⟩
    cases hscanned with
    | here =>
      have hentry : entry ∈ selectAnything.entries :=
        hentries ▸ List.mem_append_right _ List.mem_cons_self
      cases List.mem_singleton.mp hentry
      cases hhead with
      | cons hfit hhead =>
        obtain ⟨rfl, _⟩ := List.cons.inj hpattern
        exact absurd hfit (by decide)
    | copied _ hrest =>
      cases hrest with
      | here => exact hne rfl
      | replaced hfirst _ => exact Nat.not_lt_zero _ hfirst.length_lt
    | replaced hfirst _ => exact hfirst.not_noneBegins hnone
  | cons _ before =>
    cases before with
    | nil =>
      cases heq
      exact not_runsOn_last
    | cons _ before => cases before <;> cases heq

/-- `SELECT; COMMIT` is one match. -/
theorem replaceTokens_select_commit :
    ¬ ∀ (blacklist : Blacklist) (s₁ s₂ : List Token), .semiColon ∉ s₁ → .semiColon ∉ s₂ →
      replaceTokens blacklist.entries (s₁ ++ .semiColon :: s₂) =
        replaceTokens blacklist.entries s₁ ++
          .semiColon :: replaceTokens blacklist.entries s₂ := by
  intro h
  have heq := h selectAnything [keywordToken "SELECT"] [keywordToken "COMMIT"] (by decide) (by decide)
  have hruns : RunsOn selectAnything.entries [keywordToken "SELECT"] [keywordToken "COMMIT"] := by
    refine runsOn_of_crossedFirst (by decide) ⟨[], _, [], rfl, nofun, [keywordToken "SELECT"],
      [.placeholder "$1"], rfl, by decide, .cons (.inr rfl) .nil, [keywordToken "COMMIT"], [],
      .cons (.inl rfl) .nil, rfl⟩
  have hcount := (scan_batch [keywordToken "COMMIT"]
    (fun entry hentry => (selectAnything.semiColon_notMem entry hentry).2) (by decide)).2 hruns
  rw [replaceTokens_eq_scan] at heq
  have hscan := congrArg (List.count .semiColon) heq
  rw [List.count_append, List.count_cons_self] at hscan
  have hpos : 0 < (scan selectAnything.entries (filteredTokens
      ([keywordToken "SELECT"] ++ [.semiColon, keywordToken "COMMIT"]))).count .semiColon :=
    hscan ▸ Nat.lt_add_left _ (Nat.succ_pos _)
  exact absurd (Nat.lt_of_lt_of_le hpos hcount) (by decide)

end Batches
end PostgresCompatibilityParser
end DatafusionPostgres.Sql

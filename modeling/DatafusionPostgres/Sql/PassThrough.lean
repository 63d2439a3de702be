import DatafusionPostgres.Sql.StatementBoundaries

/-! Input without a blacklisted pattern: what is left of it, and where `ABORT` is a statement. -/
namespace DatafusionPostgres.Sql
open DatafusionPostgres.Library

/-- A word spelled `abort` in any letter case, without quotes. -/
def Token.IsAbort : Token → Prop
  | .word w => w.quoteStyle = none ∧ w.value.toList.map Char.toUpper = "ABORT".toList
  | _ => False

instance : DecidablePred Token.IsAbort
  | .word _ => instDecidableAnd
  | .whitespace _ | .semiColon | .placeholder _ | .other _ _ => instDecidableFalse

/-- What the tokenizer is documented to do with words: a keyword is one without quotes. -/
def KnowsAbort (tokens : List Token) : Prop :=
  ∀ w, .word w ∈ tokens → (w.keyword = .abort ↔ (Token.word w).IsAbort)

def rollbackToken : Token := .word ⟨"ROLLBACK", none, .rollback⟩

/-- The tokens with each `ABORT` that begins a statement as `ROLLBACK`; the first token is at the
beginning of one or not. -/
def abortStatements : Bool → List Token → List Token
  | _, [] => []
  | atStart, token :: tokens =>
    (if atStart ∧ token.IsAbort then rollbackToken else token) ::
      abortStatements (token = .semiColon) tokens

/-- Every `ABORT` is the first token, or comes after a semicolon. -/
def AbortsBegin (tokens : List Token) : Prop :=
  ∀ before token after, tokens = before ++ token :: after → token.IsAbort →
    ∀ last ∈ before.getLast?, last = .semiColon

/-- The pattern matches consecutive tokens of one statement. -/
def Occurs (pattern tokens : List Token) : Prop :=
  pattern ≠ [] ∧ ∃ before matched after, tokens = before ++ matched ++ after ∧
    .semiColon ∉ matched ∧ List.Forall₂ Token.Fits pattern matched

/-- The pattern matches tokens with semicolons in between. -/
def OccursAcross (pattern tokens : List Token) : Prop :=
  pattern ≠ [] ∧ ∃ before matched after, tokens = before ++ matched ++ after ∧
    .semiColon ∈ matched ∧ List.Forall₂ Token.Fits pattern (matched.filter (· ≠ .semiColon))

namespace PostgresCompatibilityParser

section Scan
variable {entries : List (List Token × List Token)}

/-- A pattern is found at one of the positions. -/
def Found (entries : List (List Token × List Token)) (tokens : List Token) : Prop :=
  ∃ before token after, tokens = before ++ token :: after ∧ token ≠ .semiColon ∧
    firstMatch entries (token :: after) ≠ none

theorem found_cons {token : Token} {tokens : List Token} :
    Found entries (token :: tokens) ↔
      (token ≠ .semiColon ∧ firstMatch entries (token :: tokens) ≠ none) ∨ Found entries tokens := by
  constructor
  · rintro ⟨before, found, after, heq, hne, hmatch⟩
    cases before with
    | nil =>
      cases heq
      exact .inl ⟨hne, hmatch⟩
    | cons _ before =>
      cases heq
      exact .inr ⟨before, found, after, rfl, hne, hmatch⟩
  · rintro (⟨hne, hmatch⟩ | ⟨before, found, after, rfl, hne, hmatch⟩)
    · exact ⟨[], token, tokens, rfl, hne, hmatch⟩
    · exact ⟨token :: before, found, after, rfl, hne, hmatch⟩

theorem scan_eq_self {tokens : List Token} (h : ¬ Found entries tokens) :
    scan entries tokens = tokens := by
  induction tokens with
  | nil => exact scan_nil
  | cons token tokens ih =>
    rw [found_cons, not_or] at h
    by_cases hsemi : token = .semiColon
    · rw [hsemi, scan_semiColon, ih h.2]
    · have hnone : firstMatch entries (token :: tokens) = none := by
        by_contra hsome
        exact h.1 ⟨hsemi, hsome⟩
      rw [scan_of_none hnone, ih h.2]

/-- The tokens that a match takes are those that the pattern fits, and semicolons. -/
theorem consume_eq_append {pattern tokens rest : List Token}
    (h : consume pattern tokens = some rest) :
    ∃ taken, tokens = taken ++ rest ∧
      List.Forall₂ Token.Fits pattern (taken.filter (· ≠ .semiColon)) := by
  fun_induction consume pattern tokens with
  | case1 tokens =>
    cases h
    exact ⟨[], rfl, .nil⟩
  | case2 => cases h
  | case3 p pattern tokens ih =>
    obtain ⟨taken, rfl, hfits⟩ := ih h
    refine ⟨.semiColon :: taken, rfl, ?_⟩
    rw [List.filter_cons_of_neg (by decide)]
    exact hfits
  | case4 p pattern token tokens hsemi hfit ih =>
    obtain ⟨taken, rfl, hfits⟩ := ih h
    refine ⟨token :: taken, rfl, ?_⟩
    rw [List.filter_cons_of_pos (by simpa using hsemi)]
    exact .cons hfit hfits
  | case5 => cases h

theorem firstMatch_eq_append {tokens replacement rest : List Token}
    (h : firstMatch entries tokens = some (replacement, rest)) :
    ∃ entry ∈ entries, entry.1 ≠ [] ∧ ∃ taken, tokens = taken ++ rest ∧
      List.Forall₂ Token.Fits entry.1 (taken.filter (· ≠ .semiColon)) := by
  fun_induction firstMatch entries tokens with
  | case1 => cases h
  | case2 _ _ _ ih =>
    obtain ⟨entry, hentry, hfound⟩ := ih h
    exact ⟨entry, List.mem_cons_of_mem _ hentry, hfound⟩
  | case3 _ _ _ _ hne _ hrest =>
    cases h
    exact ⟨_, List.mem_cons_self, hne, consume_eq_append hrest⟩
  | case4 _ _ _ _ _ _ ih =>
    obtain ⟨entry, hentry, hfound⟩ := ih h
    exact ⟨entry, List.mem_cons_of_mem _ hentry, hfound⟩

theorem firstMatch_ne_none {tokens : List Token} {entry : List Token × List Token}
    (hentry : entry ∈ entries) (hne : entry.1 ≠ [])
    (hconsume : consume entry.1 tokens ≠ none) : firstMatch entries tokens ≠ none := by
  fun_induction firstMatch entries tokens with
  | case1 => cases hentry
  | case2 replacement entries tokens ih =>
    rcases List.mem_cons.mp hentry with rfl | hentry
    · exact absurd rfl hne
    · exact ih hentry hconsume
  | case3 => exact Option.some_ne_none _
  | case4 pattern replacement entries tokens _ hnone ih =>
    rcases List.mem_cons.mp hentry with rfl | hentry
    · exact absurd hnone hconsume
    · exact ih hentry hconsume

theorem consume_of_not_found {tokens : List Token} {entry : List Token × List Token}
    (hentry : entry ∈ entries) (hne : entry.1 ≠ []) (h : ¬ Found entries tokens) :
    consume entry.1 tokens = none := by
  obtain ⟨p, pattern, hpattern⟩ := List.exists_cons_of_ne_nil hne
  induction tokens with
  | nil => rw [hpattern, consume]
  | cons token tokens ih =>
    rw [found_cons, not_or] at h
    by_cases hsemi : token = .semiColon
    · have hrest := ih h.2
      rw [hpattern] at hrest ⊢
      rw [consume, if_pos hsemi, hrest]
    · by_contra hconsume
      exact h.1 ⟨hsemi, firstMatch_ne_none hentry hne hconsume⟩

/-- Where no pattern occurs in a statement, a match takes a semicolon. -/
theorem firstMatch_crosses {before tokens replacement rest : List Token}
    (hnone : ∀ entry ∈ entries, ¬ Occurs entry.1 (before ++ tokens))
    (h : firstMatch entries tokens = some (replacement, rest)) :
    ∃ entry ∈ entries, entry.1 ≠ [] ∧ ∃ taken, tokens = taken ++ rest ∧ .semiColon ∈ taken ∧
      List.Forall₂ Token.Fits entry.1 (taken.filter (· ≠ .semiColon)) := by
  obtain ⟨entry, hentry, hne, taken, rfl, hfits⟩ := firstMatch_eq_append h
  refine ⟨entry, hentry, hne, taken, rfl, ?_, hfits⟩
  by_contra hsemi
  refine hnone entry hentry ⟨hne, before, taken, rest, (List.append_assoc ..).symm, hsemi, ?_⟩
  rwa [List.filter_eq_self.mpr] at hfits
  intro t ht
  simp only [ne_eq, decide_eq_true_eq]
  rintro rfl
  exact hsemi ht

/-- Where no pattern occurs in a statement, what is found is what occurs across semicolons. -/
theorem found_iff {tokens : List Token} (hnone : ∀ entry ∈ entries, ¬ Occurs entry.1 tokens) :
    Found entries tokens ↔ ∃ entry ∈ entries, OccursAcross entry.1 tokens := by
  constructor
  · rintro ⟨before, token, after, rfl, -, hmatch⟩
    obtain ⟨⟨replacement, rest⟩, hsome⟩ := Option.ne_none_iff_exists'.mp hmatch
    obtain ⟨entry, hentry, hne, taken, htaken, hsemi, hfits⟩ := firstMatch_crosses hnone hsome
    have hsplit : before ++ token :: after = before ++ taken ++ rest := by
      rw [htaken, List.append_assoc]
    exact ⟨entry, hentry, hne, before, taken, rest, hsplit, hsemi, hfits⟩
  · rintro ⟨entry, hentry, hne, before, matched, after, rfl, -, hfits⟩
    by_contra hfound
    have hrest : ¬ Found entries (matched ++ after) := by
      rintro ⟨earlier, token, later, heq, hmatch⟩
      refine hfound ⟨before ++ earlier, token, later, ?_, hmatch⟩
      rw [List.append_assoc, heq, List.append_assoc]
    have hbegins : Begins Token.Fits entry.1 ((matched ++ after).filter (· ≠ .semiColon)) := by
      rw [List.filter_append]
      exact ⟨_, _, hfits, rfl⟩
    obtain ⟨rest, hconsume⟩ := consume_isSome_iff.mpr hbegins
    cases (consume_of_not_found hentry hne hrest).symm.trans hconsume

/-- What is found takes a semicolon with it, if no pattern occurs in a statement. -/
theorem count_scan_lt {tokens : List Token}
    (hentries : ∀ entry ∈ entries, .semiColon ∉ entry.2)
    (hnone : ∀ entry ∈ entries, ¬ Occurs entry.1 tokens) (h : Found entries tokens) :
    (scan entries tokens).count .semiColon < tokens.count .semiColon := by
  induction tokens with
  | nil =>
    obtain ⟨before, token, after, heq, -⟩ := h
    cases before <;> cases heq
  | cons token tokens ih =>
    have hrest : ∀ entry ∈ entries, ¬ Occurs entry.1 tokens := by
      rintro entry hentry ⟨hne, before, matched, after, rfl, hoccurs⟩
      exact hnone entry hentry ⟨hne, token :: before, matched, after, rfl, hoccurs⟩
    rw [found_cons] at h
    by_cases hsemi : token = .semiColon
    · have hlt := ih hrest (h.resolve_left fun hmatch => hmatch.1 hsemi)
      rw [hsemi, scan_semiColon, List.count_cons_self, List.count_cons_self]
      exact Nat.succ_lt_succ hlt
    cases hfirst : firstMatch entries (token :: tokens) with
    | none =>
      have hlt := ih hrest (h.resolve_left fun hmatch => hmatch.2 hfirst)
      rw [scan_of_none hfirst, List.count_cons_of_ne hsemi, List.count_cons_of_ne hsemi]
      exact hlt
    | some found =>
      obtain ⟨replacement, rest⟩ := found
      have hhere : ∀ entry ∈ entries, ¬ Occurs entry.1 ([] ++ token :: tokens) := hnone
      obtain ⟨_, _, _, taken, htaken, htakes, _⟩ := firstMatch_crosses hhere hfirst
      obtain ⟨used, hused, hreplacement⟩ := firstMatch_mem hfirst
      rw [scan_of_some hsemi hfirst, List.count_append, ← hreplacement,
        List.count_eq_zero.mpr (hentries used hused), Nat.zero_add, htaken, List.count_append]
      exact Nat.lt_of_le_of_lt (count_scan hentries rest)
        (Nat.lt_add_of_pos_left (List.count_pos_iff.mpr htakes))

end Scan

section Aborts

theorem rollback_not_abort : ¬ rollbackToken.IsAbort := by decide

theorem count_abortStatements (atStart : Bool) (tokens : List Token) :
    (abortStatements atStart tokens).count .semiColon = tokens.count .semiColon := by
  induction tokens generalizing atStart with
  | nil => rfl
  | cons token tokens ih =>
    rw [abortStatements, List.count_cons, List.count_cons, ih]
    split
    next habort =>
      have hne : token ≠ .semiColon := by
        rintro rfl
        exact habort.2
      simp [hne, rollbackToken]
    · rfl

def rollbackFor (token : Token) : Token := if token.IsAbort then rollbackToken else token

theorem filteredTokens_eq {tokens : List Token} (hwords : KnowsAbort tokens) :
    filteredTokens tokens = (tokens.filter fun token => !token.isWhitespace).map rollbackFor := by
  refine List.map_congr_left fun token htoken => ?_
  have hmem := (List.mem_filter.mp htoken).1
  cases token with
  | word w =>
    have hkeyword := hwords w hmem
    obtain ⟨value, quoteStyle, keyword⟩ := w
    cases keyword with
    | abort => exact (if_pos (hkeyword.mp rfl)).symm
    | rollback => exact (if_neg fun h => by cases hkeyword.mpr h).symm
    | other name => exact (if_neg fun h => by cases hkeyword.mpr h).symm
  | _ => rfl

theorem count_map_rollbackFor (tokens : List Token) :
    (tokens.map rollbackFor).count .semiColon = tokens.count .semiColon := by
  induction tokens with
  | nil => rfl
  | cons token tokens ih =>
    rw [List.map_cons, List.count_cons, List.count_cons, ih, rollbackFor]
    split
    next habort =>
      have hne : token ≠ .semiColon := by
        rintro rfl
        exact habort
      simp [hne, rollbackToken]
    · rfl

private theorem lastEnds_cons {atStart : Bool} {token : Token} {before : List Token} :
    ((∀ last ∈ (token :: before).getLast?, last = .semiColon) ∧
        (token :: before = [] → atStart = true)) ↔
      (∀ last ∈ before.getLast?, last = .semiColon) ∧ (before = [] → (token = .semiColon)) := by
  cases before with
  | nil => simp
  | cons next before => simp

/-- All are rewritten where only those at the beginning of a statement are to be. -/
theorem map_rollbackFor_eq_iff (atStart : Bool) (tokens : List Token) :
    tokens.map rollbackFor = abortStatements atStart tokens ↔
      ∀ before token after, tokens = before ++ token :: after → token.IsAbort →
        (∀ last ∈ before.getLast?, last = .semiColon) ∧ (before = [] → atStart = true) := by
  induction tokens generalizing atStart with
  | nil =>
    refine iff_of_true rfl fun before token after heq => ?_
    cases before <;> cases heq
  | cons first tokens ih =>
    have hfirst : rollbackFor first = (if atStart ∧ first.IsAbort then rollbackToken else first) ↔
        (first.IsAbort → atStart = true) := by
      unfold rollbackFor
      by_cases habort : first.IsAbort
      · have hne : rollbackToken ≠ first := fun heq => rollback_not_abort (heq ▸ habort)
        cases atStart <;> simp [habort, hne]
      · simp [habort]
    rw [List.map_cons, abortStatements, List.cons.injEq, hfirst, ih]
    constructor
    · rintro ⟨hhead, htail⟩ before token after heq habort
      cases before with
      | nil =>
        cases heq
        exact ⟨by simp, fun _ => hhead habort⟩
      | cons _ before =>
        cases heq
        rw [lastEnds_cons]
        have hlast := htail before token after rfl habort
        exact ⟨hlast.1, fun hnil => of_decide_eq_true (hlast.2 hnil)⟩
    · intro h
      constructor
      · intro habort
        exact (h [] first tokens rfl habort).2 rfl
      · rintro before token after rfl habort
        have hlast := lastEnds_cons.mp (h (first :: before) token after rfl habort)
        exact ⟨hlast.1, fun hnil => decide_eq_true (hlast.2 hnil)⟩

theorem abortsBegin_iff {tokens : List Token} :
    AbortsBegin tokens ↔ tokens.map rollbackFor = abortStatements true tokens := by
  rw [map_rollbackFor_eq_iff]
  simp only [implies_true, and_true]
  rfl

end Aborts

/-- Input in which no pattern occurs is left as it is, `ABORT` statements apart, exactly if no
pattern occurs across semicolons either and every `ABORT` begins a statement. -/
theorem maybeReplaceTokens_passThrough_iff {ε : Type} (tokenize : String → Except ε (List Token))
    (htokenize : ∀ input tokens, tokenize input = .ok tokens → KnowsAbort tokens)
    (blacklist : Blacklist) (input : String) (tokens : List Token)
    (htokens : tokenize input = .ok tokens)
    (hnone : ∀ entry ∈ blacklist.entries, ¬ Occurs entry.1 (filteredTokens tokens)) :
    maybeReplaceTokens tokenize blacklist.entries input =
        .ok (abortStatements true (tokens.filter fun token => !token.isWhitespace)) ↔
      AbortsBegin (tokens.filter fun token => !token.isWhitespace) ∧
        ∀ entry ∈ blacklist.entries, ¬ OccursAcross entry.1 (filteredTokens tokens) := by
  have hentries := fun entry hentry => (blacklist.semiColon_notMem entry hentry).2
  have hfiltered := filteredTokens_eq (htokenize input tokens htokens)
  have hrun : maybeReplaceTokens tokenize blacklist.entries input =
      .ok (scan blacklist.entries (filteredTokens tokens)) := by
    rw [maybeReplaceTokens, htokens, ← replaceTokens_eq_scan]
    rfl
  rw [hrun, Except.ok.injEq, abortsBegin_iff, ← hfiltered]
  by_cases hfound : Found blacklist.entries (filteredTokens tokens)
  · have hlt := count_scan_lt hentries hnone hfound
    refine iff_of_false ?_ ?_
    · intro heq
      rw [heq, count_abortStatements, hfiltered, count_map_rollbackFor] at hlt
      exact Nat.lt_irrefl _ hlt
    · rintro ⟨-, hacross⟩
      obtain ⟨entry, hentry, hoccurs⟩ := (found_iff hnone).mp hfound
      exact hacross entry hentry hoccurs
  · rw [scan_eq_self hfound]
    refine (and_iff_left fun entry hentry hoccurs => ?_).symm
    exact hfound ((found_iff hnone).mpr ⟨entry, hentry, hoccurs⟩)
section Examples

def abortWord (quoteStyle : Option Char) (keyword : Keyword) : Token :=
  .word ⟨"abort", quoteStyle, keyword⟩

/-- `ABORT; SELECT "abort"` -/
def abortThenSelect : List Token :=
  [.word ⟨"ABORT", none, .abort⟩, .semiColon, .whitespace " ", keywordToken "SELECT",
    .whitespace " ", abortWord (some '"') (.other "NoKeyword")]

def listedShow : Blacklist := .new [([keywordToken "SHOW"], [keywordToken "SELECT"])]

theorem abortThenSelect_knows : KnowsAbort abortThenSelect := by
  intro w hw
  simp only [abortThenSelect, keywordToken, abortWord, List.mem_cons, List.not_mem_nil,
    Token.word.injEq, reduceCtorEq, false_or, or_false] at hw
  rcases hw with rfl | rfl | rfl <;> decide

theorem abortThenSelect_kept :
    maybeReplaceTokens (fun _ => .ok (ε := Unit) abortThenSelect) listedShow.entries
        "ABORT; SELECT \"abort\"" =
      .ok (abortStatements true (abortThenSelect.filter fun token => !token.isWhitespace)) := by
  have hshow : ∀ matched : List Token, List.Forall₂ Token.Fits [keywordToken "SHOW"] matched →
      keywordToken "SHOW" ∈ matched := by
    intro matched hfits
    cases hfits with
    | cons hfit _ =>
      rw [hfit.resolve_left (by decide)]
      exact List.mem_cons_self
  have hfitted : ∀ before matched after, filteredTokens abortThenSelect = before ++ matched ++ after →
      keywordToken "SHOW" ∉ matched := by
    intro before matched after heq hmem
    have hin : keywordToken "SHOW" ∈ filteredTokens abortThenSelect := by
      rw [heq]
      exact List.mem_append_left _ (List.mem_append_right _ hmem)
    exact absurd hin (by decide)
  refine (maybeReplaceTokens_passThrough_iff (fun _ => .ok (ε := Unit) abortThenSelect) ?_
    listedShow _ abortThenSelect rfl ?_).mpr ⟨?_, ?_⟩
  · rintro _ _ ⟨⟩
    exact abortThenSelect_knows
  · rintro entry hentry ⟨-, before, matched, after, heq, -, hfits⟩
    cases List.mem_singleton.mp hentry
    exact hfitted before matched after heq (hshow matched hfits)
  · exact abortsBegin_iff.mpr (by decide)
  · rintro entry hentry ⟨-, before, matched, after, heq, -, hfits⟩
    cases List.mem_singleton.mp hentry
    exact hfitted before matched after heq (List.mem_of_mem_filter (hshow _ hfits))

/-- `SELECT abort FROM t` -/
def selectAbort : List Token :=
  [keywordToken "SELECT", .whitespace " ", abortWord none .abort, .whitespace " ",
    keywordToken "FROM", .whitespace " ", .word ⟨"t", none, .other "NoKeyword"⟩]

/-- The column becomes `ROLLBACK`. -/
theorem selectAbort_rewritten :
    KnowsAbort selectAbort ∧
      maybeReplaceTokens (fun _ => .ok (ε := Unit) selectAbort) (Blacklist.new []).entries
          "SELECT abort FROM t" ≠
        .ok (abortStatements true (selectAbort.filter fun token => !token.isWhitespace)) := by
  constructor
  · intro w hw
    simp only [selectAbort, keywordToken, abortWord, List.mem_cons, List.not_mem_nil,
      Token.word.injEq, reduceCtorEq, false_or, or_false] at hw
    rcases hw with rfl | rfl | rfl | rfl <;> decide
  · have hempty : ¬ Found (Blacklist.new []).entries (filteredTokens selectAbort) := by
      rintro ⟨_, _, _, _, _, hmatch⟩
      exact hmatch rfl
    have hkept : replaceTokens (Blacklist.new []).entries selectAbort =
        filteredTokens selectAbort := by
      rw [replaceTokens_eq_scan, scan_eq_self hempty]
    intro hrun
    have heq := hkept.symm.trans (Except.ok.inj hrun)
    exact absurd heq (by decide)

end Examples
end PostgresCompatibilityParser
end DatafusionPostgres.Sql

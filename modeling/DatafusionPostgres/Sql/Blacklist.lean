import DatafusionPostgres.Library.Replacement
import Mathlib.Tactic.Common

/-! Last-resort replacements of client queries, on the tokens of the input before it is parsed. -/
namespace DatafusionPostgres.Sql
open DatafusionPostgres.Library

inductive Keyword where
  | abort
  | rollback
  | other (name : String)
  deriving DecidableEq, Repr

structure Word where
  value : String
  quoteStyle : Option Char
  keyword : Keyword
  deriving DecidableEq, Repr

/-- The tokens of the SQL tokenizer; the kinds that the replacement does not tell apart are one. -/
inductive Token where
  | word (w : Word)
  | whitespace (text : String)
  | semiColon
  | placeholder (name : String)
  | other (kind text : String)
  deriving DecidableEq, Repr

def Token.isWhitespace : Token → Bool
  | .whitespace _ => true
  | _ => false

def Token.isPlaceholder : Token → Bool
  | .placeholder _ => true
  | _ => false

/-- A token of a pattern stands for itself, a placeholder for any token. -/
def Token.Fits (pattern token : Token) : Prop := pattern.isPlaceholder ∨ token = pattern

instance (pattern token : Token) : Decidable (pattern.Fits token) :=
  inferInstanceAs (Decidable (_ ∨ _))

namespace PostgresCompatibilityParser

/-- The inner loop: the tokens it goes over from `i` on, and the tokens of the pattern. -/
def matchLoop (tokens pattern : List Token) (i j patternIdx : Nat) : Nat × Nat :=
  if h : i + j < tokens.length ∧ patternIdx < pattern.length then
    if tokens[i + j] = .semiColon then
      matchLoop tokens pattern i (j + 1) patternIdx
    else if pattern[patternIdx].Fits tokens[i + j] then
      matchLoop tokens pattern i (j + 1) (patternIdx + 1)
    else (j, patternIdx)
  else (j, patternIdx)
termination_by tokens.length - (i + j)

/-- The loop over the blacklist: the replacement, and how many tokens it stands for. -/
def findMatch (tokens : List Token) (i : Nat) :
    List (List Token × List Token) → Option (List Token × Nat)
  | [] => none
  | (pattern, replacement) :: blacklist =>
    if pattern.isEmpty then findMatch tokens i blacklist
    else
      let reached := matchLoop tokens pattern i 0 0
      if reached.2 = pattern.length then some (replacement, reached.1)
      else findMatch tokens i blacklist

/-- The inner loop goes over at least as many tokens of the input as of the pattern. -/
theorem matchLoop_le (tokens pattern : List Token) (i j patternIdx : Nat) :
    (matchLoop tokens pattern i j patternIdx).2 + j ≤
      (matchLoop tokens pattern i j patternIdx).1 + patternIdx := by
  fun_induction matchLoop tokens pattern i j patternIdx with
  | case1 => omega
  | case2 => omega
  | case3 => exact Nat.le_of_eq (Nat.add_comm _ _)
  | case4 => exact Nat.le_of_eq (Nat.add_comm _ _)

theorem findMatch_pos {tokens replacement : List Token} {i j : Nat}
    {blacklist : List (List Token × List Token)}
    (h : findMatch tokens i blacklist = some (replacement, j)) : 0 < j := by
  induction blacklist with
  | nil => cases h
  | cons entry blacklist ih =>
    obtain ⟨pattern, replacement'⟩ := entry
    simp only [findMatch] at h
    split at h
    · exact ih h
    next hempty =>
    split at h
    next hmatch =>
      cases h
      have hle := matchLoop_le tokens pattern i 0 0
      have hpos : 0 < pattern.length :=
        List.length_pos_iff.mpr fun hnil => hempty (List.isEmpty_iff.mpr hnil)
      rw [hmatch] at hle
      exact Nat.lt_of_lt_of_le hpos hle
    · exact ih h

/-- The outer loop of `maybe_replace_tokens`. -/
def replaceLoop (blacklist : List (List Token × List Token)) (tokens : List Token) (i : Nat)
    (result : List Token) : List Token :=
  if h : i < tokens.length then
    if tokens[i] = .semiColon then replaceLoop blacklist tokens (i + 1) (result ++ [tokens[i]])
    else match hfind : findMatch tokens i blacklist with
      | some (replacement, j) => replaceLoop blacklist tokens (i + j) (result ++ replacement)
      | none => replaceLoop blacklist tokens (i + 1) (result ++ [tokens[i]])
  else result
termination_by tokens.length - i
decreasing_by
  · exact Nat.sub_lt_sub_left h (Nat.lt_succ_self i)
  · exact Nat.sub_lt_sub_left h (Nat.lt_add_of_pos_right (findMatch_pos hfind))
  · exact Nat.sub_lt_sub_left h (Nat.lt_succ_self i)

/-- `ABORT` is a synonym of `ROLLBACK` that the SQL parser does not know. -/
def rewriteAbortToRollback (tokens : List Token) : List Token :=
  tokens.map fun token => match token with
    | .word ⟨_, _, .abort⟩ => .word ⟨"ROLLBACK", none, .rollback⟩
    | token => token

/-- What is left of the tokens to replace in: no white space, and no `ABORT`. -/
def filteredTokens (tokens : List Token) : List Token :=
  rewriteAbortToRollback (tokens.filter fun token => !token.isWhitespace)

def replaceTokens (blacklist : List (List Token × List Token)) (tokens : List Token) :
    List Token :=
  let filtered := filteredTokens tokens
  if filtered.isEmpty then [] else replaceLoop blacklist filtered 0 []

/-- The tokenizer is the SQL parser's own. -/
def maybeReplaceTokens {ε : Type} (tokenize : String → Except ε (List Token))
    (blacklist : List (List Token × List Token)) (input : String) : Except ε (List Token) := do
  let tokens ← tokenize input
  return replaceTokens blacklist tokens

/-! The loops as recursions on what is left of the input. -/

/-- What is left after the pattern. -/
def consume : List Token → List Token → Option (List Token)
  | [], tokens => some tokens
  | _ :: _, [] => none
  | p :: pattern, token :: tokens =>
    if token = .semiColon then consume (p :: pattern) tokens
    else if p.Fits token then consume pattern tokens
    else none

def firstMatch : List (List Token × List Token) → List Token → Option (List Token × List Token)
  | [], _ => none
  | (pattern, replacement) :: blacklist, tokens =>
    if pattern = [] then firstMatch blacklist tokens
    else match consume pattern tokens with
      | some rest => some (replacement, rest)
      | none => firstMatch blacklist tokens

theorem consume_suffix {pattern tokens rest : List Token} (h : consume pattern tokens = some rest) :
    rest <:+ tokens ∧ rest.length + pattern.length ≤ tokens.length := by
  fun_induction consume pattern tokens with
  | case1 tokens => cases h; exact ⟨List.suffix_rfl, Nat.le_refl _⟩
  | case2 => cases h
  | case3 p pattern tokens ih =>
    obtain ⟨hsuffix, hlength⟩ := ih h
    exact ⟨hsuffix.trans (List.suffix_cons ..), Nat.le_succ_of_le hlength⟩
  | case4 p pattern token tokens _ _ ih =>
    obtain ⟨hsuffix, hlength⟩ := ih h
    exact ⟨hsuffix.trans (List.suffix_cons ..), Nat.succ_le_succ hlength⟩
  | case5 => cases h

theorem firstMatch_suffix {blacklist : List (List Token × List Token)}
    {tokens replacement rest : List Token}
    (h : firstMatch blacklist tokens = some (replacement, rest)) :
    rest <:+ tokens ∧ rest.length < tokens.length := by
  fun_induction firstMatch blacklist tokens with
  | case1 => cases h
  | case2 _ _ _ ih => exact ih h
  | case3 pattern _ _ tokens hne rest' hrest =>
    cases h
    obtain ⟨hsuffix, hlength⟩ := consume_suffix hrest
    have hpos := List.length_pos_iff.mpr hne
    exact ⟨hsuffix, Nat.lt_of_lt_of_le (Nat.lt_add_of_pos_right hpos) hlength⟩
  | case4 _ _ _ _ _ _ ih => exact ih h

def scan (blacklist : List (List Token × List Token)) : List Token → List Token
  | [] => []
  | token :: tokens =>
    if token = .semiColon then token :: scan blacklist tokens
    else match hfirst : firstMatch blacklist (token :: tokens) with
      | some (replacement, rest) => replacement ++ scan blacklist rest
      | none => token :: scan blacklist tokens
termination_by tokens => tokens.length
decreasing_by
  · exact Nat.lt_succ_self _
  · exact (firstMatch_suffix hfirst).2
  · exact Nat.lt_succ_self _

section Loops
variable {blacklist : List (List Token × List Token)}

theorem scan_nil : scan blacklist [] = [] := by rw [scan]

theorem scan_semiColon {tokens : List Token} :
    scan blacklist (.semiColon :: tokens) = .semiColon :: scan blacklist tokens := by
  rw [scan, if_pos rfl]

theorem scan_of_none {token : Token} {tokens : List Token}
    (h : firstMatch blacklist (token :: tokens) = none) :
    scan blacklist (token :: tokens) = token :: scan blacklist tokens := by
  rw [scan]
  split
  · rfl
  · split
    next hsome => cases h.symm.trans hsome
    · rfl

theorem scan_of_some {token : Token} {tokens replacement rest : List Token}
    (hsemi : token ≠ .semiColon)
    (h : firstMatch blacklist (token :: tokens) = some (replacement, rest)) :
    scan blacklist (token :: tokens) = replacement ++ scan blacklist rest := by
  rw [scan, if_neg hsemi]
  split
  next hsome => cases h.symm.trans hsome; rfl
  next hnone => cases h.symm.trans hnone

theorem matchLoop_consume (tokens pattern : List Token) (i j : Nat) {patternIdx : Nat}
    (hle : patternIdx ≤ pattern.length) :
    consume (pattern.drop patternIdx) (tokens.drop (i + j)) =
      if (matchLoop tokens pattern i j patternIdx).2 = pattern.length then
        some (tokens.drop (i + (matchLoop tokens pattern i j patternIdx).1))
      else none := by
  fun_induction matchLoop tokens pattern i j patternIdx with
  | case1 j patternIdx hbounds hsemi ih =>
    rw [← ih hle, List.drop_eq_getElem_cons hbounds.1, List.drop_eq_getElem_cons hbounds.2, consume,
      if_pos hsemi, Nat.add_assoc]
  | case2 j patternIdx hbounds hsemi hfits ih =>
    rw [← ih hbounds.2, List.drop_eq_getElem_cons hbounds.1, List.drop_eq_getElem_cons hbounds.2,
      consume, if_neg hsemi, if_pos hfits, Nat.add_assoc]
  | case3 j patternIdx hbounds hsemi hfits =>
    rw [List.drop_eq_getElem_cons hbounds.1, List.drop_eq_getElem_cons hbounds.2, consume,
      if_neg hsemi, if_neg hfits, if_neg (Nat.ne_of_lt hbounds.2)]
  | case4 j patternIdx hbounds =>
    by_cases hend : patternIdx = pattern.length
    · rw [if_pos hend, hend, List.drop_length, consume]
    · have hlt := Nat.lt_of_le_of_ne hle hend
      have hinput : tokens.length ≤ i + j := Nat.le_of_not_lt fun h => hbounds ⟨h, hlt⟩
      rw [if_neg hend, List.drop_eq_nil_of_le hinput, List.drop_eq_getElem_cons hlt, consume]

theorem findMatch_firstMatch (blacklist : List (List Token × List Token)) (tokens : List Token)
    (i : Nat) :
    firstMatch blacklist (tokens.drop i) =
      (findMatch tokens i blacklist).map fun found => (found.1, tokens.drop (i + found.2)) := by
  induction blacklist with
  | nil => rfl
  | cons entry blacklist ih =>
    obtain ⟨pattern, replacement⟩ := entry
    rw [firstMatch]
    simp only [findMatch]
    by_cases hempty : pattern = []
    · rw [if_pos hempty, if_pos (List.isEmpty_iff.mpr hempty), ih]
    rw [if_neg hempty, if_neg (mt List.isEmpty_iff.mp hempty)]
    have hconsume := matchLoop_consume tokens pattern i 0 (Nat.zero_le pattern.length)
    rw [List.drop_zero, Nat.add_zero] at hconsume
    rw [hconsume]
    by_cases hend : (matchLoop tokens pattern i 0 0).2 = pattern.length
    · rw [if_pos hend, if_pos hend]
      rfl
    · rw [if_neg hend, if_neg hend]
      exact ih

theorem replaceLoop_eq_scan (tokens : List Token) (i : Nat) (result : List Token) :
    replaceLoop blacklist tokens i result = result ++ scan blacklist (tokens.drop i) := by
  fun_induction replaceLoop blacklist tokens i result with
  | case1 i result hlt hsemi ih =>
    rw [ih, List.drop_eq_getElem_cons hlt, hsemi, scan_semiColon, List.append_assoc]
    rfl
  | case2 i result hlt hsemi replacement j hfind ih =>
    have hfirst := findMatch_firstMatch blacklist tokens i
    rw [hfind, List.drop_eq_getElem_cons hlt] at hfirst
    rw [ih, List.drop_eq_getElem_cons hlt, scan_of_some hsemi hfirst, List.append_assoc]
  | case3 i result hlt hsemi hfind ih =>
    have hfirst := findMatch_firstMatch blacklist tokens i
    rw [hfind, List.drop_eq_getElem_cons hlt] at hfirst
    rw [ih, List.drop_eq_getElem_cons hlt, scan_of_none hfirst, List.append_assoc]
    rfl
  | case4 i result hlt =>
    rw [List.drop_eq_nil_of_le (Nat.le_of_not_lt hlt), scan_nil, List.append_nil]

end Loops

section Specification
variable {blacklist : List (List Token × List Token)}

/-- Without semicolons the inner loop matches symbol by symbol. -/
theorem consume_eq_some_iff {pattern tokens rest : List Token} (hsemi : .semiColon ∉ tokens) :
    consume pattern tokens = some rest ↔
      ∃ matched, List.Forall₂ Token.Fits pattern matched ∧ tokens = matched ++ rest := by
  fun_induction consume pattern tokens with
  | case1 tokens =>
    constructor
    · intro h
      cases h
      exact ⟨[], .nil, rfl⟩
    · rintro ⟨matched, hfits, rfl⟩
      cases hfits
      rfl
  | case2 =>
    refine ⟨nofun, ?_⟩
    rintro ⟨matched, hfits, heq⟩
    cases hfits
    cases heq
  | case3 p pattern tokens ih => exact absurd List.mem_cons_self hsemi
  | case4 p pattern token tokens _ hfit ih =>
    rw [ih fun h => hsemi (List.mem_cons_of_mem _ h)]
    constructor
    · rintro ⟨matched, hfits, rfl⟩
      exact ⟨token :: matched, .cons hfit hfits, rfl⟩
    · rintro ⟨matched, hfits, heq⟩
      cases hfits with
      | cons _ hfits =>
        cases heq
        exact ⟨_, hfits, rfl⟩
  | case5 p pattern token tokens _ hfit =>
    refine ⟨nofun, ?_⟩
    rintro ⟨matched, hfits, heq⟩
    cases hfits with
    | cons hfit' _ =>
      cases heq
      exact absurd hfit' hfit

theorem consume_eq_none_iff {pattern tokens : List Token} (hsemi : .semiColon ∉ tokens) :
    consume pattern tokens = none ↔ ¬ Begins Token.Fits pattern tokens := by
  rw [Option.eq_none_iff_forall_ne_some]
  constructor
  · rintro h ⟨matched, rest, hbegins⟩
    exact h rest ((consume_eq_some_iff hsemi).mpr ⟨matched, hbegins⟩)
  · intro h rest hconsume
    obtain ⟨matched, hbegins⟩ := (consume_eq_some_iff hsemi).mp hconsume
    exact h ⟨matched, rest, hbegins⟩

theorem firstMatch_eq_none {tokens : List Token} (hsemi : .semiColon ∉ tokens)
    (h : firstMatch blacklist tokens = none) : NoneBegins Token.Fits blacklist tokens := by
  fun_induction firstMatch blacklist tokens with
  | case1 => exact nofun
  | case2 replacement blacklist tokens ih =>
    exact noneBegins_cons.mpr ⟨fun hne => absurd rfl hne, ih hsemi h⟩
  | case3 => cases h
  | case4 pattern replacement blacklist tokens _ hnone ih =>
    exact noneBegins_cons.mpr ⟨fun _ => (consume_eq_none_iff hsemi).mp hnone, ih hsemi h⟩

theorem firstMatch_eq_some {tokens replacement rest : List Token} (hsemi : .semiColon ∉ tokens)
    (h : firstMatch blacklist tokens = some (replacement, rest)) :
    FirstMatch Token.Fits blacklist tokens replacement rest := by
  fun_induction firstMatch blacklist tokens with
  | case1 => cases h
  | case2 _ _ _ ih => exact .later (fun hne => absurd rfl hne) (ih hsemi h)
  | case3 pattern _ _ tokens hne rest' hrest =>
    cases h
    obtain ⟨matched, hfits, rfl⟩ := (consume_eq_some_iff hsemi).mp hrest
    exact .here hne hfits
  | case4 _ _ _ _ _ hnone ih =>
    exact .later (fun _ => (consume_eq_none_iff hsemi).mp hnone) (ih hsemi h)

theorem replaced_scan {tokens : List Token} (hsemi : .semiColon ∉ tokens) :
    Replaced Token.Fits blacklist tokens (scan blacklist tokens) := by
  fun_induction scan blacklist tokens with
  | case1 => exact .done
  | case2 tokens ih => exact absurd List.mem_cons_self hsemi
  | case3 token tokens _ replacement rest hfirst ih =>
    have hrest : .semiColon ∉ rest := fun h => hsemi ((firstMatch_suffix hfirst).1.subset h)
    exact .replaced (firstMatch_eq_some hsemi hfirst) (ih hrest)
  | case4 token tokens _ hnone ih =>
    exact .copied (firstMatch_eq_none hsemi hnone) (ih fun h => hsemi (List.mem_cons_of_mem _ h))

/-- The loop computes the one replacement of the matches, leftmost first and without overlap, the
first pattern of the list winning. -/
theorem replaceLoop_eq_iff {tokens out : List Token} (hsemi : .semiColon ∉ tokens) :
    replaceLoop blacklist tokens 0 [] = out ↔ Replaced Token.Fits blacklist tokens out := by
  rw [replaceLoop_eq_scan, List.drop_zero, List.nil_append]
  constructor
  · rintro rfl
    exact replaced_scan hsemi
  · exact (replaced_scan hsemi).unique

def keywordToken (name : String) : Token := .word ⟨name, none, .other name⟩

/-- `AND $1`, where a second match would begin inside the first. -/
theorem replaceLoop_overlapping :
    replaceLoop [([keywordToken "AND", .placeholder "$1"], [keywordToken "OR"])]
        [keywordToken "AND", keywordToken "AND", keywordToken "AND"] 0 [] =
      [keywordToken "OR", keywordToken "AND"] := by
  refine (replaceLoop_eq_iff (by decide)).mpr (.replaced (@FirstMatch.here _ _ _ _ _
    [keywordToken "AND", keywordToken "AND"] [keywordToken "AND"] _ (by decide) ?_)
    (.copied ?_ .done))
  · exact .cons (.inr rfl) (.cons (.inl rfl) .nil)
  · intro entry hentry _ hbegins
    cases List.mem_singleton.mp hentry
    exact absurd hbegins.length_le (by decide)

end Specification
end PostgresCompatibilityParser
end DatafusionPostgres.Sql

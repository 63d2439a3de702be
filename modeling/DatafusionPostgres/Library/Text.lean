import Mathlib.Data.List.Basic
import Mathlib.Data.List.DropRight

/-! Trimming and reading of text, as Rust's `str` and `FromStr` do it. -/
namespace DatafusionPostgres.Library

/-- The Unicode property `White_Space`. -/
def isWhitespace (c : Char) : Bool :=
  let n := c.toNat
  (0x09 ≤ n && n ≤ 0x0D) || n == 0x20 || n == 0x85 || n == 0xA0 || n == 0x1680 ||
    (0x2000 ≤ n && n ≤ 0x200A) || n == 0x2028 || n == 0x2029 || n == 0x202F || n == 0x205F ||
    n == 0x3000

/-- `trim_matches`: matching characters go at both ends. -/
def trimMatches (p : Char → Bool) (cs : List Char) : List Char :=
  ((cs.dropWhile p).reverse.dropWhile p).reverse

/-- Nothing is trimmed off a text with other characters at both ends. -/
theorem trimMatches_eq_self {p : Char → Bool} {cs : List Char}
    (hhead : ∀ c, cs.head? = some c → p c = false)
    (hlast : ∀ c, cs.getLast? = some c → p c = false) : trimMatches p cs = cs := by
  have hdrop : cs.dropWhile p = cs := by
    cases cs with
    | nil => rfl
    | cons c cs => rw [List.dropWhile_cons_of_neg (by simp [hhead c rfl])]
  rw [trimMatches, hdrop]
  refine List.rdropWhile_eq_self_iff.mpr fun hne => ?_
  rw [hlast _ (List.getLast?_eq_some_getLast hne)]
  exact Bool.false_ne_true

theorem dropWhile_append_of_head {p : Char → Bool} {front back : List Char}
    (hback : ∃ c, back.head? = some c ∧ p c = false) :
    (front ++ back).dropWhile p = front.dropWhile p ++ back := by
  obtain ⟨c, hc, hp⟩ := hback
  have hkeep : back.dropWhile p = back := by
    cases back with
    | nil => rfl
    | cons d back =>
      rw [← Option.some.inj hc] at hp
      rw [List.dropWhile_cons_of_neg (by simp [hp])]
  rw [List.dropWhile_append, hkeep]
  split
  · rename_i hempty
    rw [List.isEmpty_iff.mp hempty, List.nil_append]
  · rfl

theorem dropWhile_append_of_mem {p : Char → Bool} {front back : List Char}
    (hfront : ∃ c ∈ front, p c = false) :
    (front ++ back).dropWhile p = front.dropWhile p ++ back := by
  have hne : (front.dropWhile p).isEmpty = false := by
    obtain ⟨c, hc, hp⟩ := hfront
    rw [List.isEmpty_eq_false_iff]
    intro hnil
    have hall := List.dropWhile_eq_nil_iff.mp hnil c hc
    rw [hp] at hall
    cases hall
  rw [List.dropWhile_append, hne, if_neg Bool.false_ne_true]

theorem rdropWhile_append_of_last {p : Char → Bool} {front back : List Char}
    (hfront : ∃ c, front.getLast? = some c ∧ p c = false) :
    (front ++ back).rdropWhile p = front ++ back.rdropWhile p := by
  obtain ⟨c, hc, hp⟩ := hfront
  rw [List.rdropWhile, List.reverse_append, dropWhile_append_of_head, List.reverse_append,
    List.reverse_reverse, List.rdropWhile]
  exact ⟨c, by rw [List.head?_reverse, hc], hp⟩

theorem rdropWhile_append_of_ne_nil {p : Char → Bool} {front back : List Char}
    (hback : back.rdropWhile p ≠ []) :
    (front ++ back).rdropWhile p = front ++ back.rdropWhile p := by
  have hne : (back.reverse.dropWhile p).isEmpty = false := by
    rw [List.isEmpty_eq_false_iff]
    exact fun h => hback (by rw [List.rdropWhile, h, List.reverse_nil])
  rw [List.rdropWhile, List.reverse_append, List.dropWhile_append, hne, if_neg Bool.false_ne_true,
    List.reverse_append, List.reverse_reverse, List.rdropWhile]

/-- Matching characters around a text with other characters at both ends are trimmed off. -/
theorem trimMatches_append {p : Char → Bool} {before middle after : List Char}
    (hbefore : ∀ c ∈ before, p c) (hafter : ∀ c ∈ after, p c)
    (hhead : ∃ c, middle.head? = some c ∧ p c = false)
    (hlast : ∃ c, middle.getLast? = some c ∧ p c = false) :
    trimMatches p (before ++ (middle ++ after)) = middle := by
  have hfront : ∃ c, (middle ++ after).head? = some c ∧ p c = false := by
    obtain ⟨c, hc, hp⟩ := hhead
    exact ⟨c, by rw [List.head?_append, hc]; rfl, hp⟩
  rw [trimMatches, dropWhile_append_of_head hfront, List.dropWhile_eq_nil_iff.mpr hbefore]
  change (middle ++ after).rdropWhile p = middle
  rw [rdropWhile_append_of_last hlast, List.rdropWhile_eq_nil_iff.mpr hafter, List.append_nil]

/-- All of a text is trimmed off if all of its characters match. -/
theorem trimMatches_eq_nil_iff {p : Char → Bool} {cs : List Char} :
    trimMatches p cs = [] ↔ ∀ c ∈ cs, p c := by
  rw [trimMatches]
  refine List.rdropWhile_eq_nil_iff.trans ⟨fun h c hc => ?_, fun h c hc => ?_⟩
  · rw [← List.takeWhile_append_dropWhile (p := p) (l := cs)] at hc
    rcases List.mem_append.mp hc with hc | hc
    · exact List.mem_takeWhile_imp hc
    · exact h c hc
  · exact h c ((List.dropWhile_sublist p).subset hc)

theorem isInfix_trimMatches (p : Char → Bool) (cs : List Char) : trimMatches p cs <:+: cs :=
  (List.rdropWhile_prefix p _).isInfix.trans (List.dropWhile_suffix p).isInfix

theorem last_trimMatches {p : Char → Bool} {cs : List Char} {c : Char}
    (hc : (trimMatches p cs).getLast? = some c) : p c = false := by
  have hne : (cs.dropWhile p).rdropWhile p ≠ [] := by
    intro hnil
    change ((cs.dropWhile p).rdropWhile p).getLast? = some c at hc
    rw [hnil] at hc
    cases hc
  have hlast := List.rdropWhile_last_not p _ hne
  rw [Bool.not_eq_true] at hlast
  rw [← Option.some.inj ((List.getLast?_eq_some_getLast hne).symm.trans hc)]
  exact hlast

theorem head_trimMatches {p : Char → Bool} {cs : List Char} {c : Char}
    (hc : (trimMatches p cs).head? = some c) : p c = false := by
  obtain ⟨rest, hrest⟩ := List.rdropWhile_prefix p (cs.dropWhile p)
  have hhead : (cs.dropWhile p).head? = some c := by
    rw [← hrest, List.head?_append]
    change (trimMatches p cs).head?.or _ = some c
    rw [hc]
    rfl
  have hnot := List.head?_dropWhile_not p cs
  rw [hhead] at hnot
  exact hnot

/-- A character that does not match is not trimmed off. -/
theorem mem_trimMatches {p : Char → Bool} {cs : List Char} {c : Char} (hp : p c = false)
    (hc : c ∈ cs) : c ∈ trimMatches p cs := by
  have hdrop : ∀ {ds : List Char}, c ∈ ds → c ∈ ds.dropWhile p := by
    intro ds hds
    rw [← List.takeWhile_append_dropWhile (p := p) (l := ds)] at hds
    rcases List.mem_append.mp hds with hds | hds
    · rw [List.mem_takeWhile_imp hds] at hp
      cases hp
    · exact hds
  exact List.mem_reverse.mpr (hdrop (List.mem_reverse.mpr (hdrop hc)))

section Intercalate
variable {sep : List Char} {pieces : List (List Char)}

theorem infix_intercalate {piece : List Char} (h : piece ∈ pieces) :
    piece <:+: sep.intercalate pieces := by
  induction pieces with
  | nil => exact absurd h List.not_mem_nil
  | cons first pieces ih =>
    by_cases hpieces : pieces = []
    · subst hpieces
      have hone : piece = sep.intercalate [first] := by
        rw [List.intercalate_singleton, List.mem_singleton.mp h]
      exact (congrArg (piece <:+: ·) hone).mp (List.infix_refl piece)
    · rw [List.intercalate_cons_of_ne_nil hpieces]
      rcases List.mem_cons.mp h with rfl | h
      · rw [List.append_assoc]
        exact (List.prefix_append _ _).isInfix
      · exact (ih h).trans (List.suffix_append _ _).isInfix

theorem mem_or_mem_of_mem_intercalate {c : Char} (h : c ∈ sep.intercalate pieces) :
    c ∈ sep ∨ ∃ piece ∈ pieces, c ∈ piece := by
  induction pieces with
  | nil => exact absurd h List.not_mem_nil
  | cons first pieces ih =>
    by_cases hpieces : pieces = []
    · subst hpieces
      rw [List.intercalate_singleton] at h
      exact .inr ⟨first, List.mem_cons_self, h⟩
    · rw [List.intercalate_cons_of_ne_nil hpieces, List.append_assoc] at h
      rcases List.mem_append.mp h with h | h
      · exact .inr ⟨first, List.mem_cons_self, h⟩
      rcases List.mem_append.mp h with h | h
      · exact .inl h
      · obtain hsep | ⟨piece, hpiece, hc⟩ := ih h
        · exact .inl hsep
        · exact .inr ⟨piece, List.mem_cons_of_mem _ hpiece, hc⟩

end Intercalate

/-- A text without the copies of `pattern` in front of it; `n` bounds their number. -/
def dropCopies (pattern : List Char) : Nat → List Char → List Char
  | 0, cs => cs
  | n + 1, cs =>
    if pattern.isPrefixOf cs then dropCopies pattern n (cs.drop pattern.length) else cs

/-- `trim_end_matches` with a nonempty pattern. -/
def trimEndMatches (pattern cs : List Char) : List Char :=
  (dropCopies pattern.reverse cs.length cs.reverse).reverse

def endsWith (cs pattern : List Char) : Bool := pattern.isSuffixOf cs

/-- `parse` for an unsigned type below `bound`: an optional plus, then digits only. -/
def parseUnsigned (bound : Nat) (cs : List Char) : Option Nat :=
  let digits := match cs with
    | '+' :: ds => ds
    | ds => ds
  if digits.isEmpty || !digits.all Char.isDigit then none
  else
    let n := digits.foldl (fun n d => n * 10 + (d.toNat - '0'.toNat)) 0
    if n < bound then some n else none

def digitsValue (digits : List Char) : Nat :=
  digits.foldl (fun n d => n * 10 + (d.toNat - '0'.toNat)) 0

theorem parseUnsigned_digits {bound : Nat} {cs : List Char} (hne : cs ≠ [])
    (hdigits : ∀ c ∈ cs, c.isDigit) :
    parseUnsigned bound cs = if digitsValue cs < bound then some (digitsValue cs) else none := by
  have hall : cs.all Char.isDigit = true := List.all_eq_true.mpr hdigits
  have hempty : cs.isEmpty = false := List.isEmpty_eq_false_iff.mpr hne
  unfold parseUnsigned
  split
  · exact absurd (hdigits '+' List.mem_cons_self) (by decide)
  · simp only [hempty, hall, Bool.not_true, Bool.or_self, Bool.false_eq_true, if_false]
    rfl

/-- The decimal text of a number is read back, if the number is below the bound. -/
theorem parseUnsigned_toDigits (bound n : Nat) :
    parseUnsigned bound (Nat.toDigits 10 n) = if n < bound then some n else none := by
  have hdigit : ∀ c ∈ Nat.toDigits 10 n, c.isDigit = true :=
    fun c hc => Nat.isDigit_of_mem_toDigits (by decide) (by decide) hc
  have hplus : ∀ ds, Nat.toDigits 10 n ≠ '+' :: ds := by
    intro ds heq
    have hc := hdigit '+' (by rw [heq]; exact List.mem_cons_self)
    exact absurd hc (by decide)
  have hvalue : (Nat.toDigits 10 n).foldl (fun m d => m * 10 + (d.toNat - '0'.toNat)) 0 = n := by
    have h := Nat.ofDigitChars_ten_toDigits (n := n)
    rw [Nat.ofDigitChars_eq_foldl] at h
    simpa only [Nat.mul_comm] using h
  have hall : (Nat.toDigits 10 n).all Char.isDigit = true := List.all_eq_true.mpr hdigit
  have hne : (Nat.toDigits 10 n).isEmpty = false := by
    rw [List.isEmpty_eq_false_iff]
    exact Nat.toDigits_ne_nil
  unfold parseUnsigned
  split
  · rename_i ds heq
    exact absurd heq (hplus ds)
  · simp only [hne, hall, hvalue, Bool.not_true, Bool.or_self, Bool.false_eq_true, if_false]

/-- Digits for the number, with a plus in front or without. -/
def IsNumeral (cs : List Char) (n : Nat) : Prop :=
  ∃ digits : List Char, digits ≠ [] ∧ (∀ c ∈ digits, c.isDigit) ∧
    (cs = digits ∨ cs = '+' :: digits) ∧ n = digitsValue digits

/-- The digits after the point. -/
inductive FractionText : List Char → List Char → Prop
  | none : FractionText [] []
  | point (digits : List Char) : FractionText ('.' :: digits) digits

inductive ExponentText : List Char → Int → Prop
  | none : ExponentText [] 0
  | positive {e : Char} {sign digits : List Char} (he : e = 'e' ∨ e = 'E')
    (hsign : sign = [] ∨ sign = ['+']) (hne : digits ≠ []) (hdigits : ∀ c ∈ digits, c.isDigit) :
    ExponentText (e :: (sign ++ digits)) (digitsValue digits)
  | negative {e : Char} {digits : List Char} (he : e = 'e' ∨ e = 'E') (hne : digits ≠ [])
    (hdigits : ∀ c ∈ digits, c.isDigit) :
    ExponentText (e :: '-' :: digits) (-(digitsValue digits : Int))

section Numerals
variable {cs rest rest' : List Char} {m n : Nat}

theorem parseUnsigned_eq_some_iff {bound : Nat} :
    parseUnsigned bound cs = some n ↔ IsNumeral cs n ∧ n < bound := by
  have hread : ∀ digits : List Char,
      (if digits.isEmpty || !digits.all Char.isDigit then none
        else if digitsValue digits < bound then some (digitsValue digits) else none) = some n ↔
      (digits ≠ [] ∧ (∀ c ∈ digits, c.isDigit) ∧ n = digitsValue digits) ∧ n < bound := by
    intro digits
    split
    · rename_i hbad
      refine iff_of_false (by rintro ⟨⟩) fun h => ?_
      rw [Bool.or_eq_true, Bool.not_eq_true', List.isEmpty_iff] at hbad
      rcases hbad with hempty | hdigits
      · exact h.1.1 hempty
      · exact Bool.false_ne_true (hdigits.symm.trans (List.all_eq_true.mpr h.1.2.1))
    · rename_i hgood
      rw [Bool.or_eq_true, Bool.not_eq_true', not_or, Bool.not_eq_false, List.isEmpty_iff,
        List.all_eq_true] at hgood
      split
      · rename_i hlt
        constructor
        · intro h
          cases h
          exact ⟨⟨hgood.1, hgood.2, rfl⟩, hlt⟩
        · rintro ⟨⟨-, -, rfl⟩, -⟩
          rfl
      · rename_i hge
        refine iff_of_false (by rintro ⟨⟩) ?_
        rintro ⟨⟨-, -, rfl⟩, hlt⟩
        exact hge hlt
  have hplus : ∀ ds : List Char, ¬ ∀ c ∈ '+' :: ds, c.isDigit := fun ds hdigits =>
    absurd (hdigits '+' List.mem_cons_self) (by decide)
  unfold parseUnsigned
  split
  · rename_i ds
    refine (hread ds).trans (and_congr_left fun _ => ⟨?_, ?_⟩)
    · exact fun ⟨hne, hdigits, hn⟩ => ⟨ds, hne, hdigits, .inr rfl, hn⟩
    · rintro ⟨digits, hne, hdigits, rfl | heq, hn⟩
      · exact absurd hdigits (hplus ds)
      · cases heq
        exact ⟨hne, hdigits, hn⟩
  · rename_i hnot
    refine (hread cs).trans (and_congr_left fun _ => ⟨?_, ?_⟩)
    · exact fun ⟨hne, hdigits, hn⟩ => ⟨cs, hne, hdigits, .inl rfl, hn⟩
    · rintro ⟨digits, hne, hdigits, rfl | rfl, hn⟩
      · exact ⟨hne, hdigits, hn⟩
      · exact absurd rfl (hnot digits)

theorem IsNumeral.getLast (h : IsNumeral cs n) : ∃ c, cs.getLast? = some c ∧ c.isDigit := by
  obtain ⟨digits, hne, hdigits, hcs, -⟩ := h
  refine ⟨digits.getLast hne, ?_, hdigits _ (List.getLast_mem hne)⟩
  rcases hcs with rfl | rfl
  · exact List.getLast?_eq_some_getLast hne
  · rw [List.getLast?_cons, List.getLast?_eq_some_getLast hne]
    rfl

private theorem span_digits {digits digits' : List Char} (hdigits : ∀ c ∈ digits, c.isDigit)
    (hdigits' : ∀ c ∈ digits', c.isDigit) (hrest : ∀ c, rest.head? = some c → c.isDigit = false)
    (hrest' : ∀ c, rest'.head? = some c → c.isDigit = false)
    (heq : digits ++ rest = digits' ++ rest') : digits = digits' ∧ rest = rest' := by
  have hspan : ∀ {ds rest : List Char}, (∀ c ∈ ds, c.isDigit) →
      (∀ c, rest.head? = some c → c.isDigit = false) →
      (ds ++ rest).takeWhile Char.isDigit = ds := by
    intro ds rest hds hrest
    rw [List.takeWhile_append_of_pos hds]
    cases rest with
    | nil => exact List.append_nil ds
    | cons c rest =>
      rw [List.takeWhile_cons_of_neg (by simp [hrest c rfl]), List.append_nil]
  have hsame : digits = digits' := by
    rw [← hspan hdigits hrest, heq, hspan hdigits' hrest']
  rw [hsame] at heq
  exact ⟨hsame, List.append_cancel_left heq⟩

/-- A numeral ends where its digits end. -/
theorem IsNumeral.unique {cs' : List Char} (h : IsNumeral cs m) (h' : IsNumeral cs' n)
    (hrest : ∀ c, rest.head? = some c → c.isDigit = false)
    (hrest' : ∀ c, rest'.head? = some c → c.isDigit = false)
    (heq : cs ++ rest = cs' ++ rest') : m = n ∧ rest = rest' := by
  obtain ⟨digits, hne, hdigits, hcs, rfl⟩ := h
  obtain ⟨digits', hne', hdigits', hcs', rfl⟩ := h'
  have hplus : ∀ {ds tail : List Char}, ds ≠ [] → (∀ c ∈ ds, c.isDigit) →
      ∀ ds' tail', ds ++ tail ≠ '+' :: ds' ++ tail' := by
    intro ds tail hne hds ds' tail' heq
    obtain ⟨d, ds, rfl⟩ := List.exists_cons_of_ne_nil hne
    have hd := hds d List.mem_cons_self
    rw [(List.cons.inj heq).1] at hd
    exact absurd hd (by decide)
  rcases hcs with rfl | rfl <;> rcases hcs' with rfl | rfl
  · obtain ⟨rfl, hsame⟩ := span_digits hdigits hdigits' hrest hrest' heq
    exact ⟨rfl, hsame⟩
  · exact absurd heq (hplus hne hdigits _ _)
  · exact absurd heq.symm (hplus hne' hdigits' _ _)
  · obtain ⟨rfl, hsame⟩ := span_digits hdigits hdigits' hrest hrest' (List.cons.inj heq).2
    exact ⟨rfl, hsame⟩

end Numerals

/-- A pattern, `k` times. -/
def copies (pattern : List Char) (k : Nat) : List Char := (List.replicate k pattern).flatten

section Copies
variable {pattern : List Char}

theorem copies_succ (k : Nat) : copies pattern (k + 1) = pattern ++ copies pattern k := by
  rw [copies, List.replicate_succ, List.flatten_cons]
  rfl

theorem copies_succ' (k : Nat) : copies pattern (k + 1) = copies pattern k ++ pattern := by
  rw [copies, List.replicate_succ', List.flatten_append, List.flatten_singleton]
  rfl

private theorem reverse_copies (k : Nat) : (copies pattern k).reverse = copies pattern.reverse k := by
  induction k with
  | zero => rfl
  | succ k ih => rw [copies_succ, copies_succ', List.reverse_append, ih]

private theorem length_copies (k : Nat) : (copies pattern k).length = k * pattern.length := by
  rw [copies, List.length_flatten, List.map_replicate, List.sum_replicate_nat]

private theorem exists_copies_dropCopies (pattern : List Char) (n : Nat) (cs : List Char) :
    ∃ k, cs = copies pattern k ++ dropCopies pattern n cs := by
  induction n generalizing cs with
  | zero => exact ⟨0, rfl⟩
  | succ n ih =>
    rw [dropCopies]
    split
    · rename_i hpre
      obtain ⟨tail, rfl⟩ := List.isPrefixOf_iff_prefix.mp hpre
      obtain ⟨k, hk⟩ := ih tail
      refine ⟨k + 1, ?_⟩
      rw [List.drop_left, copies_succ, List.append_assoc, ← hk]
    · exact ⟨0, rfl⟩

private theorem dropCopies_copies {rest : List Char} (hrest : ¬ pattern <+: rest) {k n : Nat}
    (hn : k ≤ n) : dropCopies pattern n (copies pattern k ++ rest) = rest := by
  induction k generalizing n with
  | zero =>
    cases n with
    | zero => rfl
    | succ n =>
      change dropCopies pattern (n + 1) rest = rest
      rw [dropCopies, if_neg fun hpre => hrest (List.isPrefixOf_iff_prefix.mp hpre)]
  | succ k ih =>
    obtain ⟨n, rfl⟩ := Nat.exists_eq_add_of_lt hn
    rw [show k + n + 1 = (k + n) + 1 from rfl, dropCopies, copies_succ, List.append_assoc,
      if_pos (List.isPrefixOf_iff_prefix.mpr (List.prefix_append _ _)), List.drop_left]
    exact ih (Nat.le_add_right k n)

/-- What is trimmed off are copies of the pattern. -/
theorem exists_copies_trimEndMatches (pattern cs : List Char) :
    ∃ k, cs = trimEndMatches pattern cs ++ copies pattern k := by
  obtain ⟨k, hk⟩ := exists_copies_dropCopies pattern.reverse cs.length cs.reverse
  refine ⟨k, ?_⟩
  have hrev := congrArg List.reverse hk
  rw [List.reverse_reverse, List.reverse_append, reverse_copies, List.reverse_reverse] at hrev
  exact hrev

theorem trimEndMatches_copies {front : List Char} (hne : pattern ≠ [])
    (hfront : ¬ pattern <:+ front) (k : Nat) :
    trimEndMatches pattern (front ++ copies pattern k) = front := by
  have hpos : 0 < pattern.length := List.length_pos_of_ne_nil hne
  rw [trimEndMatches, List.reverse_append, reverse_copies, dropCopies_copies, List.reverse_reverse]
  · exact fun hpre => hfront (List.reverse_prefix.mp hpre)
  · rw [List.length_append, length_copies]
    exact (Nat.le_mul_of_pos_right k hpos).trans (Nat.le_add_left _ _)

end Copies

section Utf8

private theorem toList_loop (b : ByteArray) (i : Nat) (front : List UInt8)
    (hfront : front.reverse = b.data.toList.take i) :
    ByteArray.toList.loop b i front = b.data.toList := by
  induction h : b.size - i generalizing i front with
  | zero =>
    have hend : b.data.toList.length ≤ i := Nat.sub_eq_zero_iff_le.mp h
    unfold ByteArray.toList.loop
    rw [if_neg (by omega), hfront]
    exact List.take_of_length_le hend
  | succ n ih =>
    have hi : i < b.size := by omega
    have hget : b.get! i = b.data.toList[i] := getElem!_pos b.data i hi
    unfold ByteArray.toList.loop
    rw [if_pos hi]
    refine ih (i + 1) _ ?_ (by omega)
    rw [List.reverse_cons, hfront, hget, List.take_append_getElem]

theorem toList_byteArray (b : ByteArray) : b.toList = b.data.toList := toList_loop b 0 [] rfl

/-- No byte of a character outside of ASCII is an ASCII byte. -/
theorem utf8EncodeChar_high {c : Char} (hc : 128 ≤ c.val.toNat) :
    ∀ byte ∈ String.utf8EncodeChar c, 128 ≤ byte.toNat := by
  have hbyte : ∀ n k : Nat, 128 ≤ k → n + k < 256 → 128 ≤ (UInt8.ofNat (n + k)).toNat := by
    intro n k hk hlt
    rw [UInt8.toNat_ofNat_of_lt' hlt]
    exact Nat.le_add_left_of_le hk
  unfold String.utf8EncodeChar
  dsimp only
  rw [if_neg (by omega)]
  split
  · simp only [List.forall_mem_cons]
    exact ⟨hbyte _ _ (by decide) (by omega), hbyte _ _ (by decide) (by omega), nofun⟩
  · split
    · simp only [List.forall_mem_cons]
      exact ⟨hbyte _ _ (by decide) (by omega), hbyte _ _ (by decide) (by omega),
        hbyte _ _ (by decide) (by omega), nofun⟩
    · simp only [List.forall_mem_cons]
      exact ⟨hbyte _ _ (by decide) (by omega), hbyte _ _ (by decide) (by omega),
        hbyte _ _ (by decide) (by omega), hbyte _ _ (by decide) (by omega), nofun⟩

end Utf8
end DatafusionPostgres.Library

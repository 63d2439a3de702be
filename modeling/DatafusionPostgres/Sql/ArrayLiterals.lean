import DatafusionPostgres.Sql.ArrayItems
import DatafusionPostgres.Sql.ArrayReaders
import Mathlib.Algebra.Field.Rat

/-! The elements that a cast of an array literal is given, printed and read again: literals of
the values that the array text stands for, or something else. -/
namespace DatafusionPostgres.Sql
open DatafusionPostgres.Library

/-- `Display` of a value. -/
def Value.display : Value → String
  | .number digits long => digits ++ (if long then "L" else "")
  | .singleQuotedString text => String.ofList (singleQuote ::
      (escapeQuotedString singleQuote (Char.ofNat 0) text.toList ++ [singleQuote]))
  | .placeholder name => name
  | .boolean b => toString b
  | .null => "NULL"
  | .other display => display

def printedValue? : Expr → Option (List Char)
  | .mk (.value v) => some v.display.toList
  | _ => none

/-- The elements of the array that is cast. -/
def castElements? : Expr → Option (List Expr)
  | .mk (.cast _ (.mk (.array elem _)) _ _) => some elem
  | _ => none

section Numbers

inductive SignText : List Char → ℚ → Prop
  | none : SignText [] 1
  | plus : SignText ['+'] 1
  | minus : SignText ['-'] (-1)

/-- The decimal texts of a number. -/
inductive NumberText : List Char → ℚ → Prop
  | mk {sign whole fraction digits exponent : List Char} {factor : ℚ} {power : ℤ}
    (hsign : SignText sign factor) (hfraction : FractionText fraction digits)
    (hexponent : ExponentText exponent power) (hne : whole ++ digits ≠ [])
    (hdigits : ∀ c ∈ whole ++ digits, c.isDigit) :
    NumberText (sign ++ (whole ++ (fraction ++ exponent)))
      (factor * digitsValue (whole ++ digits) * 10 ^ (power - digits.length))

end Numbers

/-- The types whose simple elements have values here. -/
inductive ElementKind
  | number
  | boolean
  | date
  | name
  | uuid

inductive ElementValue
  | number (q : ℚ)
  | boolean (b : Bool)
  | date (year month day : Nat)
  | text (cs : List Char)
  | uuid (digits : List Char)

def isHexDigit (c : Char) : Bool :=
  c.isDigit || ('a' ≤ c && c ≤ 'f') || ('A' ≤ c && c ≤ 'F')

def daysOfMonth (year month : Nat) : Nat :=
  if month = 2 then
    if year % 4 = 0 ∧ (year % 100 ≠ 0 ∨ year % 400 = 0) then 29 else 28
  else if month ∈ [4, 6, 9, 11] then 30 else 31

/-- The value of a simple element without quotes. -/
inductive Reads : ElementKind → List Char → ElementValue → Prop
  | number {s : List Char} {q : ℚ} (h : NumberText s q) : Reads .number s (.number q)
  | true : Reads .boolean ['t'] (.boolean true)
  | false : Reads .boolean ['f'] (.boolean false)
  | date {sep year month day : List Char} (hsep : sep = [] ∨ sep = ['-'])
    (hlengths : [year, month, day].map List.length = [4, 2, 2])
    (hdigits : ∀ part ∈ [year, month, day], ∀ c ∈ part, c.isDigit)
    (hyear : 1 ≤ digitsValue year) (hmonth : 1 ≤ digitsValue month ∧ digitsValue month ≤ 12)
    (hday : 1 ≤ digitsValue day ∧
      digitsValue day ≤ daysOfMonth (digitsValue year) (digitsValue month)) :
    Reads .date (sep.intercalate [year, month, day])
      (.date (digitsValue year) (digitsValue month) (digitsValue day))
  | name {s : List Char} : Reads .name s (.text s)
  | uuid {sep : List Char} {groups : List (List Char)} (hsep : sep = [] ∨ sep = ['-'])
    (hlengths : groups.map List.length = [8, 4, 4, 4, 12])
    (hhex : ∀ group ∈ groups, ∀ c ∈ group, isHexDigit c) :
    Reads .uuid (sep.intercalate groups) (.uuid (groups.flatten.map Char.toLower))

section Kinds
variable (kinds : String → Option ElementKind)

/-- The kind of a type; those that are no text types are known by name. -/
def typeKind? : DataType → Option ElementKind
  | .text | .varchar _ | .char _ | .string _ => some .name
  | .array _ => none
  | .other display => kinds display

def elementKind? : ArrayElemTypeDef → Option ElementKind
  | .angleBracket elem | .squareBracket elem _ | .parenthesis elem => typeKind? kinds elem
  | .none => none

end Kinds

/-- What a literal of SQL stands for. -/
inductive LiteralValue
  | number (q : ℚ)
  | text (cs : List Char)
  | boolean (b : Bool)
  | null
  | other

/-- The tokenizer of SQL, on the texts that it makes a single literal of. -/
structure LiteralReader where
  read : List Char → Option LiteralValue
  quoted : ∀ body, read (singleQuote :: (body ++ [singleQuote])) = (unquoted body).map .text
  number : ∀ {s q l}, NumberText s q → read s = some l → l = .number q
  delimited : ∀ {s t}, read s = some (.text t) →
    t.length < s.length ∧ (singleQuote ∈ s ∨ '$' ∈ s)
  letters : read ['t'] = none ∧ read ['f'] = none
  braced : ∀ {s l}, s.head? = some '{' ∨ s.getLast? = some '}' → read s = some l → l = .other

/-- A literal in an array of the kind stands for the value. -/
inductive Denotes : ElementKind → LiteralValue → ElementValue → Prop
  | number {q : ℚ} : Denotes .number (.number q) (.number q)
  | boolean {b : Bool} : Denotes .boolean (.boolean b) (.boolean b)
  | text {kind : ElementKind} {t : List Char} {v : ElementValue} (h : Reads kind t v) :
    Denotes kind (.text t) v

section Literals
variable (reader : LiteralReader)

/-- The single literal that the expression is printed as. -/
def printedLiteral? (e : Expr) : Option LiteralValue := printedValue? e >>= reader.read

variable (kinds : String → Option ElementKind) (arr : ArrayElemTypeDef) (text : String)

/-- The text is an array of simple elements of the type, with these values. -/
def ArrayOf (kind : ElementKind) (elements : List (List Char)) (values : List ElementValue) :
    Prop :=
  elementKind? kinds arr = some kind ∧ ArrayText text.toList elements ∧
    List.Forall₂ (Reads kind) elements values

/-- Array literals stay data: every element is printed as one literal, that of the element. -/
def StaysData (rest : Rest Node) : Prop :=
  ∃ elems, castElements? (FixArrayLiteral.preVisitExpr
      (.mk (.cast .doubleColon (literal text) (.array arr) rest))) = some elems ∧
    (∀ elem ∈ elems, (printedLiteral? reader elem).isSome) ∧
    ∀ kind elements values, ArrayOf kinds arr text kind elements values →
      List.Forall₂ (fun elem v => ∃ l, printedLiteral? reader elem = some l ∧ Denotes kind l v)
        elems values

/-- An array of texts needs no more than quotes that can be doubled; any other array has to hold
literals already, and of numbers only. -/
structure PlainArray : Prop where
  quotes : FixArrayLiteral.isText arr → ¬ OddQuotes text.toList
  verbatim : FixArrayLiteral.isText arr = false →
    ∀ item ∈ arrayItems text.toList, (reader.read item.toList).isSome
  elements : ∀ kind elements values, ArrayOf kinds arr text kind elements values →
    ¬ InnerBrace text.toList ∧
      (FixArrayLiteral.isText arr ∨ kind = .number ∨ elements = [])

section Printed
variable {reader arr}

private theorem printedLiteral_text (harr : FixArrayLiteral.isText arr) (item : String) :
    printedLiteral? reader (FixArrayLiteral.arrayElem arr item) =
      (unquoted (escapeQuotedString singleQuote (Char.ofNat 0) item.toList)).map .text := by
  rw [FixArrayLiteral.arrayElem, if_pos harr, ← reader.quoted]
  exact congrArg reader.read String.toList_ofList

private theorem printedLiteral_verbatim (harr : FixArrayLiteral.isText arr = false)
    (item : String) :
    printedLiteral? reader (FixArrayLiteral.arrayElem arr item) = reader.read item.toList := by
  rw [FixArrayLiteral.arrayElem, harr]
  exact congrArg (fun printed : String => reader.read printed.toList) String.append_empty

private theorem printedLiteral_plain (harr : FixArrayLiteral.isText arr) {item : String}
    (hitem : singleQuote ∉ item.toList) :
    printedLiteral? reader (FixArrayLiteral.arrayElem arr item) = some (.text item.toList) := by
  rw [printedLiteral_text harr, escape_of_notMem hitem, unquoted_of_notMem hitem]
  rfl

private theorem printedLiterals_isSome :
    (∀ elem ∈ (arrayItems text.toList).map (FixArrayLiteral.arrayElem arr),
        (printedLiteral? reader elem).isSome) ↔
      (FixArrayLiteral.isText arr → ¬ OddQuotes text.toList) ∧
        (FixArrayLiteral.isText arr = false →
          ∀ item ∈ arrayItems text.toList, (reader.read item.toList).isSome) := by
  rw [List.forall_mem_map]
  cases harr : FixArrayLiteral.isText arr with
  | true =>
    simp only [true_implies, Bool.true_eq_false, false_implies, and_true]
    rw [← oddQuotes_arrayItems, not_exists]
    refine forall_congr' fun item => ?_
    rw [not_and, printedLiteral_text harr, Option.isSome_map, unquoted_escape_isSome]
    exact imp_congr_right fun _ => not_congr (oddQuotes_cons.trans
      (or_iff_right fun h => absurd h.1 (by decide)))
  | false =>
    simp only [Bool.false_eq_true, false_implies, true_and, true_implies]
    exact forall₂_congr fun item _ => by rw [printedLiteral_verbatim harr]

private theorem elementKind_of_isText (harr : FixArrayLiteral.isText arr) :
    elementKind? kinds arr = some .name := by
  have hstring : ∀ elem, FixArrayLiteral.isStringType elem → typeKind? kinds elem = some .name := by
    intro elem helem
    cases elem with
    | text => rfl
    | varchar => rfl
    | char => rfl
    | string => rfl
    | array => cases helem
    | other => cases helem
  cases arr with
  | none => cases harr
  | angleBracket elem => exact hstring elem harr
  | squareBracket elem => exact hstring elem harr
  | parenthesis elem => exact hstring elem harr

end Printed

section Elements
variable {reader kinds arr text}
variable {kind : ElementKind} {elements : List (List Char)} {values : List ElementValue}

private theorem notMem_simple {element : List Char} (h : SimpleElement element) :
    singleQuote ∉ element := fun hmem => h.plain _ hmem (by decide)

private theorem not_denotes_verbatim {element : List Char} {v : ElementValue} {l : LiteralValue}
    (hsimple : SimpleElement element) (hkind : kind ≠ .number) (hreads : Reads kind element v)
    (hread : reader.read element = some l) : ¬ Denotes kind l v := by
  intro hdenotes
  cases hdenotes with
  | number => exact hkind rfl
  | boolean =>
    cases hreads with
    | true => exact absurd (reader.letters.1.symm.trans hread) nofun
    | false => exact absurd (reader.letters.2.symm.trans hread) nofun
  | text htext =>
    obtain ⟨hlength, hdelimiter⟩ := reader.delimited hread
    have hdollar := hdelimiter.resolve_left (notMem_simple hsimple)
    have hparts : ∀ {sep : List Char} {parts : List (List Char)} {p : Char → Bool},
        sep = [] ∨ sep = ['-'] → (∀ part ∈ parts, ∀ c ∈ part, p c) → p '$' = false →
        '$' ∉ sep.intercalate parts := by
      intro sep parts p hsep hparts hp hmem
      rcases mem_or_mem_of_mem_intercalate hmem with hmem | ⟨part, hpart, hc⟩
      · rcases hsep with rfl | rfl <;> exact absurd hmem (by decide)
      · rw [hparts part hpart _ hc] at hp
        cases hp
    cases hreads with
    | number => exact hkind rfl
    | true => exact absurd hdollar (by decide)
    | false => exact absurd hdollar (by decide)
    | date hsep _ hdigits => exact hparts hsep hdigits (by decide) hdollar
    | name =>
      cases htext
      exact Nat.lt_irrefl _ hlength
    | uuid hsep _ hhex => exact hparts hsep hhex (by decide) hdollar

private theorem elems_of_noBrace (hof : ArrayOf kinds arr text kind elements values)
    (hbrace : ¬ InnerBrace text.toList) :
    (arrayItems text.toList).map (FixArrayLiteral.arrayElem arr) =
      elements.map fun element => FixArrayLiteral.arrayElem arr (String.ofList element) := by
  rw [arrayItems_arrayText hof.2.1 hbrace, List.map_map]
  rfl

private theorem denotes_of_plainArray (h : PlainArray reader kinds arr text)
    (hof : ArrayOf kinds arr text kind elements values) :
    List.Forall₂ (fun elem v => ∃ l, printedLiteral? reader elem = some l ∧ Denotes kind l v)
      ((arrayItems text.toList).map (FixArrayLiteral.arrayElem arr)) values := by
  obtain ⟨hbrace, hcases⟩ := h.elements kind elements values hof
  have hverbatim := h.verbatim
  rw [arrayItems_arrayText hof.2.1 hbrace, List.forall_mem_map] at hverbatim
  rw [elems_of_noBrace hof hbrace, List.forall₂_map_left_iff]
  have hreads := (List.forall₂_and_left _ _).mpr ⟨fun _ h => h, hof.2.2⟩
  refine hreads.imp fun element v ⟨helement, hreads⟩ => ?_
  have hsimple := hof.2.1.simple element helement
  cases harr : FixArrayLiteral.isText arr with
  | true =>
    refine ⟨_, printedLiteral_plain harr ?_, .text ?_⟩
    · rw [String.toList_ofList]
      exact notMem_simple hsimple
    · rw [String.toList_ofList]
      exact hreads
  | false =>
    rw [harr] at hcases
    rcases hcases with hcases | rfl | rfl
    · cases hcases
    · cases hreads with
      | number hnumber =>
        obtain ⟨l, hl⟩ := Option.isSome_iff_exists.mp (hverbatim harr element helement)
        rw [String.toList_ofList] at hl
        refine ⟨l, ?_, ?_⟩
        · rw [printedLiteral_verbatim harr, String.toList_ofList]
          exact hl
        · rw [reader.number hnumber hl]
          exact .number
    · exact absurd helement List.not_mem_nil

private theorem forall₂_mem_left {α β : Type} {R : α → β → Prop} {as : List α} {bs : List β}
    (h : List.Forall₂ R as bs) {a : α} (ha : a ∈ as) : ∃ b ∈ bs, R a b := by
  induction h with
  | nil => exact absurd ha List.not_mem_nil
  | cons hab _ ih =>
    rcases List.mem_cons.mp ha with rfl | ha
    · exact ⟨_, List.mem_cons_self, hab⟩
    · obtain ⟨b, hb, hab⟩ := ih ha
      exact ⟨b, List.mem_cons_of_mem _ hb, hab⟩

private theorem noBrace_of_denotes (hof : ArrayOf kinds arr text kind elements values)
    (hdenotes : List.Forall₂
      (fun elem v => ∃ l, printedLiteral? reader elem = some l ∧ Denotes kind l v)
      ((arrayItems text.toList).map (FixArrayLiteral.arrayElem arr)) values) :
    ¬ InnerBrace text.toList := by
  intro hinner
  obtain ⟨item, hitem, hbrace⟩ : ∃ item ∈ arrayItems text.toList,
      '{' ∈ item.toList ∨ '}' ∈ item.toList := by
    rcases hinner with hinner | hinner
    · obtain ⟨item, hitem, hbrace⟩ := exists_arrayItem hinner (by decide) (by decide)
      exact ⟨item, hitem, .inl hbrace⟩
    · obtain ⟨item, hitem, hbrace⟩ := exists_arrayItem hinner (by decide) (by decide)
      exact ⟨item, hitem, .inr hbrace⟩
  obtain ⟨v, hv, l, hl, hdenotes⟩ := forall₂_mem_left hdenotes (List.mem_map_of_mem hitem)
  cases harr : FixArrayLiteral.isText arr with
  | false =>
    rw [printedLiteral_verbatim harr] at hl
    rw [reader.braced (arrayItem_brace hof.2.1 hitem hbrace) hl] at hdenotes
    cases hdenotes
  | true =>
    have hquote : singleQuote ∉ item.toList := fun hmem =>
      notMem_arrayText hof.2.1 (by decide) ((isInfix_of_mem_arrayItems hitem).subset hmem)
    rw [printedLiteral_plain harr hquote] at hl
    cases hl
    obtain ⟨element, helement, hreads⟩ := forall₂_mem_left (List.Forall₂.flip hof.2.2) hv
    have hkind := Option.some.inj (hof.1.symm.trans (elementKind_of_isText kinds harr))
    subst hkind
    cases hreads
    cases hdenotes with
    | text hitemReads =>
      cases hitemReads
      have hplain := (hof.2.1.simple _ helement).plain
      rcases hbrace with hbrace | hbrace
      · exact hplain '{' hbrace (by decide)
      · exact hplain '}' hbrace (by decide)

private theorem plainArray_of_denotes (hof : ArrayOf kinds arr text kind elements values)
    (hdenotes : List.Forall₂
      (fun elem v => ∃ l, printedLiteral? reader elem = some l ∧ Denotes kind l v)
      ((arrayItems text.toList).map (FixArrayLiteral.arrayElem arr)) values) :
    ¬ InnerBrace text.toList ∧
      (FixArrayLiteral.isText arr ∨ kind = .number ∨ elements = []) := by
  have hbrace := noBrace_of_denotes hof hdenotes
  refine ⟨hbrace, ?_⟩
  cases harr : FixArrayLiteral.isText arr with
  | true => exact .inl rfl
  | false =>
    by_cases hkind : kind = .number
    · exact .inr (.inl hkind)
    rw [elems_of_noBrace hof hbrace, List.forall₂_map_left_iff] at hdenotes
    have hsimple := hof.2.1.simple
    have hreads := hof.2.2
    cases hreads with
    | nil => exact .inr (.inr rfl)
    | cons hread _ =>
      cases hdenotes with
      | cons hdenotes _ =>
        obtain ⟨l, hl, hdenotes⟩ := hdenotes
        rw [printedLiteral_verbatim harr, String.toList_ofList] at hl
        exact absurd hdenotes
          (not_denotes_verbatim (hsimple _ List.mem_cons_self) hkind hread hl)

end Elements

/-- Array literals stay data exactly if they are plain. -/
theorem arrayLiteral_staysData_iff (rest : Rest Node) :
    StaysData reader kinds arr text rest ↔ PlainArray reader kinds arr text := by
  constructor
  · rintro ⟨elems, helems, hsome, hdenotes⟩
    cases helems
    obtain ⟨hquotes, hverbatim⟩ := (printedLiterals_isSome text).mp hsome
    exact ⟨hquotes, hverbatim, fun kind elements values hof =>
      plainArray_of_denotes hof (hdenotes kind elements values hof)⟩
  · intro h
    exact ⟨_, rfl, (printedLiterals_isSome text).mpr ⟨h.quotes, h.verbatim⟩,
      fun _ _ _ hof => denotes_of_plainArray h hof⟩

end Literals

namespace ReferenceReader

/-- Quoted texts and unsigned integers, and nothing else. -/
def read : List Char → Option LiteralValue
  | [] => none
  | c :: cs =>
    if c = singleQuote then
      if cs.getLast? = some singleQuote then (unquoted cs.dropLast).map .text else none
    else if (c :: cs).all Char.isDigit then some (.number (digitsValue (c :: cs))) else none

theorem quoted (body : List Char) :
    read (singleQuote :: (body ++ [singleQuote])) = (unquoted body).map .text := by
  rw [read, if_pos rfl, List.getLast?_concat, if_pos rfl, List.dropLast_concat]

theorem unquoted_length (cs : List Char) : ∀ t ∈ unquoted cs, t.length ≤ cs.length := by
  induction cs using unquoted.induct with
  | case1 =>
    intro t ht
    cases ht
    exact Nat.le_refl _
  | case2 =>
    intro t ht
    cases ht
  | case3 c hc =>
    intro t ht
    rw [unquoted, if_neg hc] at ht
    cases ht
    exact Nat.le_refl _
  | case4 cs ih =>
    intro t ht
    rw [unquoted, if_pos rfl, if_pos rfl] at ht
    obtain ⟨u, hu, rfl⟩ := Option.map_eq_some_iff.mp ht
    exact Nat.succ_le_succ (Nat.le_succ_of_le (ih u hu))
  | case5 next cs hnext =>
    intro t ht
    rw [unquoted, if_pos rfl, if_neg hnext] at ht
    cases ht
  | case6 c next cs hc ih =>
    intro t ht
    rw [unquoted, if_neg hc] at ht
    obtain ⟨u, hu, rfl⟩ := Option.map_eq_some_iff.mp ht
    exact Nat.succ_le_succ (ih u hu)

theorem read_cases {s : List Char} {l : LiteralValue} (h : read s = some l) :
    (∃ body t, s = singleQuote :: (body ++ [singleQuote]) ∧ t.length ≤ body.length ∧
        l = .text t) ∨
      s ≠ [] ∧ (∀ c ∈ s, c.isDigit) ∧ l = .number (digitsValue s) := by
  cases s with
  | nil => cases h
  | cons c cs =>
    rw [read] at h
    split at h
    · rename_i hc
      split at h
      · rename_i hlast
        obtain ⟨t, ht, rfl⟩ := Option.map_eq_some_iff.mp h
        refine .inl ⟨cs.dropLast, t, ?_, unquoted_length _ t ht, rfl⟩
        rw [hc, List.dropLast_append_getLast? _ hlast]
      · cases h
    · split at h
      · rename_i hall
        cases h
        exact .inr ⟨List.cons_ne_nil _ _, List.all_eq_true.mp hall, rfl⟩
      · cases h

theorem delimited {s t : List Char} (h : read s = some (.text t)) :
    t.length < s.length ∧ (singleQuote ∈ s ∨ '$' ∈ s) := by
  rcases read_cases h with ⟨body, u, rfl, hlength, heq⟩ | ⟨-, -, heq⟩
  · cases heq
    refine ⟨?_, .inl List.mem_cons_self⟩
    rw [List.length_cons, List.length_append]
    exact Nat.lt_succ_of_le (Nat.le_add_right_of_le hlength)
  · cases heq

theorem braced {s : List Char} {l : LiteralValue}
    (hs : s.head? = some '{' ∨ s.getLast? = some '}') (h : read s = some l) : l = .other := by
  exfalso
  rcases read_cases h with ⟨body, t, rfl, -, -⟩ | ⟨-, hdigits, -⟩
  · rw [List.head?_cons, ← List.cons_append, List.getLast?_concat] at hs
    exact absurd hs (by decide)
  · rcases hs with hs | hs
    · exact absurd (hdigits _ (List.mem_of_head? hs)) (by decide)
    · exact absurd (hdigits _ (List.mem_of_getLast? hs)) (by decide)

/-- A number that is written with digits only has their value. -/
theorem numberText_digits {s : List Char} {q : ℚ} (h : NumberText s q)
    (hdigits : ∀ c ∈ s, c.isDigit) : q = digitsValue s := by
  cases h with
  | mk hsign hfraction hexponent =>
    cases hsign with
    | plus => exact absurd (hdigits '+' List.mem_cons_self) (by decide)
    | minus => exact absurd (hdigits '-' List.mem_cons_self) (by decide)
    | none =>
      rw [List.nil_append] at hdigits ⊢
      have hrest := fun c hc => hdigits c (List.mem_append_right _ hc)
      cases hfraction with
      | point => exact absurd (hrest '.' List.mem_cons_self) (by decide)
      | none =>
        have hletter : ∀ {e : Char} {cs : List Char}, e = 'e' ∨ e = 'E' →
            ¬ ∀ c ∈ [] ++ (e :: cs), c.isDigit := by
          rintro _ cs (rfl | rfl) hall <;> exact absurd (hall _ List.mem_cons_self) (by decide)
        cases hexponent with
        | positive he => exact absurd hrest (hletter he)
        | negative he => exact absurd hrest (hletter he)
        | none => simp

theorem numberText_head {s : List Char} {q : ℚ} (h : NumberText s q) :
    s.head? ≠ some singleQuote := by
  intro heq
  cases h with
  | @mk sign whole fraction digits exponent factor power hsign hfraction _ hne hdigits =>
    cases hsign with
    | plus => exact absurd (Option.some.inj heq) (by decide)
    | minus => exact absurd (Option.some.inj heq) (by decide)
    | none =>
      cases whole with
      | cons c whole =>
        have hc := hdigits c List.mem_cons_self
        rw [Option.some.inj heq] at hc
        exact absurd hc (by decide)
      | nil =>
        cases hfraction with
        | none => exact absurd rfl hne
        | point => exact absurd (Option.some.inj heq) (by decide)

theorem number {s : List Char} {q : ℚ} {l : LiteralValue} (hs : NumberText s q)
    (h : read s = some l) : l = .number q := by
  rcases read_cases h with ⟨body, t, rfl, -, -⟩ | ⟨-, hdigits, rfl⟩
  · exact absurd rfl (numberText_head hs)
  · rw [numberText_digits hs hdigits]

end ReferenceReader

def referenceReader : LiteralReader where
  read := ReferenceReader.read
  quoted := ReferenceReader.quoted
  number := ReferenceReader.number
  delimited := ReferenceReader.delimited
  letters := ⟨rfl, rfl⟩
  braced := ReferenceReader.braced

/-- A boolean array type is known by its name, the text types by themselves. -/
def referenceKinds (display : String) : Option ElementKind :=
  if display = "BOOL" then some .boolean else none

theorem twoTexts_stayData :
    StaysData referenceReader referenceKinds (.squareBracket .text none) "{a, abc}" .none := by
  refine (arrayLiteral_staysData_iff _ _ _ _ _).mpr ⟨fun _ => ?_, nofun, fun _ _ _ _ => ?_⟩
  · exact not_oddQuotes_of_plain fun c hc heq =>
      absurd (heq ▸ hc) (by decide : '\\' ∉ "{a, abc}".toList)
  · exact ⟨fun hbrace => absurd hbrace (by unfold InnerBrace; decide), .inl rfl⟩

/-- The letters of `'{t, f}'::bool[]` are printed as they are, which makes them identifiers. -/
theorem twoBooleans_notData :
    ¬ StaysData referenceReader referenceKinds (.squareBracket (.other "BOOL") none) "{t, f}"
      .none := by
  rintro ⟨elems, helems, hsome, -⟩
  cases helems
  have ht := hsome _ (List.mem_map_of_mem (by decide : "t" ∈ arrayItems "{t, f}".toList))
  exact absurd ht (by decide)

end DatafusionPostgres.Sql

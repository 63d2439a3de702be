import DatafusionPostgres.Library.Quoting

/-! `datafusion-pg-catalog/src/pg_catalog/quote_ident_udf.rs`: `quote_ident`, and what SQL reads
in its outcome. -/
namespace DatafusionPostgres.PgCatalog
open Library

/-- The Unicode tables behind `char` and `str`, which agree with ASCII. -/
structure CharTables where
  isAlphabetic : Char → Bool
  isNumeric : Char → Bool
  toUppercase : Char → List Char
  alphabetic_ascii : ∀ c : Char, c.toNat < 128 → isAlphabetic c = c.isAlpha
  numeric_ascii : ∀ c : Char, c.toNat < 128 → isNumeric c = c.isDigit

def reservedWords : List String :=
  ["ALL", "ANALYSE", "ANALYZE", "AND", "ANY", "ARRAY", "AS", "ASC", "ASYMMETRIC", "AUTHORIZATION",
    "BETWEEN", "BINARY", "BOTH", "CASE", "CAST", "CHECK", "COLLATE", "COLUMN", "CONCURRENTLY",
    "CONSTRAINT", "CREATE", "CROSS", "CURRENT_CATALOG", "CURRENT_DATE", "CURRENT_ROLE",
    "CURRENT_SCHEMA", "CURRENT_TIME", "CURRENT_TIMESTAMP", "CURRENT_USER", "DEFAULT", "DEFERRABLE",
    "DESC", "DISTINCT", "DO", "ELSE", "END", "EXCEPT", "FALSE", "FETCH", "FOR", "FOREIGN", "FROM",
    "FULL", "GRANT", "GROUP", "HAVING", "ILIKE", "IN", "INITIALLY", "INNER", "INTERSECT", "INTO",
    "IS", "ISNULL", "JOIN", "LATERAL", "LEADING", "LEFT", "LIKE", "LIMIT", "LOCALTIME",
    "LOCALTIMESTAMP", "NATURAL", "NOT", "NOTNULL", "NULL", "OFFSET", "ON", "ONLY", "OR", "ORDER",
    "OUTER", "OVERLAPS", "PLACING", "PRIMARY", "REFERENCES", "RETURNING", "RIGHT", "SELECT",
    "SESSION_USER", "SIMILAR", "SOME", "SYMMETRIC", "TABLE", "TABLESAMPLE", "THEN", "TO",
    "TRAILING", "TRUE", "UNION", "UNIQUE", "USER", "USING", "VARIADIC", "VERBOSE", "WHEN", "WHERE",
    "WINDOW", "WITH"]

section Code
variable (tables : CharTables)

def isReservedWord (word : String) : Bool :=
  reservedWords.contains (String.ofList (word.toList.flatMap tables.toUppercase))

/-- `is_alphanumeric`. -/
def CharTables.isAlphanumeric (c : Char) : Bool := tables.isAlphabetic c || tables.isNumeric c

def needsQuoting (ident : String) : Bool :=
  match ident.toList with
  | [] => true
  | first :: rest =>
    if !tables.isAlphabetic first && first ≠ '_' then true
    else if rest.any fun c => !tables.isAlphanumeric c && c ≠ '_' then true
    else isReservedWord tables ident

def startsAndEndsQuoted (ident : String) : Bool :=
  ident.toList.head? = some '"' && ident.toList.getLast? = some '"'

def quoteIdent (ident : String) : String :=
  if startsAndEndsQuoted ident then
    String.ofList (doubled '"' ident.toList)
  else if needsQuoting tables ident then
    String.ofList ('"' :: (doubled '"' ident.toList ++ ['"']))
  else ident

end Code

/-! ## Identifiers as SQL reads them -/

def identStart (c : Char) : Bool := c.isAlpha || c = '_' || 128 ≤ c.toNat

def identPart (c : Char) : Bool := identStart c || c.isDigit || c = '$'

/-- One SQL identifier and nothing else. -/
def readIdentifier (fold : Char → Char) (reserved : List String) (sql : String) : Option String :=
  match sql.toList with
  | [] => none
  | first :: rest =>
    if first = '"' then
      match readQuoted '"' rest with
      | some (c :: text) => some (String.ofList (c :: text))
      | _ => none
    else if identStart first && rest.all identPart then
      let name := String.ofList ((first :: rest).map fold)
      if name ∈ reserved then none else some name
    else none

section Reading
variable (fold : Char → Char) (reserved : List String) (tables : CharTables)

private theorem readIdentifier_quoted {text : List Char} (hne : text ≠ []) :
    readIdentifier fold reserved (String.ofList ('"' :: (doubled '"' text ++ ['"']))) =
      some (String.ofList text) := by
  rw [readIdentifier, String.toList_ofList]
  simp only [if_true, readQuoted_doubled]
  cases text with
  | nil => exact absurd rfl hne
  | cons c text => rfl

private theorem readIdentifier_doubled {ident : String}
    (hhead : ident.toList.head? = some '"') :
    readIdentifier fold reserved (String.ofList (doubled '"' ident.toList)) ≠ some ident := by
  obtain ⟨rest, hrest⟩ := List.head?_eq_some_iff.mp hhead
  rw [readIdentifier, String.toList_ofList, hrest, doubled_cons_quote]
  simp only [if_true]
  intro h
  split at h
  · rename_i c text hread
    have hlength := congrArg List.length (eq_doubled_of_readQuoted hread)
    have hsame : c :: text = '"' :: rest := by
      rw [← hrest, ← Option.some.inj h, String.toList_ofList]
    rw [hsame, List.length_cons, List.length_append, length_doubled, length_doubled,
      List.length_cons, List.count_cons_self, List.length_singleton] at hlength
    omega
  · cases h

/-- What needs no quoting is lexically an identifier. -/
theorem identifier_of_plain {first : Char} {rest : List Char} {ident : String}
    (hident : ident.toList = first :: rest) (h : needsQuoting tables ident = false) :
    first ≠ '"' ∧ identStart first ∧ rest.all identPart := by
  have hstart : ∀ c, tables.isAlphabetic c ∨ c = '_' → identStart c := by
    intro c hc
    rw [identStart]
    by_cases hascii : c.toNat < 128
    · rw [tables.alphabetic_ascii c hascii] at hc
      rcases hc with hc | hc <;> simp [hc]
    · simp [Nat.le_of_not_lt hascii]
  have hpart : ∀ c, tables.isAlphanumeric c ∨ c = '_' → identPart c := by
    intro c hc
    rw [identPart]
    by_cases hascii : c.toNat < 128
    · rw [CharTables.isAlphanumeric, tables.numeric_ascii c hascii, Bool.or_eq_true] at hc
      rcases hc with (hc | hc) | hc
      · rw [hstart c (.inl hc)]
        rfl
      · simp [hc]
      · rw [hstart c (.inr hc)]
        rfl
    · simp [identStart, Nat.le_of_not_lt hascii]
  rw [needsQuoting, hident] at h
  dsimp only at h
  split at h
  · cases h
  rename_i hfirst
  split at h
  · cases h
  rename_i hrest
  have hfirst' : tables.isAlphabetic first ∨ first = '_' := by
    simpa [or_iff_not_imp_left] using hfirst
  refine ⟨?_, hstart first hfirst', ?_⟩
  · rintro rfl
    rw [tables.alphabetic_ascii _ (by decide)] at hfirst'
    exact absurd hfirst' (by decide)
  · rw [List.all_eq_true]
    intro c hc
    refine hpart c ?_
    by_contra hnone
    refine hrest (List.any_eq_true.mpr ⟨c, hc, ?_⟩)
    simpa using hnone

private theorem readIdentifier_plain {ident : String} (hne : ident ≠ "")
    (h : needsQuoting tables ident = false) :
    readIdentifier fold reserved ident =
      if ident.map fold ∈ reserved then none else some (ident.map fold) := by
  obtain ⟨first, rest, hident⟩ :=
    List.exists_cons_of_ne_nil fun hnil => hne (String.toList_eq_nil_iff.mp hnil)
  obtain ⟨hquote, hstart, hrest⟩ := identifier_of_plain tables hident h
  have hmap : ident.map fold = String.ofList ((first :: rest).map fold) := by
    rw [← hident, ← String.toList_map, String.ofList_toList]
  rw [readIdentifier, hident, hmap]
  dsimp only
  rw [if_neg hquote, if_pos (by rw [hstart, hrest]; rfl)]

/-- When SQL reads in the outcome of `quote_ident` what it was given. -/
theorem readIdentifier_quoteIdent_iff (ident : String) (hne : ident ≠ "") :
    readIdentifier fold reserved (quoteIdent tables ident) = some ident ↔
      startsAndEndsQuoted ident = false ∧
        (needsQuoting tables ident ∨ ident.map fold = ident ∧ ident ∉ reserved) := by
  rw [quoteIdent]
  split
  · rename_i hquoted
    refine iff_of_false (readIdentifier_doubled fold reserved ?_) fun h => ?_
    · rw [startsAndEndsQuoted, Bool.and_eq_true] at hquoted
      exact of_decide_eq_true hquoted.1
    · exact Bool.false_ne_true (h.1.symm.trans hquoted)
  rename_i hquoted
  have hquoted := Bool.eq_false_iff.mpr hquoted
  split
  · rename_i hneeds
    refine iff_of_true ?_ ⟨hquoted, .inl hneeds⟩
    rw [readIdentifier_quoted fold reserved fun hnil => hne (String.toList_eq_nil_iff.mp hnil),
      String.ofList_toList]
  · rename_i hplain
    rw [readIdentifier_plain fold reserved tables hne (Bool.eq_false_iff.mpr hplain)]
    constructor
    · intro h
      split at h
      · cases h
      · rename_i hname
        have hsame := Option.some.inj h
        rw [hsame] at hname
        exact ⟨hquoted, .inr ⟨hsame, hname⟩⟩
    · rintro ⟨-, hneeds | ⟨hsame, hname⟩⟩
      · exact absurd hneeds hplain
      · rw [hsame, if_neg hname]

end Reading

def asciiTables : CharTables where
  isAlphabetic := Char.isAlpha
  isNumeric := Char.isDigit
  toUppercase c := [c.toUpper]
  alphabetic_ascii _ _ := rfl
  numeric_ascii _ _ := rfl

theorem readIdentifier_quotedSelect :
    readIdentifier Char.toLower ["select"] (quoteIdent asciiTables "select") = some "select" :=
  (readIdentifier_quoteIdent_iff Char.toLower ["select"] asciiTables "select" (by decide)).mpr
    (by decide +kernel)

/-- `Foo` is read as `foo`, and nothing is read in `""x""` and in `collation`. -/
theorem readIdentifier_folded :
    readIdentifier Char.toLower [] (quoteIdent asciiTables "Foo") ≠ some "Foo" ∧
    readIdentifier Char.toLower [] (quoteIdent asciiTables "\"x\"") ≠ some "\"x\"" ∧
    readIdentifier Char.toLower ["collation"] (quoteIdent asciiTables "collation") ≠
      some "collation" := by
  decide +kernel

end DatafusionPostgres.PgCatalog

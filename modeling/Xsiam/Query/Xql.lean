import Xsiam.Query.SplitAnd

/-!
# The query grammar, parsed twice

A query is a dataset clause and stages behind it, with bars between them:

    dataset = <name> | filter <field> = "<value>" | fields <f1>, <f2> | sort desc <field> | limit <N>

Two functions of the source parse it: `parseXQL` (`internal/domain/query/service.go`), for queries
that the service answers itself, and `parseXQLForNgx` (`internal/datalake/ngx_translator.go`), for
queries that it translates. They are one text written twice, `Xsiam.Query.parseWith` here, and
differ in two places (`Xsiam.Query.Variant`): what they do when no name follows the word `dataset`,
and what they keep the conditions of the filter stages in, a map or a list.

`none` is a slice or an index out of range, which is a panic of the source.
-/

namespace Xsiam

namespace Query

open Go Etl Separator

/-! ### What a parser returns -/

/-- `xqlParsed` and `ngxParsed`, by what they keep the conditions in. -/
structure Parsed (φ : Type) where
  dataset : GoString
  /-- `filters` of the one, `conditions` of the other. -/
  filters : φ
  fields : List GoString := []
  sortBy : GoString := []
  sortDesc : Bool := false
  limit : ℤ := 100

/-- What one parser does that the other does not. -/
structure Variant (φ : Type) where
  /-- The first word behind `dataset`, among those there are. -/
  firstWord : List GoString → Option GoString
  /-- How a filter expression is split. -/
  splitAnd : GoString → Option (List GoString)
  /-- No conditions. -/
  empty : φ
  /-- One condition more. -/
  add : φ → GoString × GoString → φ

/-! ### Pieces of a query -/

/-- `s[n:]` -/
def sliceFrom (s : GoString) (n : ℕ) : Option GoString :=
  if n ≤ s.length then some (s.drop n) else none

/-- A line up to the comment in it. -/
def stripComment (line : GoString) : GoString :=
  match index (str "//") line with
  | some idx => line.take idx
  | none => line

/-- A query on one line, its comments stripped. -/
def stripComments (q : GoString) : GoString :=
  join ((split q (str "\n")).map fun line => trimSpace (stripComment line)) (str " ")

/-- The stages of a query, the dataset clause first. -/
def queryStages (q : GoString) : List GoString :=
  (split (stripComments q) (str "|")).map trimSpace

/-- What stands before and behind the first `=` of a condition, the quotes of the value trimmed. A
text without a `=`, or with nothing before it, is no condition. -/
def condition (cond : GoString) : Option (GoString × GoString) :=
  let cond := trimSpace cond
  match index (str "=") cond with
  | some eqIdx =>
    if 0 < eqIdx then
      some (trimSpace (cond.take eqIdx), trim (trimSpace (cond.drop (eqIdx + 1))) (str "\"'"))
    else none
  | none => none

/-- Whether a byte is a decimal digit. -/
def isDigit (b : UInt8) : Bool := 0x30 ≤ b.toNat ∧ b.toNat ≤ 0x39

/-- The number that `fmt.Sscanf(s, "%d", &n)` leaves in an `n` that was zero: the one that a sign
and the digits behind it make, and zero where there is none. The space it skips is gone already. -/
def sscanfInt (s : GoString) : ℤ :=
  let token := match s with
    | b :: bs => if b = 0x2B ∨ b = 0x2D then b :: bs.takeWhile isDigit else s.takeWhile isDigit
    | [] => []
  (parseInt token).getD 0

variable {φ : Type} (P : Variant φ)

/-- The name in the dataset clause. -/
def datasetClause (part : GoString) : Option GoString :=
  match index (str "dataset") (toLower part) with
  | none => some []
  | some idx =>
    (sliceFrom part (idx + 7)).bind fun rest =>
      (P.firstWord (fields (trimPrefix (trimSpace rest) (str "=")))).map (trim · (str "\"' "))

/-- One word of a sort stage. -/
def sortToken (p : Parsed φ) (tok : GoString) : Parsed φ :=
  let tl := toLower tok
  if tl = str "desc" then { p with sortDesc := true }
  else if tl = str "asc" then { p with sortDesc := false }
  else { p with sortBy := tok }

/-- One stage behind the dataset clause. -/
def parseStage (p : Parsed φ) (part : GoString) : Option (Parsed φ) :=
  let lower := toLower part
  if hasPrefix lower (str "filter") then
    (sliceFrom part 6).bind fun rest =>
      (P.splitAnd (trimSpace rest)).map fun conds =>
        { p with filters := (conds.filterMap condition).foldl P.add p.filters }
  else if hasPrefix lower (str "fields") then
    (sliceFrom part 6).map fun rest =>
      { p with
        fields := p.fields ++
          ((split (trimSpace rest) (str ",")).map trimSpace).filter fun f => f ≠ [] }
  else if hasPrefix lower (str "sort") then
    (sliceFrom part 4).map fun rest => (fields (trimSpace rest)).foldl sortToken p
  else if hasPrefix lower (str "limit") then
    (sliceFrom part 5).map fun rest =>
      let n := sscanfInt (trimSpace rest)
      if 0 < n ∧ n ≤ 1000 then { p with limit := n } else p
  else some p

/-- The two parsers. -/
def parseWith (q : GoString) : Option (Parsed φ) :=
  match queryStages q with
  | [] => some { dataset := [], filters := P.empty }
  | first :: rest =>
    (datasetClause P first).bind fun dataset =>
      rest.foldlM (parseStage P) { dataset := dataset, filters := P.empty }

/-- The parser of the service: it takes the first word for granted, and keeps the conditions in a
map. -/
def serviceVariant : Variant (GoMap GoString) where
  firstWord toks := toks.head?
  splitAnd := splitAnd
  empty := ∅
  add m kv := m.insert kv.1 kv.2

/-- The parser of the translator: where there is no first word the dataset stays empty, and the
conditions are a list. -/
def ngxVariant : Variant (List (GoString × GoString)) where
  firstWord toks := some (toks.headD [])
  splitAnd := ngxSplitAnd
  empty := []
  add l kv := l ++ [kv]

/-- `parseXQL` -/
def parseXQL (q : GoString) : Option (Parsed (GoMap GoString)) := parseWith serviceVariant q

/-- `parseXQLForNgx` -/
def parseXQLForNgx (q : GoString) : Option (Parsed (List (GoString × GoString))) :=
  parseWith ngxVariant q

end Query

end Xsiam

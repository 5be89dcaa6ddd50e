import Xsiam.Go.Value
import Xsiam.Lib.Aql

/-!
# One page of a collection

`FindPaged` of `internal/repository/base.go`: the options of a list, the two statements it
makes of them, and the page it reads. A page has at most a hundred documents, whatever was
asked for.

The sort key is written into the second statement as it comes, behind `doc.`, and the offset and
the limit are bound behind it. What the database makes of the statement is what AQL says about
it where it sorts by one attribute path that is spelled out
(`Xsiam.Repository.ListOptions.SortsByPath`): the documents that pass the filters, in the order the
database sorts them into, from the offset on, up to the limit. For any other statement it answers
something.
-/

namespace Xsiam

namespace Repository

open Go

/-- A filter: its text, and the documents that pass it. -/
structure Filter (α : Type) where
  text : GoString
  passes : α → Bool

/-- `ListOptions` -/
structure ListOptions (α : Type) where
  collection : GoString
  filters : List (Filter α) := []
  bindVars : GoMap Value := ∅
  sortBy : GoString := []
  sortDesc : Bool := false
  page : ℤ := 0
  pageSize : ℤ := 0

/-- `model.PageMeta` -/
structure PageMeta where
  total : ℤ
  page : ℤ
  pageSize : ℤ
  pages : ℤ

namespace ListOptions

variable {α : Type} (o : ListOptions α)

/-! ### What is asked for -/

/-- The page, from one. -/
def pageNumber : ℤ := if o.page < 1 then 1 else o.page

/-- The size of the page. -/
def limit : ℤ :=
  let size := if o.pageSize < 1 then 20 else o.pageSize
  if 100 < size then 100 else size

/-- The offset of the page, in 64 bits. -/
def offset : ℤ := ((o.pageNumber - 1) * o.limit).bmod (2 ^ 64)

/-- The sort key. -/
def sortKey : GoString := if o.sortBy = [] then str "created_at" else o.sortBy

/-- The direction of the sort. -/
def sortDir : GoString := if o.sortDesc then str "DESC" else str "ASC"

/-- `filterClause` -/
def filterClause : GoString := o.filters.flatMap fun f => str " FILTER " ++ f.text

/-- What the two statements start with. -/
def head : GoString := str "FOR doc IN " ++ o.collection ++ o.filterClause

/-- `countAQL` -/
def countAQL : GoString := o.head ++ str " COLLECT WITH COUNT INTO total RETURN total"

/-- What is behind the direction in the other one. -/
def pageTail : GoString := str " LIMIT @offset, @limit RETURN doc"

/-- `pageAQL` -/
def pageAQL : GoString :=
  o.head ++ str " SORT doc." ++ o.sortKey ++ str " " ++ o.sortDir ++ pageTail

/-- `BindVars`, with the offset and the limit. -/
def pageVars : GoMap Value :=
  (o.bindVars.insert (str "offset") (.int .int o.offset)).insert (str "limit")
    (.int .int o.limit)

/-- `countVars` -/
def countVars : GoMap Value :=
  GoMap.filterKeys o.pageVars fun k => k ≠ str "offset" && k ≠ str "limit"

/-- A document passes every filter. -/
def passes (d : α) : Bool := o.filters.all fun f => f.passes d

/-! ### What the sort key does to the statement -/

/-- The tokens behind the sort key. -/
def tailTokens : List Aql.Token :=
  [.word o.sortDir, .word (str "LIMIT"), .param (str "offset"), .mark 0x2C, .param (str "limit"),
    .word (str "RETURN"), .word (str "doc")]

/-- The sort key is one path, whatever blanks and comments stand around it; or it is one, and
behind it the rest of the statement and a comment that hides the rest that follows. -/
def SortsBy (isPath : List Aql.Token → Bool) : Prop :=
  match (Aql.scan .plain (o.sortKey ++ [0x20])).2 with
  | .plain => isPath (Aql.closedTokens o.sortKey) = true
  | .line => ∃ path, isPath path = true ∧ Aql.closedTokens o.sortKey = path ++ o.tailTokens
  | _ => False

/-- The sort key is one attribute path that is spelled out. -/
def SortsByPath : Prop := o.SortsBy Aql.isPath

/-- The path and the rest of the statement in a list of tokens can only be one way. -/
theorem exists_path_iff {isPath : List Aql.Token → Bool} (ts : List Aql.Token) :
    (∃ path, isPath path = true ∧ ts = path ++ o.tailTokens) ↔
      ts.drop (ts.length - 7) = o.tailTokens ∧ isPath (ts.take (ts.length - 7)) = true := by
  have hlen : o.tailTokens.length = 7 := rfl
  constructor
  · rintro ⟨path, hpath, rfl⟩
    rw [List.length_append, hlen, Nat.add_sub_cancel, List.drop_left, List.take_left]
    exact ⟨rfl, hpath⟩
  · rintro ⟨hdrop, hpath⟩
    exact ⟨_, hpath, by rw [← hdrop, List.take_append_drop]⟩

variable {o} in
/-- A sort key of the program, which is an attribute path and can be read to its end. -/
theorem sortsByPath_of_path (key : GoString) (hclosed : Aql.Closed key)
    (hpath : Aql.isPath (Aql.closedTokens key) = true) (hkey : o.sortKey = key) :
    o.SortsByPath := by
  rw [Aql.Closed] at hclosed
  rw [SortsByPath, SortsBy, hkey, hclosed]
  exact hpath

instance (isPath : List Aql.Token → Bool) : Decidable (o.SortsBy isPath) := by
  unfold SortsBy
  split
  · exact inferInstance
  · exact decidable_of_iff _ (o.exists_path_iff _).symm
  · exact inferInstance

instance : Decidable o.SortsByPath := inferInstanceAs (Decidable (o.SortsBy _))

end ListOptions

/-! ### The page -/

/-- A collection in the database: its documents, the order each sort key and direction puts
documents into, and what the database answers to other statements. -/
structure DBCollection (α : Type) where
  docs : List α
  sort : GoString → Bool → List α → List α
  perm : ∀ key desc ds, (sort key desc ds).Perm ds
  other : GoString → GoMap Value → Except GoString (List α)

variable {α : Type}

/-- A database that leaves documents in the order they are in, and answers nothing else. -/
def DBCollection.unsorted (docs : List α) : DBCollection α where
  docs
  sort _ _ ds := ds
  perm _ _ ds := .refl ds
  other _ _ := .error []

/-- The documents that pass the filters, in order. -/
def DBCollection.matching (c : DBCollection α) (o : ListOptions α) : List α :=
  c.sort o.sortKey o.sortDesc (c.docs.filter o.passes)

/-- What the database answers to `pageAQL`. -/
def DBCollection.rows (c : DBCollection α) (o : ListOptions α) : Except GoString (List α) :=
  if ¬o.SortsByPath then c.other o.pageAQL o.pageVars
  else if o.offset < 0 then .error (str "value out of range")
  else .ok (((c.matching o).drop o.offset.toNat).take o.limit.toNat)

/-- `FindPaged` -/
def findPaged (c : DBCollection α) (o : ListOptions α) : Except GoString (List α × PageMeta) :=
  let total : ℤ := (c.docs.filter o.passes).length
  match c.rows o with
  | .error err => .error (str "page query: " ++ err)
  | .ok ds => .ok (ds, ⟨total, o.pageNumber, o.limit,
      total / o.limit + if 0 < total % o.limit then 1 else 0⟩)

/-- The first page has the first documents, a hundred at most. -/
theorem findPaged_first {c : DBCollection α} {o : ListOptions α} (hsort : o.SortsByPath)
    (hpage : o.pageNumber = 1) :
    ∃ pageMeta, findPaged c o = .ok ((c.matching o).take o.limit.toNat, pageMeta) := by
  have hoffset : o.offset = 0 := by simp [ListOptions.offset, hpage]
  rw [findPaged, DBCollection.rows, if_neg (not_not.mpr hsort), hoffset]
  exact ⟨_, rfl⟩

/-- **A page has its part of the documents that match**, as long as its offset fits 64 bits. -/
theorem findPaged_page {c : DBCollection α} {o : ListOptions α} (hsort : o.SortsByPath)
    (hpage : 1 ≤ o.pageNumber) (hlimit : 0 ≤ o.limit)
    (hoffset : (o.pageNumber - 1) * o.limit < 2 ^ 63) :
    ∃ pageMeta, findPaged c o = .ok
      (((c.matching o).drop ((o.pageNumber - 1) * o.limit).toNat).take o.limit.toNat, pageMeta) := by
  have hpos : 0 ≤ (o.pageNumber - 1) * o.limit := Int.mul_nonneg (by omega) hlimit
  have hbound : o.offset = (o.pageNumber - 1) * o.limit :=
    Int.bmod_eq_of_le_mul_two (by omega) (by omega)
  rw [findPaged, DBCollection.rows, if_neg (not_not.mpr hsort), hbound, if_neg (by omega)]
  exact ⟨_, rfl⟩

theorem mem_matching {c : DBCollection α} {o : ListOptions α} {d : α} :
    d ∈ c.matching o ↔ d ∈ c.docs ∧ o.passes d = true := by
  rw [DBCollection.matching, (c.perm ..).mem_iff, List.mem_filter]

theorem length_matching (c : DBCollection α) (o : ListOptions α) :
    (c.matching o).length = (c.docs.filter o.passes).length := (c.perm ..).length_eq

end Repository

end Xsiam

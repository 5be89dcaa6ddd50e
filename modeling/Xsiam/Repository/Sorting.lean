import Xsiam.Incidents.Repository

/-!
# What the sort key does to a statement

The sort key of a list is the one text of a request that gets into a statement: `FindPaged`
writes it behind `doc.`, and every other value is bound. A statement keeps its structure exactly
when the key is one attribute path, with names or bind parameters in it
(`Xsiam.Repository.structured_iff`): whatever stands in the key is read by the database like the
rest, a comma or a direction or a `RETURN`, and a line comment at its end hides the limit that was
to follow.

The collection and the filters are texts of the program, and each of them can be read to its end
on its own (`Xsiam.Repository.ListOptions.Fixed`), so nothing else in the statement depends on
who asks.
-/

namespace Xsiam

namespace Repository

open Go Aql

/-- The collection and the filters can each be read to their end. -/
def ListOptions.Fixed {α : Type} (o : ListOptions α) : Prop :=
  Closed o.collection ∧ ∀ f ∈ o.filters, Closed f.text

section Statement

variable {α : Type} (o : ListOptions α)

/-- The tokens of the collection and the filters. -/
def ListOptions.headTokens : List Token :=
  [.word (str "FOR"), .word (str "doc"), .word (str "IN")] ++ closedTokens o.collection ++
    o.filters.flatMap fun f => .word (str "FILTER") :: closedTokens f.text

/-- **The statement has the structure it should have**: one loop over the collection with the
filters, one sort by one attribute path of the document, one limit, and the document is what
is returned. -/
def Structured : Prop :=
  ∃ path, isBoundPath path = true ∧ tokens o.pageAQL =
    some (o.headTokens ++ ([.word (str "SORT"), .word (str "doc"), .mark 0x2E] ++
      (path ++ o.tailTokens)))

/-- The filters behind a text that can be read to its end. -/
theorem closed_filters {fs : List (Filter α)} (h : ∀ f ∈ fs, Closed f.text) :
    ∀ {s : GoString}, Closed s →
      Closed (s ++ fs.flatMap fun f => str " FILTER " ++ f.text) ∧
        closedTokens (s ++ fs.flatMap fun f => str " FILTER " ++ f.text) =
          closedTokens s ++ fs.flatMap fun f => .word (str "FILTER") :: closedTokens f.text := by
  induction fs with
  | nil => intro s hs; simpa using hs
  | cons f fs ih =>
    intro s hs
    obtain ⟨hf, hfs⟩ := List.forall_mem_cons.mp h
    have hword : Closed (str "FILTER") := by decide +kernel
    have hone := hs.append (hword.append hf)
    obtain ⟨hclosed, htokens⟩ := ih hfs hone
    have hsplit : s ++ (f :: fs).flatMap (fun f => str " FILTER " ++ f.text) =
        (s ++ 0x20 :: (str "FILTER" ++ 0x20 :: f.text)) ++
          fs.flatMap fun f => str " FILTER " ++ f.text := by
      rw [List.flatMap_cons, show str " FILTER " = 0x20 :: (str "FILTER" ++ [0x20]) from rfl]
      simp
    rw [hsplit]
    refine ⟨hclosed, ?_⟩
    rw [htokens, closedTokens_append hs, closedTokens_append hword, List.flatMap_cons,
      show closedTokens (str "FILTER") = [.word (str "FILTER")] by decide +kernel]
    simp

/-- What the statement starts with can be read to its end. -/
theorem closed_head (h : o.Fixed) : Closed o.head ∧ closedTokens o.head = o.headTokens := by
  have hfor : Closed (str "FOR doc IN") := by decide +kernel
  have hsplit : o.head = (str "FOR doc IN" ++ 0x20 :: o.collection) ++
      o.filters.flatMap fun f => str " FILTER " ++ f.text := by
    rw [ListOptions.head, ListOptions.filterClause,
      show str "FOR doc IN " = str "FOR doc IN" ++ [0x20] from rfl]
    simp
  obtain ⟨hclosed, htokens⟩ := closed_filters h.2 (hfor.append h.1)
  rw [hsplit]
  refine ⟨hclosed, ?_⟩
  rw [htokens, closedTokens_append hfor, ListOptions.headTokens,
    show closedTokens (str "FOR doc IN") =
      [.word (str "FOR"), .word (str "doc"), .word (str "IN")] by decide +kernel]

/-- The statement, by what the sort key and the rest behind it are read as. -/
theorem tokens_pageAQL (h : o.Fixed) :
    tokens o.pageAQL = (tokens (o.sortKey ++ 0x20 :: (o.sortDir ++ ListOptions.pageTail))).map
      fun ts => o.headTokens ++ ([.word (str "SORT"), .word (str "doc"), .mark 0x2E] ++ ts) := by
  obtain ⟨hclosed, htokens⟩ := closed_head o h
  have hsplit : o.pageAQL = o.head ++ 0x20 :: (str "SORT doc." ++
      (o.sortKey ++ 0x20 :: (o.sortDir ++ ListOptions.pageTail))) := by
    rw [ListOptions.pageAQL, show str " SORT doc." = 0x20 :: str "SORT doc." from rfl,
      show str " " = [0x20] from rfl]
    simp
  have hsort : scan .plain (str "SORT doc.") =
      ([.word (str "SORT"), .word (str "doc"), .mark 0x2E], .plain) := by decide +kernel
  rw [hsplit, tokens_closed hclosed, htokens, tokens, tokensFrom_append, hsort, Option.map_map]
  rfl

theorem tokens_tail : tokens (o.sortDir ++ ListOptions.pageTail) = some o.tailTokens := by
  rw [ListOptions.tailTokens, ListOptions.sortDir]
  cases o.sortDesc <;> decide +kernel

theorem quiet_tail : Quiet (o.sortDir ++ ListOptions.pageTail) := by
  rw [ListOptions.sortDir]
  cases o.sortDesc <;> decide +kernel

/-- The structure is a matter of what the key and the rest behind it are read as. -/
theorem structured_iff_read (h : o.Fixed) : Structured o ↔ ∃ path, isBoundPath path = true ∧
    tokens (o.sortKey ++ 0x20 :: (o.sortDir ++ ListOptions.pageTail)) =
      some (path ++ o.tailTokens) := by
  refine exists_congr fun path => and_congr_right fun _ => ?_
  rw [tokens_pageAQL o h, Option.map_eq_some_iff]
  constructor
  · rintro ⟨ts, hts, heq⟩
    rw [hts, List.append_cancel_left (List.append_cancel_left heq)]
  · intro hts
    exact ⟨_, hts, rfl⟩

/-- The key and the rest behind it are a path and that rest. -/
theorem sortsBy_iff (isPath : List Token → Bool) : o.SortsBy isPath ↔ ∃ path, isPath path = true ∧
    tokens (o.sortKey ++ 0x20 :: (o.sortDir ++ ListOptions.pageTail)) =
      some (path ++ o.tailTokens) := by
  rw [ListOptions.SortsBy, tokens_pasted _ (quiet_tail o), tokens_tail]
  generalize (scan .plain (o.sortKey ++ [0x20])).2 = mode
  cases mode with
  | plain =>
    -- in the open, what is behind the key is read as it is meant to be
    simp
  | line =>
    -- behind a line comment nothing is read, so the key has to bring all of it
    simp
  | _ => simp

/-- **Which sort keys leave the statement its structure**: those that sort by one attribute
path. -/
theorem structured_iff (h : o.Fixed) : Structured o ↔ o.SortsBy isBoundPath :=
  (structured_iff_read o h).trans (sortsBy_iff o isBoundPath).symm

end Statement

/-! ### The lists of the program -/

theorem closed_equalFilter {α : Type} {text : String} (h : Closed (str text)) {asked : Bool}
    {equal : α → Bool} : ∀ f ∈ equalFilter text asked equal, Closed f.text := by
  cases asked with
  | false => exact fun f hf => nomatch hf
  | true => exact List.forall_mem_singleton.mpr h

/-- The lists of incidents, whose sort key is a parameter of the request. -/
theorem fixed_incidentList (f : Incidents.IncidentListFilter) : f.toList.Fixed := by
  refine ⟨show Closed (str "incidents") by decide +kernel, ?_⟩
  simp only [Incidents.IncidentListFilter.toList, tenantFilter, List.forall_mem_append]
  refine ⟨⟨⟨⟨⟨⟨⟨?_, ?_⟩, ?_⟩, ?_⟩, ?_⟩, ?_⟩, ?_⟩, ?_⟩
  all_goals exact closed_equalFilter (by decide +kernel)

/-- The incidents of a tenant, sorted by what the request asks for. -/
def sortedIncidents (key : String) : ListOptions Incidents.Incident :=
  Incidents.IncidentListFilter.toList { tenantID := str "t1", sortBy := str key }

/-- A column of the record is one attribute path. -/
theorem structured_iff_severity : Structured (sortedIncidents "severity") :=
  (structured_iff _ (fixed_incidentList _)).mpr (by decide +kernel)

/-- A key that brings a limit and a result of its own: what is returned is a user, and the rest
of the statement is a comment. -/
def userKey : String := "_key LIMIT @offset, @limit RETURN FIRST(FOR u IN users RETURN u) //"

theorem not_structured : ¬∀ key : String, Structured (sortedIncidents key) :=
  fun h => absurd ((sortsBy_iff _ _).mpr
    ((structured_iff_read _ (fixed_incidentList _)).mp (h userKey))) (by decide +kernel)

end Repository

end Xsiam

import Xsiam.Incidents.Alerts
import Xsiam.Repository.Documents

/-!
# Two repositories and one filter

Alerts and incidents have two repositories each, one in `internal/repository` and one in
`internal/domain/alert` or `internal/domain/incident`, and both list by one filter. What they ask of a
document is the same in most members (`Xsiam.Incidents.AlertFilter.common`,
`Xsiam.Incidents.IncidentFilter.common`). But the ones under `domain` pass over `Unlinked`, `Linked`,
`Unassigned` and `HoursAgo`, look for a keyword in fewer attributes of an alert, and for an assignee in
one attribute of an incident instead of two.

So what one leaves out the other may list, and the other way round. They select the same exactly where
that makes no difference to any document that meets the rest of the filter
(`Xsiam.Incidents.paired_lists_iff`), and then their pages are the same too
(`Xsiam.Incidents.findPaged_congr`).
-/

namespace Xsiam

namespace Incidents

open Go Repository

/-! ### Lists that select the same -/

section Lists

variable {α : Type} {c : DBCollection α} {o o' : ListOptions α}

/-- **Two lists in one order select the same exactly if the same documents pass their filters.** -/
theorem matching_eq_iff (hkey : o.sortKey = o'.sortKey) (hdesc : o.sortDesc = o'.sortDesc) :
    c.matching o = c.matching o' ↔ ∀ d ∈ c.docs, (o.passes d = true ↔ o'.passes d = true) := by
  constructor
  · intro h d hd
    have hmem : d ∈ c.matching o ↔ d ∈ c.matching o' := by rw [h]
    rwa [mem_matching, mem_matching, and_iff_right hd, and_iff_right hd] at hmem
  · intro h
    have hfilter : c.docs.filter o.passes = c.docs.filter o'.passes :=
      List.filter_congr fun d hd => Bool.eq_iff_iff.mpr (h d hd)
    rw [DBCollection.matching, DBCollection.matching, hkey, hdesc, hfilter]

/-- **And then they have the same pages**, where the sort key is a path. -/
theorem findPaged_congr (hkey : o.sortKey = o'.sortKey) (hdesc : o.sortDesc = o'.sortDesc)
    (hpage : o.page = o'.page) (hsize : o.pageSize = o'.pageSize) (hsort : o.SortsByPath)
    (h : c.matching o = c.matching o') : findPaged c o = findPaged c o' := by
  have htail : o.tailTokens = o'.tailTokens := by
    rw [ListOptions.tailTokens, ListOptions.tailTokens, ListOptions.sortDir, ListOptions.sortDir,
      hdesc]
  have hsort' : o'.SortsByPath := by
    rw [ListOptions.SortsByPath, ListOptions.SortsBy, ← hkey, ← htail]
    exact hsort
  have hlimit : o.limit = o'.limit := by rw [ListOptions.limit, ListOptions.limit, hsize]
  have hnumber : o.pageNumber = o'.pageNumber := by
    rw [ListOptions.pageNumber, ListOptions.pageNumber, hpage]
  have hoffset : o.offset = o'.offset := by
    rw [ListOptions.offset, ListOptions.offset, hlimit, hnumber]
  have hrows : c.rows o = c.rows o' := by
    rw [DBCollection.rows, DBCollection.rows, if_neg (not_not.mpr hsort),
      if_neg (not_not.mpr hsort'), hoffset, hlimit, h]
  rw [findPaged, findPaged, hrows, hlimit, hnumber, ← length_matching, ← length_matching, h]

end Lists

/-! ### The filters of a query -/

/-- What the database and the program write as text: `TO_STRING` of a value, a `time.Time` that is bound,
and `DATE_SUBTRACT(DATE_NOW(), @hoursAgo, 'hour')` when the query is run. -/
structure QueryTexts where
  ofValue : Value → GoString
  ofTime : Time → GoString
  hoursAgo : ℤ → GoString

/-- Filters of documents. -/
abbrev DocFilters := List (Repository.Filter Document)

/-- An attribute is equal to what is asked for. -/
def attributeFilter (attr param : String) (v : GoString) : DocFilters :=
  equalFilter ("doc." ++ attr ++ " == @" ++ param) (v ≠ []) fun d => d.get (str attr) = .str v

/-- A document is of the tenant. -/
def ofTenantFilter (tenantID : GoString) : DocFilters :=
  tenantFilter (fun d => d.text (str "tenant_id")) tenantID

/-- An attribute has no text: `(doc.a == null OR doc.a == '' OR !HAS(doc, 'a'))`. -/
def isUnset (attr : String) (d : Document) : Bool :=
  d.get (str attr) = .null || d.get (str attr) = .str [] || d[str attr]?.isNone

def unsetFilter (attr : String) (asked : Bool) : DocFilters :=
  equalFilter ("(doc." ++ attr ++ " == null OR doc." ++ attr ++ " == '' OR !HAS(doc, '" ++ attr ++
    "'))") asked (isUnset attr)

/-- An attribute is no older than some hours. -/
def hoursAgoFilter (T : QueryTexts) (attr : String) (hoursAgo : ℤ) : DocFilters :=
  equalFilter ("doc." ++ attr ++ " >= DATE_SUBTRACT(DATE_NOW(), @hoursAgo, 'hour')") (0 < hoursAgo)
    fun d => atLeast (d.get (str attr)) (T.hoursAgo hoursAgo)

/-- A keyword is in one of some attributes. -/
def hasKeyword (T : QueryTexts) (attrs : List String) (kw : GoString) (d : Document) : Bool :=
  attrs.any fun attr => containsLower (T.ofValue (d.get (str attr))) kw

def keywordFilter (T : QueryTexts) (attrs : List String) (kw : GoString) : DocFilters :=
  equalFilter ("(" ++ " OR ".intercalate (attrs.map fun attr =>
    "CONTAINS(LOWER(doc." ++ attr ++ "), LOWER(@kw))") ++ ")") (kw ≠ []) (hasKeyword T attrs kw)

/-- A document passes some filters. -/
def Meets (fs : DocFilters) (d : Document) : Prop := fs.all (fun f => f.passes d) = true

instance (fs : DocFilters) (d : Document) : Decidable (Meets fs d) :=
  inferInstanceAs (Decidable (_ = true))

theorem meets_append {fs gs : DocFilters} {d : Document} :
    Meets (fs ++ gs) d ↔ Meets fs d ∧ Meets gs d := by
  rw [Meets, List.all_append, Bool.and_eq_true]
  exact Iff.rfl

/-- A filter is passed where it is not asked for. -/
theorem meets_equalFilter {text : String} {asked : Bool} {equal : Document → Bool} {d : Document} :
    Meets (equalFilter text asked equal) d ↔ (asked = true → equal d = true) := by
  rw [Meets, equalFilter]
  cases asked
  · simp
  · simp

theorem meets_keywordFilter {T : QueryTexts} {attrs : List String} {kw : GoString} {d : Document} :
    Meets (keywordFilter T attrs kw) d ↔ (kw ≠ [] → hasKeyword T attrs kw d = true) := by
  rw [keywordFilter, meets_equalFilter, decide_eq_true_iff]

/-- A keyword that is in one of some attributes is in one of more. -/
theorem hasKeyword_append {T : QueryTexts} {attrs : List String} {kw : GoString} {d : Document}
    (more : List String) (h : hasKeyword T attrs kw d = true) :
    hasKeyword T (attrs ++ more) kw d = true := by
  rw [hasKeyword, List.any_append]
  exact Bool.or_eq_true_iff.mpr (.inl h)

/-! ### Alerts -/

/-- `repository.AlertListFilter` -/
structure AlertFilter extends AlertListFilter where
  unlinked : Bool := false
  linked : Bool := false
  hoursAgo : ℤ := 0

namespace AlertFilter

variable (T : QueryTexts) (f : AlertFilter)

/-- The filters up to the keyword. -/
def headFilters : DocFilters :=
  ofTenantFilter f.tenantID ++
    attributeFilter "severity" "severity" f.severity ++
    attributeFilter "status" "status" f.status ++
    attributeFilter "source_type" "sourceType" f.sourceType ++
    attributeFilter "incident_id" "incidentId" f.incidentID ++
    attributeFilter "asset_id" "assetId" f.assetID ++
    equalFilter "LOWER(doc.host) == LOWER(@host)" (f.host ≠ [])
      fun d => toLower (T.ofValue (d.get (str "host"))) = toLower f.host

/-- The filters of the time. -/
def timeFilters : DocFilters :=
  equalFilter "doc.triggered_at >= @after" f.after.isSome
      (fun d => f.after.any fun t => atLeast (d.get (str "triggered_at")) (T.ofTime t)) ++
    equalFilter "doc.triggered_at <= @before" f.before.isSome
      (fun d => f.before.any fun t => atMost (d.get (str "triggered_at")) (T.ofTime t))

/-- `(doc.incident_id != null AND doc.incident_id != '')` -/
def linkedFilter : DocFilters :=
  equalFilter "(doc.incident_id != null AND doc.incident_id != '')" f.linked
    fun d => d.get (str "incident_id") ≠ .null && d.get (str "incident_id") ≠ .str []

/-- The values that are bound for both lists. -/
def vars : GoMap Value :=
  bindIf "before" f.before.isSome (.str (T.ofTime (f.before.getD 0))) <|
    bindIf "after" f.after.isSome (.str (T.ofTime (f.after.getD 0))) <|
    bindIf "kw" (f.keyword ≠ []) (.str f.keyword) <|
    bindIf "host" (f.host ≠ []) (.str f.host) <|
    bindIf "assetId" (f.assetID ≠ []) (.str f.assetID) <|
    bindIf "incidentId" (f.incidentID ≠ []) (.str f.incidentID) <|
    bindIf "sourceType" (f.sourceType ≠ []) (.str f.sourceType) <|
    bindIf "status" (f.status ≠ []) (.str f.status) <|
    bindIf "severity" (f.severity ≠ []) (.str f.severity) <|
    bindIf "tenantID" (f.tenantID ≠ []) (.str f.tenantID) ∅

/-- What both lists hand to `FindPaged` besides filters and values. -/
def paged (filters : DocFilters) (bindVars : GoMap Value) : ListOptions Document where
  collection := str "alerts"
  filters
  bindVars
  sortBy := if f.sortBy = [] then str "triggered_at" else f.sortBy
  sortDesc := f.sortDesc
  page := f.page
  pageSize := f.pageSize

/-- `Repo.List` of `internal/domain/alert` -/
def repoList : ListOptions Document :=
  f.paged (f.headFilters T ++ keywordFilter T ["name", "asset_name"] f.keyword ++ f.timeFilters T)
    (f.vars T)

/-- `AlertRepo.List` of `internal/repository` -/
def alertRepoList : ListOptions Document :=
  f.paged (f.headFilters T ++ keywordFilter T ["name", "asset_name", "host", "user"] f.keyword ++
      unsetFilter "incident_id" f.unlinked ++ f.linkedFilter ++
      hoursAgoFilter T "triggered_at" f.hoursAgo ++ f.timeFilters T)
    (bindIf "hoursAgo" (0 < f.hoursAgo) (.int .int f.hoursAgo) (f.vars T))

/-- What both lists ask of an alert. -/
def common : DocFilters := f.headFilters T ++ f.timeFilters T

/-- What only the one in `internal/repository` asks. -/
def restricting : DocFilters :=
  unsetFilter "incident_id" f.unlinked ++ f.linkedFilter ++ hoursAgoFilter T "triggered_at" f.hoursAgo

end AlertFilter

/-! ### Incidents -/

/-- `repository.IncidentListFilter` -/
structure IncidentFilter extends IncidentListFilter where
  unassigned : Bool := false
  hoursAgo : ℤ := 0

namespace IncidentFilter

variable (T : QueryTexts) (f : IncidentFilter)

/-- The filters up to the assignee. -/
def headFilters : DocFilters :=
  ofTenantFilter f.tenantID ++
    attributeFilter "severity" "severity" f.severity ++
    attributeFilter "status" "status" f.status ++
    attributeFilter "priority" "priority" f.priority

/-- The filters from the keyword on. -/
def tailFilters : DocFilters :=
  keywordFilter T ["name", "title", "description"] f.keyword ++
    equalFilter "(@mitreTactic IN doc.mitre_tactics OR doc.mitre_tactic == @mitreTactic)"
      (f.mitreTactic ≠ [])
      (fun d => (d.list (str "mitre_tactics")).any (· = .str f.mitreTactic) ||
        d.get (str "mitre_tactic") = .str f.mitreTactic) ++
    attributeFilter "assigned_to" "assignedTo" f.assignedTo

/-- The filter of the assignee, where both attributes may name one. -/
def eitherFilter : DocFilters :=
  equalFilter "(doc.assignee_id == @assigneeId OR doc.assigned_to == @assigneeId)"
    (f.assigneeID ≠ []) fun d => d.get (str "assignee_id") = .str f.assigneeID ||
      d.get (str "assigned_to") = .str f.assigneeID

/-- The values that are bound for both lists. -/
def vars : GoMap Value :=
  bindIf "assignedTo" (f.assignedTo ≠ []) (.str f.assignedTo) <|
    bindIf "mitreTactic" (f.mitreTactic ≠ []) (.str f.mitreTactic) <|
    bindIf "kw" (f.keyword ≠ []) (.str f.keyword) <|
    bindIf "assigneeId" (f.assigneeID ≠ []) (.str f.assigneeID) <|
    bindIf "priority" (f.priority ≠ []) (.str f.priority) <|
    bindIf "status" (f.status ≠ []) (.str f.status) <|
    bindIf "severity" (f.severity ≠ []) (.str f.severity) <|
    bindIf "tenantID" (f.tenantID ≠ []) (.str f.tenantID) ∅

/-- What both lists hand to `FindPaged` besides filters and values. -/
def paged (filters : DocFilters) (bindVars : GoMap Value) : ListOptions Document where
  collection := str "incidents"
  filters
  bindVars
  sortBy := if f.sortBy = [] then str "last_activity" else f.sortBy
  sortDesc := f.sortDesc
  page := f.page
  pageSize := f.pageSize

/-- `Repo.List` of `internal/domain/incident` -/
def repoList : ListOptions Document :=
  f.paged (f.headFilters ++ attributeFilter "assignee_id" "assigneeId" f.assigneeID ++
    f.tailFilters T) f.vars

/-- `IncidentRepo.List` of `internal/repository` -/
def incidentRepoList : ListOptions Document :=
  f.paged (f.headFilters ++ f.eitherFilter ++ unsetFilter "assigned_to" f.unassigned ++
      hoursAgoFilter T "created_at" f.hoursAgo ++ f.tailFilters T)
    (bindIf "hoursAgo" (0 < f.hoursAgo) (.int .int f.hoursAgo) f.vars)

/-- What both lists ask of an incident. -/
def common : DocFilters := f.headFilters ++ f.tailFilters T

/-- What only the one in `internal/repository` asks. -/
def restricting : DocFilters :=
  unsetFilter "assigned_to" f.unassigned ++ hoursAgoFilter T "created_at" f.hoursAgo

end IncidentFilter

/-! ### Where the two lists select the same -/

/-- What one list finds the other does not leave out, and what the other finds besides it leaves out:
for a document that is found in the narrow way, or only in the wide one, and is restricted or not. -/
def Alike (narrow wide restricted : Prop) : Prop :=
  (narrow → restricted) ∧ (wide → ¬narrow → ¬restricted)

theorem alike_iff {narrow wide restricted : Prop} (h : narrow → wide) :
    Alike narrow wide restricted ↔ (narrow ↔ wide ∧ restricted) := by
  rw [Alike]
  tauto

section Paired

variable (T : QueryTexts)

/-- The two lists of alerts select the same. -/
def SameAlerts (c : DBCollection Document) (f : AlertFilter) : Prop :=
  c.matching (f.repoList T) = c.matching (f.alertRepoList T)

/-- The two lists of incidents select the same. -/
def SameIncidents (c : DBCollection Document) (f : IncidentFilter) : Prop :=
  c.matching (f.repoList T) = c.matching (f.incidentRepoList T)

/-- For no alert that meets the rest of the filter does it matter that the one list looks for the keyword
in the name and the asset only, and passes over the link and the hours. -/
def AlertsAlike (docs : List Document) (f : AlertFilter) : Prop :=
  ∀ d ∈ docs, Meets (f.common T) d → Alike
    (f.keyword ≠ [] → hasKeyword T ["name", "asset_name"] f.keyword d = true)
    (f.keyword ≠ [] → hasKeyword T ["name", "asset_name", "host", "user"] f.keyword d = true)
    (Meets (f.restricting T) d)

/-- For no incident that meets the rest of the filter does it matter that the one list looks for the
assignee in one attribute only, and passes over whether there is one, and the hours. -/
def IncidentsAlike (docs : List Document) (f : IncidentFilter) : Prop :=
  ∀ d ∈ docs, Meets (f.common T) d → Alike
    (f.assigneeID ≠ [] → d.get (str "assignee_id") = .str f.assigneeID)
    (f.assigneeID ≠ [] → d.get (str "assignee_id") = .str f.assigneeID ∨
      d.get (str "assigned_to") = .str f.assigneeID)
    (Meets (f.restricting T) d)

theorem sameAlerts_iff (c : DBCollection Document) (f : AlertFilter) :
    SameAlerts T c f ↔ AlertsAlike T c.docs f := by
  refine (matching_eq_iff ?_ ?_).trans (forall₂_congr fun d _ => ?_)
  · rfl
  · rfl
  have hone : (f.repoList T).passes d = true ↔ Meets (f.common T) d ∧
      (f.keyword ≠ [] → hasKeyword T ["name", "asset_name"] f.keyword d = true) := by
    change Meets (f.headFilters T ++ _ ++ f.timeFilters T) d ↔ _
    rw [AlertFilter.common, meets_append, meets_append, meets_append, meets_keywordFilter]
    exact and_right_comm
  have htwo : (f.alertRepoList T).passes d = true ↔ Meets (f.common T) d ∧
      (f.keyword ≠ [] → hasKeyword T ["name", "asset_name", "host", "user"] f.keyword d = true) ∧
        Meets (f.restricting T) d := by
    change Meets (f.headFilters T ++ _ ++ _ ++ _ ++ _ ++ f.timeFilters T) d ↔ _
    simp only [AlertFilter.common, AlertFilter.restricting, meets_append, meets_keywordFilter]
    constructor
    · rintro ⟨⟨⟨⟨⟨hhead, hkw⟩, hunlinked⟩, hlinked⟩, hhours⟩, htime⟩
      exact ⟨⟨hhead, htime⟩, hkw, ⟨hunlinked, hlinked⟩, hhours⟩
    · rintro ⟨⟨hhead, htime⟩, hkw, ⟨hunlinked, hlinked⟩, hhours⟩
      exact ⟨⟨⟨⟨⟨hhead, hkw⟩, hunlinked⟩, hlinked⟩, hhours⟩, htime⟩
  have hwide : (f.keyword ≠ [] → hasKeyword T ["name", "asset_name"] f.keyword d = true) →
      f.keyword ≠ [] → hasKeyword T ["name", "asset_name", "host", "user"] f.keyword d = true :=
    fun h hkw => hasKeyword_append ["host", "user"] (h hkw)
  rw [hone, htwo, alike_iff hwide, and_congr_right_iff]

theorem sameIncidents_iff (c : DBCollection Document) (f : IncidentFilter) :
    SameIncidents T c f ↔ IncidentsAlike T c.docs f := by
  refine (matching_eq_iff ?_ ?_).trans (forall₂_congr fun d _ => ?_)
  · rfl
  · rfl
  have hone : (f.repoList T).passes d = true ↔ Meets (f.common T) d ∧
      (f.assigneeID ≠ [] → d.get (str "assignee_id") = .str f.assigneeID) := by
    change Meets (f.headFilters ++ _ ++ f.tailFilters T) d ↔ _
    rw [IncidentFilter.common, meets_append, meets_append, meets_append, attributeFilter,
      meets_equalFilter, decide_eq_true_iff, decide_eq_true_iff]
    exact and_right_comm
  have htwo : (f.incidentRepoList T).passes d = true ↔ Meets (f.common T) d ∧
      (f.assigneeID ≠ [] → d.get (str "assignee_id") = .str f.assigneeID ∨
        d.get (str "assigned_to") = .str f.assigneeID) ∧ Meets (f.restricting T) d := by
    change Meets (f.headFilters ++ _ ++ _ ++ _ ++ f.tailFilters T) d ↔ _
    simp only [IncidentFilter.common, IncidentFilter.restricting, IncidentFilter.eitherFilter,
      meets_append, meets_equalFilter, decide_eq_true_iff, Bool.or_eq_true]
    constructor
    · rintro ⟨⟨⟨⟨hhead, hassignee⟩, hunassigned⟩, hhours⟩, htail⟩
      exact ⟨⟨hhead, htail⟩, hassignee, hunassigned, hhours⟩
    · rintro ⟨⟨hhead, htail⟩, hassignee, hunassigned, hhours⟩
      exact ⟨⟨⟨⟨hhead, hassignee⟩, hunassigned⟩, hhours⟩, htail⟩
  have hwide : (f.assigneeID ≠ [] → d.get (str "assignee_id") = .str f.assigneeID) →
      f.assigneeID ≠ [] → d.get (str "assignee_id") = .str f.assigneeID ∨
        d.get (str "assigned_to") = .str f.assigneeID :=
    fun h hasked => .inl (h hasked)
  rw [hone, htwo, alike_iff hwide, and_congr_right_iff]

end Paired

/-- **The paired repositories select the same exactly where what only one of them asks makes no
difference**: to no alert that meets what both ask, and to no incident. -/
theorem paired_lists_iff (T : QueryTexts) (alerts incidents : DBCollection Document)
    (f : AlertFilter) (g : IncidentFilter) :
    (SameAlerts T alerts f ↔ AlertsAlike T alerts.docs f) ∧
      (SameIncidents T incidents g ↔ IncidentsAlike T incidents.docs g) :=
  ⟨sameAlerts_iff T alerts f, sameIncidents_iff T incidents g⟩

/-! ### An alert that is linked, an incident that is assigned -/

/-- Texts of some instant, where only texts have a text. -/
def someTexts : QueryTexts where
  ofValue v := match v with
    | .str s => s
    | _ => []
  ofTime _ := str "2024-01-01T00:00:00Z"
  hoursAgo _ := str "2024-01-01T00:00:00.000Z"

/-- An alert of an incident, on a host. -/
def linkedAlert : Document := .ofEntries
  [("alert_id", .str (str "ALT-1")), ("name", .str (str "Logon")), ("host", .str (str "srv-1")),
    ("incident_id", .str (str "INC-1"))]

/-- An incident that somebody has. -/
def assignedIncident : Document := .ofEntries
  [("incident_id", .str (str "INC-1")), ("assigned_to", .str (str "u1"))]

/-- **`Unlinked`, a keyword for a host, `Unassigned` and an assignee restrict one list and not the
other.** -/
theorem not_paired_lists :
    ¬SameAlerts someTexts (.unsorted [linkedAlert]) { unlinked := true } ∧
      ¬SameAlerts someTexts (.unsorted [linkedAlert]) { keyword := str "srv" } ∧
      ¬SameIncidents someTexts (.unsorted [assignedIncident]) { unassigned := true } ∧
      ¬SameIncidents someTexts (.unsorted [assignedIncident]) { assigneeID := str "u1" } := by
  refine ⟨fun h => ?_, fun h => ?_, fun h => ?_, fun h => ?_⟩
  all_goals
    have hlength := congrArg List.length h
    exact absurd hlength (by decide +kernel)

end Incidents

end Xsiam

import Xsiam.Audit.Records
import Xsiam.Go.Stamp

/-!
# Filters by time

The queries that are asked for a time: `FindByAssetSince`, `FindByIocValues`, `FindByUser` and
`FindByTimeRange` of the alerts, in `internal/domain/alert/repository.go`, and the list of the audit log.
All of them compare the text of a time that is stored with the text of one that is bound
(`Xsiam.Incidents.TimedQuery.mem_selected_iff`), and these are not in the order of the instants
(`Xsiam.Go.Stamp.inOrder_iff`). What is selected is what lies within the bounds exactly if every document
that matches otherwise is in order with them (`Xsiam.Incidents.TimedQuery.selectsByInstant_iff`).
-/

namespace Xsiam

namespace Incidents

open Go Repository

/-! ### Queries -/

section Queries

variable (docs : List Document)

/-- `doc.iocs[* FILTER CURRENT.value IN @values]` has something. -/
def hasIoc (values : List GoString) (d : Document) : Bool :=
  (d.list (str "iocs")).any fun ioc =>
    match ioc with
    | .obj kvs => values.any fun s => entryValue kvs (str "value") = .str s
    | _ => false

/-- Alerts that pass a test, from a time on. -/
def alertsSince (test : Document → Bool) (since : Stamp) : List Document :=
  docs.filter fun d => test d && atLeast (d.get (str "triggered_at")) since.text

/-- `FindByAssetSince` -/
def findByAssetSince (assetID : Option GoString) (since : Stamp) : List Document :=
  match assetID with
  | none => []
  | some id => alertsSince docs (fun d => d.get (str "asset_id") = .str id) since

/-- `FindByIocValues` -/
def findByIocValues (values : List GoString) (since : Stamp) : List Document :=
  if values = [] then [] else alertsSince docs (hasIoc values) since

/-- `FindByUser` -/
def findByUser (userName : Option GoString) (since : Stamp) : List Document :=
  match userName with
  | none => []
  | some name => alertsSince docs (fun d => d.get (str "user_name") = .str name) since

/-- `FindByTimeRange` -/
def findByTimeRange (fromTime toTime : Stamp) : List Document :=
  docs.filter fun d => atLeast (d.get (str "triggered_at")) fromTime.text &&
    atMost (d.get (str "triggered_at")) toTime.text

end Queries

/-- The queries that are asked for a time. -/
inductive TimedQuery where
  | findByAssetSince (assetID : Option GoString) (since : Stamp)
  | findByIocValues (values : List GoString) (since : Stamp)
  | findByUser (userName : Option GoString) (since : Stamp)
  | findByTimeRange (fromTime toTime : Stamp)
  | listAuditLogs (f : Audit.ListFilter Stamp)

namespace TimedQuery

/-- The attribute that is compared. -/
def timeName : TimedQuery → GoString
  | .listAuditLogs _ => str "created_at"
  | _ => str "triggered_at"

/-- What is selected: for the audit log, the documents that its pages are made of. -/
def selected (c : DBCollection Document) : TimedQuery → List Document
  | .findByAssetSince assetID since => Incidents.findByAssetSince c.docs assetID since
  | .findByIocValues values since => Incidents.findByIocValues c.docs values since
  | .findByUser userName since => Incidents.findByUser c.docs userName since
  | .findByTimeRange fromTime toTime => Incidents.findByTimeRange c.docs fromTime toTime
  | .listAuditLogs f => c.matching (f.toList Stamp.text)

/-- What a document has to meet apart from its time. -/
def Matches (d : Document) : TimedQuery → Prop
  | .findByAssetSince assetID _ => ∃ id ∈ assetID, d.get (str "asset_id") = .str id
  | .findByIocValues values _ => hasIoc values d = true
  | .findByUser userName _ => ∃ name ∈ userName, d.get (str "user_name") = .str name
  | .findByTimeRange _ _ => True
  | .listAuditLogs f => OfTenant f.tenantID (d.text (str "tenant_id")) ∧
      (f.operatorID = [] ∨ d.get (str "operator_id") = .str f.operatorID)

/-- The bound below. -/
def lower : TimedQuery → Option Stamp
  | .findByAssetSince _ since | .findByIocValues _ since | .findByUser _ since => some since
  | .findByTimeRange fromTime _ => some fromTime
  | .listAuditLogs f => f.fromTime

/-- The bound above. -/
def upper : TimedQuery → Option Stamp
  | .findByAssetSince .. | .findByIocValues .. | .findByUser .. => none
  | .findByTimeRange _ toTime => some toTime
  | .listAuditLogs f => f.toTime

variable (q : TimedQuery)

/-- A time is within the bounds, for an order of times. -/
def Within (before : Stamp → Stamp → Prop) (t : Stamp) : Prop :=
  (∀ a ∈ q.lower, before a t) ∧ ∀ b ∈ q.upper, before t b

/-- A time is in order with the bounds, or it is out of them in both orders. -/
def OrderedWith (t : Stamp) : Prop :=
  ((∀ a ∈ q.lower, a.InOrder t) ∧ ∀ b ∈ q.upper, t.InOrder b) ∨
    ¬q.Within Stamp.ReadsBefore t ∧ ¬q.Within (fun a b => a.instant ≤ b.instant) t

end TimedQuery

/-! ### Stored documents -/

/-- A collection whose documents have a time each, as it is written. -/
structure TimedDocs (timeName : GoString) where
  collection : DBCollection Document
  time : Document → Stamp
  get_time : ∀ d ∈ collection.docs, d.get timeName = .str (time d).text

namespace TimedQuery

variable {q : TimedQuery} {c : DBCollection Document} {d : Document}

/-- **What is selected is what matches and has a text within those of the bounds.** -/
theorem mem_selected_iff : d ∈ q.selected c ↔ d ∈ c.docs ∧ q.Matches d ∧
    (∀ a ∈ q.lower, atLeast (d.get q.timeName) a.text = true) ∧
      ∀ b ∈ q.upper, atMost (d.get q.timeName) b.text = true := by
  cases q with
  | findByAssetSince assetID since =>
    cases assetID with
    | none => simp [selected, Incidents.findByAssetSince, Matches]
    | some id =>
      simp [selected, Incidents.findByAssetSince, alertsSince, Matches, lower, upper, timeName]
  | findByIocValues values since =>
    by_cases hnil : values = []
    · -- without values nothing is asked, and nothing matches
      have hnone : hasIoc [] d = false := by
        rw [hasIoc, List.any_eq_false]
        intro ioc _
        cases ioc <;> simp
      simp [selected, Incidents.findByIocValues, Matches, hnil, hnone]
    · simp [selected, Incidents.findByIocValues, alertsSince, Matches, lower, upper, timeName, hnil]
  | findByUser userName since =>
    cases userName with
    | none => simp [selected, Incidents.findByUser, Matches]
    | some id => simp [selected, Incidents.findByUser, alertsSince, Matches, lower, upper, timeName]
  | findByTimeRange fromTime toTime =>
    simp [selected, Incidents.findByTimeRange, Matches, lower, upper, timeName]
  | listAuditLogs f =>
    -- the one list: its filters are those of its fields
    rw [selected, mem_matching, ListOptions.passes]
    refine and_congr_right fun _ => ?_
    simp only [Audit.ListFilter.toList, List.all_append, Bool.and_eq_true, all_tenantFilter]
    rw [Matches, lower, upper, timeName, and_assoc, and_assoc, and_assoc]
    refine and_congr_right fun _ => and_congr ?_ (and_congr ?_ ?_)
    · by_cases hnil : f.operatorID = []
      · simp [equalFilter, hnil]
      · simp [equalFilter, hnil]
    · cases f.fromTime with
      | none => simp [equalFilter]
      | some t => simp [equalFilter]
    · cases f.toTime with
      | none => simp [equalFilter]
      | some t => simp [equalFilter]

variable (q)

/-- A query selects by instant: exactly the documents that match otherwise and lie within the bounds. -/
def SelectsByInstant (docs : TimedDocs q.timeName) : Prop :=
  ∀ d ∈ docs.collection.docs, d ∈ q.selected docs.collection ↔
    q.Matches d ∧ q.Within (fun a b => a.instant ≤ b.instant) (docs.time d)

variable {q}

/-- What is selected is what reads as within the bounds. -/
theorem mem_selected_iff_reads {docs : TimedDocs q.timeName} (h : d ∈ docs.collection.docs) :
    d ∈ q.selected docs.collection ↔
      q.Matches d ∧ q.Within Stamp.ReadsBefore (docs.time d) := by
  rw [mem_selected_iff, docs.get_time d h, Within]
  simp [h, atLeast, atMost, Stamp.text_le_iff]

theorem orderedWith_iff {t : Stamp} : q.OrderedWith t ↔
    (q.Within Stamp.ReadsBefore t ↔ q.Within (fun a b => a.instant ≤ b.instant) t) := by
  have hone (a b : Stamp) : a.InOrder b ↔ (a.ReadsBefore b ↔ a.instant ≤ b.instant) := by
    rw [Stamp.inOrder_iff, Stamp.text_le_iff]
  rw [OrderedWith]
  constructor
  · rintro (⟨hlower, hupper⟩ | ⟨hreads, hinstant⟩)
    · exact and_congr (forall₂_congr fun a ha => (hone a t).mp (hlower a ha))
        (forall₂_congr fun b hb => (hone t b).mp (hupper b hb))
    · exact iff_of_false hreads hinstant
  · intro h
    by_cases hreads : q.Within Stamp.ReadsBefore t
    · -- within the bounds in both orders, so each bound is
      have hinstant := h.mp hreads
      exact .inl ⟨fun a ha => (hone a t).mpr (iff_of_true (hreads.1 a ha) (hinstant.1 a ha)),
        fun b hb => (hone t b).mpr (iff_of_true (hreads.2 b hb) (hinstant.2 b hb))⟩
    · exact .inr ⟨hreads, mt h.mpr hreads⟩

/-- **A query selects by instant exactly if the documents that match otherwise are in order with its
bounds.** -/
theorem selectsByInstant_iff (q : TimedQuery) (docs : TimedDocs q.timeName) :
    q.SelectsByInstant docs ↔
      ∀ d ∈ docs.collection.docs, q.Matches d → q.OrderedWith (docs.time d) := by
  refine forall₂_congr fun d hd => ?_
  rw [mem_selected_iff_reads hd, orderedWith_iff]
  exact and_congr_right_iff

/-- Noon, and half a second later. -/
def noon : Stamp := ⟨43200000000000, 0, Stamp.utc_bound, by decide⟩

def afterNoon : Stamp := ⟨43200500000000, 0, Stamp.utc_bound, by decide⟩

/-- An alert at noon. -/
def noonAlert : Document :=
  Document.ofEntries [("alert_id", .str (str "a-1")), ("triggered_at", .str noon.text)]

/-- The collection of this alert. -/
def noonDocs (timeName : GoString) (h : timeName = str "triggered_at") : TimedDocs timeName where
  collection := .unsorted [noonAlert]
  time _ := noon
  get_time d hd := by
    rw [List.mem_singleton.mp hd, h]
    exact Document.get_ofEntries (by decide) (by simp)

/-- **An alert at noon is not found up to half a second after noon.** -/
theorem noon_not_selected : ∃ (q : TimedQuery) (docs : TimedDocs q.timeName),
    ¬q.SelectsByInstant docs := by
  refine ⟨.findByTimeRange noon afterNoon, noonDocs _ rfl, fun h => ?_⟩
  have hmem : noonAlert ∈ (noonDocs (str "triggered_at") rfl).collection.docs :=
    List.mem_singleton.mpr rfl
  have hselected := (h noonAlert hmem).mpr ⟨trivial, by
    constructor
    · rintro a ⟨rfl⟩
      exact Int.le_refl _
    · rintro b ⟨rfl⟩
      exact (by decide : noon.instant ≤ afterNoon.instant)⟩
  have hreads := ((mem_selected_iff_reads hmem).mp hselected).2.2 afterNoon rfl
  revert hreads
  decide +kernel

end TimedQuery

end Incidents

end Xsiam

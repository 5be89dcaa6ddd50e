import Xsiam.Incidents.Service
import Xsiam.Lib.Run
import Xsiam.Response.Execution

/-!
# The audit trail

Operations that are recorded: incidents, alerts and assets are created, actions and playbooks are
executed, and `/audit/record` records what it is told. Each of them leaves one document in the log
(`Xsiam.Audit.carried_records`), and none of these documents has the tenant. So the list that a tenant
asks for has none of them, and the list of a request without a tenant has them all: the trail of a
tenant is complete only if nothing was to be found in it, or if nobody has had a tenant
(`Xsiam.Audit.complete_iff`).
-/

namespace Xsiam

namespace Audit

open Go Repository
open Incidents (CreateIncidentReq CreateAlertReq createIncident createAlert)
open Response (executionClient executeAction executePlaybook)

/-! ### Assets -/

/-- The names of the parts of an asset that no request looks into. -/
def assetRestNames : List String :=
  ["type", "identifier", "ip_addresses", "os_info", "agent", "department", "owner", "risk_score",
    "risk_level", "importance", "is_honeypot", "active_incident_count", "open_vuln_count", "tags",
    "last_seen", "hostname", "ip", "os", "status"]

/-- `model.Asset`, as the body of a request. -/
structure AssetBody where
  key : GoString := []
  tenantID : GoString := []
  name : GoString := []
  rest : List (String × Value) := []
  rest_sublist : (rest.map Prod.fst).Sublist assetRestNames := by decide

section Programs

variable (times : TimeFormat) (now : Time)

/-- The attributes of an asset as they are written. -/
def AssetBody.entries (b : AssetBody) : List (String × Value) :=
  ("tenant_id", .str b.tenantID) :: ("name", .str b.name) ::
    ("created_at", .str (times.text now)) :: ("updated_at", .str (times.text now)) :: b.rest

/-- An asset as it is written to a document. -/
def AssetBody.document (b : AssetBody) : Document := Document.ofEntries (b.entries times now)

/-- `Service.Create` of assets -/
def createAsset (b : AssetBody) (operatorID : GoString) : DB (Except GoString GoString) := do
  match ← createDoc .assets b.key (b.document times now) [] with
  | .error e => pure (.error (str "create asset: " ++ e.text))
  | .ok key => do
    record times now (created operatorID "asset" key b.name (b.document times now))
    pure (.ok key)

end Programs

/-! ### Operations -/

/-- The operations that are recorded, with the IDs that are made for new documents. The tenant of an
execution is that of its caller. -/
inductive Operation where
  | createIncident (req : CreateIncidentReq) (incidentID operatorID : GoString)
  | createAlert (req : CreateAlertReq) (alertID operatorID : GoString)
  | createAsset (body : AssetBody) (operatorID : GoString)
  | executeAction (tenantID id operatorID : GoString)
  | executePlaybook (tenantID key operatorID : GoString)
  | record (body : RecordBody)

/-- The tenant an operation is carried out for. -/
def Operation.tenantID : Operation → GoString
  | .createIncident req _ _ => req.tenantID
  | .createAlert req _ _ => req.tenantID
  | .createAsset body _ => body.tenantID
  | .executeAction tenantID _ _ => tenantID
  | .executePlaybook tenantID _ _ => tenantID
  | .record body => body.tenantID

/-- An operation with the time, and with how its calls go. -/
structure Event where
  op : Operation
  now : Time
  answers : Call → Answer

variable (times : TimeFormat)

/-- The program of an operation, and whether it succeeds. -/
def Event.program (ev : Event) : DB Bool :=
  match ev.op with
  | .createIncident req incidentID operatorID =>
    Except.isOk <$> createIncident times ev.now req incidentID operatorID
  | .createAlert req alertID operatorID =>
    Except.isOk <$> createAlert times ev.now req alertID operatorID
  | .createAsset body operatorID => Except.isOk <$> createAsset times ev.now body operatorID
  | .executeAction _ id operatorID =>
    Except.isOk <$> executeAction times ev.now (executionClient ev.now) id operatorID
  | .executePlaybook _ key operatorID =>
    Except.isOk <$> executePlaybook times ev.now (executionClient ev.now) key operatorID
  | .record body => do
    handleRecord times ev.now body
    pure true

/-- What an operation does to the database. -/
def step (db : DocStore) (ev : Event) : Option DocStore :=
  some (Prog.run (serveAll ev.answers) (ev.program times) db).2

/-- An operation is carried out, and every call of it succeeds. -/
def Carried : Run.History DocStore Event → DocStore → Event → Prop := fun _ db ev =>
  AllSucceed ev.answers (ev.program times) db ∧
    (Prog.run (serveAll ev.answers) (ev.program times) db).1 = some true

instance (hist : Run.History DocStore Event) (db : DocStore) (ev : Event) :
    Decidable (Carried times hist db ev) := inferInstanceAs (Decidable (_ ∧ _))

/-- What is recorded of an operation that is carried out. -/
def Event.recorded (db : DocStore) (ev : Event) : Entry :=
  let newKey (c : Col) (key : GoString) (doc : Document) : GoString :=
    newKey (ev.answers (Call.mk (.create c key doc) [])) key
  match ev.op with
  | .createIncident req incidentID operatorID =>
    let doc := req.document times ev.now incidentID
    created operatorID "incident" (newKey .incidents [] doc) req.effectiveName doc
  | .createAlert req alertID operatorID =>
    let doc := req.document times ev.now alertID
    created operatorID "alert" (newKey .alerts [] doc) req.name doc
  | .createAsset body operatorID =>
    let doc := body.document times ev.now
    created operatorID "asset" (newKey .assets body.key doc) body.name doc
  | .executeAction _ id operatorID =>
    let action := withKey id ((db .actions)[id]?.getD ∅)
    executed operatorID "action" id (action.text (str "type"))
      (((executionClient ev.now (action.text (str "type")) (action.text (str "target_asset_id"))
        .null).1.map Response.ExecutionResult.value).getD .null)
  | .executePlaybook _ key operatorID =>
    let pb := withKey key ((db .playbooks)[key]?.getD ∅)
    executed operatorID "playbook" key (pb.text (str "name"))
      (((executionClient ev.now (str "playbook_execute") (pb.text keyName)
        (.obj [(str "canvas", pb.get (str "canvas"))])).1.map
          Response.ExecutionResult.value).getD .null)
  | .record body => body.entry

/-! ### One operation -/

section Operation

variable {times} {answers : Call → Answer} {db : DocStore} {now : Time} {α : Type}

/-- A document more in the log, for a record. -/
def Logged (times : TimeFormat) (now : Time) (e : Entry) (db db' : DocStore) : Prop :=
  ∃ k, (db .auditLogs)[k]? = none ∧
    db' .auditLogs = (db .auditLogs).insert k (ownAttributes (e.document times now))

/-- What is recorded at the end of a program. -/
theorem logged_of_record {e : Entry} {a : α} (h : AllSucceed answers (record times now e >>= fun _ => pure a) db) :
    Logged times now e db
      (Prog.run (serveAll answers) (record times now e >>= fun _ => pure a) db).2 := by
  obtain ⟨k, hnone, -, hrun⟩ := allSucceed_record h
  exact ⟨k, hnone, by rw [hrun]; simp⟩

/-- Other collections do not matter. -/
theorem Logged.of_set {e : Entry} {c : Col} (hc : c ≠ .auditLogs) {docs : GoMap Document} {db' : DocStore}
    (h : Logged times now e (db.set c docs) db') : Logged times now e db db' := by
  rw [Logged, DocStore.set_apply, if_neg (Ne.symm hc)] at h
  exact h

end Operation

/-- **What is recorded of an operation that is carried out is a document more in the log.** -/
theorem carried_records {hist : Run.History DocStore Event} {db : DocStore} {ev : Event}
    (h : Carried times hist db ev) :
    Logged times ev.now (ev.recorded times db) db
      (Prog.run (serveAll ev.answers) (ev.program times) db).2 := by
  obtain ⟨hsucceed, hok⟩ := h
  rcases ev with ⟨op, now, answers⟩
  cases op with
  | createIncident req incidentID operatorID =>
    simp only [Event.program, Prog.map_eq, createIncident, Prog.bind_assoc] at hsucceed ⊢
    obtain ⟨-, hrest, hrun⟩ := AllSucceed.createDoc hsucceed rfl
    rw [hrun]
    simp only [Prog.bind_assoc] at hrest ⊢
    exact .of_set (c := .incidents) (by decide) (logged_of_record hrest)
  | createAlert req alertID operatorID =>
    simp only [Event.program, Prog.map_eq, createAlert, Prog.bind_assoc] at hsucceed ⊢
    obtain ⟨-, hrest, hrun⟩ := AllSucceed.createDoc hsucceed rfl
    rw [hrun]
    simp only [Prog.bind_assoc] at hrest ⊢
    exact .of_set (c := .alerts) (by decide) (logged_of_record hrest)
  | createAsset body operatorID =>
    simp only [Event.program, Prog.map_eq, createAsset, Prog.bind_assoc] at hsucceed ⊢
    obtain ⟨-, hrest, hrun⟩ := AllSucceed.createDoc hsucceed rfl
    rw [hrun]
    simp only [Prog.bind_assoc] at hrest ⊢
    exact .of_set (c := .assets) (by decide) (logged_of_record hrest)
  | executeAction tenantID id operatorID =>
    simp only [Event.program, Prog.map_eq, executeAction, Prog.bind_assoc] at hsucceed hok ⊢
    obtain ⟨d, r, hd, hr | ⟨msg, hr, -⟩, hrest, hrun⟩ := AllSucceed.getByKey hsucceed
    · subst hr
      rw [hrun]
      simp only [Prog.bind_assoc] at hrest ⊢
      obtain ⟨d', hd', hrest, hrun⟩ := AllSucceed.patchByKey hrest
      rw [hrun]
      simp only [executionClient, Prog.bind_assoc] at hrest ⊢
      obtain ⟨d'', hd'', hrest, hrun⟩ := AllSucceed.patchByKey hrest
      rw [hrun]
      have hlogged := logged_of_record hrest
      simp only [Event.recorded, hd, Option.getD_some]
      exact .of_set (c := .actions) (by decide) (.of_set (c := .actions) (by decide) hlogged)
    · subst hr
      rw [hrun] at hok
      exact absurd hok (by simp [Except.isOk, Except.toBool])
  | executePlaybook tenantID key operatorID =>
    simp only [Event.program, Prog.map_eq, executePlaybook, Prog.bind_assoc] at hsucceed hok ⊢
    obtain ⟨d, r, hd, hr | ⟨msg, hr, -⟩, hrest, hrun⟩ := AllSucceed.getByKey hsucceed
    · subst hr
      rw [hrun]
      simp only [executionClient, Prog.bind_assoc] at hrest ⊢
      obtain ⟨d', hd', hrest, hrun⟩ := AllSucceed.patchByKey hrest
      rw [hrun]
      obtain ⟨d'', hd'', hrest, hrun⟩ := AllSucceed.patchByKey hrest
      rw [hrun]
      have hlogged := logged_of_record hrest
      simp only [Event.recorded, hd, Option.getD_some]
      exact .of_set (c := .playbooks) (by decide) (.of_set (c := .playbooks) (by decide) hlogged)
    · subst hr
      rw [hrun] at hok
      exact absurd hok (by simp [Except.isOk, Except.toBool])
  | record body =>
    exact logged_of_record hsucceed

/-! ### The log -/

/-- The documents of the log, with their keys. -/
def auditDocs (db : DocStore) : List Document :=
  (db .auditLogs).toList.map fun kd => withKey kd.1 kd.2

/-- What a record says: who has done what, and to what. -/
def summaryNames : List String :=
  ["operator_id", "action", "resource_type", "resource_id", "resource_name"]

/-- What a document of the log says. -/
def summaryOf (d : Document) : List GoString := summaryNames.map fun name => d.text (str name)

def Entry.summary (e : Entry) : List GoString :=
  [e.operatorID, e.action, e.resourceType, e.resourceID, e.resourceName]

theorem toList_insert_perm {β : Type} {m : GoMap β} {k : GoString} (h : m[k]? = none) (v : β) :
    ((m.insert k v).toList).Perm ((k, v) :: m.toList) := by
  have hnodup : ∀ m : GoMap β, m.toList.Nodup := fun m => (MapRange.byKey.nodup_keys m).of_map _
  have hnotMem : (k, v) ∉ m.toList := by
    rw [Std.ExtTreeMap.mem_toList_iff_getElem?_eq_some, h]
    exact Option.some_ne_none _ ∘ Eq.symm
  refine (List.perm_ext_iff_of_nodup (hnodup _) (List.nodup_cons.mpr ⟨hnotMem, hnodup m⟩)).mpr ?_
  rintro ⟨k', v'⟩
  rw [Std.ExtTreeMap.mem_toList_iff_getElem?_eq_some, GoMap.getElem?_insert, List.mem_cons,
    Std.ExtTreeMap.mem_toList_iff_getElem?_eq_some, Prod.mk.injEq]
  by_cases hk : k' = k
  · subst hk
    rw [if_pos rfl, h]
    simp [eq_comm]
  · simp [hk]

section Log

variable {times} {now : Time} {e : Entry} {db db' : DocStore}

/-- The document of a record, read again. -/
theorem get_logged (k : GoString) {name : String} {v : Value} (h : (name, v) ∈ e.entries times now)
    (hname : str name ∉ Document.systemNames) :
    (withKey k (ownAttributes (e.document times now))).get (str name) = v := by
  have hkey : str name ≠ keyName := by
    rintro heq
    exact hname (heq ▸ List.mem_cons_self)
  rw [get_withKey, if_neg hkey, get_ownAttributes hname, e.get_document h]

theorem summaryOf_logged (k : GoString) :
    summaryOf (withKey k (ownAttributes (e.document times now))) = e.summary := by
  have htext : ∀ {name : String} {s : GoString}, (name, Value.str s) ∈ e.entries times now →
      str name ∉ Document.systemNames →
      (withKey k (ownAttributes (e.document times now))).text (str name) = s := by
    intro name s h hname
    rw [Document.text, get_logged k h hname]
    rfl
  rw [summaryOf, summaryNames, Entry.summary]
  simp only [List.map_cons, List.map_nil]
  rw [htext (s := e.operatorID) (by simp [Entry.entries]) (by decide),
    htext (s := e.action) (by simp [Entry.entries]) (by decide),
    htext (s := e.resourceType) (by simp [Entry.entries]) (by decide),
    htext (s := e.resourceID) (by simp [Entry.entries]) (by decide),
    htext (s := e.resourceName) (by simp [Entry.entries]) (by decide)]

theorem tenant_logged (k : GoString) :
    (withKey k (ownAttributes (e.document times now))).text (str "tenant_id") = [] := by
  rw [Document.text, get_logged k (v := .str []) (by simp [Entry.entries]) (by decide)]
  rfl

theorem auditDocs_logged (h : Logged times now e db db') :
    ∃ k, (auditDocs db').Perm
      (withKey k (ownAttributes (e.document times now)) :: auditDocs db) := by
  obtain ⟨k, hnone, heq⟩ := h
  refine ⟨k, ?_⟩
  rw [auditDocs, heq]
  exact (toList_insert_perm hnone _).map _

end Log

/-- What was recorded of the operations of a run. -/
def summaries (hist : Run.History DocStore Event) : List (List GoString) :=
  hist.map fun p => (p.2.recorded times p.1).summary

/-- **The log has one document for each operation of a run, and none of them has a tenant.** -/
theorem log_of_reach {db₀ db : DocStore} {hist : Run.History DocStore Event} (hempty : db₀ .auditLogs = ∅)
    (h : Run.Reach (step times) (Carried times) db₀ hist db) :
    ((auditDocs db).map summaryOf).Perm (summaries times hist) ∧
      ∀ d ∈ auditDocs db, d.text (str "tenant_id") = [] := by
  refine @Run.Reach.invariant _ _ _ _ _ (fun hist db =>
    ((auditDocs db).map summaryOf).Perm (summaries times hist) ∧
      ∀ d ∈ auditDocs db, d.text (str "tenant_id") = []) ?_ ?_ _ _ h
  · rw [auditDocs, hempty]
    exact ⟨.refl _, fun d hd => absurd hd List.not_mem_nil⟩
  · rintro hist db db' ev ⟨hsummaries, htenants⟩ hcarried hstep
    obtain rfl := Option.some.inj hstep
    obtain ⟨k, hperm⟩ := auditDocs_logged (carried_records times hcarried)
    constructor
    · have hall := hperm.map summaryOf
      rw [List.map_cons, summaryOf_logged] at hall
      exact hall.trans (hsummaries.cons _)
    · intro d hd
      obtain rfl | hold := List.mem_cons.mp (hperm.mem_iff.mp hd)
      · exact tenant_logged k
      · exact htenants d hold

/-! ### The list of a tenant -/

/-- The log as a collection of the database. -/
def logOf (c : DBCollection Document) (db : DocStore) : DBCollection Document :=
  { c with docs := auditDocs db }

/-- What `WebList` lists for a tenant when nothing else is asked for, over all its pages. -/
def listed (c : DBCollection Document) (db : DocStore) (tenantID : GoString) : List Document :=
  (logOf c db).matching ((webFilter tenantID 1).toList times.text)

/-- **A page of the list has its part of it.** -/
theorem list_page (c : DBCollection Document) (db : DocStore) (tenantID : GoString) {page : ℤ}
    (hpage : 1 ≤ page) (hoffset : (page - 1) * 20 < 2 ^ 63) :
    ∃ pageMeta, list times (logOf c db) (webFilter tenantID page) =
      .ok (((listed times c db tenantID).drop ((page - 1) * 20).toNat).take 20, pageMeta) := by
  have hnumber : ((webFilter tenantID page).toList times.text).pageNumber = page :=
    if_neg (Int.not_lt.mpr hpage)
  have hsort : ((webFilter tenantID page).toList times.text).SortsByPath :=
    ListOptions.sortsByPath_of_path (str "created_at") (by decide +kernel) (by decide +kernel) rfl
  have hlimit : ((webFilter tenantID page).toList times.text).limit = 20 := rfl
  obtain ⟨pageMeta, hfound⟩ := @findPaged_page _ (logOf c db) _ hsort
    (by rw [hnumber]; exact hpage) (by rw [hlimit]; decide) (by rw [hnumber, hlimit]; exact hoffset)
  rw [hnumber, hlimit] at hfound
  exact ⟨pageMeta, hfound⟩

/-- The list has the documents of a tenant, or all where no tenant is given. -/
theorem listed_perm (c : DBCollection Document) (db : DocStore) (tenantID : GoString) :
    (listed times c db tenantID).Perm
      ((auditDocs db).filter fun d => OfTenant tenantID (d.text (str "tenant_id"))) := by
  have hpasses : ((webFilter tenantID 1).toList times.text).passes =
      fun d => decide (OfTenant tenantID (d.text (str "tenant_id"))) := by
    funext d
    have hall := @all_tenantFilter Document (fun d => d.text (str "tenant_id")) tenantID d
    rw [Bool.eq_iff_iff, decide_eq_true_iff, ← hall]
    simp [ListOptions.passes, ListFilter.toList, webFilter, equalFilter]
  rw [← hpasses]
  exact c.perm ..

/-- The operations of a run that were carried out for a tenant. -/
def carriedFor (tenantID : GoString) (hist : Run.History DocStore Event) : Run.History DocStore Event :=
  hist.filter fun p => p.2.op.tenantID = tenantID

/-- **The trail of a tenant is complete**: its list has one document for each operation that was carried
out for it, and no other. -/
def Complete (c : DBCollection Document) (hist : Run.History DocStore Event) (db : DocStore)
    (tenantID : GoString) : Prop :=
  ((listed times c db tenantID).map summaryOf).Perm (summaries times (carriedFor tenantID hist))

/-- Nothing was carried out for a tenant, or no tenant is asked for and nobody had one. -/
def NothingFor (hist : Run.History DocStore Event) (tenantID : GoString) : Prop :=
  if tenantID = [] then ∀ p ∈ hist, p.2.op.tenantID = [] else ∀ p ∈ hist, p.2.op.tenantID ≠ tenantID

/-- **The list of a tenant is empty**, since no document of the log has a tenant. -/
theorem listed_eq_nil (c : DBCollection Document) {db₀ db : DocStore}
    {hist : Run.History DocStore Event} (hempty : db₀ .auditLogs = ∅)
    (h : Run.Reach (step times) (Carried times) db₀ hist db) {tenantID : GoString}
    (hsome : tenantID ≠ []) : listed times c db tenantID = [] := by
  obtain ⟨-, htenants⟩ := log_of_reach times hempty h
  have hnone : (auditDocs db).filter (fun d => OfTenant tenantID (d.text (str "tenant_id"))) = [] := by
    refine List.filter_eq_nil_iff.mpr fun d hd => ?_
    rw [decide_eq_true_iff, htenants d hd]
    exact not_or.mpr ⟨hsome, Ne.symm hsome⟩
  have hlisted := listed_perm times c db tenantID
  rw [hnone] at hlisted
  exact hlisted.eq_nil

/-- The list of a request without a tenant has every document. -/
theorem listed_nil_perm (c : DBCollection Document) (db : DocStore) :
    (listed times c db []).Perm (auditDocs db) := by
  have hall : (auditDocs db).filter (fun d => OfTenant [] (d.text (str "tenant_id"))) =
      auditDocs db := List.filter_eq_self.mpr fun d _ => decide_eq_true (.inl rfl)
  have hlisted := listed_perm times c db []
  rwa [hall] at hlisted

/-- **The trail of a tenant is complete only if nothing was carried out for it**; and that of a
request without a tenant, if there were only such. -/
theorem complete_iff (c : DBCollection Document) {db₀ db : DocStore}
    {hist : Run.History DocStore Event} (hempty : db₀ .auditLogs = ∅)
    (h : Run.Reach (step times) (Carried times) db₀ hist db) (tenantID : GoString) :
    Complete times c hist db tenantID ↔ NothingFor hist tenantID := by
  obtain ⟨hsummaries, -⟩ := log_of_reach times hempty h
  rw [Complete, NothingFor]
  split_ifs with hnone
  · have hlisted := ((listed_nil_perm times c db).map summaryOf).trans hsummaries
    rw [hnone]
    constructor
    · intro hcomplete
      have hcount := (hlisted.symm.trans hcomplete).length_eq
      rw [summaries, summaries, List.length_map, List.length_map] at hcount
      exact fun p hp => of_decide_eq_true (List.length_filter_eq_length_iff.mp hcount.symm p hp)
    · intro hall
      have hsame : carriedFor [] hist = hist :=
        List.filter_eq_self.mpr fun p hp => decide_eq_true (hall p hp)
      rw [hsame]
      exact hlisted
  · rw [listed_eq_nil times c hempty h hnone, List.map_nil, List.nil_perm, summaries,
      List.map_eq_nil_iff, carriedFor, List.filter_eq_nil_iff]
    exact forall₂_congr fun p _ => not_congr decide_eq_true_iff

/-- Somebody makes an incident for a tenant. -/
def sampleEvent : Event where
  op := .createIncident { title := str "x", severity := str "low", tenantID := str "t" } (str "INC-1")
    (str "u")
  now := 0
  answers _ := { key := str "1" }

/-- A database with nothing in it. -/
def emptyStore : DocStore := fun _ => ∅

theorem carried_sample : Carried epochTimes [] emptyStore sampleEvent := by decide +kernel

theorem step_sample : ∃ db, step epochTimes emptyStore sampleEvent = some db := ⟨_, rfl⟩

/-- The trail of another tenant is complete. -/
theorem complete_iff_sample : ∃ hist db,
    Run.Reach (step epochTimes) (Carried epochTimes) emptyStore hist db ∧ hist.length = 1 ∧
      Complete epochTimes (.unsorted []) hist db (str "s") := by
  obtain ⟨db, hstep⟩ := step_sample
  have hreach := Run.Reach.next .start carried_sample hstep
  refine ⟨_, db, hreach, rfl, (complete_iff epochTimes _ rfl hreach _).mpr ?_⟩
  rw [NothingFor, if_neg (by decide)]
  exact List.forall_mem_singleton.mpr (by decide)

/-- **What a tenant has done is not in its list.** -/
theorem not_complete : ∃ hist db,
    Run.Reach (step epochTimes) (Carried epochTimes) emptyStore hist db ∧
      (carriedFor (str "t") hist).length = 1 ∧
      ¬Complete epochTimes (.unsorted []) hist db (str "t") := by
  obtain ⟨db, hstep⟩ := step_sample
  have hreach := Run.Reach.next .start carried_sample hstep
  refine ⟨_, db, hreach, rfl, fun hcomplete => ?_⟩
  have hcount := hcomplete.length_eq
  rw [listed_eq_nil epochTimes _ rfl hreach (by decide)] at hcount
  exact absurd hcount (by decide)

end Audit

end Xsiam

import Xsiam.Incidents.Service
import Xsiam.Lib.Links

/-!
# Incidents and alerts that are linked by hand

An alert refers to its incident, and the incident lists its alerts and counts them; the two sides
are kept as `Links`, members and owners by their keys. The requests of
`internal/domain/alert/service.go` and `internal/domain/incident/service.go` write one side each:
only a merge writes both, and it moves the alerts that are listed.

So the links stay consistent over a merge, and over whatever is created, but a link by hand is not
listed, a deleted alert stays listed, and a deleted incident stays referred to
(`Xsiam.Incidents.linked_iff_tidy`).
-/

namespace Xsiam

namespace Incidents

open Go Repository

/-! ### The links of a database -/

/-- The incident that an alert refers to. -/
def refOf (d : Document) : Option GoString :=
  match d.get (str "incident_id") with
  | .str s => some s
  | _ => none

/-- The alerts that an incident lists. -/
def listOf (d : Document) : List GoString := d.texts (str "alert_ids")

/-- The references of the alerts and the lists of the incidents, by their keys. -/
def linksOf (db : DocStore) : Links GoString GoString where
  ref k := (db .alerts)[k]?.map refOf
  list i := (db .incidents)[i]?.map listOf

/-- Every incident counts the alerts that it lists. -/
def Counted (db : DocStore) : Prop :=
  ∀ (i : GoString) (d : Document), (db .incidents)[i]? = some d →
    d.int (str "alert_count") = (listOf d).length

/-- **Alerts and incidents are linked consistently**: every reference goes to an incident that is
there, and every incident lists and counts exactly the alerts that refer to it. -/
structure Linked (db : DocStore) : Prop where
  links : (linksOf db).Consistent
  count : Counted db

section Views

variable {db db' : DocStore}

theorem linksOf_ref (db : DocStore) (k : GoString) :
    (linksOf db).ref k = (db .alerts)[k]?.map refOf := rfl

theorem linksOf_list (db : DocStore) (i : GoString) :
    (linksOf db).list i = (db .incidents)[i]?.map listOf := rfl

theorem linksOf_congr (halerts : db' .alerts = db .alerts)
    (hincidents : db' .incidents = db .incidents) : linksOf db' = linksOf db := by
  rw [linksOf, linksOf, halerts, hincidents]

theorem linksOf_insertAlert (db : DocStore) (k : GoString) (d : Document) :
    linksOf (db.set .alerts ((db .alerts).insert k d)) =
      { linksOf db with ref := Function.update (linksOf db).ref k (some (refOf d)) } := by
  refine congrArg₂ Links.mk ?_ rfl
  funext x
  rw [Function.update_apply, DocStore.set_self, GoMap.getElem?_insert]
  split_ifs <;> rfl

theorem linksOf_eraseAlert (db : DocStore) (k : GoString) :
    linksOf (db.set .alerts ((db .alerts).erase k)) = (linksOf db).drop k := by
  refine congrArg₂ Links.mk ?_ rfl
  funext x
  rw [Function.update_apply, DocStore.set_self, GoMap.getElem?_erase]
  split_ifs <;> rfl

theorem linksOf_insertIncident (db : DocStore) (i : GoString) (d : Document) :
    linksOf (db.set .incidents ((db .incidents).insert i d)) = (linksOf db).own i (listOf d) := by
  refine congrArg₂ Links.mk rfl ?_
  funext x
  rw [Function.update_apply, DocStore.set_self, GoMap.getElem?_insert]
  split_ifs <;> rfl

theorem linksOf_eraseIncident (db : DocStore) (i : GoString) :
    linksOf (db.set .incidents ((db .incidents).erase i)) = (linksOf db).close i := by
  refine congrArg₂ Links.mk rfl ?_
  funext x
  rw [Function.update_apply, DocStore.set_self, GoMap.getElem?_erase]
  split_ifs <;> rfl

/-- Alerts that are written leave the lists and the counts. -/
theorem linked_alerts_iff (h : Linked db) (docs : GoMap Document) :
    Linked (db.set .alerts docs) ↔ (linksOf (db.set .alerts docs)).Consistent :=
  ⟨fun h' => h'.links, fun hlinks => ⟨hlinks, h.count⟩⟩

theorem Counted.insert (h : Counted db) {i : GoString} {d : Document}
    (hd : d.int (str "alert_count") = (listOf d).length) :
    Counted (db.set .incidents ((db .incidents).insert i d)) := by
  rw [Counted, DocStore.set_self]
  exact GoMap.Each.insert h hd

theorem Counted.erase (h : Counted db) (i : GoString) :
    Counted (db.set .incidents ((db .incidents).erase i)) := by
  rw [Counted, DocStore.set_self]
  exact GoMap.Each.erase h i

theorem Linked.of_eq (h : Linked db) (halerts : db' .alerts = db .alerts)
    (hincidents : db' .incidents = db .incidents) : Linked db' where
  links := by
    rw [linksOf_congr halerts hincidents]
    exact h.links
  count := by
    intro i d hd
    rw [hincidents] at hd
    exact h.count i d hd

end Views

/-! ### Requests -/

/-- The requests that write alerts, incidents and their links, with the IDs that are made. -/
inductive LinkRequest where
  | createAlert (req : CreateAlertReq) (alertID operatorID : GoString)
  | linkIncident (alertKey incidentKey : GoString)
  | deleteAlert (key : GoString)
  | createIncident (req : CreateIncidentReq) (incidentID operatorID : GoString)
  | deleteIncident (key : GoString)
  | mergeIncidents (primaryKey : GoString) (secondaryKeys : List GoString)

section Requests

variable (times : TimeFormat)

/-- The program of a request, for what it responds with next to an error. -/
def linkProgram (now : Time) : LinkRequest → DB (Except GoString GoString)
  | .createAlert req alertID operatorID => createAlert times now req alertID operatorID
  | .linkIncident alertKey incidentKey =>
    linkIncident times now alertKey incidentKey >>= fun r => pure (r.map fun _ => alertKey)
  | .deleteAlert key => deleteAlert key >>= fun r => pure (r.map fun _ => key)
  | .createIncident req incidentID operatorID =>
    createIncident times now req incidentID operatorID
  | .deleteIncident key => deleteIncident key >>= fun r => pure (r.map fun _ => key)
  | .mergeIncidents primaryKey secondaryKeys =>
    mergeIncidents times now primaryKey secondaryKeys >>= fun r =>
      pure (r.map fun _ => primaryKey)

/-- What a request asks to be written. -/
inductive LinkWrite (now : Time) : LinkRequest → Op → Prop where
  | createAlert {req : CreateAlertReq} {alertID operatorID : GoString} :
      LinkWrite now (.createAlert req alertID operatorID)
        (.create .alerts [] (req.document times now alertID))
  | linkIncident {alertKey incidentKey : GoString} :
      LinkWrite now (.linkIncident alertKey incidentKey)
        (.update .alerts alertKey (stamp times now (incidentPatch incidentKey)))
  | deleteAlert {key : GoString} : LinkWrite now (.deleteAlert key) (.delete .alerts key)
  | createIncident {req : CreateIncidentReq} {incidentID operatorID : GoString} :
      LinkWrite now (.createIncident req incidentID operatorID)
        (.create .incidents [] (req.document times now incidentID))
  | deleteIncident {key : GoString} : LinkWrite now (.deleteIncident key) (.delete .incidents key)
  | relink {primaryKey aid : GoString} {sks : List GoString} :
      LinkWrite now (.mergeIncidents primaryKey sks)
        (.update .alerts aid (stamp times now (incidentPatch primaryKey)))
  | absorb {primaryKey sk : GoString} {sks : List GoString} (h : sk ∈ sks) :
      LinkWrite now (.mergeIncidents primaryKey sks) (.delete .incidents sk)
  | merge {primaryKey : GoString} {sks : List GoString} {m : Merged} :
      LinkWrite now (.mergeIncidents primaryKey sks)
        (.update .incidents primaryKey (stamp times now m.patch))
  | record {req : LinkRequest} {e : Audit.Entry} :
      LinkWrite now req (.create .auditLogs [] (e.document times now))

variable {times} in
theorem LinkWrite.col {now : Time} {req : LinkRequest} {op : Op} (h : LinkWrite times now req op) :
    op.col = .alerts ∨ op.col = .incidents ∨ op.col = .auditLogs := by
  cases h with
  | createAlert | linkIncident | deleteAlert | relink => exact .inl rfl
  | createIncident | deleteIncident | merge => exact .inr (.inl rfl)
  | absorb hmem => exact .inr (.inl rfl)
  | record => exact .inr (.inr rfl)

/-- What a request may ask of the database. -/
def LinkRequest.Asks (now : Time) (req : LinkRequest) (i : Repository.Call) : Prop :=
  i.op.isRead = true ∨ LinkWrite times now req i.op

section Asks

variable {times} {now : Time} {P : Repository.Call → Prop}

theorem calls_record (e : Audit.Entry)
    (h : P (Repository.Call.mk (.create .auditLogs [] (e.document times now)) [])) :
    (Audit.record times now e).Calls P := by
  refine Prog.Calls.bind (Prog.calls_send h) ?_
  rintro (e | k) <;> exact trivial

theorem calls_relinkAlerts {primaryKey : GoString} {i : ℕ} (h : ∀ aid j,
      P (Repository.Call.mk (.update .alerts aid (stamp times now (incidentPatch primaryKey))) [i, j]))
    (aids : List GoString) : ∀ j, (relinkAlerts times now primaryKey i aids j).Calls P := by
  induction aids with
  | nil => exact fun j => trivial
  | cons aid aids ih => exact fun j => (calls_patchByKey (h aid j)).bind fun _ => ih (j + 1)

theorem calls_mergeLoop (primaryKey : GoString) (sks : List GoString) : ∀ (rest : List GoString)
    (_ : rest ⊆ sks) (i : ℕ) (m : Merged), (mergeLoop times now primaryKey rest i m).Calls
      (LinkRequest.Asks times now (.mergeIncidents primaryKey sks)) := by
  intro rest
  induction rest with
  | nil => exact fun _ i m => trivial
  | cons sk rest ih =>
    intro hsub i m
    obtain ⟨hmem, hrest⟩ := List.cons_subset.mp hsub
    refine (calls_getByKey (.inl rfl)).bind ?_
    rintro (msg | sec)
    · exact ih hrest (i + 1) m
    · refine (calls_relinkAlerts (fun _ _ => .inr .relink) _ 0).bind fun _ => ?_
      refine (calls_deleteByKey (.inr (.absorb hmem))).bind fun _ => ?_
      exact ih hrest (i + 1) _

/-- **What a request may write is what it asks for.** -/
theorem linkProgram_asks (req : LinkRequest) :
    (linkProgram times now req).Calls (req.Asks times now) := by
  cases req with
  | createAlert req alertID operatorID =>
    refine Prog.Calls.bind (Prog.calls_send (.inr .createAlert)) ?_
    rintro (e | k)
    · exact trivial
    · exact (calls_record _ (.inr .record)).bind fun _ => trivial
  | linkIncident alertKey incidentKey =>
    refine Prog.Calls.bind ((calls_getByKey (.inl rfl)).bind ?_) fun _ => trivial
    rintro (msg | d)
    · exact trivial
    · exact calls_patchByKey (.inr .linkIncident)
  | deleteAlert k => exact (calls_deleteByKey (.inr .deleteAlert)).bind fun _ => trivial
  | createIncident req incidentID operatorID =>
    refine Prog.Calls.bind (Prog.calls_send (.inr .createIncident)) ?_
    rintro (e | k)
    · exact trivial
    · exact (calls_record _ (.inr .record)).bind fun _ => trivial
  | deleteIncident k => exact (calls_deleteByKey (.inr .deleteIncident)).bind fun _ => trivial
  | mergeIncidents primaryKey sks =>
    refine Prog.Calls.bind ((calls_getByKey (.inl rfl)).bind ?_) fun _ => trivial
    rintro (msg | primary)
    · exact trivial
    · exact (calls_mergeLoop primaryKey sks sks (List.Subset.refl _) 0 _).bind fun m =>
        calls_patchByKey (.inr .merge)

end Asks

/-- A request, when it comes, and how its calls go. -/
structure LinkTurn where
  req : LinkRequest
  now : Time := 0
  answers : Repository.Call → Answer := fun _ => {}

/-- The database after a request. -/
def LinkTurn.after (db : DocStore) (t : LinkTurn) : DocStore :=
  (Prog.run (serveAll t.answers) (linkProgram times t.now t.req) db).2

/-- One request after another. -/
def linkStep (db : DocStore) (t : LinkTurn) : Option DocStore := some (t.after times db)

/-- The incidents of a database can be read. -/
def Readable (db : DocStore) : Prop :=
  ∀ (i : GoString) (d : Document), (db .incidents)[i]? = some d →
    (withKey i d).Reads times incidentFields

/-- Every call of a request succeeds: what is read is there, and can be read. -/
structure Goes (db : DocStore) (t : LinkTurn) : Prop where
  calls : AllSucceed t.answers (linkProgram times t.now t.req) db
  readable : Readable times db

end Requests

/-- A request that has no link to write on the other side: an alert is linked where it is already
linked, or deleted while it is not, and an incident is deleted while no alert refers to it. -/
def Tidy (db : DocStore) : LinkRequest → Prop
  | .linkIncident alertKey incidentKey =>
    ∀ d : Document, (db .alerts)[alertKey]? = some d → refOf d = some incidentKey
  | .deleteAlert key => ∀ d : Document, (db .alerts)[key]? = some d → refOf d = none
  | .deleteIncident key =>
    ∀ (k : GoString) (d : Document), (db .alerts)[k]? = some d → refOf d ≠ some key
  | .createAlert _ _ _ | .createIncident _ _ _ | .mergeIncidents _ _ => True

/-- A merge has moved the alerts of the secondary incidents to the primary one. -/
def MovesAll (db db' : DocStore) : LinkRequest → Prop
  | .mergeIncidents primaryKey secondaryKeys =>
    ∀ k, ∀ sk ∈ secondaryKeys, (linksOf db).ref k = some (some sk) →
      (linksOf db').ref k = some (some primaryKey)
  | _ => True

section Steps

variable {times : TimeFormat} {now : Time} {answers : Repository.Call → Answer} {db : DocStore}
  {α : Type}

/-! ### What is created -/

theorem refOf_created (req : CreateAlertReq) (alertID : GoString) :
    refOf (ownAttributes (req.document times now alertID)) = none := by
  have hnames : ((req.entries times now alertID).map Prod.fst).Nodup := by
    have hlist : ["alert_id", "tenant_id", "name", "description", "severity", "source_type",
        "source", "host", "user", "mitre_tactic", "status", "asset_id", "asset_name", "user_name",
        "incident_id", "detection_rule", "rule_type", "trigger_source", "result_count",
        "mitre_tactics", "mitre_techniques", "iocs", "process_tree", "raw_data", "assignee_id",
        "assignee_name", "resolved_at", "resolution_note", "triggered_at", "created_at",
        "updated_at"].Nodup := by decide
    exact hlist
  have hget : (req.document times now alertID).get (str "incident_id") = .null :=
    Document.get_ofEntries hnames (by simp [CreateAlertReq.entries])
  rw [refOf, get_ownAttributes (by decide), hget]

theorem get_createdIncident (req : CreateIncidentReq) (incidentID : GoString) {name : String}
    {v : Value} (h : (name, v) ∈ req.entries times now incidentID)
    (hname : str name ∉ Document.systemNames) :
    (ownAttributes (req.document times now incidentID)).get (str name) = v := by
  have hnames : ((req.entries times now incidentID).map Prod.fst).Nodup := by
    have hlist : (["incident_id", "tenant_id", "name", "title", "description", "severity", "status",
        "smart_score", "score_factors", "alert_ids", "alert_count", "affected_assets", "host_count",
        "mitre_tactics", "mitre_techniques", "mitre_tactic", "assignee_id", "assignee_name",
        "assigned_to", "timeline", "notes", "first_seen", "last_activity", "resolved_at",
        "created_at", "updated_at"] ++ ["priority"]).Nodup := by decide
    rw [CreateIncidentReq.entries, nonemptyEntry]
    split_ifs
    · exact hlist.of_append_left
    · exact hlist
  rw [get_ownAttributes hname, CreateIncidentReq.document, Document.get_ofEntries hnames h]

theorem listOf_created (req : CreateIncidentReq) (incidentID : GoString) :
    listOf (ownAttributes (req.document times now incidentID)) = [] := by
  rw [listOf, Document.texts_eq, get_createdIncident req incidentID (v := .null)
    (by simp [CreateIncidentReq.entries]) (by decide)]
  rfl

theorem count_created (req : CreateIncidentReq) (incidentID : GoString) :
    (ownAttributes (req.document times now incidentID)).int (str "alert_count") = 0 := by
  rw [Document.int, get_createdIncident req incidentID (v := .int .int 0)
    (by simp [CreateIncidentReq.entries]) (by decide)]
  rfl

/-! ### What is patched -/

theorem refOf_patch (d : Document) (incidentKey : GoString) :
    refOf (d.patch (stamp times now (incidentPatch incidentKey))) = some incidentKey := by
  have hpatch : (stamp times now (incidentPatch incidentKey))[str "incident_id"]? =
      some (.str incidentKey) := by
    rw [getElem?_stamp (by decide)]
    have hnames : ["incident_id"].Nodup := by decide
    exact (@Document.getElem?_ofEntries [("incident_id", .str incidentKey)] hnames _ _).mpr (by simp)
  rw [refOf, Document.get_patch_of_some hpatch (by decide), mergeValue_str]

theorem texts_sliceValue_mergeValue (old : Value) (ss : Option (List GoString)) :
    Document.valueTexts (mergeValue old (sliceValue ss)) = ss.getD [] := by
  rw [Document.valueTexts_mergeValue]
  rcases ss with _ | ss
  · rfl
  · rw [sliceValue, Document.ofTexts, Document.valueTexts, List.map_map]
    exact List.map_id ss

theorem getElem?_mergedPatch (m : Merged) {name : String} {v : Value} (hname : name ≠ "updated_at")
    (h : (name, v) ∈ [("alert_ids", sliceValue m.alertIDs),
      ("alert_count", .int .int (m.alertIDs.getD []).length),
      ("affected_assets", sliceValue m.affectedAssets)]) :
    (stamp times now m.patch)[str name]? = some v := by
  rw [getElem?_stamp fun heq => hname (str_inj.mp heq)]
  refine (Document.getElem?_ofEntries ?_ _ _).mpr h
  have hnames : ["alert_ids", "alert_count", "affected_assets"].Nodup := by decide
  exact hnames

theorem listOf_patch (d : Document) (m : Merged) :
    listOf (d.patch (stamp times now m.patch)) = m.alertIDs.getD [] := by
  rw [listOf, Document.texts_eq, Document.get_patch_of_some
    (getElem?_mergedPatch m (by decide) List.mem_cons_self) (by decide),
    texts_sliceValue_mergeValue]

theorem count_patch (d : Document) (m : Merged) :
    (d.patch (stamp times now m.patch)).int (str "alert_count") =
      (listOf (d.patch (stamp times now m.patch))).length := by
  rw [Document.int, Document.get_patch_of_some (getElem?_mergedPatch m (by decide)
    (List.mem_cons_of_mem _ List.mem_cons_self)) (by decide), mergeValue_int, listOf_patch]
  rfl

theorem getD_sliceOf (d : Document) (name : GoString) : (sliceOf d name).getD [] = d.texts name := by
  rw [sliceOf, Document.texts_eq]
  cases d.get name <;> rfl

theorem getD_appendSlice (ss ts : Option (List GoString)) :
    (appendSlice ss ts).getD [] = ss.getD [] ++ ts.getD [] := by
  rw [appendSlice]
  split_ifs with h
  · rw [h, List.append_nil]
  · rfl

theorem listOf_withKey (k : GoString) (d : Document) : listOf (withKey k d) = listOf d := by
  rw [listOf, listOf, Document.texts_eq, Document.texts_eq, get_withKey, if_neg (by decide)]

/-! ### One request -/

/-- An alert that is created. -/
theorem allSucceed_createAlert {req : CreateAlertReq} {alertID operatorID : GoString}
    (h : AllSucceed answers (createAlert times now req alertID operatorID) db) :
    ∃ k, (db .alerts)[k]? = none ∧
      (Prog.run (serveAll answers) (createAlert times now req alertID operatorID) db).2 .alerts =
        (db .alerts).insert k (ownAttributes (req.document times now alertID)) ∧
      (Prog.run (serveAll answers) (createAlert times now req alertID operatorID) db).2 .incidents =
        db .incidents := by
  obtain ⟨hnone, hrest, hrun⟩ := AllSucceed.createDoc h rfl
  obtain ⟨k, -, -, hrecorded⟩ := Audit.allSucceed_record hrest
  refine ⟨_, hnone, ?_⟩
  rw [createAlert, hrun.trans hrecorded]
  exact ⟨rfl, rfl⟩

/-- An incident that is created. -/
theorem allSucceed_createIncident {req : CreateIncidentReq} {incidentID operatorID : GoString}
    (h : AllSucceed answers (createIncident times now req incidentID operatorID) db) :
    ∃ i, (db .incidents)[i]? = none ∧
      (Prog.run (serveAll answers) (createIncident times now req incidentID operatorID) db).2
        .alerts = db .alerts ∧
      (Prog.run (serveAll answers) (createIncident times now req incidentID operatorID) db).2
        .incidents = (db .incidents).insert i (ownAttributes (req.document times now incidentID)) := by
  obtain ⟨hnone, hrest, hrun⟩ := AllSucceed.createDoc h rfl
  obtain ⟨k, -, -, hrecorded⟩ := Audit.allSucceed_record hrest
  refine ⟨_, hnone, ?_⟩
  rw [createIncident, hrun.trans hrecorded]
  exact ⟨rfl, rfl⟩

/-- An incident that is fetched, and that can be read. -/
theorem allSucceed_getIncident {key : GoString} {place : List ℕ} {f : Except GoString Document → DB α}
    (hreads : Readable times db) (h : AllSucceed answers (getIncident times key place >>= f) db) :
    ∃ d, (db .incidents)[key]? = some d ∧ AllSucceed answers (f (.ok (withKey key d))) db ∧
      Prog.run (serveAll answers) (getIncident times key place >>= f) db =
        Prog.run (serveAll answers) (f (.ok (withKey key d))) db := by
  obtain ⟨d, r, hd, rfl | ⟨msg, -, hnot⟩, hrest, hrun⟩ := AllSucceed.getByKey h
  · exact ⟨d, hd, hrest, hrun⟩
  · exact absurd (hreads key d hd) hnot

/-! ### A merge -/

/-- The alerts of one secondary incident are linked to the primary one. -/
theorem allSucceed_relinkAlerts {primaryKey : GoString} {i : ℕ} {f : Unit → DB α} :
    ∀ {aids : List GoString} {j : ℕ} {db : DocStore},
      AllSucceed answers (relinkAlerts times now primaryKey i aids j >>= f) db →
      ∃ db', AllSucceed answers (f ()) db' ∧
        Prog.run (serveAll answers) (relinkAlerts times now primaryKey i aids j >>= f) db =
          Prog.run (serveAll answers) (f ()) db' ∧
        db' .incidents = db .incidents ∧ linksOf db' = (linksOf db).referAll aids primaryKey := by
  intro aids
  induction aids with
  | nil =>
    intro j db h
    refine ⟨db, h, rfl, rfl, ?_⟩
    simp [Links.referAll]
  | cons aid aids ih =>
    intro j db h
    rw [relinkAlerts, Prog.bind_assoc] at h ⊢
    obtain ⟨d, hd, hrest, hrun⟩ := AllSucceed.patchByKey h
    obtain ⟨db', hrest', hrun', hincidents, hlinks⟩ := ih hrest
    refine ⟨db', hrest', hrun.trans hrun', hincidents, ?_⟩
    rw [hlinks, linksOf_insertAlert, refOf_patch]
    refine congrArg₂ Links.mk ?_ rfl
    funext k
    by_cases hk : k ∈ aids
    · simp [hk]
    · by_cases hself : k = aid
      · simp [hself]
      · simp [hk, hself]

/-- What the loop of a merge has done to the database: it has collected the lists of incidents that
are gone, and what referred to one of them refers to the primary incident. -/
structure Absorbed (primaryKey : GoString) (sks : List GoString) (m : Merged) (db : DocStore)
    (m' : Merged) (db' : DocStore) : Prop where
  sub : ∀ (i : GoString) (d : Document), (db' .incidents)[i]? = some d →
    (db .incidents)[i]? = some d
  gone : ∀ sk ∈ sks, (db' .incidents)[sk]? = none
  moved : ∀ k, (linksOf db').ref k = (linksOf db).ref k ∨
    (linksOf db').ref k = some (some primaryKey)
  consistent : (db' .incidents)[primaryKey]? ≠ none →
    ((linksOf db).own primaryKey (m.alertIDs.getD [])).Consistent →
    ((linksOf db').own primaryKey (m'.alertIDs.getD [])).Consistent

/-- **The loop of a merge.** A secondary incident that is the primary one is gone after it, too, so
that the update at the end shows that there was none. -/
theorem allSucceed_mergeLoop {primaryKey : GoString} {f : Merged → DB α} :
    ∀ {sks : List GoString} {i : ℕ} {m : Merged} {db : DocStore}, Readable times db →
      AllSucceed answers (mergeLoop times now primaryKey sks i m >>= f) db →
      ∃ m' db', AllSucceed answers (f m') db' ∧
        Prog.run (serveAll answers) (mergeLoop times now primaryKey sks i m >>= f) db =
          Prog.run (serveAll answers) (f m') db' ∧
        Absorbed primaryKey sks m db m' db' := by
  intro sks
  induction sks with
  | nil =>
    intro i m db _ h
    exact ⟨m, db, h, rfl, fun _ _ => id, fun sk hsk => absurd hsk List.not_mem_nil,
      fun _ => .inl rfl, fun _ => id⟩
  | cons sk sks ih =>
    intro i m db hreads h
    rw [mergeLoop, Prog.bind_assoc] at h ⊢
    obtain ⟨d, hd, hrest, hrun⟩ := allSucceed_getIncident hreads h
    simp only [Prog.bind_assoc] at hrest hrun
    obtain ⟨db₁, hrest₁, hrun₁, hincidents, hlinks⟩ := allSucceed_relinkAlerts hrest
    obtain ⟨d', hd', hrest₂, hrun₂⟩ := AllSucceed.deleteByKey hrest₁
    have hlinks₂ : linksOf (db₁.set .incidents ((db₁ .incidents).erase sk)) =
        ((linksOf db).referAll (listOf d) primaryKey).close sk := by
      rw [linksOf_eraseIncident, hlinks, ← listOf_withKey sk d]
      rfl
    have hsub : ∀ (x : GoString) (own : Document),
        (db₁.set .incidents ((db₁ .incidents).erase sk) .incidents)[x]? = some own →
          x ≠ sk ∧ (db .incidents)[x]? = some own := by
      intro x own hx
      rw [DocStore.set_self, GoMap.getElem?_erase, hincidents] at hx
      split_ifs at hx with hsk
      exact ⟨hsk, hx⟩
    obtain ⟨m', db', hrest', hrun', habsorbed⟩ :=
      ih (fun x own hx => hreads x own (hsub x own hx).2) hrest₂
    refine ⟨m', db', hrest', hrun.trans (hrun₁.trans (hrun₂.trans hrun')), ?_, ?_, ?_, ?_⟩
    · intro x own hx
      exact (hsub x own (habsorbed.sub x own hx)).2
    · intro x hx
      rcases List.mem_cons.mp hx with rfl | hx
      · rw [Option.eq_none_iff_forall_ne_some]
        intro own hown
        exact (hsub x own (habsorbed.sub x own hown)).1 rfl
      · exact habsorbed.gone x hx
    · intro k
      rcases habsorbed.moved k with hk | hk
      · rw [hk, hlinks₂]
        by_cases hmem : k ∈ listOf d
        · exact .inr (if_pos hmem)
        · exact .inl (if_neg hmem)
      · exact .inr hk
    · intro hprimary hconsistent
      refine habsorbed.consistent hprimary ?_
      -- the primary incident is still there, so it is not the one that has just gone
      have hne : sk ≠ primaryKey := by
        obtain ⟨own, hown⟩ := Option.ne_none_iff_exists'.mp hprimary
        exact fun heq => (hsub _ own (habsorbed.sub _ own hown)).1 heq.symm
      have hprimaryList : ((linksOf db).own primaryKey (m.alertIDs.getD [])).list primaryKey =
          some (m.alertIDs.getD []) := Function.update_self ..
      have hsecondaryList : ((linksOf db).own primaryKey (m.alertIDs.getD [])).list sk =
          some (listOf d) := by
        refine (Function.update_of_ne hne ..).trans ?_
        rw [linksOf_list, hd]
        rfl
      have habsorb := hconsistent.absorb hprimaryList hsecondaryList hne
      have hlist : (m.add (withKey sk d)).alertIDs.getD [] = m.alertIDs.getD [] ++ listOf d := by
        rw [Merged.add, getD_appendSlice, getD_sliceOf, ← listOf_withKey sk d]
        rfl
      rw [hlinks₂, hlist]
      refine cast (congrArg Links.Consistent (congrArg₂ Links.mk rfl ?_)) habsorb
      funext x
      simp only [Links.own, Links.close, Links.referAll, Function.update_apply]
      split_ifs <;> rfl

/-- **A merge keeps alerts and incidents linked**, and moves all alerts of the incidents that it
merges. -/
theorem linked_merge {primaryKey : GoString} {sks : List GoString} (hreads : Readable times db)
    (hlinked : Linked db)
    (h : AllSucceed answers (linkProgram times now (.mergeIncidents primaryKey sks)) db) :
    Linked (Prog.run (serveAll answers)
        (linkProgram times now (.mergeIncidents primaryKey sks)) db).2 ∧
      MovesAll db (Prog.run (serveAll answers)
        (linkProgram times now (.mergeIncidents primaryKey sks)) db).2
          (.mergeIncidents primaryKey sks) := by
  simp only [linkProgram, mergeIncidents, Prog.bind_assoc] at h ⊢
  obtain ⟨primary, hprimary, hrest, hrun⟩ := allSucceed_getIncident hreads h
  simp only [Prog.bind_assoc] at hrest hrun
  obtain ⟨m, db', hrest', hrun', habsorbed⟩ := allSucceed_mergeLoop hreads hrest
  obtain ⟨d, hd, -, hrun''⟩ := AllSucceed.patchByKey hrest'
  rw [hrun.trans (hrun'.trans hrun'')]
  -- the loop starts with the list of the primary incident
  have hstart : ((linksOf db).own primaryKey
      ((Merged.of (withKey primaryKey primary)).alertIDs.getD [])).Consistent := by
    have hlist : (Merged.of (withKey primaryKey primary)).alertIDs.getD [] = listOf primary := by
      rw [Merged.of, getD_sliceOf, ← listOf_withKey primaryKey primary]
      rfl
    have hsame : (linksOf db).own primaryKey (listOf primary) = linksOf db := by
      have hself : some (listOf primary) = (linksOf db).list primaryKey := by
        rw [linksOf_list, hprimary]
        rfl
      rw [Links.own, hself, Function.update_eq_self]
    rw [hlist, hsame]
    exact hlinked.links
  have hend := habsorbed.consistent (by rw [hd]; exact Option.some_ne_none d) hstart
  have hcount' : Counted db' := fun i own hi => hlinked.count i own (habsorbed.sub i own hi)
  have hafter : Linked (db'.set .incidents ((db' .incidents).insert primaryKey
      (d.patch (stamp times now m.patch)))) := by
    refine ⟨?_, hcount'.insert (count_patch d m)⟩
    rwa [linksOf_insertIncident, listOf_patch]
  refine ⟨hafter, ?_⟩
  intro k sk hsk hk
  have hrefs : (linksOf (db'.set .incidents ((db' .incidents).insert primaryKey
      (d.patch (stamp times now m.patch))))).ref k = (linksOf db').ref k := by
    rw [linksOf_insertIncident]
    rfl
  rcases habsorbed.moved k with hmoved | hmoved
  · -- an alert that still referred to a secondary incident would refer to none that is there
    have hthere := hafter.links.there k sk (by
      rw [← hk, ← hmoved]
      exact hrefs)
    rw [linksOf_insertIncident, listOf_patch] at hthere
    by_cases hself : sk = primaryKey
    · rw [← hself, ← hk, ← hmoved]
      exact hrefs
    · refine absurd ?_ hthere
      refine (Function.update_of_ne hself ..).trans ?_
      rw [linksOf_list, habsorbed.gone sk hsk]
      rfl
  · exact hrefs.trans hmoved

/-! ### Every request -/

/-- An alert that is linked refers to the incident, which does not list it yet. -/
theorem linked_linkIncident_iff {alertKey incidentKey : GoString} (hreads : Readable times db)
    (hlinked : Linked db)
    (h : AllSucceed answers (linkProgram times now (.linkIncident alertKey incidentKey)) db) :
    Linked (Prog.run (serveAll answers)
        (linkProgram times now (.linkIncident alertKey incidentKey)) db).2 ↔
      Tidy db (.linkIncident alertKey incidentKey) := by
  simp only [linkProgram, linkIncident, Prog.bind_assoc] at h ⊢
  obtain ⟨inc, hinc, hrest, hrun⟩ := allSucceed_getIncident hreads h
  obtain ⟨d, hd, -, hrun'⟩ := AllSucceed.patchByKey hrest
  rw [hrun.trans hrun']
  refine (linked_alerts_iff hlinked _).trans ?_
  rw [linksOf_insertAlert, refOf_patch]
  have hbefore : (linksOf db).ref alertKey = some (refOf d) := by
    rw [linksOf_ref, hd]
    rfl
  refine (Links.consistent_refer_iff hlinked.links hbefore ?_).trans ?_
  · intro g hg
    obtain rfl := Option.some.inj hg
    rw [linksOf_list, hinc]
    exact Option.some_ne_none _
  · -- there is one alert with the key, the one that is patched
    constructor
    · intro heq d' hd'
      rw [hd] at hd'
      rw [← Option.some.inj hd', heq]
    · exact fun htidy => (htidy d hd).symm

/-- An alert that is deleted stays in the list of its incident. -/
theorem linked_deleteAlert_iff {key : GoString} (hlinked : Linked db)
    (h : AllSucceed answers (linkProgram times now (.deleteAlert key)) db) :
    Linked (Prog.run (serveAll answers) (linkProgram times now (.deleteAlert key)) db).2 ↔
      Tidy db (.deleteAlert key) := by
  simp only [linkProgram, deleteAlert] at h ⊢
  obtain ⟨d, hd, -, hrun⟩ := AllSucceed.deleteByKey h
  rw [hrun]
  refine (linked_alerts_iff hlinked _).trans ?_
  have hbefore : (linksOf db).ref key = some (refOf d) := by
    rw [linksOf_ref, hd]
    rfl
  rw [linksOf_eraseAlert, Links.consistent_drop_iff hlinked.links hbefore]
  constructor
  · intro hnone d' hd'
    rw [hd] at hd'
    rw [← Option.some.inj hd', hnone]
  · exact fun htidy => htidy d hd

/-- The alerts of an incident that is deleted still refer to it. -/
theorem linked_deleteIncident_iff {key : GoString} (hlinked : Linked db)
    (h : AllSucceed answers (linkProgram times now (.deleteIncident key)) db) :
    Linked (Prog.run (serveAll answers) (linkProgram times now (.deleteIncident key)) db).2 ↔
      Tidy db (.deleteIncident key) := by
  simp only [linkProgram, deleteIncident] at h ⊢
  obtain ⟨d, hd, -, hrun⟩ := AllSucceed.deleteByKey h
  rw [hrun]
  have hafter : Linked (db.set .incidents ((db .incidents).erase key)) ↔
      ((linksOf db).close key).Consistent := by
    rw [← linksOf_eraseIncident]
    exact ⟨fun h' => h'.links, fun hlinks => ⟨hlinks, hlinked.count.erase key⟩⟩
  refine hafter.trans ((Links.consistent_close_iff hlinked.links).trans ?_)
  simp only [linksOf_ref, Tidy]
  constructor
  · intro hnone k d' hd' href
    exact hnone k (by rw [hd', ← href]; rfl)
  · intro htidy k hk
    obtain ⟨d', hd', href⟩ := Option.map_eq_some_iff.mp hk
    exact htidy k d' hd' href

/-- **A request keeps alerts and incidents linked exactly if it is tidy**, and a merge moves all
alerts of the incidents that it merges. -/
theorem linked_iff_tidy_step {t : LinkTurn} (h : Linked db) (hgoes : Goes times db t) :
    (Linked (t.after times db) ↔ Tidy db t.req) ∧ MovesAll db (t.after times db) t.req := by
  obtain ⟨req, now, answers⟩ := t
  obtain ⟨hcalls, hreads⟩ := hgoes
  unfold LinkTurn.after
  cases req with
  | createAlert req alertID operatorID =>
    obtain ⟨k, hnone, halerts, hincidents⟩ := allSucceed_createAlert hcalls
    refine ⟨iff_of_true ?_ trivial, trivial⟩
    refine @Linked.of_eq (db.set .alerts ((db .alerts).insert k _)) _ ?_ halerts hincidents
    rw [linked_alerts_iff h, linksOf_insertAlert, refOf_created]
    exact h.links.join (by rw [linksOf_ref, hnone]; rfl)
  | linkIncident alertKey incidentKey =>
    exact ⟨linked_linkIncident_iff hreads h hcalls, trivial⟩
  | deleteAlert key => exact ⟨linked_deleteAlert_iff h hcalls, trivial⟩
  | createIncident req incidentID operatorID =>
    obtain ⟨i, hnone, halerts, hincidents⟩ := allSucceed_createIncident hcalls
    refine ⟨iff_of_true ?_ trivial, trivial⟩
    refine @Linked.of_eq (db.set .incidents ((db .incidents).insert i _)) _ ?_ halerts
      hincidents
    refine ⟨?_, h.count.insert ?_⟩
    · rw [linksOf_insertIncident, listOf_created]
      exact h.links.open (by rw [linksOf_list, hnone]; rfl)
    · rw [count_created, listOf_created]
      rfl
  | deleteIncident key => exact ⟨linked_deleteIncident_iff h hcalls, trivial⟩
  | mergeIncidents primaryKey secondaryKeys =>
    obtain ⟨hafter, hmoves⟩ := linked_merge hreads h hcalls
    exact ⟨iff_of_true hafter trivial, hmoves⟩

end Steps

/-- **Over every sequence of requests whose calls succeed, alerts and incidents stay linked, and
every merge moves all alerts, exactly if every request is tidy.** -/
theorem linked_iff_tidy {times : TimeFormat} {db₀ db : DocStore}
    {hist : Run.History DocStore LinkTurn} (h₀ : Linked db₀)
    (h : Run.Reach (linkStep times) (fun _ => Goes times) db₀ hist db) :
    (Linked db ∧ ∀ p ∈ hist, Linked p.1 ∧ MovesAll p.1 (p.2.after times p.1) p.2.req) ↔
      ∀ p ∈ hist, Tidy p.1 p.2.req := by
  induction h with
  | start =>
    exact iff_of_true ⟨h₀, fun p hp => absurd hp List.not_mem_nil⟩
      fun p hp => absurd hp List.not_mem_nil
  | @next hist db db' t hreach hgoes hstep ih =>
    obtain rfl := Option.some.inj hstep
    rw [List.forall_mem_cons, List.forall_mem_cons, ← ih]
    constructor
    · rintro ⟨hafter, ⟨hnow, -⟩, hbefore⟩
      exact ⟨(linked_iff_tidy_step hnow hgoes).1.mp hafter, hnow, hbefore⟩
    · rintro ⟨htidy, hnow, hbefore⟩
      obtain ⟨hiff, hmoves⟩ := linked_iff_tidy_step hnow hgoes
      exact ⟨hiff.mpr htidy, ⟨hnow, hmoves⟩, hbefore⟩

/-! ### Two runs -/

instance (times : TimeFormat) (db : DocStore) : Decidable (Readable times db) :=
  decidable_of_iff (∀ kd ∈ (db .incidents).toList, (withKey kd.1 kd.2).Reads times incidentFields)
    ⟨fun h i d hd => h (i, d) (Std.ExtTreeMap.mem_toList_iff_getElem?_eq_some.mpr hd),
      fun h kd hkd => h kd.1 kd.2 (Std.ExtTreeMap.mem_toList_iff_getElem?_eq_some.mp hkd)⟩

/-- No documents. -/
def noDocs : DocStore := fun _ => ∅

theorem linked_noDocs : Linked noDocs where
  links := by
    refine ⟨fun k i hk => ?_, fun i is hi => ?_, fun i is hi => ?_⟩
    · cases hk
    · cases hi
    · cases hi
  count i d h := by
    rw [noDocs, Std.ExtTreeMap.getElem?_empty] at h
    cases h

/-- A request whose new document gets a key. -/
def turnWithKey (req : LinkRequest) (key : String) : LinkTurn where
  req
  answers _ := { key := str key }

def newAlert : LinkRequest := .createAlert
  { name := str "Beacon", severity := str "high", sourceType := str "xdr" } (str "ALT-1") (str "u")

def newIncident : LinkRequest := .createIncident
  { title := str "Intrusion", severity := str "high" } (str "INC-1") (str "u")

/-- An alert that comes and goes, and two incidents that are merged. -/
def tidyTurns : List LinkTurn :=
  [turnWithKey newAlert "a1", turnWithKey (.deleteAlert (str "a1")) "-",
    turnWithKey newIncident "i1", turnWithKey newIncident "i2",
    turnWithKey (.mergeIncidents (str "i1") [str "i2"]) "-"]

theorem linked_tidyTurns : ∃ hist db, Run.replay (linkStep epochTimes) [] noDocs tidyTurns =
      some (hist, db) ∧
    Linked db ∧ ∀ p ∈ hist, Linked p.1 ∧ MovesAll p.1 (p.2.after epochTimes p.1) p.2.req := by
  obtain ⟨hist, db, s₁, s₂, s₃, s₄, s₅, hrun, hhist, hgoes, hfree⟩ : ∃ hist db s₁ s₂ s₃ s₄ s₅,
      Run.replay (linkStep epochTimes) [] noDocs tidyTurns = some (hist, db) ∧
      hist = [(s₅, turnWithKey (.mergeIncidents (str "i1") [str "i2"]) "-"),
        (s₄, turnWithKey newIncident "i2"), (s₃, turnWithKey newIncident "i1"),
        (s₂, turnWithKey (.deleteAlert (str "a1")) "-"), (s₁, turnWithKey newAlert "a1")] ∧
      (∀ p ∈ hist, AllSucceed p.2.answers (linkProgram epochTimes p.2.now p.2.req) p.1 ∧
        Readable epochTimes p.1) ∧
      (linksOf s₂).ref (str "a1") = some none :=
    ⟨_, _, _, _, _, _, _, rfl, rfl, by decide +kernel, by decide +kernel⟩
  have hreach : Run.Reach (linkStep epochTimes) (fun _ => Goes epochTimes) noDocs hist db :=
    (Run.Reach.start.replay hrun).restrict fun p hp _ => ⟨(hgoes p hp).1, (hgoes p hp).2⟩
  have hdelete : Tidy s₂ (.deleteAlert (str "a1")) := by
    intro d hd
    rw [linksOf_ref, hd] at hfree
    exact Option.some.inj hfree
  refine ⟨hist, db, hrun, (linked_iff_tidy linked_noDocs hreach).mpr ?_⟩
  rw [hhist]
  simp only [List.forall_mem_cons]
  exact ⟨trivial, trivial, trivial, hdelete, trivial, fun p hp => absurd hp List.not_mem_nil⟩

/-- An alert is linked to an incident by hand. -/
theorem not_linked : ¬∀ (hist : Run.History DocStore LinkTurn) (db : DocStore),
    Run.Reach (linkStep epochTimes) (fun _ => Goes epochTimes) noDocs hist db → Linked db := by
  intro h
  obtain ⟨hist, db, hrun, hgoes, href, hlist⟩ : ∃ hist db, Run.replay (linkStep epochTimes) [] noDocs
      [turnWithKey newAlert "a1", turnWithKey newIncident "i1",
        turnWithKey (.linkIncident (str "a1") (str "i1")) "-"] = some (hist, db) ∧
      (∀ p ∈ hist, AllSucceed p.2.answers (linkProgram epochTimes p.2.now p.2.req) p.1 ∧
        Readable epochTimes p.1) ∧
      (linksOf db).ref (str "a1") = some (some (str "i1")) ∧
      (linksOf db).list (str "i1") = some [] :=
    ⟨_, _, rfl, by decide +kernel, by decide +kernel, by decide +kernel⟩
  have hreach : Run.Reach (linkStep epochTimes) (fun _ => Goes epochTimes) noDocs hist db :=
    (Run.Reach.start.replay hrun).restrict fun p hp _ => ⟨(hgoes p hp).1, (hgoes p hp).2⟩
  have hmem := ((h hist db hreach).links.mem_iff _ _ hlist (str "a1")).mpr href
  cases hmem

end Incidents

end Xsiam

import Mathlib.Algebra.BigOperators.Group.List.Basic
import Xsiam.Dashboard.Tenants
import Xsiam.Etl.Leaves

/-!
# How exact the figures are

What `computeStats` counts, against what there is.

A list has a page, so a total is a hundred at most (`Xsiam.Dashboard.totals_eq`). What is counted by
severity and by status always comes to the totals (`Xsiam.Dashboard.totals_by`). Three statuses are
counted as open, and `in_progress`, which stands for one of them, is not
(`Xsiam.Dashboard.countP_open_eq_iff`). The alerts of a day are those of all tenants whose time begins
with the day, and is within the bounds as a text (`Xsiam.Dashboard.mem_alertsByDay_iff`).

`Xsiam.Dashboard.exact_iff` says when all figures are exact.
-/

namespace Xsiam

namespace Dashboard

open Go Repository Beside

/-! ### Counts by key -/

/-- What the counts of a map come to. -/
def total (m : GoMap ℤ) : ℤ := (m.toList.map Prod.snd).sum

theorem total_erase {m : GoMap ℤ} {k : GoString} {n : ℤ} (h : m[k]? = some n) :
    total m = n + total (m.erase k) := by
  rw [total, ((Etl.toList_perm h).map Prod.snd).sum_eq, List.map_cons, List.sum_cons, total]

/-- **Counting once more** makes the sum one more, whether there was a count for the key or not. -/
theorem total_increment (m : GoMap ℤ) (k : GoString) :
    total (m.insert k (m[k]?.getD 0 + 1)) = total m + 1 := by
  have hget : (m.insert k (m[k]?.getD 0 + 1))[k]? = some (m[k]?.getD 0 + 1) := by
    rw [GoMap.getElem?_insert, if_pos rfl]
  rw [total_erase hget, Etl.erase_insert]
  cases h : m[k]? with
  | none =>
    -- what is not there is counted from zero
    rw [Etl.erase_of_none h, Option.getD_none, zero_add, add_comm]
  | some n =>
    rw [total_erase h, Option.getD_some]
    ring

/-- **The counts come to the number of what was counted.** -/
theorem total_increments (ks : List GoString) : total (increments ∅ ks) = ks.length := by
  have hfrom : ∀ m : GoMap ℤ, total (increments m ks) = total m + ks.length := by
    induction ks with
    | nil => exact fun m => (add_zero _).symm
    | cons k ks ih =>
      intro m
      rw [increments, List.foldl_cons, ← increments, ih, total_increment, List.length_cons]
      push_cast
      ring
  exact (hfrom ∅).trans (zero_add _)

/-! ### What is listed -/

variable (e : Engine) (clock : Clock) (order : MapRange) (tenantID : GoString) (docs : Docs)

/-- The list of all alerts. -/
def allAlerts : Listed :=
  listPage e .allAlerts alertFields (e.collection docs .alerts)
    (tenantPage "alerts" tenantID 10000 "triggered_at" false)

/-- The list of all incidents. -/
def allIncidents : Listed :=
  listPage e .allIncidents Incidents.incidentFields (e.collection docs .incidents)
    (tenantPage "incidents" tenantID 10000 "last_activity" false)

/-- The calls that the counts come from succeed: the lists, and the alerts of the last days. -/
structure Succeeds : Prop where
  alerts : (allAlerts e tenantID docs).ok = true
  incidents : (allIncidents e tenantID docs).ok = true
  range : e.fails .recentRange = false
  read : ∀ d ∈ inRange clock docs, d.Reads e.times alertFields

variable {e tenantID docs}

/-- The filter of a list is that of the tenant's documents. -/
theorem passes_tenantPage (collection : String) (pageSize : ℤ) (sortBy : String) (sortDesc : Bool)
    (d : Document) :
    (tenantPage collection tenantID pageSize sortBy sortDesc).passes d = owned tenantID d := by
  rw [ListOptions.passes, owned, Bool.eq_iff_iff, decide_eq_true_eq]
  exact all_tenantFilter

/-- **A list that succeeds** has the first hundred of the tenant's documents, in its order. -/
theorem exists_perm_data {q : Asked} {fields : Fields} {c : Source} {collection sortBy : String}
    (hsort : (tenantPage collection tenantID 10000 sortBy false).SortsByPath)
    (hok : (listPage e q fields (e.collection docs c)
      (tenantPage collection tenantID 10000 sortBy false)).ok = true) :
    ∃ ds : List Document, ds.Perm (ofTenant tenantID docs c) ∧ (listPage e q fields
      (e.collection docs c) (tenantPage collection tenantID 10000 sortBy false)).data =
        ds.take 100 := by
  obtain ⟨pageMeta, hpage⟩ := findPaged_first (c := e.collection docs c) hsort rfl
  refine ⟨(e.collection docs c).matching (tenantPage collection tenantID 10000 sortBy false), ?_, ?_⟩
  · refine ((e.collection docs c).perm _ _ _).trans (.of_eq ?_)
    exact List.filter_congr fun d _ => passes_tenantPage ..
  · -- ten thousand are asked for, which `FindPaged` cuts to a hundred
    rw [listPage, hpage] at hok ⊢
    dsimp only at hok ⊢
    split_ifs at hok ⊢
    · rfl

variable {clock}

theorem exists_perm_alerts (h : Succeeds e clock tenantID docs) :
    ∃ ds : List Document, ds.Perm (ofTenant tenantID docs .alerts) ∧
      (allAlerts e tenantID docs).data = ds.take 100 :=
  exists_perm_data (ListOptions.sortsByPath_of_path (str "triggered_at") (by decide +kernel)
    (by decide +kernel) rfl) h.alerts

theorem exists_perm_incidents (h : Succeeds e clock tenantID docs) :
    ∃ ds : List Document, ds.Perm (ofTenant tenantID docs .incidents) ∧
      (allIncidents e tenantID docs).data = ds.take 100 :=
  exists_perm_data (ListOptions.sortsByPath_of_path (str "last_activity") (by decide +kernel)
    (by decide +kernel) rfl) h.incidents

/-- **A total is a hundred at most.** -/
theorem totals_eq (h : Succeeds e clock tenantID docs) :
    (computeStats e clock order tenantID docs).totalAlerts =
        min 100 (ofTenant tenantID docs .alerts).length ∧
      (computeStats e clock order tenantID docs).totalIncidents =
        min 100 (ofTenant tenantID docs .incidents).length := by
  obtain ⟨alerts, halerts, hdata⟩ := exists_perm_alerts h
  obtain ⟨incidents, hincidents, hdata'⟩ := exists_perm_incidents h
  constructor
  · have htotal : (computeStats e clock order tenantID docs).totalAlerts =
        (if (allAlerts e tenantID docs).ok then (allAlerts e tenantID docs).data else []).length := rfl
    rw [htotal, if_pos h.alerts, hdata, List.length_take, halerts.length_eq]
  · have htotal : (computeStats e clock order tenantID docs).totalIncidents =
        (allIncidents e tenantID docs).data.length := rfl
    rw [htotal, hdata', List.length_take, hincidents.length_eq]

/-- **The figures by severity and by status come to the totals**, whatever is listed. -/
theorem totals_by (e : Engine) (clock : Clock) (tenantID : GoString) (docs : Docs) :
    total (computeStats e clock order tenantID docs).alertsBySeverity =
        (computeStats e clock order tenantID docs).totalAlerts ∧
      total (computeStats e clock order tenantID docs).incidentsByStatus =
        (computeStats e clock order tenantID docs).totalIncidents := by
  rw [computeStats]
  dsimp only
  rw [total_increments, total_increments, List.length_map, List.length_map]
  exact ⟨rfl, rfl⟩

/-- `Total` of `GetStats` of the alerts, in `internal/domain/alert/repository.go`. -/
def alertStatsTotal (tenantID : GoString) (docs : Docs) : ℤ :=
  ((docs .alerts).filter (hasTenant tenantID)).length

/-- It is the number of the tenant's alerts exactly if these have the tenant. That is always so unless
the tenant is empty, and then a list is one of all alerts. -/
theorem alertStatsTotal_eq_iff :
    alertStatsTotal tenantID docs = (ofTenant tenantID docs .alerts).length ↔
      ∀ d ∈ ofTenant tenantID docs .alerts, hasTenant tenantID d = true := by
  have hfilter : (docs .alerts).filter (hasTenant tenantID) =
      (ofTenant tenantID docs .alerts).filter (hasTenant tenantID) := by
    rw [ofTenant, ownPart, List.filter_filter]
    refine List.filter_congr fun d _ => ?_
    by_cases hd : hasTenant tenantID d = true
    · rw [hd, owned_of_hasTenant hd]
      rfl
    · rw [Bool.eq_false_iff.mpr hd]
      rfl
  rw [alertStatsTotal, hfilter, Nat.cast_inj, List.length_filter_eq_length_iff]

/-- A tenant that is not empty is the one of its documents. -/
theorem hasTenant_of_owned {d : Document} (htenant : tenantID ≠ []) (h : owned tenantID d = true) :
    hasTenant tenantID d = true := by
  rw [owned, decide_eq_true_eq] at h
  have htext := h.resolve_left htenant
  rw [hasTenant, decide_eq_true_eq]
  rw [Document.text] at htext
  -- what has a text that is not empty is a text
  cases hget : d.get (str "tenant_id") with
  | str s =>
    rw [hget] at htext
    rw [← htext]
    rfl
  | null | bool _ | int _ _ | float _ | arr _ | obj _ =>
    rw [hget] at htext
    exact absurd htext.symm htenant

/-! ### What is open -/

/-- What passes a test passes another one too, or not. -/
theorem countP_split {α : Type*} (p q : α → Bool) (l : List α) :
    l.countP p = l.countP (fun a => p a && q a) + l.countP fun a => p a && !q a := by
  rw [List.countP_eq_countP_filter_add l p q, List.countP_filter, List.countP_filter]

/-- The statuses that are counted as open. -/
def openStatuses : List String := ["new", "investigating", "contained"]

/-- The statuses that are final. -/
def doneStatuses : List String := ["resolved", "closed"]

theorem not_done_of_open {d : Document} (h : hasStatus openStatuses d = true) :
    hasStatus doneStatuses d = false := by
  simp only [hasStatus, openStatuses, doneStatuses, List.any_cons, List.any_nil, Bool.or_false,
    Bool.or_eq_true, decide_eq_true_eq, Bool.or_eq_false_iff, decide_eq_false_iff_not] at h ⊢
  obtain h | h | h := h
  all_goals
    rw [h]
    decide +kernel

/-- **What is counted as open is what is not final**, exactly if there is no other status. -/
theorem countP_open_eq_iff {ds : List Document} :
    ds.countP (hasStatus openStatuses) = ds.countP (fun d => !hasStatus doneStatuses d) ↔
      ∀ d ∈ ds, hasStatus (openStatuses ++ doneStatuses) d = true := by
  have hopen : ds.countP (fun d => !hasStatus doneStatuses d && hasStatus openStatuses d) =
      ds.countP (hasStatus openStatuses) := by
    refine List.countP_congr fun d _ => ?_
    rw [Bool.and_eq_true, Bool.not_eq_true']
    exact and_iff_right_of_imp not_done_of_open
  rw [countP_split (fun d => !hasStatus doneStatuses d) (hasStatus openStatuses), hopen,
    eq_comm, Nat.add_eq_left, List.countP_eq_zero]
  -- what is not final is counted, unless its status is none of the five
  refine forall₂_congr fun d _ => ?_
  have hstatus : hasStatus (openStatuses ++ doneStatuses) d =
      (hasStatus openStatuses d || hasStatus doneStatuses d) := List.any_append
  rw [hstatus, ← Bool.not_or, Bool.not_eq_true', Bool.not_eq_false, Bool.or_comm]

/-- The incidents that are counted as open are those of the list. -/
theorem openIncidents_eq (h : Succeeds e clock tenantID docs)
    (hpage : (ofTenant tenantID docs .incidents).length ≤ 100) :
    (computeStats e clock order tenantID docs).openIncidents =
      (ofTenant tenantID docs .incidents).countP (hasStatus openStatuses) := by
  obtain ⟨ds, hperm, hdata⟩ := exists_perm_incidents h
  have hopen : (computeStats e clock order tenantID docs).openIncidents =
      ((allIncidents e tenantID docs).data.filter (hasStatus openStatuses)).length := rfl
  rw [hopen, hdata, List.take_of_length_le (hperm.length_eq.trans_le hpage),
    ← List.countP_eq_length_filter, hperm.countP_eq]

/-! ### The days -/

/-- The times at which the alerts of a store were triggered, as they are written. -/
structure AlertTimes (docs : Docs) where
  time : Document → Stamp
  get_time : ∀ d ∈ docs .alerts, d.get (str "triggered_at") = .str (time d).text

/-- An alert was triggered on a day up to now, where `date` is what the calendar of the server shows
at an instant. -/
def triggeredOn (times : AlertTimes docs) (date : ℤ → GoString) (now : Stamp) (day : GoString)
    (d : Document) : Bool :=
  date (times.time d).instant = day && (times.time d).instant ≤ now.instant

variable (clock) in
/-- An alert is counted on a day: as a text its time is within the bounds, and begins with the day. -/
def countedOn (day : GoString) (d : Document) : Bool :=
  (atLeast (d.get (str "triggered_at")) clock.sevenDaysAgo.text &&
    atMost (d.get (str "triggered_at")) clock.now.text) && dayOf d = day

theorem dayTally_inRange (i : Fin 7) : (dayTally clock).count (inRange clock docs) i =
    (docs .alerts).countP (countedOn clock (clock.day i)) := by
  have hcount : (dayTally clock).count (inRange clock docs) i =
      (inRange clock docs).countP fun d => dayOf d = clock.day i := rfl
  rw [hcount, inRange, Incidents.findByTimeRange, List.countP_filter]
  refine List.countP_congr fun d _ => ?_
  rw [countedOn, Bool.and_comm]

theorem mem_alertsByDay_iff (h : Succeeds e clock tenantID docs) {entry : DayCount} :
    entry ∈ (computeStats e clock order tenantID docs).alertsByDay ↔
      ∃ i : Fin 7, entry = ⟨clock.day i, (docs .alerts).countP (countedOn clock (clock.day i))⟩ := by
  have hrange : (computeStats e clock order tenantID docs).alertsByDay =
      alertsByDay clock (findRecentRange e clock (docs .alerts)) := rfl
  have hread : findRecentRange e clock (docs .alerts) = inRange clock docs := by
    rw [findRecentRange_eq, h.range, readAll_of_all (List.all_eq_true.mpr fun d hd =>
      decide_eq_true (h.read d hd))]
    rfl
  rw [hrange, hread, alertsByDay_eq, List.mem_map]
  simp only [dayTally_inRange]
  constructor
  · rintro ⟨i, -, rfl⟩
    exact ⟨i, rfl⟩
  · rintro ⟨i, rfl⟩
    refine ⟨i, ?_, rfl⟩
    revert i
    decide

/-- **The count of a day is exact** if as many alerts are counted that are not the tenant's, or not of
the day, as are of the day and not counted. -/
theorem countP_countedOn_eq_iff (on : Document → Bool) (day : GoString) (ds : List Document) :
    ds.countP (countedOn clock day) = (ds.filter (owned tenantID)).countP on ↔
      ds.countP (fun d => countedOn clock day d && !owned tenantID d) +
          ds.countP (fun d => (countedOn clock day d && owned tenantID d) && !on d) =
        ds.countP (fun d => (on d && owned tenantID d) && !countedOn clock day d) := by
  have hcounted := countP_split (countedOn clock day) (owned tenantID) ds
  have hown := countP_split (fun d => countedOn clock day d && owned tenantID d) on ds
  have hon := countP_split (fun d => on d && owned tenantID d) (countedOn clock day) ds
  have hboth : ds.countP (fun d => (countedOn clock day d && owned tenantID d) && on d) =
      ds.countP (fun d => (on d && owned tenantID d) && countedOn clock day d) :=
    List.countP_congr fun d _ => by rw [Bool.and_comm, Bool.and_comm (countedOn _ _ _), Bool.and_assoc]
  rw [List.countP_filter]
  omega

/-! ### When the figures are exact -/

variable (e clock tenantID docs)

/-- The figures are exact, and agree. -/
structure Exact (times : AlertTimes docs) (date : ℤ → GoString) (stats : Stats) : Prop where
  totalAlerts : stats.totalAlerts = (ofTenant tenantID docs .alerts).length
  totalIncidents : stats.totalIncidents = (ofTenant tenantID docs .incidents).length
  alertStats : stats.totalAlerts = alertStatsTotal tenantID docs
  bySeverity : total stats.alertsBySeverity = stats.totalAlerts
  byStatus : total stats.incidentsByStatus = stats.totalIncidents
  openIncidents : stats.openIncidents =
    (ofTenant tenantID docs .incidents).countP fun d => !hasStatus doneStatuses d
  byDay : ∀ entry ∈ stats.alertsByDay, entry.count =
    (ofTenant tenantID docs .alerts).countP (triggeredOn times date clock.now entry.date)

/-- The lists have room for the tenant's alerts and incidents, the alerts have the tenant, and each
incident has a status that is counted or final. And on each day as many alerts are counted that are not
the tenant's, or are its but not of the day, as are its and of the day and not counted. -/
structure Counted (times : AlertTimes docs) (date : ℤ → GoString) : Prop where
  alerts : (ofTenant tenantID docs .alerts).length ≤ 100
  incidents : (ofTenant tenantID docs .incidents).length ≤ 100
  tenant : ∀ d ∈ ofTenant tenantID docs .alerts, hasTenant tenantID d = true
  statuses : ∀ d ∈ ofTenant tenantID docs .incidents,
    hasStatus (openStatuses ++ doneStatuses) d = true
  days : ∀ i : Fin 7,
    (docs .alerts).countP (fun d => countedOn clock (clock.day i) d && !owned tenantID d) +
        (docs .alerts).countP (fun d => (countedOn clock (clock.day i) d && owned tenantID d) &&
          !triggeredOn times date clock.now (clock.day i) d) =
      (docs .alerts).countP (fun d => (triggeredOn times date clock.now (clock.day i) d &&
        owned tenantID d) && !countedOn clock (clock.day i) d)

/-- **The figures are exact exactly if all is counted**, provided that the calls succeed. -/
theorem exact_iff (times : AlertTimes docs) (date : ℤ → GoString)
    (h : Succeeds e clock tenantID docs) :
    Exact clock tenantID docs times date (computeStats e clock order tenantID docs) ↔
      Counted clock tenantID docs times date := by
  have htotals := totals_eq order h
  have hby := totals_by order e clock tenantID docs
  constructor
  · intro hexact
    -- a total that is exact is no more than a page has
    have halerts : (ofTenant tenantID docs .alerts).length ≤ 100 := by
      have := hexact.totalAlerts
      omega
    have hincidents : (ofTenant tenantID docs .incidents).length ≤ 100 := by
      have := hexact.totalIncidents
      omega
    refine ⟨halerts, hincidents, ?_, ?_, fun i => ?_⟩
    · exact alertStatsTotal_eq_iff.mp (hexact.alertStats.symm.trans hexact.totalAlerts)
    · have hopen := hexact.openIncidents
      rw [openIncidents_eq order h hincidents, Nat.cast_inj] at hopen
      exact countP_open_eq_iff.mp hopen
    · have hday := hexact.byDay _ ((mem_alertsByDay_iff order h).mpr ⟨i, rfl⟩)
      exact (countP_countedOn_eq_iff _ _ _).mp (Nat.cast_inj.mp hday)
  · intro hcount
    have halerts : (computeStats e clock order tenantID docs).totalAlerts =
        (ofTenant tenantID docs .alerts).length := by
      rw [htotals.1, min_eq_right (by exact_mod_cast hcount.alerts)]
    have hincidents : (computeStats e clock order tenantID docs).totalIncidents =
        (ofTenant tenantID docs .incidents).length := by
      rw [htotals.2, min_eq_right (by exact_mod_cast hcount.incidents)]
    refine ⟨halerts, hincidents, ?_, hby.1, hby.2, ?_, ?_⟩
    · exact halerts.trans (alertStatsTotal_eq_iff.mpr hcount.tenant).symm
    · rw [openIncidents_eq order h hcount.incidents, countP_open_eq_iff.mpr hcount.statuses]
    · rintro entry hentry
      obtain ⟨i, rfl⟩ := (mem_alertsByDay_iff order h).mp hentry
      exact Nat.cast_inj.mpr ((countP_countedOn_eq_iff _ _ _).mpr (hcount.days i))

/-! ### Two stores -/

/-- The calendar of a server in UTC. -/
def utcDate (t : ℤ) : GoString :=
  if h : 0 ≤ t / 10 ^ 9 + 0 + 719528 * 86400 ∧
      t / 10 ^ 9 + 0 + 719528 * 86400 < 3652425 * 86400 then
    (Stamp.mk t 0 Stamp.utc_bound h).text.take 10 else []

/-- An incident of a tenant. -/
def statusIncident (tenantID status : String) : Document :=
  Document.ofEntries [("tenant_id", .str (str tenantID)), ("incident_id", .str (str "i-1")),
    ("status", .str (str status))]

/-- An hour after noon. -/
def oneClock : Clock where
  now := ⟨46800000000000, 0, Stamp.utc_bound, by decide⟩
  sevenDaysAgo := ⟨46800000000000 - 604800000000000, 0, Stamp.utc_bound, by decide⟩
  day := noonClock.day

/-- An alert at noon, and an incident. -/
def alertAndIncident (alert incident : Document) : Docs
  | .alerts => [alert]
  | .incidents => [incident]
  | _ => []

/-- The time of an alert at noon. -/
def noonTimes (tenantID alertID : String) (incident : Document) :
    AlertTimes (alertAndIncident (noonAlert tenantID alertID) incident) where
  time _ := Incidents.TimedQuery.noon
  get_time d hd := by
    rw [List.mem_singleton.mp hd]
    exact Document.get_ofEntries (by simp) (by simp)

/-- **The figures of one alert and of one incident that is contained** are exact. -/
theorem exact_contained :
    Exact oneClock (str "t-1")
      (alertAndIncident (noonAlert "t-1" "a-1") (statusIncident "t-1" "contained"))
      (noonTimes "t-1" "a-1" (statusIncident "t-1" "contained")) utcDate
      (computeStats plainEngine oneClock .byKey (str "t-1")
        (alertAndIncident (noonAlert "t-1" "a-1") (statusIncident "t-1" "contained"))) := by
  refine (exact_iff plainEngine oneClock .byKey (str "t-1") _ _ utcDate
    ⟨by decide +kernel, by decide +kernel, rfl, reads_inRange _ _ (by decide +kernel)⟩).mpr
      ⟨?_, ?_, ?_, ?_, ?_⟩
  · decide +kernel
  · decide +kernel
  · rintro d hd
    exact hasTenant_of_owned (by decide) (List.mem_filter.mp hd).2
  · decide +kernel
  · decide +kernel

/-- **An incident in progress is not counted as open, and the alert of another tenant is counted on its
day.** -/
theorem not_exact :
    Succeeds plainEngine oneClock (str "t-1")
      (alertAndIncident (noonAlert "t-2" "a-1") (statusIncident "t-1" "in_progress")) ∧
    (computeStats plainEngine oneClock .byKey (str "t-1") (alertAndIncident (noonAlert "t-2" "a-1")
      (statusIncident "t-1" "in_progress"))).openIncidents = 0 ∧
    (computeStats plainEngine oneClock .byKey (str "t-1") (alertAndIncident (noonAlert "t-2" "a-1")
      (statusIncident "t-1" "in_progress"))).alertsByDay.map (·.count) = [0, 0, 0, 0, 0, 0, 1] ∧
    ¬Exact oneClock (str "t-1")
      (alertAndIncident (noonAlert "t-2" "a-1") (statusIncident "t-1" "in_progress"))
      (noonTimes "t-2" "a-1" (statusIncident "t-1" "in_progress")) utcDate
      (computeStats plainEngine oneClock .byKey (str "t-1")
        (alertAndIncident (noonAlert "t-2" "a-1") (statusIncident "t-1" "in_progress"))) := by
  have hopen : (computeStats plainEngine oneClock .byKey (str "t-1") (alertAndIncident
      (noonAlert "t-2" "a-1") (statusIncident "t-1" "in_progress"))).openIncidents = 0 := by
    decide +kernel
  refine ⟨⟨by decide +kernel, by decide +kernel, rfl, reads_inRange _ _ (by decide +kernel)⟩, hopen,
    by decide +kernel, fun h => ?_⟩
  have hexact := hopen.symm.trans h.openIncidents
  exact absurd hexact (by decide +kernel)

end Dashboard

end Xsiam

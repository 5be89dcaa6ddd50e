import Xsiam.Lib.Run
import Xsiam.Reports.Calendar
import Xsiam.Repository.LogEntries

/-!
# Scheduled reports

`Schedule`, `ProcessPending` and `simulateGeneration` of `internal/domain/report/service.go`, with those
who create and delete reports, as a machine: a run of `ProcessPending` reads a page of the reports and
starts a generation for each of them that is due, and a generation comes to its end later, in any order.

A report that is scheduled to recur should be generated once for each of its instants that a run comes
behind, and should be scheduled for the next one afterwards. No run takes a report that it starts, and
no generation schedules it again: it is marked ready and stays so. So what should be is the case as long
as no run comes behind an instant and no generation succeeds, and never again after that
(`Xsiam.Reports.keepsRunning_iff`).
-/

namespace Xsiam

namespace Reports

open Go Repository

/-! ### When a report runs -/

/-- The instants of a schedule, from the first one on. -/
def instant (schedule : GoString) (next : Time) : ℕ → Time
  | 0 => next
  | j + 1 => nextRun schedule (instant schedule next j)

theorem le_instant (r : Recurrence) (next : Time) : ∀ j, next ≤ instant r.text next j
  | 0 => le_rfl
  | j + 1 => (le_instant r next j).trans (lt_nextRun r (instant r.text next j)).le

/-! ### Reports -/

/-- `model.ReportStatus`. A text that is none of its constants is `other`. -/
inductive ReportStatus where
  | pending
  | scheduled
  | generating
  | ready
  | failed
  | other (s : GoString)
deriving DecidableEq

/-- `model.Report`, the members that are read or written here. -/
structure Report where
  key : GoString
  tenantID : GoString := []
  status : ReportStatus
  schedule : GoString := []
  nextRunAt : Option Time := none
  downloadURL : GoString := []
  generatedAt : Option Time := none
  createdAt : Time := 0

/-- The options that `ReportRepo.List` hands to `FindPaged`. -/
def reportList (tenantID : GoString) (page pageSize : ℤ) : ListOptions Report where
  collection := str "reports"
  filters := tenantFilter (·.tenantID) tenantID
  bindVars := bindIf "tenantID" (tenantID ≠ []) (.str tenantID) ∅
  page
  pageSize

/-- `Update` -/
def updateReport (docs : List Report) (key : GoString) (patch : Report → Report) : List Report :=
  docs.map fun r => if r.key = key then patch r else r

/-- A `simulateGeneration` in progress, by what it was started with. -/
structure Job where
  key : GoString
  tenantID : GoString

/-- The reports, the time, the generations in progress, and the reports that runs are about to mark as
stuck. -/
structure State where
  reports : DBCollection Report
  now : Time
  jobs : List Job := []
  stuck : List GoString := []

namespace State

variable (s : State)

def setDocs (docs : List Report) : State := { s with reports := { s.reports with docs } }

/-- `Create`, with the key that the database gives. -/
def create (report : Report) : State :=
  { s.setDocs (s.reports.docs ++ [{ report with status := .generating, createdAt := s.now }]) with
    jobs := s.jobs ++ [⟨report.key, report.tenantID⟩] }

/-- `Schedule` -/
def schedule (key schedule : GoString) : State :=
  s.setDocs (updateReport s.reports.docs key fun r =>
    { r with status := .scheduled, schedule, nextRunAt := some (toSecond (nextRun schedule s.now)) })

/-- The end of `simulateGeneration`, where the statistics were there or not. -/
def finish (key : GoString) (stats : Bool) : State :=
  s.setDocs (updateReport s.reports.docs key fun r =>
    if stats then
      { r with
        status := .ready
        generatedAt := some (toSecond s.now)
        downloadURL := str "/api/reports/" ++ key ++ str "/download" }
    else { r with status := .failed })

/-- A generation that `ProcessPending` starts for a report. -/
def toStart (r : Report) : Option Job :=
  match r.status with
  | .pending => some ⟨r.key, r.tenantID⟩
  | .scheduled => if r.nextRunAt.all fun next => next ≤ s.now then some ⟨r.key, r.tenantID⟩ else none
  | _ => none

/-- A report that `ProcessPending` takes for stuck. -/
def toMark (r : Report) : Option GoString :=
  if r.status = .generating ∧ r.createdAt < s.now - 300 * 10 ^ 9 then some r.key else none

/-- `ProcessPending`, up to the updates, which come one by one. -/
def process (tenantID : GoString) : State :=
  match findPaged s.reports (reportList tenantID 1 100) with
  | .error _ => s
  | .ok (reports, _) =>
    { s with jobs := s.jobs ++ reports.filterMap s.toStart, stuck := s.stuck ++ reports.filterMap s.toMark }

end State

/-- What happens. A call of the database can fail, and so can the statistics. -/
inductive Event where
  | wait (d : ℕ)
  | create (report : Report) (fails : Bool)
  | delete (key : GoString)
  | schedule (key schedule : GoString) (fails : Bool)
  | process (tenantID : GoString) (fails : Bool)
  | mark (n : ℕ) (fails : Bool)
  | finish (n : ℕ) (stats fails : Bool)

/-- One event. -/
def step (s : State) : Event → Option State
  | .wait d => some { s with now := s.now + d }
  | .create report fails =>
    if report.key ∈ s.reports.docs.map (·.key) then none
    else if fails then some s else some (s.create report)
  | .delete key => some (s.setDocs (s.reports.docs.filter fun r => r.key ≠ key))
  | .schedule key schedule fails => some (if fails then s else s.schedule key schedule)
  | .process tenantID fails => some (if fails then s else s.process tenantID)
  | .mark n fails =>
    match s.stuck[n]? with
    | none => none
    | some key =>
      let docs := updateReport s.reports.docs key fun r => { r with status := .failed }
      some { (if fails then s else s.setDocs docs) with stuck := s.stuck.eraseIdx n }
  | .finish n stats fails =>
    match s.jobs[n]? with
    | none => none
    | some job =>
      some { (if fails then s else s.finish job.key stats) with jobs := s.jobs.eraseIdx n }

/-! ### What should be -/

/-- The past since a report was scheduled. -/
abbrev Past := Run.History State Event

/-- A generation of a report comes to a good end. -/
def Generates (key : GoString) (s : State) : Event → Bool
  | .finish n true false => (s.jobs[n]?).any fun job => job.key = key
  | _ => false

/-- How often a report was generated. -/
def generated (key : GoString) (hist : Past) : ℕ := hist.countP fun p => Generates key p.1 p.2

/-- An instant passed before a run over the reports of a tenant. -/
def PassedBefore (owner : GoString) (hist : Past) (t : Time) : Prop :=
  ∃ p ∈ hist, ∃ tenantID, p.2 = .process tenantID false ∧ OfTenant tenantID owner ∧ t ≤ p.1.now

/-- A report was generated once for each of its instants that passed before a run, and if it was
generated, it is scheduled for the instant behind those. -/
structure KeepsRunning (owner key schedule : GoString) (next : Time) (hist : Past) (s : State) :
    Prop where
  once : ∀ j, j < generated key hist ↔ PassedBefore owner hist (instant schedule next j)
  again : 0 < generated key hist → ∃ r ∈ s.reports.docs, r.key = key ∧ r.status = .scheduled ∧
    r.nextRunAt = some (instant schedule next (generated key hist))

/-- Nobody schedules a report again, or deletes it. -/
def Spares (key : GoString) : Event → Prop
  | .schedule key' _ _ => key' ≠ key
  | .delete key' => key' ≠ key
  | _ => True

/-- A run comes before all instants of a report, and no generation of it comes to a good end. -/
def Harmless (owner key schedule : GoString) (next : Time) (s : State) (ev : Event) : Prop :=
  (∀ tenantID, ev = .process tenantID false → OfTenant tenantID owner →
    ∀ j, s.now < instant schedule next j) ∧ Generates key s ev = false

/-! ### What is -/

variable {key : GoString} {s s' : State} {ev : Event} {r : Report}

theorem mem_updateReport {docs : List Report} {key : GoString} {patch : Report → Report}
    (h : r ∈ updateReport docs key patch) :
    (r ∈ docs ∧ r.key ≠ key) ∨ ∃ r₀ ∈ docs, r₀.key = key ∧ r = patch r₀ := by
  obtain ⟨r₀, hr₀, rfl⟩ := List.mem_map.mp h
  split_ifs with hkey
  · exact .inr ⟨r₀, hr₀, hkey, rfl⟩
  · exact .inl ⟨hr₀, hkey⟩

theorem docs_process (s : State) (tenantID : GoString) :
    (s.process tenantID).reports.docs = s.reports.docs := by
  rw [State.process]
  split
  · rfl
  · rfl

/-- What the end of a generation makes of a report. -/
theorem mem_finish {stats : Bool} (hr : r ∈ (s.finish key stats).reports.docs) :
    (r ∈ s.reports.docs ∧ r.key ≠ key) ∨ r.status = (if stats then .ready else .failed) := by
  obtain hold | ⟨r₀, -, -, rfl⟩ := mem_updateReport hr
  · exact .inl hold
  · refine .inr ?_
    cases stats with
    | true => rfl
    | false => rfl

/-- **Nothing but `Schedule` makes a report a scheduled one.** -/
theorem scheduled_of_step (hstep : step s ev = some s') (hspares : Spares key ev)
    (hr : r ∈ s'.reports.docs) (hkey : r.key = key) (hscheduled : r.status = .scheduled) :
    r ∈ s.reports.docs := by
  cases ev with
  | wait d =>
    obtain rfl := Option.some.inj hstep
    exact hr
  | create report fails =>
    rw [step] at hstep
    split_ifs at hstep
    · obtain rfl := Option.some.inj hstep
      exact hr
    · obtain rfl := Option.some.inj hstep
      obtain hold | hnew := List.mem_append.mp hr
      · exact hold
      · rw [List.mem_singleton.mp hnew] at hscheduled
        exact absurd hscheduled nofun
  | delete key' =>
    obtain rfl := Option.some.inj hstep
    exact List.mem_of_mem_filter hr
  -- the one event that schedules is of another report
  | schedule key' schedule fails =>
    obtain rfl := Option.some.inj hstep
    split_ifs at hr
    · exact hr
    · obtain ⟨hold, -⟩ | ⟨r₀, -, hkey₀, rfl⟩ := mem_updateReport hr
      · exact hold
      · exact absurd (hkey₀.symm.trans hkey) hspares
  | process tenantID fails =>
    obtain rfl := Option.some.inj hstep
    split_ifs at hr
    · exact hr
    · rwa [docs_process] at hr
  | mark n fails =>
    rw [step] at hstep
    split at hstep
    · exact absurd hstep nofun
    · obtain rfl := Option.some.inj hstep
      dsimp only at hr
      split_ifs at hr
      · exact hr
      · obtain ⟨hold, -⟩ | ⟨r₀, -, -, rfl⟩ := mem_updateReport hr
        · exact hold
        · exact absurd hscheduled nofun
  | finish n stats fails =>
    rw [step] at hstep
    split at hstep
    · exact absurd hstep nofun
    · obtain rfl := Option.some.inj hstep
      dsimp only at hr
      split_ifs at hr
      · exact hr
      · -- a run that has ended leaves its report as completed or as failed
        obtain ⟨hold, -⟩ | hstatus := mem_finish hr
        · exact hold
        · rw [hstatus] at hscheduled
          split_ifs at hscheduled

/-- A report that was generated is not scheduled. -/
theorem not_scheduled_of_generates (hstep : step s ev = some s') (hgen : Generates key s ev = true)
    (hr : r ∈ s'.reports.docs) (hkey : r.key = key) : r.status ≠ .scheduled := by
  match ev, hgen with
  | .finish n true false, hgen =>
    rw [Generates] at hgen
    cases hjob : s.jobs[n]? with
    | none =>
      rw [hjob] at hgen
      exact absurd hgen nofun
    | some job =>
      rw [hjob] at hgen
      rw [step, hjob] at hstep
      obtain rfl := Option.some.inj hstep
      obtain ⟨-, hne⟩ | hstatus := mem_finish hr
      · exact absurd (hkey.trans (of_decide_eq_true hgen).symm) hne
      · rw [hstatus]
        exact nofun

theorem generated_cons (key : GoString) (s : State) (ev : Event) (hist : Past) :
    generated key ((s, ev) :: hist) = generated key hist + if Generates key s ev then 1 else 0 := by
  rw [generated, List.countP_cons, generated]

/-- **A report that was generated is never scheduled again.** -/
theorem not_scheduled_of_reach {s₀ : State} {hist : Past}
    (h : Run.Reach step (fun _ _ ev => Spares key ev) s₀ hist s) (hgen : 0 < generated key hist) :
    ∀ r ∈ s.reports.docs, r.key = key → r.status ≠ .scheduled := by
  induction h with
  | start => exact absurd hgen (lt_irrefl 0)
  | @next hist s s' ev _ hspares hstep ih =>
    intro r hr hkey hscheduled
    rw [generated_cons] at hgen
    split_ifs at hgen with hnow
    · exact not_scheduled_of_generates hstep hnow hr hkey hscheduled
    · exact ih hgen r (scheduled_of_step hstep hspares hr hkey hscheduled) hkey hscheduled

/-- **What should be is the case exactly as long as no run comes behind an instant of the report and no
generation of it succeeds**, whatever else happens, and whether generations are in progress or not. -/
theorem keepsRunning_iff {s₀ : State} {owner schedule : GoString} {hist : Past}
    (h : Run.Reach step (fun _ _ ev => Spares key ev) (s₀.schedule key schedule) hist s) :
    KeepsRunning owner key schedule (nextRun schedule s₀.now) hist s ↔
      ∀ p ∈ hist, Harmless owner key schedule (nextRun schedule s₀.now) p.1 p.2 := by
  constructor
  · intro hkeeps
    have hnever : generated key hist = 0 := by
      by_contra hgen
      obtain ⟨r, hr, hkey, hscheduled, -⟩ := hkeeps.again (Nat.pos_of_ne_zero hgen)
      exact not_scheduled_of_reach h (Nat.pos_of_ne_zero hgen) r hr hkey hscheduled
    refine fun p hp => ⟨fun tenantID hev howner j => ?_, ?_⟩
    · by_contra hpassed
      have hgen := (hkeeps.once j).mpr ⟨p, hp, tenantID, hev, howner, not_lt.mp hpassed⟩
      exact absurd hgen (by omega)
    · rw [generated, List.countP_eq_zero] at hnever
      exact Bool.eq_false_iff.mpr (hnever p hp)
  · intro hharmless
    have hnever : generated key hist = 0 :=
      List.countP_eq_zero.mpr fun p hp => Bool.eq_false_iff.mp (hharmless p hp).2
    refine ⟨fun j => iff_of_false (by omega) ?_, fun hgen => absurd hgen (by omega)⟩
    rintro ⟨p, hp, tenantID, hev, howner, hpassed⟩
    exact absurd hpassed (not_le.mpr ((hharmless p hp).1 tenantID hev howner j))

/-! ### A daily report -/

/-- A report of a tenant, an hour before midnight. -/
def evening : State where
  reports := .unsorted [{ key := str "1", tenantID := str "t1", status := .ready }]
  now := 23 * 3600 * 10 ^ 9

/-- It is scheduled, and there is a run before midnight. -/
theorem keepsRunning_evening : ∃ hist s,
    Run.Reach step (fun _ _ ev => Spares (str "1") ev) (evening.schedule (str "1") (str "daily")) hist s ∧
      hist.length = 2 ∧
      KeepsRunning (str "t1") (str "1") (str "daily") (nextRun (str "daily") evening.now) hist s := by
  have h₁ : Run.Reach step (fun _ _ ev => Spares (str "1") ev)
      (evening.schedule (str "1") (str "daily")) _ _ :=
    .next .start (show Spares (str "1") (.wait (1800 * 10 ^ 9)) from trivial) rfl
  have h₂ := h₁.next (show Spares (str "1") (.process [] false) from trivial) rfl
  refine ⟨_, _, h₂, rfl, (keepsRunning_iff h₂).mpr ?_⟩
  refine List.forall_mem_cons.mpr ⟨⟨fun _ _ _ j => ?_, rfl⟩,
    List.forall_mem_singleton.mpr ⟨fun _ hev => (nomatch hev), rfl⟩⟩
  exact lt_of_lt_of_le (by decide) (le_instant .daily _ j)

/-- Midnight comes, and there are two runs before a generation has come to its end. -/
def twoRuns : List Event :=
  [.wait (3600 * 10 ^ 9), .process [] false, .wait (10 ^ 9), .process [] false, .wait (3 * 10 ^ 9),
    .finish 0 true false, .finish 0 true false]

/-- **The report is generated twice for one instant, and not scheduled again.** -/
theorem not_keepsRunning : ∃ hist s,
    Run.Reach step (fun _ _ ev => Spares (str "1") ev) (evening.schedule (str "1") (str "daily")) hist s ∧
      s.jobs = [] ∧ generated (str "1") hist = 2 ∧
      ¬KeepsRunning (str "t1") (str "1") (str "daily") (nextRun (str "daily") evening.now) hist s := by
  obtain ⟨hist, s, hrun, hjobs, hgen, hspares, hdocs⟩ : ∃ hist s,
      Run.replay step [] (evening.schedule (str "1") (str "daily")) twoRuns = some (hist, s) ∧
        s.jobs = [] ∧ generated (str "1") hist = 2 ∧ hist.map Prod.snd = twoRuns.reverse ∧
        s.reports.docs.map (·.status) = [.ready] := ⟨_, _, rfl, rfl, rfl, rfl, rfl⟩
  have hall : ∀ ev ∈ twoRuns, Spares (str "1") ev := by simp [twoRuns, Spares]
  have hreach : Run.Reach step (fun _ _ ev => Spares (str "1") ev)
      (evening.schedule (str "1") (str "daily")) hist s := (Run.Reach.start.replay hrun).restrict fun p hp _ =>
    hall p.2 (List.mem_reverse.mp (hspares ▸ List.mem_map_of_mem hp))
  refine ⟨hist, s, hreach, hjobs, hgen, fun hkeeps => ?_⟩
  obtain ⟨r, hr, -, hscheduled, -⟩ := hkeeps.again (by omega)
  have hready := List.mem_map_of_mem (f := (·.status)) hr
  rw [hdocs, List.mem_singleton] at hready
  exact absurd (hready.symm.trans hscheduled) nofun

end Reports

end Xsiam

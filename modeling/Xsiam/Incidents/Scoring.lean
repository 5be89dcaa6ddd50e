import Xsiam.Incidents.SmartScore
import Xsiam.Lib.Traces

/-!
# Scores behind an invalidation

`Get`, `Calculate` and `InvalidateAndRecalc` of `internal/domain/incident/smart_score_service.go` as
programs that take turns with each other and with those who change incidents and alerts. A calculation
reads the incident and its alerts, and puts what it makes of them into the cache later, and nothing
holds the cache between the two. So one that has read before a change can put its score there behind
the invalidation that the change is followed by (`Xsiam.Incidents.Scoring.not_current`). Where nobody
does, whoever asks after an invalidation gets the score of what there is
(`Xsiam.Incidents.Scoring.current_of_inTime`).
-/

namespace Xsiam

namespace Incidents

namespace Scoring

open Go

/-! ### Calls -/

/-- The incidents, and the alerts as far as they are listed for an incident. -/
structure Records where
  docs : List Incident
  alertKeys : GoString → List GoString

/-- The calls. What a calculation puts into the cache is given by what it was made from. -/
inductive Call where
  | get (key : GoString)
  | now
  | getByID (key : GoString)
  | listAlertKeys (key : GoString)
  | set (key : GoString) (inc : Incident) (alertCount : ℕ) (scoredAt computedAt : Time)
  | del (key : GoString)
  | setScore (key : GoString) (score : Float64)
  | setSeverity (key severity : GoString)
  | evict
  | list (tenantID : GoString)
  | change (f : Records → Records)

/-- What a call returns. Nobody looks at what an update returns. -/
abbrev Call.Reply : Call → Type
  | .get _ => Option SmartScoreEntry
  | .now => Time
  | .getByID _ => Except GoString Incident
  | .listAlertKeys _ => Except GoString (List GoString)
  | .list _ => Except GoString (List GoString)
  | .set _ _ _ _ _ | .del _ | .setScore _ _ | .setSeverity _ _ | .evict | .change _ => Unit

/-- A program that makes these calls. -/
abbrev Work := Prog Call.Reply

namespace Work

def get (key : GoString) : Work (Option SmartScoreEntry) := Prog.send (Call.get key)

def now : Work Time := Prog.send Call.now

def getByID (key : GoString) : Work (Except GoString Incident) := Prog.send (Call.getByID key)

def listAlertKeys (key : GoString) : Work (Except GoString (List GoString)) :=
  Prog.send (Call.listAlertKeys key)

def set (key : GoString) (inc : Incident) (alertCount : ℕ) (scoredAt computedAt : Time) : Work Unit :=
  Prog.send (Call.set key inc alertCount scoredAt computedAt)

def del (key : GoString) : Work Unit := Prog.send (Call.del key)

def setScore (key : GoString) (score : Float64) : Work Unit := Prog.send (Call.setScore key score)

def setSeverity (key severity : GoString) : Work Unit := Prog.send (Call.setSeverity key severity)

def evict : Work Unit := Prog.send Call.evict

def list (tenantID : GoString) : Work (Except GoString (List GoString)) :=
  Prog.send (Call.list tenantID)

def change (f : Records → Records) : Work Unit := Prog.send (Call.change f)

end Work

/-! ### Programs -/

section Programs

variable (ops : FloatOps)

/-- The entry that is made from an incident and the number of its alerts. -/
def scoreEntry (inc : Incident) (alertCount : ℕ) (scoredAt computedAt : Time) : SmartScoreEntry where
  score := calculateWeightedScore ops inc alertCount scoredAt
  factors := GoMap.insertAll ∅
    [(str "severity", inc.smartScore), (str "alert_count", ops.ofInt alertCount)]
  computedAt

/-- What is found in the cache and is still good. -/
def cached (key : GoString) : Work (Option SmartScoreEntry) := do
  match ← Work.get key with
  | none => pure none
  | some entry => do
    let now ← Work.now
    pure (if now - entry.computedAt < ttl then some entry else none)

/-- The severity propagation. -/
def propagate (key : GoString) (inc : Incident) (score : Float64) : Work Unit :=
  match propagated inc score with
  | some severity => Work.setSeverity key severity
  | none => pure ()

/-- `Calculate`. The time is taken for the age of the incident, and once more for the entry. -/
def calculate (key : GoString) : Work (Except GoString SmartScoreEntry) := do
  match ← cached key with
  | some entry => pure (.ok entry)
  | none => do
    match ← Work.getByID key with
    | .error err => pure (.error err)
    | .ok inc => do
      match ← Work.listAlertKeys key with
      | .error err => pure (.error err)
      | .ok alertKeys => do
        let scoredAt ← Work.now
        let computedAt ← Work.now
        let entry := scoreEntry ops inc alertKeys.length scoredAt computedAt
        Work.set key inc alertKeys.length scoredAt computedAt
        Work.setScore key entry.score
        propagate key inc entry.score
        pure (.ok entry)

/-- `Get` -/
def get (key : GoString) : Work (Except GoString SmartScoreEntry) := do
  match ← cached key with
  | some entry => pure (.ok entry)
  | none => calculate ops key

/-- `InvalidateAndRecalc` -/
def invalidateAndRecalc (key : GoString) : Work (Except GoString SmartScoreEntry) := do
  Work.del key
  calculate ops key

/-- The loop of `RecalcForTenant`. -/
def recalcLoop : List GoString → Work (Option GoString)
  | [] => pure none
  | key :: keys => do
    match ← invalidateAndRecalc ops key with
    | .error err => pure (some err)
    | .ok _ => recalcLoop keys

/-- `RecalcForTenant` -/
def recalcForTenant (tenantID : GoString) : Work (Option GoString) := do
  match ← Work.list tenantID with
  | .error err => pure (some err)
  | .ok keys => recalcLoop ops keys

/-- What is asked for, of the service or of others. -/
inductive Request where
  | get (key : GoString)
  | calculate (key : GoString)
  | invalidateAndRecalc (key : GoString)
  | evictExpired
  | recalcForTenant (tenantID : GoString)
  | change (f : Records → Records)

/-- What a request returns: a score, or an error or none. -/
inductive Result where
  | score (r : Except GoString SmartScoreEntry)
  | finished (err : Option GoString)

/-- The program of a request. -/
def Request.program : Request → Work Result
  | .get key => do
    let r ← Scoring.get ops key
    pure (.score r)
  | .calculate key => do
    let r ← Scoring.calculate ops key
    pure (.score r)
  | .invalidateAndRecalc key => do
    match ← Scoring.invalidateAndRecalc ops key with
    | .error err => pure (.finished (some err))
    | .ok _ => pure (.finished none)
  | .evictExpired => do
    Work.evict
    pure (.finished none)
  | .recalcForTenant tenantID => do
    let err ← Scoring.recalcForTenant ops tenantID
    pure (.finished err)
  | .change f => do
    Work.change f
    pure (.finished none)

end Programs

/-! ### Stores -/

/-- The collections, the cache, and the time. -/
structure Stores where
  records : Records
  cache : GoString → Option SmartScoreEntry
  clock : Time

/-- What a call meets: the time that passes before it, an error if the database gives one, and the
incidents that are listed. -/
structure Turn where
  wait : ℕ := 0
  fails : Option GoString := none
  listed : List GoString := []

/-- An incident without its score. -/
def unscored (inc : Incident) : Incident := { inc with smartScore := ⟨0⟩ }

/-- What the score of an incident is made from: the incident, as far as it is no score itself, and its
alerts. -/
def Records.data (records : Records) (key : GoString) : Option Incident × List GoString :=
  ((getByID records.docs key).map unscored, records.alertKeys key)

/-- An entry has the score of some data, at a time that is not after the one it says. -/
def IsScore (ops : FloatOps) (data : Option Incident × List GoString) (entry : SmartScoreEntry) : Prop :=
  ∃ inc scoredAt, data.1 = some inc ∧ scoredAt ≤ entry.computedAt ∧
    entry.score = calculateWeightedScore ops inc data.2.length scoredAt

section Serve

variable (ops : FloatOps)

/-- What the stores do with a call. -/
def answer (w : Turn) : (i : Call) → Stores → i.Reply × Stores
  | .get key, st => (st.cache key, st)
  | .now, st => (st.clock, st)
  | .getByID key, st =>
    (match w.fails, Incidents.getByID st.records.docs key with
      | some err, _ => .error err
      | none, none => .error (str "incident " ++ key ++ str " not found")
      | none, some inc => .ok inc, st)
  | .listAlertKeys key, st =>
    (match w.fails with
      | some err => .error err
      | none => .ok (st.records.alertKeys key), st)
  | .list _, st =>
    (match w.fails with
      | some err => .error err
      | none => .ok w.listed, st)
  | .set key inc alertCount scoredAt computedAt, st =>
    ((), { st with cache :=
      Function.update st.cache key (some (scoreEntry ops inc alertCount scoredAt computedAt)) })
  | .del key, st => ((), { st with cache := Function.update st.cache key none })
  | .setScore key score, st =>
    ((), if w.fails.isSome then st else
      { st with records.docs :=
          updateIncident st.records.docs key fun d => { d with smartScore := score } })
  | .setSeverity key severity, st =>
    ((), if w.fails.isSome then st else
      { st with records.docs := updateIncident st.records.docs key fun d => { d with severity } })
  | .evict, st =>
    ((), { st with cache := fun key => (st.cache key).filter fun e => st.clock - e.computedAt < ttl })
  | .change f, st => ((), { st with records := f st.records })

/-- What the stores do with a call when its turn has come. -/
def serve (w : Turn) : Prog.TimedService Call.Reply Stores :=
  fun _ i st => answer ops w i { st with clock := st.clock + w.wait }

end Serve

/-! ### Runs -/

/-- A request in progress. -/
abbrev Task := Prog.Doing Call.Reply Request Result

/-- Requests in progress. -/
abbrev Pool := Prog.Traced Call.Reply Request Stores Result

/-- What happens: a request arrives, or makes its next call. -/
abbrev Occurrence := Prog.Pool.Event Request Turn

/-- The past of a run. -/
abbrev Past := Run.History Pool Occurrence

/-- One occurrence. -/
abbrev handle (ops : FloatOps) : Pool → Occurrence → Option Pool :=
  Prog.Traced.step (Request.program ops) (serve ops)

/-- The data of an incident are the same as at every moment from `n` on. -/
def Unchanged (past : Past) (s : Pool) (n : ℕ) (key : GoString) : Prop :=
  ∀ p ∈ past, n ≤ p.1.now → p.1.store.records.data key = s.store.records.data key

/-- A task is an invalidation that has taken the entry out of the cache at a moment. -/
structure Invalidated (t : Task) (key : GoString) (m : ℕ) : Prop where
  req : t.req = .invalidateAndRecalc key
  deleted : (m, ⟨.del key, ()⟩) ∈ t.trace

/-- Behind an invalidation of what has not changed since that began, nothing is put into the cache that
was made from other data. -/
def InTime (past : Past) (s : Pool) : Occurrence → Prop
  | .start _ _ => True
  | .call id _ => ∀ req began trace key inc alertCount scoredAt computedAt next,
      s.tasks id = some ⟨req, began, trace, .call (.set key inc alertCount scoredAt computedAt) next⟩ →
      ∀ id' t m, s.tasks id' = some t → Invalidated t key m → Unchanged past s t.began key →
        (s.store.records.data key).1 = some (unscored inc) ∧
          (s.store.records.data key).2.length = alertCount

/-- All calls of a task were made before another one began. -/
def Before (t t' : Task) : Prop := ∀ e ∈ t.trace, e.1 < t'.began

/-- Whoever asks for a score after an invalidation that returned no error, and after whose beginning the
incident and its alerts have not changed, gets the score of what there is. -/
def Current (ops : FloatOps) (past : Past) (s : Pool) : Prop :=
  ∀ id t id' t' key entry, s.tasks id = some t → s.tasks id' = some t' →
    t.req = .invalidateAndRecalc key → t.left = .done (.finished none) → Before t t' →
    t'.req = .get key → t'.left = .done (.score (.ok entry)) → Unchanged past s t.began key →
      IsScore ops (s.store.records.data key) entry

/-! ### What programs ensure -/

section Ensures

variable {ops : FloatOps} {key : GoString} {trace : List (Prog.Entry Call.Reply)}

/-- What a score is made from has been read, and the time after it, twice. -/
structure ReadFor (key : GoString) (inc : Incident) (alertKeys : List GoString)
    (scoredAt computedAt : Time) (trace : List (Prog.Entry Call.Reply)) : Prop where
  inc : ⟨.getByID key, .ok inc⟩ ∈ trace
  alertKeys : ⟨.listAlertKeys key, .ok alertKeys⟩ ∈ trace
  times : List.Sublist [⟨.now, computedAt⟩, ⟨.now, scoredAt⟩] trace

theorem ReadFor.cons {inc : Incident} {alertKeys : List GoString} {scoredAt computedAt : Time}
    (e : Prog.Entry Call.Reply) (h : ReadFor key inc alertKeys scoredAt computedAt trace) :
    ReadFor key inc alertKeys scoredAt computedAt (e :: trace) where
  inc := List.mem_cons_of_mem e h.inc
  alertKeys := List.mem_cons_of_mem e h.alertKeys
  times := h.times.cons e

/-- A score was found in the cache, or made from what was read. -/
def Obtained (ops : FloatOps) (key : GoString) (trace : List (Prog.Entry Call.Reply))
    (entry : SmartScoreEntry) : Prop :=
  ⟨.get key, some entry⟩ ∈ trace ∨
    ∃ inc alertKeys scoredAt computedAt, ReadFor key inc alertKeys scoredAt computedAt trace ∧
      entry = scoreEntry ops inc alertKeys.length scoredAt computedAt

/-- An entry that is put into the cache says the times that were taken last. -/
def TakesTimes (trace : List (Prog.Entry Call.Reply)) : Call → Prop
  | .set _ _ _ scoredAt computedAt =>
    ∃ earlier, trace = ⟨.now, computedAt⟩ :: ⟨.now, scoredAt⟩ :: earlier
  | _ => True

/-- What is ensured at the end of a request. -/
def Request.Final (ops : FloatOps) : Request → List (Prog.Entry Call.Reply) → Result → Prop
  | .get key, trace, r => ∀ entry, r = .score (.ok entry) → Obtained ops key trace entry
  | .invalidateAndRecalc key, trace, _ => ⟨.del key, ()⟩ ∈ trace
  | _, _, _ => True

theorem ensures_cached : (cached key).Ensures (fun _ _ => True)
    (fun trace found => ∀ entry ∈ found, ⟨.get key, some entry⟩ ∈ trace) trace := by
  refine ⟨trivial, fun found => ?_⟩
  cases found with
  | none => exact nofun
  | some entry =>
    refine ⟨trivial, fun now => ?_⟩
    show ∀ e ∈ (if now - entry.computedAt < ttl then some entry else none), _
    split_ifs
    · intro e he
      obtain rfl := Option.some.inj he
      exact List.mem_cons_of_mem _ List.mem_cons_self
    · exact nofun

theorem ensures_calculate : (calculate ops key).Ensures (fun _ _ => True)
    (fun trace r => ∀ entry, r = .ok entry → Obtained ops key trace entry) trace := by
  refine ensures_cached.bind fun trace found hfound => ?_
  cases found with
  | some entry =>
    intro e he
    cases he
    exact .inl (hfound entry rfl)
  | none =>
    refine ⟨trivial, fun r => ?_⟩
    cases r with
    | error err => exact nofun
    | ok inc =>
      refine ⟨trivial, fun r => ?_⟩
      cases r with
      | error err => exact nofun
      | ok alertKeys =>
        refine ⟨trivial, fun scoredAt => ⟨trivial, fun computedAt => ⟨trivial, fun _ =>
          ⟨trivial, fun _ => ?_⟩⟩⟩⟩
        -- whether the severity changes or not, all of it has been read
        refine (Prog.ensures_of_stable (fun e _ h => ReadFor.cons e h) (propagate key inc _)
          (⟨?_, ?_, ?_⟩ : ReadFor key inc alertKeys scoredAt computedAt _)).bind ?_
        · simp
        · simp
        · simp
        rintro trace _ hread entry heq
        obtain rfl := Except.ok.inj heq
        exact .inr ⟨inc, alertKeys, scoredAt, computedAt, hread, rfl⟩

theorem ensures_get : (get ops key).Ensures (fun _ _ => True)
    (fun trace r => ∀ entry, r = .ok entry → Obtained ops key trace entry) trace := by
  refine ensures_cached.bind fun trace found hfound => ?_
  cases found with
  | some entry =>
    intro e he
    cases he
    exact .inl (hfound entry rfl)
  | none => exact ensures_calculate

/-- **What a request ensures**, whatever others do. -/
theorem ensures_program (req : Request) :
    (req.program ops).Ensures (fun _ _ => True) (req.Final ops) [] := by
  cases req with
  | get key =>
    refine ensures_get.bind fun trace r hr entry heq => hr entry ?_
    exact Result.score.inj heq
  | invalidateAndRecalc key =>
    refine ⟨trivial, fun _ => ?_⟩
    exact Prog.ensures_of_stable (P := fun trace : List (Prog.Entry Call.Reply) => ⟨.del key, ()⟩ ∈ trace)
      (fun e trace h => List.mem_cons_of_mem e h) _ List.mem_cons_self
  | calculate key => exact Prog.ensures_of_stable (P := fun _ => True) (fun _ _ h => h) _ trivial
  | evictExpired => exact ⟨trivial, fun _ => trivial⟩
  | recalcForTenant tenantID =>
    exact Prog.ensures_of_stable (P := fun _ => True) (fun _ _ h => h) _ trivial
  | change f => exact ⟨trivial, fun _ => trivial⟩

/-! ### The times of an entry -/

theorem timed_cached : (cached key).Ensures TakesTimes (fun _ _ => True) trace := by
  refine ⟨trivial, fun found => ?_⟩
  cases found with
  | none => exact trivial
  | some entry => exact ⟨trivial, fun _ => trivial⟩

theorem timed_calculate : (calculate ops key).Ensures TakesTimes (fun _ _ => True) trace := by
  refine timed_cached.bind fun trace found _ => ?_
  cases found with
  | some entry => exact trivial
  | none =>
    refine ⟨trivial, fun r => ?_⟩
    cases r with
    | error err => exact trivial
    | ok inc =>
      refine ⟨trivial, fun r => ?_⟩
      cases r with
      | error err => exact trivial
      | ok alertKeys =>
        refine ⟨trivial, fun _ => ⟨trivial, fun _ => ⟨⟨_, rfl⟩, fun _ => ⟨trivial, fun _ => ?_⟩⟩⟩⟩
        rw [propagate]
        cases propagated inc _ with
        | none => exact trivial
        | some severity => exact ⟨trivial, fun _ => trivial⟩

theorem timed_get : (get ops key).Ensures TakesTimes (fun _ _ => True) trace := by
  refine timed_cached.bind fun trace found _ => ?_
  cases found with
  | some entry => exact trivial
  | none => exact timed_calculate

theorem timed_invalidateAndRecalc :
    (invalidateAndRecalc ops key).Ensures TakesTimes (fun _ _ => True) trace :=
  ⟨trivial, fun _ => timed_calculate⟩

theorem timed_recalcLoop (keys : List GoString) :
    ∀ trace, (recalcLoop ops keys).Ensures TakesTimes (fun _ _ => True) trace := by
  induction keys with
  | nil => exact fun _ => trivial
  | cons key keys ih =>
    intro trace
    refine timed_invalidateAndRecalc.bind fun trace r _ => ?_
    cases r with
    | error err => exact trivial
    | ok entry => exact ih trace

theorem timed_recalcForTenant (tenantID : GoString) :
    (recalcForTenant ops tenantID).Ensures TakesTimes (fun _ _ => True) trace := by
  refine ⟨trivial, fun r => ?_⟩
  cases r with
  | error err => exact trivial
  | ok keys => exact timed_recalcLoop keys _

/-- **Whatever is put into the cache says when it was made.** -/
theorem timed_program (req : Request) :
    (req.program ops).Ensures TakesTimes (fun _ _ => True) [] := by
  cases req with
  | get key => exact timed_get.bind fun _ _ _ => trivial
  | calculate key => exact timed_calculate.bind fun _ _ _ => trivial
  | invalidateAndRecalc key =>
    refine timed_invalidateAndRecalc.bind fun _ r _ => ?_
    cases r with
    | error err => exact trivial
    | ok entry => exact trivial
  | evictExpired => exact ⟨trivial, fun _ => trivial⟩
  | recalcForTenant tenantID => exact (timed_recalcForTenant tenantID).bind fun _ _ _ => trivial
  | change f => exact ⟨trivial, fun _ => trivial⟩

end Ensures

/-! ### The clock -/

section Clock

variable {ops : FloatOps} {past : Past} {s s' : Pool}

/-- The time that a call has returned. -/
def timeOf : Prog.Entry Call.Reply → Option Time
  | ⟨.now, time⟩ => some time
  | _ => none

/-- The times that a task was given are no later than now, and none is later than the next. -/
def Clocked (s : Pool) : Prop :=
  ∀ id t, s.tasks id = some t →
    (s.store.clock :: (t.trace.map Prod.snd).filterMap timeOf).Pairwise (· ≥ ·)

theorem clock_serve (w : Turn) (m : ℕ) (i : Call) (st : Stores) :
    (serve ops w m i st).2.clock = st.clock + w.wait := by
  cases i with
  | setScore key score =>
    rw [serve, answer]
    split_ifs
    · rfl
    · rfl
  | setSeverity key severity =>
    rw [serve, answer]
    split_ifs
    · rfl
    · rfl
  | _ => rfl

theorem Clocked.step {ev : Occurrence} (h : Clocked s) (hstep : handle ops s ev = some s') :
    Clocked s' := by
  obtain ⟨id, req, rfl, -, rfl⟩ | ⟨id, w, req, began, trace, i, next, rfl, htask, rfl⟩ :=
    Prog.Traced.step_cases hstep
  · intro id' t ht
    rw [Prog.Traced.goOn_tasks] at ht
    split_ifs at ht
    · obtain rfl := Option.some.inj ht
      exact List.pairwise_singleton ..
    · exact h id' t ht
  · have hlater : s.store.clock ≤ (serve ops w s.now i s.store).2.clock := by
      rw [clock_serve]
      exact Int.le_add_of_nonneg_right (Int.natCast_nonneg _)
    -- what was no later than the old time is no later than the new one
    have hkeep : ∀ {times : List Time}, (s.store.clock :: times).Pairwise (· ≥ ·) →
        ((serve ops w s.now i s.store).2.clock :: times).Pairwise (· ≥ ·) := by
      intro times htimes
      obtain ⟨hall, hrest⟩ := List.pairwise_cons.mp htimes
      exact List.pairwise_cons.mpr ⟨fun time ht => (hall time ht).trans hlater, hrest⟩
    intro id' t ht
    rw [Prog.Traced.goOn_tasks] at ht
    split_ifs at ht
    · obtain rfl := Option.some.inj ht
      have htimes := hkeep (h id _ htask)
      cases i with
      | now => exact List.pairwise_cons.mpr ⟨List.forall_mem_cons.mpr
          ⟨le_rfl, (List.pairwise_cons.mp htimes).1⟩, htimes⟩
      | _ => exact htimes
    · exact hkeep (h id' t ht)

/-- Of two times that a task was given, one after the other, the second is no earlier. -/
theorem Clocked.le {id : ℕ} {t : Task} {time time' : Time} (h : Clocked s) (ht : s.tasks id = some t)
    (htimes : List.Sublist [⟨.now, time'⟩, ⟨.now, time⟩] (t.trace.map Prod.snd)) : time ≤ time' := by
  have hpair := (List.pairwise_cons.mp (h id t ht)).2
  exact List.rel_of_pairwise_cons (hpair.sublist (htimes.filterMap timeOf)) List.mem_cons_self

/-- **No score is put into the cache that was made after the time it says.** -/
theorem Clocked.le_of_set {id : ℕ} {req : Request} {began : ℕ}
    {trace : List (ℕ × Prog.Entry Call.Reply)} {key : GoString} {inc : Incident} {alertCount : ℕ}
    {scoredAt computedAt : Time} {next : Unit → Work Result} (h : Clocked s)
    (htimed : s.Tracked (fun _ => TakesTimes) fun _ _ _ => True)
    (htask : s.tasks id =
      some ⟨req, began, trace, .call (.set key inc alertCount scoredAt computedAt) next⟩) :
    scoredAt ≤ computedAt := by
  obtain ⟨earlier, heq⟩ := (htimed id _ htask).1.1
  refine h.le htask ?_
  rw [heq]
  exact ((List.nil_sublist earlier).cons_cons _).cons_cons _

end Clock

/-! ### What holds while everything is in time -/

variable {ops : FloatOps} {past : Past} {s s' : Pool}

/-- What has not changed since a moment had not before the last event, and is what it was then. -/
theorem Unchanged.cons {ev : Occurrence} {n : ℕ} {key : GoString}
    (h : Unchanged ((s, ev) :: past) s' n key) (hn : n ≤ s.now) :
    s.store.records.data key = s'.store.records.data key ∧ Unchanged past s n key := by
  have hsame : s.store.records.data key = s'.store.records.data key := h _ List.mem_cons_self hn
  exact ⟨hsame, fun p hp hle => (h p (List.mem_cons_of_mem _ hp) hle).trans hsame.symm⟩

/-- Behind an invalidation of what has not changed since, the cache has the score of what there is, and
so has whatever was found in it. -/
structure Kept (ops : FloatOps) (past : Past) (s : Pool) : Prop where
  cached : ∀ id t m key entry, s.tasks id = some t → Invalidated t key m →
    Unchanged past s t.began key → s.store.cache key = some entry →
      IsScore ops (s.store.records.data key) entry
  found : ∀ id t m id' t' m' key entry, s.tasks id = some t → Invalidated t key m →
    s.tasks id' = some t' → (m', ⟨.get key, some entry⟩) ∈ t'.trace → m < m' →
      Unchanged past s t.began key → IsScore ops (s.store.records.data key) entry

section Step

variable {w : Turn} {key : GoString} {entry : SmartScoreEntry} {i : Call}

/-- What is in the cache after a call was there before it, or has just been put there. -/
theorem cache_serve {m : ℕ} {st : Stores} (h : (serve ops w m i st).2.cache key = some entry) :
    (∃ inc alertCount scoredAt computedAt, i = .set key inc alertCount scoredAt computedAt ∧
        entry = scoreEntry ops inc alertCount scoredAt computedAt) ∨
      st.cache key = some entry ∧ i ≠ .del key := by
  cases i with
  | set key' inc alertCount scoredAt computedAt =>
    replace h : Function.update st.cache key'
      (some (scoreEntry ops inc alertCount scoredAt computedAt)) key = some entry := h
    rw [Function.update_apply] at h
    split_ifs at h with hkey
    · obtain rfl := hkey
      exact .inl ⟨inc, alertCount, scoredAt, computedAt, rfl, (Option.some.inj h).symm⟩
    · exact .inr ⟨h, nofun⟩
  | del key' =>
    replace h : Function.update st.cache key' none key = some entry := h
    rw [Function.update_apply] at h
    split_ifs at h with hkey
    exact .inr ⟨h, fun heq => hkey (Call.del.inj heq).symm⟩
  -- an entry that is too old is forgotten, and no other call writes the cache
  | evict => exact .inr ⟨(Option.filter_eq_some_iff.mp h).1, nofun⟩
  | setScore key' score =>
    rw [serve, answer] at h
    split_ifs at h
    · exact .inr ⟨h, nofun⟩
    · exact .inr ⟨h, nofun⟩
  | setSeverity key' severity =>
    rw [serve, answer] at h
    split_ifs at h
    · exact .inr ⟨h, nofun⟩
    · exact .inr ⟨h, nofun⟩
  | get key' => exact .inr ⟨h, nofun⟩
  | now => exact .inr ⟨h, nofun⟩
  | getByID key' => exact .inr ⟨h, nofun⟩
  | listAlertKeys key' => exact .inr ⟨h, nofun⟩
  | list tenantID => exact .inr ⟨h, nofun⟩
  | change f => exact .inr ⟨h, nofun⟩

/-- An invalidation after an event is one from before it, or the event takes out the entry. -/
theorem Invalidated.before {ev : Occurrence} {id : ℕ} {t : Task} {m : ℕ}
    (hstep : handle ops s ev = some s') (ht : s'.tasks id = some t) (h : Invalidated t key m) :
    (∃ t₀, s.tasks id = some t₀ ∧ t₀.began = t.began ∧ Invalidated t₀ key m) ∨
      m = s.now ∧ s'.store.cache key = none := by
  obtain ⟨t₀, ht₀, hreq, hbegan, he⟩ | ⟨w, i, next, -, hm, heq, hstore, -⟩ :=
    Prog.Traced.mem_trace_cases hstep ht h.deleted
  · exact .inl ⟨t₀, ht₀, hbegan, hreq.trans h.req, he⟩
  · cases heq
    refine .inr ⟨hm, ?_⟩
    rw [hstore]
    exact Function.update_self ..

end Step

/-- What is in the cache after an event was there before, or is put there by it. -/
theorem cache_before {ev : Occurrence} {key : GoString} {entry : SmartScoreEntry}
    (hstep : handle ops s ev = some s') (h : s'.store.cache key = some entry) :
    s.store.cache key = some entry ∨
      ∃ id w req began trace inc alertCount scoredAt computedAt next, ev = .call id w ∧
        entry = scoreEntry ops inc alertCount scoredAt computedAt ∧ s.tasks id =
          some ⟨req, began, trace, .call (.set key inc alertCount scoredAt computedAt) next⟩ := by
  obtain ⟨id, req, rfl, -, rfl⟩ | ⟨id, w, req, began, trace, i, next, rfl, htask, rfl⟩ :=
    Prog.Traced.step_cases hstep
  · exact .inl h
  · obtain ⟨inc, alertCount, scoredAt, computedAt, rfl, hentry⟩ | ⟨hold, -⟩ := cache_serve h
    · exact .inr
        ⟨id, w, req, began, trace, inc, alertCount, scoredAt, computedAt, next, rfl, hentry, htask⟩
    · exact .inl hold

theorem Kept.step {ev : Occurrence} (h : Kept ops past s) (hclocked : Clocked s)
    (htimed : s.Tracked (fun _ => TakesTimes) fun _ _ _ => True) (hin : InTime past s ev)
    (hstep : handle ops s ev = some s') : Kept ops ((s, ev) :: past) s' := by
  have htimely : ∀ id t, s.tasks id = some t → Prog.Traced.Timely s.now t :=
    fun id t ht => (htimed id t ht).2
  refine ⟨?_, ?_⟩
  · intro id t m key entry ht hinv hsame hcached
    obtain ⟨t₀, ht₀, hbegan, hinv₀⟩ | ⟨-, hnone⟩ := hinv.before hstep ht
    · rw [← hbegan] at hsame
      obtain ⟨hdata, hsame₀⟩ := hsame.cons (htimely id t₀ ht₀).began_lt.le
      rw [← hdata]
      -- the entry was there, or is put there with what was read in time
      obtain hold | ⟨id', w, req, began, trace, inc, alertCount, scoredAt, computedAt, next, rfl, rfl,
        htask⟩ := cache_before hstep hcached
      · exact h.cached id t₀ m key entry ht₀ hinv₀ hsame₀ hold
      · obtain ⟨hinc, hcount⟩ := hin _ _ _ _ _ _ _ _ _ htask id t₀ m ht₀ hinv₀ hsame₀
        exact ⟨unscored inc, scoredAt, hinc, hclocked.le_of_set htimed htask, by rw [hcount]; rfl⟩
    · exact absurd (hnone.symm.trans hcached) nofun
  · intro id t m id' t' m' key entry ht hinv ht' hfound hlt hsame
    obtain ⟨t₁, ht₁, -, -, hfound₁⟩ | ⟨w, i, next, -, hm', heq, -, -⟩ :=
      Prog.Traced.mem_trace_cases hstep ht' hfound
    · obtain ⟨t₀, ht₀, hbegan, hinv₀⟩ | ⟨hm, -⟩ := hinv.before hstep ht
      · rw [← hbegan] at hsame
        obtain ⟨hdata, hsame₀⟩ := hsame.cons (htimely id t₀ ht₀).began_lt.le
        rw [← hdata]
        exact h.found id t₀ m id' t₁ m' key entry ht₀ hinv₀ ht₁ hfound₁ hlt hsame₀
      · -- what was found before this moment was found before the entry was taken out
        have hbefore := ((htimely id' t₁ ht₁).between _ hfound₁).2
        exact absurd hlt (by omega)
    · obtain ⟨t₀, ht₀, hbegan, hinv₀⟩ | ⟨hm, -⟩ := hinv.before hstep ht
      · rw [← hbegan] at hsame
        obtain ⟨hdata, hsame₀⟩ := hsame.cons (htimely id t₀ ht₀).began_lt.le
        rw [← hdata]
        obtain rfl : i = .get key := (Sigma.mk.inj heq).1.symm
        exact h.cached id t₀ m key entry ht₀ hinv₀ hsame₀ (eq_of_heq (Sigma.mk.inj heq).2).symm
      · exact absurd hlt (by omega)

/-- Nothing is in the cache yet. -/
def Stores.init (records : Records) (clock : Time) : Stores := ⟨records, fun _ => none, clock⟩

variable {records : Records} {clock : Time}

theorem getByID_of_answer {w : Turn} {m : ℕ} {st : Stores} {key : GoString} {inc : Incident}
    (h : (serve ops w m (.getByID key) st).1 = .ok inc) :
    getByID st.records.docs key = some inc := by
  rw [serve, answer] at h
  dsimp only at h
  split at h
  · exact absurd h nofun
  · exact absurd h nofun
  · next hget => rw [hget, Except.ok.inj h]

theorem alertKeys_of_answer {w : Turn} {m : ℕ} {st : Stores} {key : GoString} {alertKeys : List GoString}
    (h : (serve ops w m (.listAlertKeys key) st).1 = .ok alertKeys) :
    st.records.alertKeys key = alertKeys := by
  rw [serve, answer] at h
  dsimp only at h
  split at h
  · exact absurd h nofun
  · exact Except.ok.inj h

/-- What a task has read is what there was, at a moment after it began. -/
theorem data_of_read {key : GoString} {id m n : ℕ} {t : Task}
    (h : Run.Reach (handle ops) InTime (.idle (Stores.init records clock)) past s)
    (ht : s.tasks id = some t) (hn : n ≤ t.began) (hsame : Unchanged past s n key) :
    (∀ inc, (m, ⟨.getByID key, .ok inc⟩) ∈ t.trace →
      (s.store.records.data key).1 = some (unscored inc)) ∧
    ∀ alertKeys, (m, ⟨.listAlertKeys key, .ok alertKeys⟩) ∈ t.trace →
      (s.store.records.data key).2 = alertKeys := by
  have htimely := ((Prog.Traced.tracked_reach ensures_program h) id t ht).2
  have hanswered := (Prog.Traced.answered_reach h).2 id t ht m
  refine ⟨fun inc he => ?_, fun alertKeys he => ?_⟩
  · obtain ⟨p, hp, hm, w, hw⟩ := hanswered _ _ he
    rw [← hsame p hp (by have := (htimely.between _ he).1; omega)]
    exact congrArg (Option.map unscored) (getByID_of_answer hw)
  · obtain ⟨p, hp, hm, w, hw⟩ := hanswered _ _ he
    rw [← hsame p hp (by have := (htimely.between _ he).1; omega)]
    exact alertKeys_of_answer hw

theorem clocked_reach {ok : Past → Pool → Occurrence → Prop}
    (h : Run.Reach (handle ops) ok (.idle (Stores.init records clock)) past s) : Clocked s := by
  refine @Run.Reach.invariant _ _ _ _ _ (fun _ s => Clocked s)
    (fun id t ht => absurd ht (by simp [Prog.Traced.idle])) ?_ _ _ h
  exact fun hclocked _ hstep => hclocked.step hstep

theorem kept_of_inTime (h : Run.Reach (handle ops) InTime (.idle (Stores.init records clock)) past s) :
    Kept ops past s := by
  induction h with
  | start =>
    exact ⟨fun id t m key entry ht => absurd ht (by simp [Prog.Traced.idle]),
      fun id t m id' t' m' key entry ht => absurd ht (by simp [Prog.Traced.idle])⟩
  | next hreach hin hstep ih =>
    exact ih.step (clocked_reach hreach) (Prog.Traced.tracked_reach timed_program hreach) hin hstep

/-- **Whoever asks after an invalidation gets the score of what there is**, in every run in which, behind
an invalidation, nothing is put into the cache that was made from other data. -/
theorem current_of_inTime (h : Run.Reach (handle ops) InTime (.idle (Stores.init records clock)) past s) :
    Current ops past s := by
  intro id t id' t' key entry ht ht' hreq hleft hbefore hreq' hleft' hsame
  have htracked := Prog.Traced.tracked_reach ensures_program h
  obtain ⟨hfinal, htimely⟩ := htracked id t ht
  obtain ⟨hfinal', htimely'⟩ := htracked id' t' ht'
  rw [hreq, hleft] at hfinal
  rw [hreq', hleft'] at hfinal'
  obtain ⟨⟨m, e⟩, hdeleted, rfl⟩ := List.mem_map.mp hfinal
  have hm : m < t'.began := hbefore _ hdeleted
  have hbegan : t.began ≤ t'.began := ((htimely.between _ hdeleted).1.trans hm).le
  obtain hget | ⟨inc, alertKeys, scoredAt, computedAt, hread, rfl⟩ := hfinal' entry rfl
  · obtain ⟨⟨m', e'⟩, hfound, rfl⟩ := List.mem_map.mp hget
    exact (kept_of_inTime h).found id t m id' t' m' key entry ht ⟨hreq, hdeleted⟩ ht' hfound
      (hm.trans (htimely'.between _ hfound).1) hsame
  · -- the score is made from what was read after the invalidation
    obtain ⟨⟨m₁, e₁⟩, hinc, rfl⟩ := List.mem_map.mp hread.inc
    obtain ⟨⟨m₂, e₂⟩, hkeys, rfl⟩ := List.mem_map.mp hread.alertKeys
    refine ⟨unscored inc, scoredAt, (data_of_read h ht' hbegan hsame).1 inc hinc,
      (clocked_reach h).le ht' hread.times, ?_⟩
    rw [(data_of_read h ht' hbegan hsame).2 alertKeys hkeys]
    rfl

/-! ### A score that is put back -/

/-- The arithmetic of floats, right on the sums and the products of the example. -/
def sampleFloats : FloatOps where
  add x y :=
    if x = ⟨0⟩ then y else if y = ⟨0⟩ then x
    else if x = ⟨0x3FC47AE147AE147C⟩ then ⟨0x3FCE147AE147AE16⟩ else ⟨0x3FC3D70A3D70A3D8⟩
  mul x _ :=
    if x = ⟨0⟩ then ⟨0⟩
    else if x = .c0_4 then ⟨0x3FC47AE147AE147C⟩
    else if x = .c0_2 then ⟨0x3FB47AE147AE147C⟩
    else if x = .c0_5 then ⟨0x3FB3333333333333⟩
    else if x = ⟨0x3FCE147AE147AE16⟩ then ⟨0x4037800000000001⟩ else ⟨0x402F000000000002⟩
  div x _ := x
  min x y := if y.lt x then y else x
  log10 x := if x = .c1 then ⟨0⟩ else ⟨0x3FF527CF6B505B9F⟩
  round x := if x = ⟨0x4037800000000001⟩ then ⟨0x4038000000000000⟩ else ⟨0x4030000000000000⟩
  ofInt _ := ⟨0⟩

/-- An incident without alerts. -/
def sampleIncident (severity : String) : Incident where
  key := str "1"
  incidentID := str "INC-1"
  severity := str severity

def sampleRecords (severity : String) : Records := ⟨[sampleIncident severity], fun _ => []⟩

/-- Any call but one that puts something into the cache is in time. -/
theorem inTime_call (id : ℕ) (w : Turn) {req : Request} {began : ℕ}
    {trace : List (ℕ × Prog.Entry Call.Reply)} {i : Call} {next : i.Reply → Work Result}
    (htask : s.tasks id = some ⟨req, began, trace, .call i next⟩)
    (hi : ∀ key inc alertCount scoredAt computedAt, i ≠ .set key inc alertCount scoredAt computedAt) :
    InTime past s (.call id w) := by
  intro req' began' trace' key inc alertCount scoredAt computedAt next' htask'
  cases htask.symm.trans htask'
  exact absurd rfl (hi key inc alertCount scoredAt computedAt)

/-- Putting into the cache what is made of what there is is in time. -/
theorem inTime_set (id : ℕ) (w : Turn) {req : Request} {began : ℕ}
    {trace : List (ℕ × Prog.Entry Call.Reply)} {key : GoString} {inc : Incident} {alertCount : ℕ}
    {scoredAt computedAt : Time} {next : Unit → Work Result}
    (htask : s.tasks id =
      some ⟨req, began, trace, .call (.set key inc alertCount scoredAt computedAt) next⟩)
    (hdata : (s.store.records.data key).1 = some (unscored inc) ∧
      (s.store.records.data key).2.length = alertCount) : InTime past s (.call id w) := by
  intro req' began' trace' key' inc' alertCount' scoredAt' computedAt' next' htask' _ _ _ _ _ _
  cases htask.symm.trans htask'
  exact hdata

/-- A score is invalidated and asked for, and everything is in time. -/
theorem current_sample : ∃ past s, Run.Reach (handle sampleFloats) InTime
    (.idle (Stores.init (sampleRecords "low") 0)) past s ∧ Current sampleFloats past s ∧
      (s.tasks 1).map Prog.Doing.left =
        some (.done (.score (.ok (scoreEntry sampleFloats (sampleIncident "low") 0 0 3)))) := by
  have h₀ : Run.Reach (handle sampleFloats) InTime (.idle (Stores.init (sampleRecords "low") 0)) _ _ :=
    .next .start (show InTime _ _ (.start 0 (.invalidateAndRecalc (str "1"))) from trivial) rfl
  have h₁ := h₀.next (inTime_call 0 {} rfl nofun) rfl
  have h₂ := h₁.next (inTime_call 0 {} rfl nofun) rfl
  have h₃ := h₂.next (inTime_call 0 {} rfl nofun) rfl
  have h₄ := h₃.next (inTime_call 0 {} rfl nofun) rfl
  have h₅ := h₄.next (inTime_call 0 {} rfl nofun) rfl
  have h₆ := h₅.next (inTime_call 0 { wait := 3 } rfl nofun) rfl
  have h₇ := h₆.next (inTime_set 0 {} rfl ⟨rfl, rfl⟩) rfl
  have h₈ := h₇.next (inTime_call 0 {} rfl nofun) rfl
  have h₉ := h₈.next (show InTime _ _ (.start 1 (.get (str "1"))) from trivial) rfl
  have h₁₀ := h₉.next (inTime_call 1 {} rfl nofun) rfl
  have h₁₁ := h₁₀.next (inTime_call 1 {} rfl nofun) rfl
  exact ⟨_, _, h₁₁, current_of_inTime h₁₁, rfl⟩

/-- The severity of an incident changes while its score is calculated, and that calculation comes to
its end behind the invalidation. -/
def overtaken : List Occurrence :=
  [.start 0 (.get (str "1")), .call 0 {}, .call 0 {}, .call 0 {}, .call 0 {},
    .start 1 (.change fun _ => sampleRecords "low"), .call 1 {},
    .start 2 (.invalidateAndRecalc (str "1")),
    .call 2 {}, .call 2 {}, .call 2 {}, .call 2 {}, .call 2 {}, .call 2 {}, .call 2 {}, .call 2 {},
    .call 0 {}, .call 0 {}, .call 0 {}, .call 0 {},
    .start 3 (.get (str "1")), .call 3 {}, .call 3 {}]

/-- The incident is no older at any time before its first one. -/
theorem score_of_nonpos {severity : String} {scoredAt : Time} (h : scoredAt ≤ 0) {alertCount : ℕ} :
    calculateWeightedScore sampleFloats (sampleIncident severity) alertCount scoredAt =
      calculateWeightedScore sampleFloats (sampleIncident severity) alertCount 0 := by
  have hyoung : ∀ {age : ℤ}, age ≤ 0 → ageFactor age = ⟨0⟩ := by
    intro age hage
    rw [ageFactor, if_neg (not_lt.mpr (hage.trans (by decide))),
      if_neg (not_lt.mpr (hage.trans (by decide)))]
  have hfirst : (sampleIncident severity).firstSeen = 0 := rfl
  rw [calculateWeightedScore, calculateWeightedScore, hfirst, sub_zero, sub_zero, hyoung h,
    hyoung le_rfl]

/-- **A score is put back that an invalidation took out**, and whoever asks gets it. -/
theorem not_current : ∃ past s, Run.Reach (handle sampleFloats) Run.Any
    (.idle (Stores.init (sampleRecords "medium") 0)) past s ∧ ¬Current sampleFloats past s := by
  obtain ⟨past, s, t, t', hrun, ht, ht', ⟨hreq, hleft, hbefore⟩, ⟨hreq', hleft'⟩, hsame, hdata⟩ :
      ∃ past s t t', Run.replay (handle sampleFloats) []
        (.idle (Stores.init (sampleRecords "medium") 0)) overtaken = some (past, s) ∧
      s.tasks 2 = some t ∧ s.tasks 3 = some t' ∧
      (t.req = .invalidateAndRecalc (str "1") ∧ t.left = .done (.finished none) ∧
        ∀ e ∈ t.trace, e.1 < t'.began) ∧
      (t'.req = .get (str "1") ∧
        t'.left = .done (.score (.ok (scoreEntry sampleFloats (sampleIncident "medium") 0 0 0)))) ∧
      (∀ p ∈ past, t.began ≤ p.1.now →
        p.1.store.records.data (str "1") = s.store.records.data (str "1")) ∧
      s.store.records.data (str "1") = (some (sampleIncident "low"), []) :=
    ⟨_, _, _, _, rfl, rfl, rfl, ⟨rfl, rfl, by decide +kernel⟩, ⟨rfl, rfl⟩, by decide +kernel, rfl⟩
  refine ⟨past, s, Run.Reach.start.replay hrun, fun h => ?_⟩
  obtain ⟨inc, scoredAt, hinc, hle, hscore⟩ :=
    h 2 t 3 t' (str "1") _ ht ht' hreq hleft hbefore hreq' hleft' hsame
  rw [hdata] at hinc hscore
  obtain rfl := Option.some.inj hinc
  rw [score_of_nonpos hle] at hscore
  exact absurd hscore (by decide +kernel)

end Scoring

end Incidents

end Xsiam

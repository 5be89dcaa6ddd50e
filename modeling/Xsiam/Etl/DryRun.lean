import Xsiam.Etl.DedupSharing

/-!
# Testing a rule

`Service.Test` of `internal/domain/etl/service.go` shows what the pipeline makes of a
sample. What it runs the sample through is the pipeline the events go through, with the
executor and the deduplicator that those share, so the sample is filed as an event that
was seen.

A run is a list of steps, events and tests in any order (`Xsiam.Etl.Step`), and the same
run without its tests is what it is compared with. Each step says at which tick it reads
the clock, the generator and the repositories, so an event reads the same in both. The
results of the events are then the same in both wherever no test puts a record in the way
of a later event, and none sweeps out a record that a later event would have found
(`Xsiam.Etl.Service.results_eq_without_tests`).
-/

namespace Xsiam

namespace Etl

open Go WindowMemory

/-! ### The service -/

/-- `SinkSummary`: one sink in the answer to a test. -/
structure SinkSummary where
  ngxIndex : GoString
  arangoCollection : GoString
  ttlDays : ℤ
  conditionMet : Bool

/-- `TestResult`: the answer to a test. -/
structure TestResult where
  matched : Bool
  rawNgxIndex : GoString
  sinks : List SinkSummary
  dropped : Bool
  outputEntry : Option LogEntry

/-- `Service`, with the pipeline of a server that is no stub. The repository answers a
tick and a key: an error, no rule, or a rule. -/
structure Service where
  /-- `ETLRuleRepo.GetByKey` -/
  getByKey : ℕ → GoString → Except GoString (Option ETLRule)
  pipeline : Pipeline

/-- The summary of a sink. Its entry is never nil. -/
def SinkResult.summary (s : SinkResult) : SinkSummary :=
  ⟨s.ngxIndex, s.arangoCollection, s.ttlDays, true⟩

/-- What a test makes of a result. -/
def Result.test (res : Result) : TestResult where
  matched := res.matched
  rawNgxIndex := res.rawNgxIndex
  sinks := res.sinks.map (·.summary)
  dropped := res.etlEntry.isNone && res.sinks.isEmpty && decide (res.rawNgxIndex = [])
  outputEntry := res.etlEntry

/-- `Service.Test`. The rule is looked up, and not looked at; `none` is a panic. -/
def Service.test (s : Service) (st : ExecState) (key : GoString) (sample : LogEntry)
    (tag : GoString) : Option (Except GoString TestResult) × ExecState :=
  match s.getByKey st.tick key with
  | .error err => (some (.error err), st)
  | .ok none => (some (.error (str "rule not found: " ++ key)), st)
  | .ok (some _) =>
    let r := s.pipeline.process st sample tag
    (r.1.map fun res => .ok res.test, r.2)

/-! ### Runs -/

/-- A step of a run, and the tick of its readings: an event comes in, or a sample is
tested. -/
inductive Step where
  | event (tick : ℕ) (entry : LogEntry) (tag : GoString)
  | test (tick : ℕ) (key : GoString) (sample : LogEntry) (tag : GoString)

/-- Whether a step is an event. -/
def Step.isEvent : Step → Bool
  | event .. => true
  | test .. => false

namespace Service

variable (s : Service)

/-- What a step does to the deduplicator. -/
def step (d : Deduplicator) : Step → Deduplicator
  | .event tick entry tag => (s.pipeline.process ⟨d, tick⟩ entry tag).2.dedup
  | .test tick key sample tag => (s.test ⟨d, tick⟩ key sample tag).2.dedup

/-- The deduplicator after a run, the latest step first. -/
def dedupAfter : List Step → Deduplicator
  | [] => newDeduplicator
  | x :: earlier => s.step (dedupAfter earlier) x

/-- The results of the events of a run, the latest first. -/
def results : List Step → List (Option Result)
  | [] => []
  | .event tick entry tag :: earlier =>
    (s.pipeline.process ⟨s.dedupAfter earlier, tick⟩ entry tag).1 :: results earlier
  | .test .. :: earlier => results earlier

/-- **A test is a dry run**: with and without the tests, the events of a run have the same
results. -/
def DryRun : Prop := ∀ steps, s.results steps = s.results (steps.filter Step.isEvent)

end Service

/-! ### The calls of a list of actions -/

/-- The calls that a list of actions makes and the deduplicator looks at, the latest
first. -/
def callsOf (ex : ActionExecutor) (st : ExecState) (e : LogEntry) :
    List ETLAction → List LiveCall
  | [] => []
  | a :: as =>
    match apply ex st e a with
    | (none, _) => (liveCall ex st.tick e a).toList
    | (some e', st') => callsOf ex st' e' as ++ (liveCall ex st.tick e a).toList

theorem apply_snd_tick (ex : ActionExecutor) (st : ExecState) (e : LogEntry) (a : ETLAction) :
    (apply ex st e a).2.tick = st.tick + 1 := by
  rw [apply]
  split <;> rfl

/-- One action leaves what the calls so far and its own leave. -/
theorem apply_seenAfter {ex : ActionExecutor} {st : ExecState} {calls : List LiveCall}
    (h : st.dedup = seenAfter calls) (e : LogEntry) (a : ETLAction) :
    (apply ex st e a).2.dedup = seenAfter ((liveCall ex st.tick e a).toList ++ calls) := by
  rw [(apply_dedup ex st e a).1, h]
  rcases liveCall ex st.tick e a with _ | c <;> rfl

/-- A list of actions leaves what the calls so far and its own leave. -/
theorem applyActions_seenAfter (ex : ActionExecutor) (as : List ETLAction) :
    ∀ (st : ExecState) (e : LogEntry) (calls : List LiveCall), st.dedup = seenAfter calls →
      (applyActions ex st e as).2.dedup = seenAfter (callsOf ex st e as ++ calls) := by
  induction as with
  | nil => intro st e calls h; exact h
  | cons a as ih =>
    intro st e calls h
    have hstep := @apply_seenAfter ex st calls h e a
    rw [applyActions, callsOf]
    rcases happ : apply ex st e a with ⟨_ | e', st'⟩
    · rw [happ] at hstep
      exact hstep
    · rw [happ] at hstep
      simp only [List.append_assoc]
      exact ih st' e' _ hstep

/-- What one action makes of an entry depends on the deduplicator through the answer to its
call. -/
theorem apply_fst_congr {ex : ActionExecutor} {st st' : ExecState} {e : LogEntry}
    {a : ETLAction} (htick : st'.tick = st.tick)
    (h : ∀ c, liveCall ex st.tick e a = some c → (c.run st'.dedup).1 = (c.run st.dedup).1) :
    (apply ex st' e a).1 = (apply ex st e a).1 := by
  by_cases htype : a.type = .dedup
  · have hcall := h
    simp only [liveCall, if_pos htype] at hcall
    rw [apply, apply, htype]
    simp only [dedupAction, htick]
    rcases hc : dedupCall ex st.tick e a with _ | c
    · rfl
    · by_cases hlive : 0 < c.windowSec ∧ c.keyVal ≠ []
      · rw [hc, Option.bind_some, dif_pos hlive] at hcall
        simp only [hcall _ rfl]
      · simp [DedupCall.run_of_not_live hlive]
  · have hplain : ∀ st : ExecState, (apply ex st e a).1 = applyPlain ex st.tick e a := by
      intro st
      rw [apply]
      split
      · next h => exact absurd h htype
      · rfl
    rw [hplain, hplain, htick]

/-- **Two states that answer the calls alike**: the actions make the same of an entry, and
make the same calls. -/
theorem applyActions_congr (ex : ActionExecutor) (as : List ETLAction) :
    ∀ (st st' : ExecState) (e : LogEntry) (calls calls' : List LiveCall),
      st'.tick = st.tick → st.dedup = seenAfter calls → st'.dedup = seenAfter calls' →
      (∀ c cs, c :: cs <:+ callsOf ex st e as →
        answer c (cs ++ calls) = answer c (cs ++ calls')) →
      (applyActions ex st' e as).1 = (applyActions ex st e as).1 ∧
        callsOf ex st' e as = callsOf ex st e as := by
  induction as with
  | nil => intro st st' e calls calls' _ _ _ _; exact ⟨rfl, rfl⟩
  | cons a as ih =>
    intro st st' e calls calls' htick hst hst' hans
    -- the calls of this action come before those of the rest
    have htail : (liveCall ex st.tick e a).toList <:+ callsOf ex st e (a :: as) := by
      rw [callsOf]
      split
      · exact List.suffix_rfl
      · exact List.suffix_append _ _
    have hfst : (apply ex st' e a).1 = (apply ex st e a).1 := by
      refine apply_fst_congr htick fun c hc => ?_
      rw [hst, hst']
      rw [hc] at htail
      exact (hans c [] htail).symm
    have hstep := @apply_seenAfter ex st calls hst e a
    have hstep' := @apply_seenAfter ex st' calls' hst' e a
    have hticks := (apply_snd_tick ex st' e a).trans
      ((congrArg (· + 1) htick).trans (apply_snd_tick ex st e a).symm)
    rw [htick] at hstep'
    simp only [applyActions, callsOf, htick] at hans ⊢
    rcases happ : apply ex st e a with ⟨_ | e₁, st₁⟩
    · rw [happ] at hfst
      rcases happ' : apply ex st' e a with ⟨e₁', st₁'⟩
      rw [happ'] at hfst
      obtain rfl : e₁' = none := hfst
      exact ⟨rfl, rfl⟩
    · rw [happ] at hfst hstep hticks hans
      rcases happ' : apply ex st' e a with ⟨e₁', st₁'⟩
      rw [happ'] at hfst hstep' hticks
      obtain rfl : e₁' = some e₁ := hfst
      obtain ⟨hres, hcalls⟩ := ih st₁ st₁' e₁ _ _ hticks hstep hstep' fun c cs hsuf => by
        obtain ⟨front, hfront⟩ := hsuf
        have hsuf : c :: (cs ++ (liveCall ex st.tick e a).toList) <:+
            callsOf ex st₁ e₁ as ++ (liveCall ex st.tick e a).toList :=
          ⟨front, by rw [← hfront]; simp⟩
        simpa using hans c (cs ++ (liveCall ex st.tick e a).toList) hsuf
      exact ⟨hres, congrArg (· ++ (liveCall ex st.tick e a).toList) hcalls⟩

/-! ### The calls of a run -/

namespace Pipeline

variable (p : Pipeline)

/-- The calls that `Process` makes and the deduplicator looks at, the latest first. -/
def callsOf (st : ExecState) (entry : LogEntry) (tag : GoString) : List LiveCall :=
  match p.executor with
  | none => []
  | some ex => Etl.callsOf ex st entry (p.appliedActions entry tag)

theorem process_seenAfter {st : ExecState} {calls : List LiveCall}
    (h : st.dedup = seenAfter calls) (entry : LogEntry) (tag : GoString) :
    (p.process st entry tag).2.dedup = seenAfter (p.callsOf st entry tag ++ calls) := by
  change (p.route st entry tag).2.dedup = _
  rw [route_snd, callsOf]
  rcases hex : p.executor with _ | ex
  · rw [p.runActions_of_none hex]
    exact h
  · rw [p.runActions_of_some hex]
    exact applyActions_seenAfter ex _ st entry calls h

theorem finish_fst_congr {rawIdx : GoString} {lastOut : ETLOutput} {rules : List CompiledRule}
    {r r' : Option LogEntry × ExecState} (h : r'.1 = r.1) :
    (finish rawIdx lastOut rules r').1 = (finish rawIdx lastOut rules r).1 := by
  obtain ⟨_ | e, st⟩ := r <;> obtain ⟨e', st'⟩ := r' <;> obtain rfl := h <;> rfl

/-- The result of `Process` is what its actions make of the entry. -/
theorem process_fst_congr {st st' : ExecState} {entry : LogEntry} {tag : GoString}
    (h : (p.runActions st' entry (p.appliedActions entry tag)).1 =
      (p.runActions st entry (p.appliedActions entry tag)).1) :
    (p.process st' entry tag).1 = (p.process st entry tag).1 := by
  change (p.route st' entry tag).1.result p.lib tag = (p.route st entry tag).1.result p.lib tag
  refine congrArg (Outcome.result p.lib tag) ?_
  rw [route_eq, route_eq]
  split_ifs
  · rfl
  · exact finish_fst_congr h

/-- **Two states that answer the calls alike**, at one tick: an event has the same result,
and leads to the same calls. -/
theorem process_congr {st st' : ExecState} {calls calls' : List LiveCall} {entry : LogEntry}
    {tag : GoString} (htick : st'.tick = st.tick) (hst : st.dedup = seenAfter calls)
    (hst' : st'.dedup = seenAfter calls')
    (hans : ∀ c cs, c :: cs <:+ p.callsOf st entry tag →
      answer c (cs ++ calls) = answer c (cs ++ calls')) :
    (p.process st' entry tag).1 = (p.process st entry tag).1 ∧
      p.callsOf st' entry tag = p.callsOf st entry tag := by
  rw [callsOf] at hans
  rw [callsOf, callsOf]
  rcases hex : p.executor with _ | ex
  · refine ⟨p.process_fst_congr ?_, rfl⟩
    rw [runActions, hex, runActions, hex]
  · rw [hex] at hans
    obtain ⟨hres, hcalls⟩ :=
      applyActions_congr ex _ st st' entry calls calls' htick hst hst' hans
    refine ⟨p.process_fst_congr ?_, hcalls⟩
    rw [p.runActions_of_some hex, p.runActions_of_some hex, hres]

end Pipeline

namespace Service

variable (s : Service)

/-- The calls that a test makes and the deduplicator looks at. -/
def testCalls (st : ExecState) (key : GoString) (sample : LogEntry) (tag : GoString) :
    List LiveCall :=
  match s.getByKey st.tick key with
  | .ok (some _) => s.pipeline.callsOf st sample tag
  | _ => []

/-- The calls of a run, the latest first, each with whether it is that of an event. -/
def trace : List Step → List (Bool × LiveCall)
  | [] => []
  | .event tick entry tag :: earlier =>
    (s.pipeline.callsOf ⟨s.dedupAfter earlier, tick⟩ entry tag).map (true, ·) ++ trace earlier
  | .test tick key sample tag :: earlier =>
    (s.testCalls ⟨s.dedupAfter earlier, tick⟩ key sample tag).map (false, ·) ++ trace earlier

theorem map_snd_append (b : Bool) (calls : List LiveCall) (trace : List (Bool × LiveCall)) :
    (calls.map (b, ·) ++ trace).map (·.2) = calls ++ trace.map (·.2) := by
  rw [List.map_append, List.map_map]
  exact congrArg (· ++ _) (List.map_id calls)

theorem filter_fst_true (calls : List LiveCall) (trace : List (Bool × LiveCall)) :
    (calls.map (true, ·) ++ trace).filter (·.1) = calls.map (true, ·) ++ trace.filter (·.1) := by
  rw [List.filter_append, List.filter_eq_self.mpr (by simp)]

theorem filter_fst_false (calls : List LiveCall) (trace : List (Bool × LiveCall)) :
    (calls.map (false, ·) ++ trace).filter (·.1) = trace.filter (·.1) := by
  rw [List.filter_append, List.filter_eq_nil_iff.mpr (by simp), List.nil_append]

/-- The deduplicator holds what the calls of the run have left. -/
theorem dedupAfter_eq (steps : List Step) :
    s.dedupAfter steps = seenAfter ((s.trace steps).map (·.2)) := by
  induction steps with
  | nil => rfl
  | cons x earlier ih =>
    cases x with
    | event tick entry tag =>
      rw [trace, map_snd_append]
      exact s.pipeline.process_seenAfter ih entry tag
    | test tick key sample tag =>
      rw [trace, map_snd_append, testCalls, dedupAfter, step, test]
      rcases s.getByKey tick key with err | _ | rule
      · exact ih
      · exact ih
      · exact s.pipeline.process_seenAfter ih sample tag

/-- The tests before a call of an event leave it alone. Of what the call itself would
find, no test has filed a record under its key, other than where a record was already
there to be found, and none has swept out the record of an event. -/
def LeftAlone (c : LiveCall) (earlier : List (Bool × LiveCall)) : Prop :=
  ∀ m rest, (false, m) :: rest <:+ earlier →
    (m.file = c.file → c.spares m.now = true →
      ∃ t, (seenAfter (rest.map (·.2))).seen[m.file]? = some t ∧ m.spares t = true) ∧
      ∀ a, (true, a) ∈ rest → a.file = c.file → c.spares a.now = true → m.spares a.now = true

/-- It is what the memory of the deduplicator takes to answer the events on their own. -/
theorem LeftAlone.memory {c : LiveCall} {earlier : List (Bool × LiveCall)}
    (h : LeftAlone c earlier) :
    (memory.comap Prod.snd).LeftAlone (fun m rest => answer m.2 (rest.map (·.2))) (·.1)
      (true, c) earlier := by
  rintro ⟨b, m⟩ rest hm rfl
  obtain ⟨hfiled, hswept⟩ := h m rest hm
  refine ⟨fun hfile hkeep => ?_, ?_⟩
  · obtain ⟨t, hrec, hspare⟩ := hfiled (by simpa [WindowMemory.comap, Etl.memory] using hfile)
      (by simpa [WindowMemory.comap, Etl.memory] using hkeep)
    change (m.run _).1 = true
    rw [run_fst, hrec, Option.filter_some_pos hspare]
    rfl
  · rintro ⟨b, a⟩ ha rfl hfile hkeep
    exact hswept a ha (by simpa [WindowMemory.comap, Etl.memory] using hfile)
      (by simpa [WindowMemory.comap, Etl.memory] using hkeep)

/-- An event of the run is answered as if there were no tests. -/
theorem answer_eq_filter {steps : List Step}
    (h : ∀ c earlier, (true, c) :: earlier <:+ s.trace steps → LeftAlone c earlier)
    {c : LiveCall} {earlier : List (Bool × LiveCall)}
    (hsuf : (true, c) :: earlier <:+ s.trace steps) :
    answer c (earlier.map (·.2)) = answer c ((earlier.filter (·.1)).map (·.2)) := by
  refine (answer_forgets.comap Prod.snd).eq_filter_of_leftAlone
    (fun _ _ h => funext fun a => congrFun (sameFile_congr h) a.2) (·.1) ?_ (true, c) earlier
    hsuf rfl
  rintro ⟨b, d⟩ rest hd rfl
  exact (h d rest hd).memory

/-- Without the tests, the run has the calls of its events, and its events the results they
had. -/
theorem trace_and_results (steps : List Step)
    (h : ∀ c earlier, (true, c) :: earlier <:+ s.trace steps → LeftAlone c earlier) :
    s.trace (steps.filter Step.isEvent) = (s.trace steps).filter (·.1) ∧
      s.results (steps.filter Step.isEvent) = s.results steps := by
  induction steps with
  | nil => exact ⟨rfl, rfl⟩
  | cons x earlier ih =>
    have hsub : s.trace earlier <:+ s.trace (x :: earlier) := by
      cases x with
      | event => exact List.suffix_append _ _
      | test => exact List.suffix_append _ _
    obtain ⟨htrace, hres⟩ := ih fun c rest hsuf => h c rest (hsuf.trans hsub)
    cases x with
    | event tick entry tag =>
      have halike : ∀ c cs, c :: cs <:+ s.pipeline.callsOf ⟨s.dedupAfter earlier, tick⟩ entry tag →
          answer c (cs ++ (s.trace earlier).map (·.2)) =
            answer c (cs ++ (s.trace (earlier.filter Step.isEvent)).map (·.2)) := by
        rintro c cs ⟨front, hfront⟩
        have hsuf : (true, c) :: (cs.map (true, ·) ++ s.trace earlier) <:+
            s.trace (.event tick entry tag :: earlier) :=
          ⟨front.map (true, ·), by rw [trace, ← hfront]; simp⟩
        have halone := s.answer_eq_filter h hsuf
        rwa [map_snd_append, filter_fst_true, map_snd_append, ← htrace] at halone
      obtain ⟨hproc, hcalls⟩ := s.pipeline.process_congr
        (show (⟨s.dedupAfter (earlier.filter Step.isEvent), tick⟩ : ExecState).tick =
          (⟨s.dedupAfter earlier, tick⟩ : ExecState).tick from rfl)
        (s.dedupAfter_eq earlier) (s.dedupAfter_eq _) halike
      rw [List.filter_cons_of_pos rfl, trace, results, results, trace, filter_fst_true]
      exact ⟨by rw [hcalls, htrace], by rw [hproc, hres]⟩
    | test tick key sample tag =>
      have hdrop : (Step.test tick key sample tag :: earlier).filter Step.isEvent =
          earlier.filter Step.isEvent := List.filter_cons_of_neg (by simp [Step.isEvent])
      rw [hdrop, trace, results, filter_fst_false]
      exact ⟨htrace, hres⟩

/-- **When tests are dry runs**: in every run in which the tests leave alone every call that
an event makes later, the events have the results they would have without the tests. -/
theorem results_eq_without_tests (steps : List Step)
    (h : ∀ c earlier, (true, c) :: earlier <:+ s.trace steps → LeftAlone c earlier) :
    s.results steps = s.results (steps.filter Step.isEvent) :=
  (s.trace_and_results steps h).2.symm

/-! ### Runs with a test in them -/

/-- A service with one rule, which drops an event whose host was seen. -/
def hostDedup : Service where
  getByKey _ _ := .ok (some { ruleID := str "r" })
  pipeline := Pipeline.oneRule [textAction .dedup [("key", "hostname")]]

/-- An event of a host. -/
def hostStep (tick : ℕ) (host : String) : Step :=
  .event tick (Pipeline.hostEvent host).1 (Pipeline.hostEvent host).2

/-- A test of the rule on an event of a host. -/
def hostTest (tick : ℕ) (host : String) : Step :=
  .test tick (str "1") (Pipeline.hostEvent host).1 (Pipeline.hostEvent host).2

/-- The test of another host leaves the second event of a host the duplicate it is. -/
theorem results_eq_without_tests_other :
    hostDedup.results [hostStep 2 "a", hostTest 1 "b", hostStep 0 "a"] =
        hostDedup.results [hostStep 2 "a", hostStep 0 "a"] ∧
      (hostDedup.results [hostStep 2 "a", hostTest 1 "b", hostStep 0 "a"]).map
        (fun r => (r.bind (·.etlEntry)).isSome) = [false, true] := by
  have htrace : ∃ late test early,
      hostDedup.trace [hostStep 2 "a", hostTest 1 "b", hostStep 0 "a"] =
        [(true, late), (false, test), (true, early)] ∧ test.file ≠ late.file ∧
      test.spares early.now = true := by
    refine ⟨((hostDedup.trace [hostStep 2 "a", hostTest 1 "b", hostStep 0 "a"]).get
        ⟨0, by decide +kernel⟩).2,
      ((hostDedup.trace [hostStep 2 "a", hostTest 1 "b", hostStep 0 "a"]).get
        ⟨1, by decide +kernel⟩).2,
      ((hostDedup.trace [hostStep 2 "a", hostTest 1 "b", hostStep 0 "a"]).get
        ⟨2, by decide +kernel⟩).2, ?_⟩
    decide +kernel
  obtain ⟨late, test, early, htrace, hfile, hspare⟩ := htrace
  have halone : ∀ c earlier, (true, c) :: earlier <:+
      hostDedup.trace [hostStep 2 "a", hostTest 1 "b", hostStep 0 "a"] → LeftAlone c earlier := by
    intro c earlier hsuf m rest hm
    obtain ⟨rfl, rfl⟩ | ⟨rfl, rfl⟩ :
        c = late ∧ earlier = [(false, test), (true, early)] ∨ c = early ∧ earlier = [] := by
      simpa [htrace, List.suffix_cons_iff] using hsuf
    · -- the last event has the test before it, which is about another host
      obtain ⟨rfl, rfl⟩ : m = test ∧ rest = [(true, early)] := by
        simpa [List.suffix_cons_iff] using hm
      refine ⟨fun hsame => absurd hsame hfile, fun a ha _ _ => ?_⟩
      obtain rfl : a = early := by simpa using ha
      exact hspare
    · simp at hm
  exact ⟨results_eq_without_tests hostDedup _ halone, by decide +kernel⟩

/-- The test of a host makes the very first event of the host a duplicate. -/
theorem not_dryRun : ¬∀ s : Service, s.DryRun := by
  intro h
  have hrun := congrArg (List.map fun r => (r.bind (·.etlEntry)).isSome)
    (h hostDedup [hostStep 1 "a", hostTest 0 "a"])
  revert hrun
  decide +kernel

end Service

end Etl

end Xsiam

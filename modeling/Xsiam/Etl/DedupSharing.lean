import Xsiam.Etl.Applied
import Xsiam.Etl.DedupWindow

/-!
# Deduplicating actions share a deduplicator

An executor has one deduplicator, and the key under which it files a value names the
tenant and the value, not the field it comes from, the rule, or the action. This module
follows every call of the deduplicator through a run of the pipeline, together with the
place of the action that makes it (`Xsiam.Etl.Site`), and compares the shared
deduplicator with one of its own for every action.

As long as the calls of different actions stay out of each other's way, every action
drops exactly the events it would drop with a deduplicator of its own
(`Xsiam.Etl.Pipeline.dropped_eq_private`). They do not have to: the second of two `dedup`
actions on one field drops every event, the very first included
(`Xsiam.Etl.Pipeline.dedupTwice_drops_first`).
-/

namespace Xsiam

namespace Etl

open Go WindowMemory

/-! ### Actions by their place -/

/-- The place of an action: the position of its rule, and its own position there. -/
abbrev Site := ℕ × ℕ

namespace Pipeline

variable (p : Pipeline)

/-- `throughRawOnly`, for rules inside other data. -/
def throughRawOnlyBy {β : Type} (f : β → CompiledRule) : List β → List β
  | [] => []
  | b :: bs => if (f b).rawWriteMode = .rawOnly then [b] else b :: throughRawOnlyBy f bs

theorem map_throughRawOnlyBy {β : Type} (f : β → CompiledRule) (bs : List β) :
    (throughRawOnlyBy f bs).map f = throughRawOnly (bs.map f) := by
  induction bs with
  | nil => rfl
  | cons b bs ih =>
    rw [throughRawOnlyBy, List.map_cons, throughRawOnly, ← ih]
    split_ifs <;> rfl

/-- `applied`, for rules inside other data. -/
def appliedBy {β : Type} (f : β → CompiledRule) (bs : List β) (entry : LogEntry)
    (tag : GoString) : List β :=
  let seq := bs.filter fun b =>
    (f b).processingMode = .sequential && matchesEntry p.lib (f b) entry tag
  if seq ≠ [] then throughRawOnlyBy f seq
  else (bs.filter fun b =>
    (f b).processingMode ≠ .sequential && matchesEntry p.lib (f b) entry tag).take 1

theorem map_appliedBy {β : Type} (f : β → CompiledRule) (bs : List β) (entry : LogEntry)
    (tag : GoString) (h : bs.map f = p.rules) :
    (p.appliedBy f bs entry tag).map f = p.applied entry tag := by
  have hseq : p.seqMatched entry tag = (bs.filter fun b =>
      (f b).processingMode = .sequential && matchesEntry p.lib (f b) entry tag).map f := by
    rw [seqMatched, ← h, List.filter_map]
    rfl
  have hfirst : p.firstMatched entry tag = (bs.filter fun b =>
      (f b).processingMode ≠ .sequential && matchesEntry p.lib (f b) entry tag).map f := by
    rw [firstMatched, ← h, List.filter_map]
    rfl
  rw [appliedBy, applied]
  rw [hseq, hfirst]
  simp only [ne_eq, List.map_eq_nil_iff]
  split_ifs with h0
  · exact List.map_take
  · exact map_throughRawOnlyBy f _

/-- The actions an entry meets, each with its place. -/
def appliedSites (entry : LogEntry) (tag : GoString) : List (Site × ETLAction) :=
  ((p.appliedBy Prod.fst p.rules.zipIdx entry tag).filter
    fun ri => ri.1.rawWriteMode ≠ .rawOnly).flatMap
      fun ri => ri.1.actions.zipIdx.map fun aj => ((ri.2, aj.2), aj.1)

/-- Without the places, they are the actions that run. -/
theorem map_appliedSites (entry : LogEntry) (tag : GoString) :
    (p.appliedSites entry tag).map (·.2) = p.appliedActions entry tag := by
  rw [appliedSites, appliedActions, acting]
  rw [← p.map_appliedBy Prod.fst p.rules.zipIdx entry tag (List.zipIdx_map_fst 0 p.rules),
    List.filter_map, List.flatMap_map, List.map_flatMap]
  refine congrArg (List.flatMap · _) ?_
  funext ri
  rw [List.map_map]
  exact List.zipIdx_map_fst 0 ri.1.actions

end Pipeline

/-! ### Calls by their place -/

/-- A call of the deduplicator by an action, and whether the action dropped the event. -/
structure SiteCall where
  site : Site
  call : LiveCall
  dropped : Bool
deriving DecidableEq

/-- The call an action makes that the deduplicator looks at, if it makes one. -/
def liveCall (ex : ActionExecutor) (tick : ℕ) (e : LogEntry) (a : ETLAction) :
    Option LiveCall :=
  if a.type = .dedup then
    (dedupCall ex tick e a).bind fun c =>
      if h : 0 < c.windowSec ∧ c.keyVal ≠ [] then some ⟨c, h.1, h.2⟩ else none
  else none

/-- What an action adds to the trace. -/
def siteCall (ex : ActionExecutor) (st : ExecState) (e : LogEntry) (sa : Site × ETLAction) :
    List SiteCall :=
  ((liveCall ex st.tick e sa.2).map fun c =>
    ⟨sa.1, c, (apply ex st e sa.2).1.isNone⟩).toList

/-- `applyActions`, with the trace of the calls, the latest first. -/
def tracedActions (ex : ActionExecutor) (st : ExecState) (e : LogEntry) (trace : List SiteCall) :
    List (Site × ETLAction) → Option LogEntry × ExecState × List SiteCall
  | [] => (some e, st, trace)
  | sa :: sas =>
    match apply ex st e sa.2 with
    | (none, st') => (none, st', siteCall ex st e sa ++ trace)
    | (some e', st') => tracedActions ex st' e' (siteCall ex st e sa ++ trace) sas

/-- The trace is only looked at: the actions do what they do without it. -/
theorem tracedActions_erase (ex : ActionExecutor) (sas : List (Site × ETLAction)) :
    ∀ (st : ExecState) (e : LogEntry) (trace : List SiteCall),
      ((tracedActions ex st e trace sas).1, (tracedActions ex st e trace sas).2.1) =
        applyActions ex st e (sas.map (·.2)) := by
  induction sas with
  | nil => intro st e trace; rfl
  | cons sa sas ih =>
    intro st e trace
    rw [tracedActions, List.map_cons, applyActions]
    rcases apply ex st e sa.2 with ⟨_ | e', st'⟩
    · rfl
    · exact ih st' e' _

/-- What the trace records is what a deduplicator does: it holds what the calls so far
have left, and an action drops the event exactly when its call is answered that it is a
duplicate. -/
def Recorded (st : ExecState) (trace : List SiteCall) : Prop :=
  st.dedup = seenAfter (trace.map (·.call)) ∧
    ∀ d earlier, d :: earlier <:+ trace → d.dropped = answer d.call (earlier.map (·.call))

/-- **What one action does to the deduplicator.** -/
theorem apply_dedup (ex : ActionExecutor) (st : ExecState) (e : LogEntry) (a : ETLAction) :
    (apply ex st e a).2.dedup =
        ((liveCall ex st.tick e a).map fun c => (c.run st.dedup).2).getD st.dedup ∧
      ∀ c, liveCall ex st.tick e a = some c →
        (apply ex st e a).1.isNone = (c.run st.dedup).1 := by
  by_cases htype : a.type = .dedup
  · rw [apply, liveCall, if_pos htype, htype]
    simp only [dedupAction]
    rcases dedupCall ex st.tick e a with _ | c
    · simp
    · by_cases hlive : 0 < c.windowSec ∧ c.keyVal ≠ []
      · simp only [Option.bind_some, dif_pos hlive, Option.map_some, Option.getD_some,
          Option.some.injEq, forall_eq']
        refine ⟨trivial, ?_⟩
        rcases (c.run st.dedup).1 with _ | _ <;> rfl
      · simp [dif_neg hlive, DedupCall.run_of_not_live hlive]
  · have happ : (apply ex st e a).2.dedup = st.dedup := by
      rw [apply]
      split
      · next h => exact absurd h htype
      · rfl
    simp [liveCall, if_neg htype, happ]

theorem recorded_siteCall {ex : ActionExecutor} {st : ExecState} {trace : List SiteCall}
    (h : Recorded st trace) (e : LogEntry) (sa : Site × ETLAction) :
    Recorded (apply ex st e sa.2).2 (siteCall ex st e sa ++ trace) := by
  obtain ⟨hst, htrace⟩ := h
  obtain ⟨hdedup, hdrop⟩ := apply_dedup ex st e sa.2
  rw [siteCall]
  rcases hcall : liveCall ex st.tick e sa.2 with _ | c
  · rw [hcall] at hdedup
    exact ⟨hdedup.trans hst, htrace⟩
  · rw [hcall] at hdedup
    refine ⟨?_, fun d earlier hsuf => ?_⟩
    · rw [hdedup, hst]
      rfl
    · rcases List.suffix_cons_iff.mp hsuf with heq | hsuf
      · obtain ⟨rfl, rfl⟩ := List.cons.inj heq
        change (apply ex st e sa.2).1.isNone = _
        rw [hdrop c hcall, hst]
        rfl
      · exact htrace d earlier hsuf

theorem recorded_tracedActions (ex : ActionExecutor) (sas : List (Site × ETLAction)) :
    ∀ (st : ExecState) (e : LogEntry) (trace : List SiteCall), Recorded st trace →
      Recorded (tracedActions ex st e trace sas).2.1 (tracedActions ex st e trace sas).2.2 := by
  induction sas with
  | nil => intro st e trace h; exact h
  | cons sa sas ih =>
    intro st e trace h
    have hstep := @recorded_siteCall ex _ _ h e sa
    rw [tracedActions]
    rcases happ : apply ex st e sa.2 with ⟨_ | e', st'⟩
    · rw [happ] at hstep
      exact hstep
    · rw [happ] at hstep
      exact ih st' e' _ hstep

/-! ### Streams of events -/

namespace Pipeline

variable (p : Pipeline)

/-- `route`, with the trace of the calls. -/
def tracedRoute (st : ExecState) (trace : List SiteCall) (entry : LogEntry) (tag : GoString) :
    ExecState × List SiteCall :=
  match p.executor with
  | none => ((p.route st entry tag).2, trace)
  | some ex => (tracedActions ex st entry trace (p.appliedSites entry tag)).2

/-- A stream of events, the latest first: each is processed in the state the earlier ones
left. -/
def run : List (LogEntry × GoString) → ExecState × List SiteCall
  | [] => (.init, [])
  | ev :: earlier => p.tracedRoute (run earlier).1 (run earlier).2 ev.1 ev.2

/-- The calls of the deduplicator that a stream of events leads to. -/
def trace (stream : List (LogEntry × GoString)) : List SiteCall := (p.run stream).2

/-- The state `process` leaves after a stream of events. -/
def stateAfter : List (LogEntry × GoString) → ExecState
  | [] => .init
  | ev :: earlier => (p.process (stateAfter earlier) ev.1 ev.2).2

/-- The trace is only looked at: the states are those of `process`. -/
theorem tracedRoute_erase (st : ExecState) (trace : List SiteCall) (entry : LogEntry)
    (tag : GoString) : (p.tracedRoute st trace entry tag).1 = (p.route st entry tag).2 := by
  rw [tracedRoute]
  rcases hex : p.executor with _ | ex
  · rfl
  · have herase := tracedActions_erase ex (p.appliedSites entry tag) st entry trace
    rw [route_snd, p.runActions_of_some hex, ← p.map_appliedSites, ← herase]

theorem run_erase (stream : List (LogEntry × GoString)) :
    (p.run stream).1 = p.stateAfter stream := by
  induction stream with
  | nil => rfl
  | cons ev earlier ih =>
    rw [run, tracedRoute_erase, ih]
    rfl

theorem recorded_run (stream : List (LogEntry × GoString)) :
    Recorded (p.run stream).1 (p.run stream).2 := by
  induction stream with
  | nil =>
    refine ⟨rfl, fun d earlier hsuf => ?_⟩
    simpa [run] using List.eq_nil_of_suffix_nil hsuf
  | cons ev earlier ih =>
    rw [run]
    rw [tracedRoute]
    rcases hex : p.executor with _ | ex
    · -- without an executor no action touches the deduplicator
      rw [route_snd, p.runActions_of_none hex]
      exact ih
    · exact recorded_tracedActions ex _ _ _ _ ih

end Pipeline

/-! ### Each action on its own -/

/-- The calls of other actions stay out of the way of a call: none of them is filed under
the same key, and none of them sweeps out a record that the call's own action has made
under that key. -/
def SiteCall.Apart (d : SiteCall) (earlier : List SiteCall) : Prop :=
  ∀ m rest, m :: rest <:+ earlier → m.site ≠ d.site →
    m.call.file ≠ d.call.file ∧
      ∀ a ∈ rest, a.site = d.site → a.call.file = d.call.file →
        timeSub m.call.now a.call.now ≤ windowOf m.call.windowSec

theorem SiteCall.apart_iff (d : SiteCall) (earlier : List SiteCall) :
    (memory.comap SiteCall.call).Apart (·.site = d.site) d earlier ↔ d.Apart earlier := by
  rw [WindowMemory.Apart, SiteCall.Apart]
  simp [WindowMemory.comap, memory, LiveCall.spares]

namespace Pipeline

variable (p : Pipeline)

/-- **Actions that stay apart drop what they would drop alone**: in a run in which the
calls of different actions stay out of each other's way, whether an action drops an
event is the answer of a deduplicator that has seen the earlier calls of this action
and no others. -/
theorem dropped_eq_private (stream : List (LogEntry × GoString))
    (h : ∀ d earlier, d :: earlier <:+ p.trace stream → d.Apart earlier) :
    ∀ d earlier, d :: earlier <:+ p.trace stream →
      d.dropped =
        answer d.call ((earlier.filter fun m => m.site = d.site).map (·.call)) := by
  intro d earlier hsuf
  have hmem := answer_forgets.comap SiteCall.call
  refine ((p.recorded_run stream).2 d earlier hsuf).trans ?_
  -- the calls of the action are the part of the trace that is answered on its own
  refine hmem.eq_filter
    (fun _ _ h => funext fun a => congrFun (sameFile_congr h) a.call)
    (fun m => m.site = d.site) (fun c cs hc hmine => ?_) d earlier hsuf (by simp)
  have hsite : c.site = d.site := by simpa using hmine
  have hapart := (SiteCall.apart_iff c cs).mpr (h c cs hc)
  rwa [hsite] at hapart

/-- A pipeline with one rule. -/
def oneRule (actions : List ETLAction) : Pipeline where
  lib := literalLib
  rules := [openRule .firstMatch .both actions { ngxIndex := str "etl_r" }]
  executor := some plainExecutor

/-- An event of a host. -/
def hostEvent (host : String) : LogEntry × GoString :=
  ({ entryWith (str "t") [] with hostname := str host }, str "tag")

/-- An event of a host, from an address. -/
def addressEvent (host ip : String) : LogEntry × GoString :=
  ({ entryWith (str "t") [] with hostname := str host, sourceIP := str ip }, str "tag")

/-- Two `dedup` actions, one on the host and one on the address. -/
def dedupBoth : Pipeline :=
  oneRule [textAction .dedup [("key", "hostname")], textAction .dedup [("key", "source_ip")]]

/-- Two hosts behind one address. -/
def twoHosts : List (LogEntry × GoString) := [addressEvent "h1" "ip", addressEvent "h2" "ip"]

/-- Two `dedup` actions on two fields stay apart: the host of the second event is new, its address is
not, and each of the two answers as it would on its own. -/
theorem dropped_eq_private_twice :
    ∃ ip₂ host₂ ip₁ host₁, dedupBoth.trace twoHosts = [ip₂, host₂, ip₁, host₁] ∧
      host₂.dropped = false ∧ ip₂.dropped = true ∧
      host₂.dropped = answer host₂.call [host₁.call] ∧
      ip₂.dropped = answer ip₂.call [ip₁.call] := by
  have htrace : ∃ ip₂ host₂ ip₁ host₁, dedupBoth.trace twoHosts = [ip₂, host₂, ip₁, host₁] ∧
      host₂.dropped = false ∧ ip₂.dropped = true ∧ ip₁.site = ip₂.site ∧ host₁.site = host₂.site ∧
        host₂.site ≠ ip₂.site := by
    refine ⟨(dedupBoth.trace twoHosts).get ⟨0, by decide +kernel⟩,
      (dedupBoth.trace twoHosts).get ⟨1, by decide +kernel⟩,
      (dedupBoth.trace twoHosts).get ⟨2, by decide +kernel⟩,
      (dedupBoth.trace twoHosts).get ⟨3, by decide +kernel⟩, ?_⟩
    decide +kernel
  -- what the two are filed under differs, and there is no time for a sweep
  have hpairs : ∀ d ∈ dedupBoth.trace twoHosts, ∀ m ∈ dedupBoth.trace twoHosts, m.site ≠ d.site →
      m.call.file ≠ d.call.file ∧ ∀ a ∈ dedupBoth.trace twoHosts,
        timeSub m.call.now a.call.now ≤ windowOf m.call.windowSec := by
    decide +kernel
  have hapart : ∀ d earlier, d :: earlier <:+ dedupBoth.trace twoHosts → d.Apart earlier := by
    intro d earlier hsuf m rest hm hne
    have hin : ∀ c ∈ earlier, c ∈ dedupBoth.trace twoHosts := fun c hc =>
      hsuf.subset (List.mem_cons_of_mem d hc)
    obtain ⟨hfile, htime⟩ := hpairs d (hsuf.subset List.mem_cons_self) m
      (hin m (hm.subset List.mem_cons_self)) hne
    exact ⟨hfile, fun a ha _ _ => htime a (hin a (hm.subset (List.mem_cons_of_mem m ha)))⟩
  obtain ⟨ip₂, host₂, ip₁, host₁, htrace, hpass, hdrop, hip, hhost, hne⟩ := htrace
  have hprivate := dropped_eq_private dedupBoth twoHosts hapart
  rw [htrace] at hprivate
  have hfirst := hprivate host₂ [ip₁, host₁] (List.suffix_cons ip₂ _)
  have hsecond := hprivate ip₂ [host₂, ip₁, host₁] List.suffix_rfl
  refine ⟨ip₂, host₂, ip₁, host₁, htrace, hpass, hdrop, hfirst.trans ?_, hsecond.trans ?_⟩
  · rw [List.filter_cons_of_neg (by simp [hip, hne.symm]), List.filter_cons_of_pos (by simp [hhost])]
    rfl
  · rw [List.filter_cons_of_neg (by simp [hne]), List.filter_cons_of_pos (by simp [hip]),
      List.filter_cons_of_neg (by simp [hhost, hne])]
    rfl

/-- Two `dedup` actions on one field. -/
def dedupTwice : Pipeline :=
  oneRule [textAction .dedup [("key", "hostname")], textAction .dedup [("key", "hostname")]]

/-- The second of the two drops the very first event, though no event has ever reached it
before. -/
theorem dedupTwice_drops_first :
    ∃ d earlier, d :: earlier <:+ dedupTwice.trace [hostEvent "h"] ∧ d.dropped = true ∧
      (earlier.filter fun m => m.site = d.site) = [] ∧
      answer d.call ((earlier.filter fun m => m.site = d.site).map (·.call)) = false := by
  have htrace : ∃ d m, dedupTwice.trace [hostEvent "h"] = [d, m] ∧ d.dropped = true ∧
      m.site ≠ d.site := by
    refine ⟨(dedupTwice.trace [hostEvent "h"]).get ⟨0, by decide +kernel⟩,
      (dedupTwice.trace [hostEvent "h"]).get ⟨1, by decide +kernel⟩, ?_⟩
    decide +kernel
  obtain ⟨d, m, htrace, hdrop, hsite⟩ := htrace
  have hnone : ([m].filter fun m => m.site = d.site) = [] := by simp [hsite]
  refine ⟨d, [m], htrace ▸ List.suffix_rfl, hdrop, hnone, ?_⟩
  rw [hnone, List.map_nil, answer_forgets.nil]

end Pipeline

end Etl

end Xsiam

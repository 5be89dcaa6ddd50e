import Xsiam.Presence.Sweep
import Xsiam.Presence.Keys

/-!
# Agents that no instance has

The registry finds the agents of a dead instance by the set of that instance, so an agent
that is online and in no set will never be swept (`Xsiam.Presence.Tracked`). A sweep reads
the set, acts on what it has read, and in the end deletes the key, with the agents that
came in between; nor does an agent that came in between keep the sweep from marking it
offline (`Xsiam.Presence.not_tracked`).

These are not the only ways. An agent key that two tenants share is removed for both, and
the lease of an instance may be written over the set of another one. Each of them is one
step of a run that can be told before it is taken (`Xsiam.Presence.Careful`), and a run
without such steps loses nobody (`Xsiam.Presence.tracked_of_careful`).
-/

namespace Xsiam

namespace Presence

open Go Run

/-! ### What is to hold -/

/-- Every agent that is online is a member of some instance. -/
def Tracked (reg : Registry) : Prop :=
  ∀ tenantID agentKey, (reg.score tenantID agentKey).isSome → ∃ fbID, reg.ownedBy agentKey fbID = true

/-- An agent was touched after a sweep set out. -/
def TouchedSince (hist : History State Event) (n : ℕ) (tenantID agentKey : GoString) : Prop :=
  ∃ s₀ fbID, (s₀, Event.touch tenantID agentKey fbID) ∈ hist ∧ n < s₀.sweeps.length

/-- No sweep marks an agent offline that was touched after it set out. -/
def SparesTouched (hist : History State Event) (s : State) : Prop :=
  ∀ n ok s' tenantID agentKey, step s (.send n ok) = some s' →
    TouchedSince hist n tenantID agentKey →
      ∃ marks, s'.offlined = marks ++ s.offlined ∧ (tenantID, agentKey) ∉ marks

/-! ### Careful steps -/

/-- An instance's set can go: those of its agents that are online are in another one. -/
def Droppable (reg : Registry) (fbID : GoString) : Prop :=
  ∀ tenantID agentKey, (reg.score tenantID agentKey).isSome → reg.ownedBy agentKey fbID = true →
    ∃ fb, fb ≠ fbID ∧ reg.ownedBy agentKey fb = true

/-- A sweep has still to mark an agent offline. -/
def State.WillMark (s : State) (n : ℕ) (tenantID agentKey : GoString) : Prop :=
  ∃ fbID cmds, s.sweeps[n]? = some (fbID, cmds) ∧ ∃ cmd ∈ cmds, cmd.Marks tenantID agentKey

/-- The steps of a run that lose nobody. An agent is touched while no sweep has still to
mark it offline, through an instance whose key no lease has, or is in another set; it is
removed from the only set it is in where no other tenant's agent of that key is online;
and a set goes only when it can. -/
def Careful : History State Event → State → Event → Prop
  | _, s, .touch tenantID agentKey fbID =>
    (s.reg.LeaseInTheWay fbID → ∃ fb, s.reg.ownedBy agentKey fb = true) ∧
      ∀ n, ¬s.WillMark n tenantID agentKey
  | _, s, .remove tenantID agentKey fbID =>
    ∀ tid, tid ≠ tenantID → (s.reg.score tid agentKey).isSome →
      ∃ fb, fb ≠ fbID ∧ s.reg.ownedBy agentKey fb = true
  | _, s, .renewFB fbID => Droppable s.reg (leaseID fbID)
  | _, s, .send n true =>
    ∀ fbID dead cmds, s.sweeps[n]? = some (dead, .deleteFBSet fbID :: cmds) → Droppable s.reg fbID
  | _, _, _ => True

/-! ### Agents stay tracked -/

section Step

variable {hist : History State Event} {s s' : State} {ev : Event}

/-- An agent that is online keeps its instances. -/
theorem Tracked.mono {reg reg' : Registry} (h : Tracked reg)
    (hscore : ∀ tid ak, (reg'.score tid ak).isSome → (reg.score tid ak).isSome)
    (howned : ∀ ak fb, reg.ownedBy ak fb = true → reg'.ownedBy ak fb = true) : Tracked reg' := by
  intro tid ak honline
  obtain ⟨fb, hfb⟩ := h tid ak (hscore tid ak honline)
  exact ⟨fb, howned ak fb hfb⟩

/-- A set goes, and all others stay. -/
theorem Tracked.drop {reg reg' : Registry} {fbID : GoString} (h : Tracked reg)
    (hdrop : Droppable reg fbID) (hscore : ∀ tid ak, reg'.score tid ak = reg.score tid ak)
    (howned : ∀ ak fb, reg.ownedBy ak fb = true → fb ≠ fbID → reg'.ownedBy ak fb = true) :
    Tracked reg' := by
  intro tid ak honline
  rw [hscore] at honline
  obtain ⟨fb, hfb⟩ := h tid ak honline
  by_cases heq : fb = fbID
  · obtain ⟨fb', hne, hfb'⟩ := hdrop tid ak honline (heq ▸ hfb)
    exact ⟨fb', howned ak fb' hfb' hne⟩
  · exact ⟨fb, howned ak fb hfb heq⟩

theorem tracked_touch {reg : Registry} {tenantID agentKey fbID : GoString} (htyped : Typed reg)
    (h : Tracked reg) (hway : reg.LeaseInTheWay fbID → ∃ fb, reg.ownedBy agentKey fb = true) :
    Tracked (reg.touch tenantID agentKey fbID) := by
  have howned := @Registry.ownedBy_touch_iff reg htyped tenantID agentKey fbID
  intro tid ak honline
  rw [Registry.score_touch htyped] at honline
  split_ifs at honline with hsame
  · -- the agent touched: it is a member of its instance, or has another one
    by_cases hlease : reg.LeaseInTheWay fbID
    · obtain ⟨fb, hfb⟩ := hway hlease
      exact ⟨fb, (howned ak fb).mpr (Or.inl (hsame.2 ▸ hfb))⟩
    · exact ⟨fbID, (howned ak fbID).mpr (Or.inr ⟨hsame.2, rfl, hlease⟩)⟩
  · obtain ⟨fb, hfb⟩ := h tid ak honline
    exact ⟨fb, (howned ak fb).mpr (Or.inl hfb)⟩

theorem tracked_remove {reg : Registry} {tenantID agentKey fbID : GoString} (htyped : Typed reg)
    (h : Tracked reg) (hother : ∀ tid, tid ≠ tenantID → (reg.score tid agentKey).isSome →
      ∃ fb, fb ≠ fbID ∧ reg.ownedBy agentKey fb = true) :
    Tracked (reg.remove tenantID agentKey fbID) := by
  have howned := @Registry.ownedBy_remove_iff reg tenantID agentKey fbID
  intro tid ak honline
  rw [Registry.score_remove htyped] at honline
  split_ifs at honline with hsame
  · exact absurd honline (by simp)
  · by_cases hak : ak = agentKey
    · -- another tenant's agent of the key
      have htid : tid ≠ tenantID := fun hc => hsame ⟨hc, hak⟩
      obtain ⟨fb, hne, hfb⟩ := hother tid htid (hak ▸ honline)
      exact ⟨fb, (howned ak fb).mpr ⟨hak ▸ hfb, fun hc => hne hc.2⟩⟩
    · obtain ⟨fb, hfb⟩ := h tid ak honline
      exact ⟨fb, (howned ak fb).mpr ⟨hfb, fun hc => hak hc.1⟩⟩

theorem tracked_exec {cmd : Cmd} (htyped : Typed s.reg) (h : Tracked s.reg)
    (hdrop : ∀ fbID, cmd = .deleteFBSet fbID → Droppable s.reg fbID) : Tracked (s.exec cmd).reg := by
  cases cmd with
  | bulkRemove tenantID agentKeys =>
    refine h.mono (fun tid ak honline => ?_) fun ak fb hfb => ?_
    · change ((s.reg.bulkRemove tenantID agentKeys).score tid ak).isSome at honline
      rw [Registry.score_bulkRemove_eq htyped] at honline
      split_ifs at honline
      · exact absurd honline (by simp)
      · exact honline
    · exact (Registry.ownedBy_bulkRemove tenantID agentKeys ak fb).trans hfb
  | bulkOffline _ _ => exact h
  | deleteFBSet fbID =>
    exact h.drop (hdrop fbID rfl) (fun tid ak => s.reg.score_deleteFBSet tid ak fbID)
      fun ak fb hfb hne => (Registry.ownedBy_deleteFBSet_iff fbID ak fb).mpr ⟨hfb, hne⟩

/-- **What a careful step preserves**: every agent online is in some set. -/
theorem tracked_step (htyped : Typed s.reg) (h : Tracked s.reg) (hok : Careful hist s ev)
    (hstep : step s ev = some s') : Tracked s'.reg := by
  cases ev with
  | touch tenantID agentKey fbID =>
    obtain rfl := Option.some.inj hstep
    exact tracked_touch htyped h hok.1
  | remove tenantID agentKey fbID =>
    obtain rfl := Option.some.inj hstep
    exact tracked_remove htyped h hok
  | renewFB fbID =>
    obtain rfl := Option.some.inj hstep
    exact h.drop hok (Registry.score_renewFB fbID)
      fun ak fb hfb hne => (Registry.ownedBy_renewFB_iff fbID ak fb).mpr ⟨hfb, hne⟩
  | wait ms =>
    obtain rfl := Option.some.inj hstep
    -- scores and sets have no TTL, so that time takes neither away
    refine h.mono (fun tid ak honline => ?_) fun ak fb hfb => ?_
    · rwa [Registry.score_wait htyped] at honline
    · rwa [Registry.ownedBy_wait htyped]
  | scan page =>
    obtain rfl := Option.some.inj hstep
    exact h
  | askLease fbID =>
    obtain rfl := step_askLease hstep
    exact h
  | sweepFB fbID ans =>
    obtain ⟨-, rfl⟩ := step_sweepFB hstep
    exact h
  | send n ok =>
    obtain ⟨dead, cmd, cmds, hn, rfl⟩ := step_send hstep
    cases ok with
    | false => exact h
    | true =>
      refine @tracked_exec { s with sweeps := s.sweeps.set n (dead, cmds) } cmd htyped h ?_
      rintro fbID rfl
      exact hok fbID dead cmds hn

/-! ### Sweeps spare who comes back -/

/-- No sweep has still to mark an agent offline that was touched after it set out. -/
def NothingPending (hist : History State Event) (s : State) : Prop :=
  (∀ p ∈ hist, p.1.sweeps.length ≤ s.sweeps.length) ∧
    ∀ n tenantID agentKey, TouchedSince hist n tenantID agentKey → ¬s.WillMark n tenantID agentKey

/-- Sweeps are only added, and do not get longer. -/
theorem willMark_step {n : ℕ} {tid ak : GoString} (hstep : step s ev = some s')
    (hn : n < s.sweeps.length) (h : s'.WillMark n tid ak) : s.WillMark n tid ak := by
  obtain ⟨fb, cmds, hget, cmd, hcmd, hmarks⟩ := h
  cases ev with
  | sweepFB fbID ans =>
    obtain ⟨-, rfl⟩ := step_sweepFB hstep
    rw [List.getElem?_append_left hn] at hget
    exact ⟨fb, cmds, hget, cmd, hcmd, hmarks⟩
  | send m ok =>
    obtain ⟨dead, cmd', cmds', hm, rfl⟩ := step_send hstep
    have hset : (s.sweeps.set m (dead, cmds'))[n]? = some (fb, cmds) := by
      split_ifs at hget
      · rwa [State.sweeps_exec] at hget
      · exact hget
    by_cases hmn : m = n
    · subst hmn
      rw [List.getElem?_set_self hn] at hset
      obtain ⟨rfl, rfl⟩ := Prod.mk.inj (Option.some.inj hset)
      exact ⟨dead, cmd' :: cmds', hm, cmd, List.mem_cons_of_mem _ hcmd, hmarks⟩
    · rw [List.getElem?_set_ne hmn] at hset
      exact ⟨fb, cmds, hset, cmd, hcmd, hmarks⟩
  | askLease fbID =>
    obtain rfl := step_askLease hstep
    exact ⟨fb, cmds, hget, cmd, hcmd, hmarks⟩
  | _ =>
    obtain rfl := Option.some.inj hstep
    exact ⟨fb, cmds, hget, cmd, hcmd, hmarks⟩

theorem length_sweeps_step (hstep : step s ev = some s') : s.sweeps.length ≤ s'.sweeps.length := by
  cases ev with
  | sweepFB fbID ans =>
    obtain ⟨-, rfl⟩ := step_sweepFB hstep
    rw [List.length_append]
    omega
  | send m ok =>
    obtain ⟨dead, cmd, cmds, -, rfl⟩ := step_send hstep
    split_ifs
    · rw [State.sweeps_exec, List.length_set]
    · rw [List.length_set]
  | askLease fbID =>
    obtain rfl := step_askLease hstep
    exact le_rfl
  | _ =>
    obtain rfl := Option.some.inj hstep
    exact le_rfl

/-- **What a careful step preserves**: no mark is pending for an agent that came back. -/
theorem nothingPending_step (h : NothingPending hist s) (hok : Careful hist s ev)
    (hstep : step s ev = some s') : NothingPending ((s, ev) :: hist) s' := by
  have hlength := length_sweeps_step hstep
  refine ⟨List.forall_mem_cons.mpr ⟨hlength, fun p hp => (h.1 p hp).trans hlength⟩, ?_⟩
  rintro n tid ak ⟨s₀, fbID, hmem, hn⟩ hmark
  rcases List.mem_cons.mp hmem with heq | hmem
  · -- the touch is this very step
    obtain ⟨rfl, rfl⟩ := Prod.mk.inj heq
    exact hok.2 n (willMark_step hstep hn hmark)
  · exact h.2 n tid ak ⟨s₀, fbID, hmem, hn⟩
      (willMark_step hstep (hn.trans_le (h.1 _ hmem)) hmark)

theorem NothingPending.sparesTouched (h : NothingPending hist s) : SparesTouched hist s := by
  intro n ok s' tid ak hstep htouched
  obtain ⟨dead, cmd, cmds, hn, rfl⟩ := step_send hstep
  have hcmd : ¬cmd.Marks tid ak := fun hmarks =>
    h.2 n tid ak htouched ⟨dead, cmd :: cmds, hn, cmd, List.mem_cons_self, hmarks⟩
  cases ok with
  | false => exact ⟨[], rfl, List.not_mem_nil⟩
  | true =>
    cases cmd with
    | bulkRemove _ _ => exact ⟨[], rfl, List.not_mem_nil⟩
    | deleteFBSet _ => exact ⟨[], rfl, List.not_mem_nil⟩
    | bulkOffline tenantID agentKeys =>
      refine ⟨agentKeys.map (tenantID, ·), rfl, fun hmem => hcmd ?_⟩
      obtain ⟨ak', hak', heq⟩ := List.mem_map.mp hmem
      obtain ⟨rfl, rfl⟩ := Prod.mk.inj heq
      exact ⟨rfl, hak'⟩

end Step

theorem tracked_init (start : ℕ) (server : Redis.Server GoString) :
    Tracked (State.init start server).reg := by
  intro tid ak honline
  have hnone : (State.init start server).reg.score tid ak = none := by
    rw [Registry.score, Redis.Db.zscore_eq, State.init, Redis.Db.find?_empty]
    rfl
  rw [hnone] at honline
  exact absurd honline (by simp)

theorem nothingPending_init (start : ℕ) (server : Redis.Server GoString) :
    NothingPending [] (State.init start server) := by
  refine ⟨fun p hp => absurd hp List.not_mem_nil, ?_⟩
  rintro n tid ak ⟨s₀, fbID, hmem, -⟩
  exact absurd hmem List.not_mem_nil

/-- **A careful run loses nobody**, in every state of it, and spares who comes back. -/
theorem tracked_of_careful {start : ℕ} {server : Redis.Server GoString}
    {hist : History State Event} {s : State}
    (h : Reach step Careful (.init start server) hist s) : Tracked s.reg ∧ SparesTouched hist s := by
  have hinv : (Typed s.reg ∧ Tracked s.reg) ∧ NothingPending hist s := by
    refine @Reach.invariant _ _ step Careful (.init start server)
      (fun hist s => (Typed s.reg ∧ Tracked s.reg) ∧ NothingPending hist s)
      ⟨⟨Typed.empty start server, tracked_init start server⟩,
        nothingPending_init start server⟩ ?_ hist s h
    rintro hist s s' ev ⟨⟨htyped, htracked⟩, hpending⟩ hok hstep
    exact ⟨⟨typed_step htyped hstep, tracked_step htyped htracked hok hstep⟩,
      nothingPending_step hpending hok hstep⟩
  exact ⟨hinv.1.2, hinv.2.sparesTouched⟩

/-- An agent comes through `f1`, which has no lease and is found dead, and a sweep of `f1`
sets out; then something happens. -/
def sweptWhile (evs : List Event) : List Event :=
  [.touch (str "t") (str "a") (str "f1"), .scan fun _ => true, .askLease (str "f1"),
    .sweepFB (str "f1") { tenantForAgentKey := fun _ => some (str "t") }] ++ evs

/-- While the agent is swept, another one comes through `f2`. -/
theorem tracked_of_careful_sweptWhile :
    ∃ hist s, replay step [] (.init 0) (sweptWhile [.send 0 true,
        .touch (str "t") (str "b") (str "f2"), .send 0 true]) = some (hist, s) ∧
      s.sweeping (.send 0 true) = some (str "f1") ∧ s.reg.score (str "t") (str "a") = none ∧
        s.reg.score (str "t") (str "b") = some 0 ∧ Tracked s.reg ∧ SparesTouched hist s := by
  have htouch : Careful [] (.init 0) (.touch (str "t") (str "a") (str "f1")) := by
    refine ⟨fun hway => ?_, ?_⟩
    · have hnone : Redis.Db.type (State.init 0).reg (keyFBSet (str "f1")) = none := rfl
      exact absurd (hnone.symm.trans hway) (by simp)
    · rintro n ⟨fbID, cmds, hget, -⟩
      exact absurd hget (by simp [State.init])
  have h₀ : Reach step Careful (.init 0) [] (.init 0) := .start
  have h₁ := h₀.next htouch rfl
  have h₂ := h₁.next (show Careful _ _ (.scan fun _ => true) from trivial) rfl
  have h₃ := h₂.next (show Careful _ _ (.askLease (str "f1")) from trivial) rfl
  have h₄ := h₃.next (show Careful _ _ (.sweepFB (str "f1")
    { tenantForAgentKey := fun _ => some (str "t") }) from trivial) rfl
  have h₅ := h₄.next (show Careful _ _ (.send 0 true) from fun fbID dead cmds hget => ?_) rfl
  have h₆ := h₅.next (show Careful _ _ (.touch (str "t") (str "b") (str "f2")) from ?_) rfl
  have h₇ := h₆.next (show Careful _ _ (.send 0 true) from fun fbID dead cmds hget => ?_) rfl
  · exact ⟨_, _, rfl, rfl, rfl, rfl, tracked_of_careful h₇⟩
  · -- the agent is taken out first, and marked offline next
    have hcmds := (List.cons.inj (Prod.mk.inj (Option.some.inj hget)).2).1
    cases hcmds
  · refine ⟨fun hway => ?_, ?_⟩
    · have hnone : ∀ s : State, Redis.Db.type s.reg (keyFBSet (str "f2")) = none →
          ¬s.reg.LeaseInTheWay (str "f2") := fun s hnone hway =>
        absurd (hnone.symm.trans hway) (by simp)
      exact absurd hway (hnone _ rfl)
    · rintro n ⟨fbID, cmds, hget, cmd, hcmd, hmarks⟩
      rcases n with _ | n
      · obtain ⟨-, rfl⟩ := Prod.mk.inj (Option.some.inj hget)
        rcases List.mem_cons.mp hcmd with rfl | hcmd
        · exact absurd (List.mem_singleton.mp hmarks.2) (by decide)
        · obtain rfl := List.mem_singleton.mp hcmd
          exact hmarks
      · cases hget
  · have hcmds := (List.cons.inj (Prod.mk.inj (Option.some.inj hget)).2).1
    cases hcmds

/-- An agent that comes back before its set is deleted is in no set afterwards. -/
theorem not_tracked : ¬∀ (start : ℕ) (hist : History State Event) (s : State),
    Reach step Any (.init start) hist s → Tracked s.reg ∧ SparesTouched hist s := by
  intro h
  obtain ⟨hist, s, hrun, hevents, honline, hf1⟩ :
      ∃ hist s, replay step [] (.init 0)
          (sweptWhile [.send 0 true, .send 0 true,
            .touch (str "t") (str "a") (str "f1"), .send 0 true]) = some (hist, s) ∧
        hist.map Prod.snd =
          (sweptWhile [.send 0 true, .send 0 true,
            .touch (str "t") (str "a") (str "f1"), .send 0 true]).reverse ∧
        s.reg.score (str "t") (str "a") = some 0 ∧
        s.reg.ownedBy (str "a") (str "f1") = false :=
    ⟨_, _, rfl, rfl, rfl, rfl⟩
  have hreach := Reach.start.replay hrun
  obtain ⟨fb, hfb⟩ := (h 0 hist s hreach).1 (str "t") (str "a") (by rw [honline]; rfl)
  -- the only instance the agent was ever touched through has lost it
  obtain ⟨s₀, tid, hmem⟩ := touchedThrough hreach (str "a") fb (Or.inl hfb)
  have htouch := List.mem_map_of_mem (f := Prod.snd) hmem
  rw [hevents] at htouch
  obtain rfl : fb = str "f1" := by
    simp [sweptWhile] at htouch
    tauto
  exact absurd (hf1.symm.trans hfb) (by simp)

end Presence

end Xsiam

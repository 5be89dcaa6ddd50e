import Xsiam.Lib.Grouping
import Xsiam.Presence.Keys

/-!
# Sweeps that fail in part

The calls of a sweep may fail one by one: the lookup of an agent's tenant, and for each
tenant the call that removes its agents and the one that marks them offline. The sweep goes
on, and deletes the set of the instance in the end, regardless of what has failed before.

So the set is no record of what there is still to do. What a sweep has done to each agent
when it is over depends on the calls for that agent alone, and the set is there only if it
could not be read or not be deleted (`Xsiam.Presence.sweep_outcome`).
-/

namespace Xsiam

namespace Presence

open Go Run Grouping

/-! ### The agents of a sweep by tenant -/

/-- The agents whose tenant is found, each with it. -/
def filed (tenantFor : GoString → Option GoString) (agentKeys : List GoString) :
    List (GoString × GoString) :=
  agentKeys.filterMap fun ak =>
    match tenantFor ak with
    | none => none
    | some tid => if tid = [] then none else some (tid, ak)

theorem mem_filed {tenantFor : GoString → Option GoString} {agentKeys : List GoString}
    {tid ak : GoString} : (tid, ak) ∈ filed tenantFor agentKeys ↔
      ak ∈ agentKeys ∧ tenantFor ak = some tid ∧ tid ≠ [] := by
  rw [filed, List.mem_filterMap]
  constructor
  · rintro ⟨ak', hak', heq⟩
    cases htenant : tenantFor ak' with
    | none =>
      rw [htenant] at heq
      exact absurd heq (by simp)
    | some tid' =>
      rw [htenant] at heq
      dsimp only at heq
      split_ifs at heq with hnil
      obtain ⟨rfl, rfl⟩ := Prod.mk.inj (Option.some.inj heq)
      exact ⟨hak', htenant, hnil⟩
  · rintro ⟨hak, htenant, hnil⟩
    refine ⟨ak, hak, ?_⟩
    rw [htenant]
    exact if_neg hnil

/-- The map of a sweep holds the agents under their tenants. -/
theorem buckets_tenantMap (tenantFor : GoString → Option GoString) (agentKeys : List GoString) :
    Buckets (fun tid : GoString => (tenantMap tenantFor agentKeys)[tid]?)
      (filed tenantFor agentKeys) := by
  -- the loop from any map that already holds the pairs filed so far
  have hfold : ∀ (aks : List GoString) (m : GoMap (List GoString))
      (kvs : List (GoString × GoString)), Buckets (fun tid : GoString => m[tid]?) kvs →
      Buckets (fun tid : GoString => (aks.foldl (addToTenant tenantFor) m)[tid]?)
        (kvs ++ filed tenantFor aks) := by
    intro aks
    induction aks with
    | nil =>
      intro m kvs hm
      rw [filed, List.filterMap_nil, List.append_nil]
      exact hm
    | cons ak aks ih =>
      intro m kvs hm
      rw [List.foldl_cons]
      cases htenant : tenantFor ak with
      | none =>
        have hskip : filed tenantFor (ak :: aks) = filed tenantFor aks := by
          rw [filed, List.filterMap_cons_none (by rw [htenant]), filed]
        rw [hskip, addToTenant, htenant]
        exact ih m kvs hm
      | some tid =>
        by_cases hnil : tid = []
        · have hskip : filed tenantFor (ak :: aks) = filed tenantFor aks := by
            rw [filed, List.filterMap_cons_none (by rw [htenant]; exact if_pos hnil), filed]
          rw [hskip, addToTenant, htenant]
          dsimp only
          rw [if_pos hnil]
          exact ih m kvs hm
        · have htake : filed tenantFor (ak :: aks) = (tid, ak) :: filed tenantFor aks := by
            rw [filed, List.filterMap_cons_some (by rw [htenant]; exact if_neg hnil), filed]
          rw [htake, addToTenant, htenant]
          dsimp only
          have hcat : kvs ++ (tid, ak) :: filed tenantFor aks =
              kvs ++ [(tid, ak)] ++ filed tenantFor aks := List.append_cons _ _ _
          rw [if_neg hnil, hcat]
          refine ih _ _ (hm.concat ?_ fun tid' hne => ?_)
          · rw [GoMap.getElem?_insert, if_pos rfl]
          · exact GoMap.getElem?_insert_of_ne hne _
  exact hfold agentKeys ∅ [] (Buckets.nil fun tid => Std.ExtTreeMap.getElem?_empty)

/-! ### What commands have done -/

/-- What some commands have done that succeeded. -/
structure Effect (cmds : List Cmd) (s s' : State) : Prop where
  removed : ∀ tid ak, (∃ cmd ∈ cmds, cmd.Removes tid ak) → s'.reg.score tid ak = none
  kept : ∀ tid ak, (¬∃ cmd ∈ cmds, cmd.Removes tid ak) → s'.reg.score tid ak = s.reg.score tid ak
  owned : ∀ ak fb, s'.reg.ownedBy ak fb = true ↔
    s.reg.ownedBy ak fb = true ∧ Cmd.deleteFBSet fb ∉ cmds
  marked : ∃ marks, s'.offlined = marks ++ s.offlined ∧
    ∀ tid ak, (tid, ak) ∈ marks ↔ ∃ cmd ∈ cmds, cmd.Marks tid ak

namespace Effect

variable {cmds cmds₁ cmds₂ : List Cmd} {s s₁ s₂ : State}

/-- Nothing was done. -/
theorem none (hreg : s₁.reg = s.reg) (hoff : s₁.offlined = s.offlined) : Effect [] s s₁ := by
  refine ⟨fun tid ak hc => ?_, fun tid ak _ => by rw [hreg], fun ak fb => by rw [hreg]; simp,
    [], hoff, by simp⟩
  obtain ⟨cmd, hcmd, -⟩ := hc
  exact absurd hcmd List.not_mem_nil

/-- One command. -/
theorem exec {cmd : Cmd} (htyped : Typed s.reg) : Effect [cmd] s (s.exec cmd) := by
  cases cmd with
  | bulkRemove tenantID agentKeys =>
    -- it takes out the keys of one tenant, and neither marks nor touches a set
    have hscore := Registry.score_bulkRemove_eq htyped tenantID agentKeys
    refine ⟨fun tid ak hc => ?_, fun tid ak hc => ?_, fun ak fb => ?_, [], rfl, ?_⟩
    · obtain ⟨cmd, hcmd, hremoves⟩ := hc
      obtain rfl := List.mem_singleton.mp hcmd
      exact (hscore tid ak).trans (if_pos ⟨hremoves.1.symm, hremoves.2⟩)
    · refine (hscore tid ak).trans (if_neg fun hmem => hc ?_)
      exact ⟨_, List.mem_singleton_self _, hmem.1.symm, hmem.2⟩
    · change (s.reg.bulkRemove tenantID agentKeys).ownedBy ak fb = true ↔ _
      rw [Registry.ownedBy_bulkRemove]
      simp
    · simp [Cmd.Marks]
  | bulkOffline tenantID agentKeys =>
    refine ⟨fun tid ak hc => ?_, fun _ _ _ => rfl, fun ak fb => ?_,
      agentKeys.map (tenantID, ·), rfl, fun tid ak => ?_⟩
    · obtain ⟨cmd, hcmd, hremoves⟩ := hc
      obtain rfl := List.mem_singleton.mp hcmd
      exact hremoves.elim
    · change s.reg.ownedBy ak fb = true ↔ _
      simp
    · simp only [List.mem_map, Prod.mk.injEq, List.mem_singleton, exists_eq_left, Cmd.Marks]
      constructor
      · rintro ⟨ak', hak', htid, rfl⟩
        exact ⟨htid, hak'⟩
      · rintro ⟨htid, hak⟩
        exact ⟨ak, hak, htid, rfl⟩
  | deleteFBSet fbID =>
    refine ⟨fun tid ak hc => ?_, fun tid ak _ => s.reg.score_deleteFBSet tid ak fbID,
      fun ak fb => ?_, [], rfl, ?_⟩
    · obtain ⟨cmd, hcmd, hremoves⟩ := hc
      obtain rfl := List.mem_singleton.mp hcmd
      exact hremoves.elim
    · refine (Registry.ownedBy_deleteFBSet_iff fbID ak fb).trans (and_congr_right fun _ => ?_)
      simp
    · simp [Cmd.Marks]

/-- Some commands and then others. -/
theorem trans (h₁ : Effect cmds₁ s s₁) (h₂ : Effect cmds₂ s₁ s₂) :
    Effect (cmds₁ ++ cmds₂) s s₂ := by
  have hsplit : ∀ P : Cmd → Prop, (∃ cmd ∈ cmds₁ ++ cmds₂, P cmd) ↔
      (∃ cmd ∈ cmds₁, P cmd) ∨ ∃ cmd ∈ cmds₂, P cmd := by
    intro P
    simp only [List.mem_append, or_and_right, exists_or]
  obtain ⟨marks₁, hmarks₁, hiff₁⟩ := h₁.marked
  obtain ⟨marks₂, hmarks₂, hiff₂⟩ := h₂.marked
  refine ⟨fun tid ak hc => ?_, fun tid ak hc => ?_, fun ak fb => ?_, marks₂ ++ marks₁, ?_,
    fun tid ak => ?_⟩
  · by_cases hlater : ∃ cmd ∈ cmds₂, cmd.Removes tid ak
    · exact h₂.removed tid ak hlater
    · rw [h₂.kept tid ak hlater]
      exact h₁.removed tid ak (((hsplit _).mp hc).resolve_right hlater)
  · rw [hsplit, not_or] at hc
    rw [h₂.kept tid ak hc.2, h₁.kept tid ak hc.1]
  · rw [h₂.owned, h₁.owned, List.mem_append, not_or, and_assoc]
  · rw [hmarks₂, hmarks₁, List.append_assoc]
  · rw [List.mem_append, hiff₁, hiff₂, hsplit, or_comm]

end Effect

/-- **A sweep that is left to itself** has done in the end what its commands do that
succeed. -/
theorem replay_sends {n : ℕ} {fbID : GoString} (ok : Cmd → Bool) {cmds : List Cmd} :
    ∀ {hist : History State Event} {s : State}, Typed s.reg → s.sweeps[n]? = some (fbID, cmds) →
      ∃ hist' s', replay step hist s (cmds.map fun cmd => .send n (ok cmd)) = some (hist', s') ∧
        Effect (cmds.filter ok) s s' := by
  induction cmds with
  | nil => exact fun _ _ => ⟨_, _, rfl, Effect.none rfl rfl⟩
  | cons cmd cmds ih =>
    intro hist s htyped hn
    have hlt : n < s.sweeps.length := (List.getElem?_eq_some_iff.mp hn).1
    have hstep : step s (.send n (ok cmd)) = some (if ok cmd then
        State.exec { s with sweeps := s.sweeps.set n (fbID, cmds) } cmd
        else { s with sweeps := s.sweeps.set n (fbID, cmds) }) := by
      rw [step, hn]
    rw [List.map_cons, replay, hstep, Option.bind_some]
    cases hok : ok cmd with
    | false =>
      -- a command that fails is gone all the same: the sweep does not come back to it
      rw [List.filter_cons_of_neg (by simp [hok])]
      obtain ⟨hist', s', hreplay, heffect⟩ :=
        @ih ((s, .send n false) :: hist) { s with sweeps := s.sweeps.set n (fbID, cmds) } htyped
          (List.getElem?_set_self hlt)
      have hnone : Effect [] s { s with sweeps := s.sweeps.set n (fbID, cmds) } := .none rfl rfl
      exact ⟨hist', s', hreplay, hnone.trans heffect⟩
    | true =>
      rw [List.filter_cons_of_pos hok]
      have hfirst : Effect [cmd] s
          (State.exec { s with sweeps := s.sweeps.set n (fbID, cmds) } cmd) := by
        obtain ⟨hremoved, hkept, howned, hmarked⟩ :=
          @Effect.exec { s with sweeps := s.sweeps.set n (fbID, cmds) } cmd htyped
        exact ⟨hremoved, hkept, howned, hmarked⟩
      obtain ⟨hist', s', hreplay, heffect⟩ :=
        @ih ((s, .send n true) :: hist)
          (State.exec { s with sweeps := s.sweeps.set n (fbID, cmds) } cmd)
          (@typed_exec { s with sweeps := s.sweeps.set n (fbID, cmds) } htyped cmd)
          (by rw [State.sweeps_exec]; exact List.getElem?_set_self hlt)
      exact ⟨hist', s', hreplay, hfirst.trans heffect⟩

/-! ### A sweep as a whole -/

/-- Which calls of a sweep succeed, those for agents by tenant. -/
structure SweepOutcomes where
  bulkRemove : GoString → Bool
  bulkOffline : GoString → Bool
  deleteFBSet : Bool

/-- Whether a command succeeds. -/
def SweepOutcomes.ok (o : SweepOutcomes) : Cmd → Bool
  | .bulkRemove tenantID _ => o.bulkRemove tenantID
  | .bulkOffline tenantID _ => o.bulkOffline tenantID
  | .deleteFBSet _ => o.deleteFBSet

/-- A sweep from its first command to its last one, with nothing in between. -/
def wholeSweep (s : State) (fbID : GoString) (ans : SweepAnswers) (o : SweepOutcomes) :
    List Event :=
  .sweepFB fbID ans ::
    (sweepFB ans s.reg fbID).map fun cmd => .send s.sweeps.length (o.ok cmd)

/-- A sweep comes to know an agent of its instance and the tenant of it. -/
structure Found (s : State) (fbID : GoString) (ans : SweepAnswers) (tenantID agentKey : GoString) :
    Prop where
  smembers : ans.smembers = true
  owned : s.reg.ownedBy agentKey fbID = true
  db : ans.db = true
  tenant : ans.tenantForAgentKey agentKey = some tenantID
  named : tenantID ≠ []

theorem mem_sweepTenants {ans : SweepAnswers} {agentKeys : List GoString} {cmd : Cmd} :
    cmd ∈ sweepTenants ans agentKeys ↔ ans.db = true ∧ ∃ tid keys,
      (cmd = .bulkRemove tid keys ∨ cmd = .bulkOffline tid keys) ∧
        keys = under tid (filed ans.tenantForAgentKey agentKeys) ∧ keys ≠ [] := by
  have hentry : ∀ tid keys,
      (tid, keys) ∈ ans.range.entries (tenantMap ans.tenantForAgentKey agentKeys) ↔
        keys = under tid (filed ans.tenantForAgentKey agentKeys) ∧ keys ≠ [] := by
    intro tid keys
    have hbucket : (tenantMap ans.tenantForAgentKey agentKeys)[tid]? = _ :=
      buckets_tenantMap ans.tenantForAgentKey agentKeys tid
    rw [ans.range.mem_entries, hbucket]
    split_ifs with hnil
    · rw [hnil]
      simp
    · constructor
      · intro heq
        obtain rfl := Option.some.inj heq
        exact ⟨rfl, hnil⟩
      · rintro ⟨rfl, -⟩
        rfl
  rw [sweepTenants]
  split_ifs with hdb
  · rw [List.mem_flatMap]
    constructor
    · rintro ⟨⟨tid, keys⟩, hmem, hcmd⟩
      exact ⟨hdb, tid, keys, List.mem_pair.mp hcmd, (hentry tid keys).mp hmem⟩
    · rintro ⟨-, tid, keys, hcmd, hkeys⟩
      exact ⟨(tid, keys), (hentry tid keys).mpr hkeys, List.mem_pair.mpr hcmd⟩
  · simp [hdb]

/-- The commands of a sweep: two for each tenant of the agents that were read, and the
deletion, if the set could be read. -/
theorem mem_sweepFB {ans : SweepAnswers} {reg : Registry} {fbID : GoString} {cmd : Cmd} :
    cmd ∈ sweepFB ans reg fbID ↔ ans.smembers = true ∧ ∃ aks, reg.agentsForFB fbID = some aks ∧
      (cmd = .deleteFBSet fbID ∨ cmd ∈ sweepTenants ans aks) := by
  rw [sweepFB]
  split_ifs with hsmembers
  · cases hagents : reg.agentsForFB fbID with
    | none => simp [hsmembers]
    | some aks =>
      dsimp only
      split_ifs with hnil
      · have hnone : ∀ cmd, cmd ∉ sweepTenants ans [] := by
          intro cmd hmem
          obtain ⟨-, tid, keys, -, rfl, hne⟩ := mem_sweepTenants.mp hmem
          exact hne rfl
        simp [hsmembers, hnil, hnone]
      · simp [hsmembers, or_comm]
  · simp [hsmembers]

/-- Of the commands that succeed, those that name an agent come from the tenant that was
found for it. -/
theorem exists_mem_filter_iff {s : State} {fbID tid ak : GoString} {ans : SweepAnswers}
    {o : SweepOutcomes} {P : Cmd → Prop} {b : Bool} {make : GoString → List GoString → Cmd}
    (hmake : make = Cmd.bulkRemove ∧ b = o.bulkRemove tid ∨
      make = Cmd.bulkOffline ∧ b = o.bulkOffline tid)
    (hP : ∀ cmd, P cmd ↔ ∃ keys, cmd = make tid keys ∧ ak ∈ keys) :
    (∃ cmd ∈ (sweepFB ans s.reg fbID).filter o.ok, P cmd) ↔ Found s fbID ans tid ak ∧ b = true := by
  have hok : ∀ keys, o.ok (make tid keys) = b := by
    intro keys
    rcases hmake with ⟨rfl, rfl⟩ | ⟨rfl, rfl⟩ <;> rfl
  constructor
  · rintro ⟨cmd, hmem, hcmd⟩
    obtain ⟨keys, rfl, hak⟩ := (hP cmd).mp hcmd
    obtain ⟨hsweep, htrue⟩ := List.mem_filter.mp hmem
    rw [hok] at htrue
    obtain ⟨hsmembers, aks, haks, hdel | hmem⟩ := mem_sweepFB.mp hsweep
    · rcases hmake with ⟨rfl, -⟩ | ⟨rfl, -⟩ <;> exact absurd hdel (by simp)
    -- a command for the agents of a tenant: they are those that were filed under it
    obtain ⟨hdb, tid', keys', hcmd', rfl, -⟩ := mem_sweepTenants.mp hmem
    have hsame : tid' = tid ∧ under tid' (filed ans.tenantForAgentKey aks) = keys := by
      rcases hmake with ⟨rfl, -⟩ | ⟨rfl, -⟩ <;> rcases hcmd' with hcmd' | hcmd' <;>
        simp_all
    obtain ⟨rfl, rfl⟩ := hsame
    obtain ⟨hin, htenant, hnamed⟩ := mem_filed.mp (mem_under.mp hak)
    exact ⟨⟨hsmembers, (Redis.Db.mem_smembers haks).mp hin, hdb, htenant, hnamed⟩, htrue⟩
  · rintro ⟨⟨hsmembers, howned, hdb, htenant, hnamed⟩, htrue⟩
    cases haks : s.reg.agentsForFB fbID with
    | none =>
      have hfalse : s.reg.ownedBy ak fbID = false := Redis.Db.sismember_of_smembers_eq_none haks
      exact absurd (hfalse.symm.trans howned) (by simp)
    | some aks =>
      have hin : ak ∈ aks := (Redis.Db.mem_smembers haks).mpr howned
      have hak : ak ∈ under tid (filed ans.tenantForAgentKey aks) :=
        mem_under.mpr (mem_filed.mpr ⟨hin, htenant, hnamed⟩)
      refine ⟨make tid (under tid (filed ans.tenantForAgentKey aks)), List.mem_filter.mpr
        ⟨mem_sweepFB.mpr ⟨hsmembers, aks, haks, Or.inr (mem_sweepTenants.mpr ⟨hdb, tid, _, ?_,
          rfl, List.ne_nil_of_mem hak⟩)⟩, (hok _).trans htrue⟩, (hP _).mpr ⟨_, rfl, hak⟩⟩
      rcases hmake with ⟨rfl, -⟩ | ⟨rfl, -⟩
      · exact Or.inl rfl
      · exact Or.inr rfl

/-- The set is deleted where it could be read, and the deletion succeeds. -/
theorem deleteFBSet_mem_iff {s : State} {fbID fb : GoString} {ans : SweepAnswers}
    {o : SweepOutcomes} : Cmd.deleteFBSet fb ∈ (sweepFB ans s.reg fbID).filter o.ok ↔
      (ans.smembers = true ∧ (s.reg.agentsForFB fbID).isSome) ∧ fb = fbID ∧ o.deleteFBSet = true := by
  rw [List.mem_filter, mem_sweepFB]
  constructor
  · rintro ⟨⟨hsmembers, aks, haks, hcmd⟩, hok⟩
    refine ⟨⟨hsmembers, by rw [haks]; rfl⟩, ?_, hok⟩
    rcases hcmd with hcmd | hcmd
    · exact Cmd.deleteFBSet.inj hcmd
    · obtain ⟨-, tid, keys, hcmd | hcmd, -⟩ := mem_sweepTenants.mp hcmd
      · exact absurd hcmd (by simp)
      · exact absurd hcmd (by simp)
  · rintro ⟨⟨hsmembers, haks⟩, rfl, hok⟩
    obtain ⟨aks, haks⟩ := Option.isSome_iff_exists.mp haks
    exact ⟨⟨hsmembers, aks, haks, Or.inl rfl⟩, hok⟩

/-- **What a sweep has done when it is over**, whatever has failed of it. An agent of the
instance is removed where its tenant was found and that tenant's `BulkRemove` succeeded,
and marked offline where its tenant was found and that tenant's call to the device store
succeeded; nothing else changes for any agent. The set of the instance is deleted
regardless of all that, unless it could not be read or the deletion itself failed, and
then it has all its members. -/
theorem sweep_outcome {start : ℕ} {server : Redis.Server GoString}
    {hist : History State Event} {s : State} (h : Reach step Any (.init start server) hist s)
    {fbID : GoString} (hdead : fbID ∈ s.dead) (ans : SweepAnswers) (o : SweepOutcomes) :
    ∃ hist' s', replay step hist s (wholeSweep s fbID ans o) = some (hist', s') ∧
      (∀ tid ak, Found s fbID ans tid ak ∧ o.bulkRemove tid = true → s'.reg.score tid ak = none) ∧
      (∀ tid ak, ¬(Found s fbID ans tid ak ∧ o.bulkRemove tid = true) →
        s'.reg.score tid ak = s.reg.score tid ak) ∧
      (∃ marks, s'.offlined = marks ++ s.offlined ∧ ∀ tid ak,
        (tid, ak) ∈ marks ↔ Found s fbID ans tid ak ∧ o.bulkOffline tid = true) ∧
      ∀ ak fb, s'.reg.ownedBy ak fb = true ↔ s.reg.ownedBy ak fb = true ∧
        (fb = fbID → ans.smembers = false ∨ o.deleteFBSet = false) := by
  have htyped := Typed.ofReach h
  have hstep : step s (.sweepFB fbID ans) = some { s with
      dead := s.dead.erase fbID
      sweeps := s.sweeps ++ [(fbID, sweepFB ans s.reg fbID)] } := if_pos hdead
  obtain ⟨hist', s', hreplay, heffect⟩ := @replay_sends s.sweeps.length fbID o.ok
    (sweepFB ans s.reg fbID) ((s, .sweepFB fbID ans) :: hist) { s with
      dead := s.dead.erase fbID
      sweeps := s.sweeps ++ [(fbID, sweepFB ans s.reg fbID)] } htyped (by simp)
  obtain ⟨hremoved, hkept, howned, marks, hmarks, hiff⟩ := heffect
  have hremoves : ∀ tid ak, (∃ cmd ∈ (sweepFB ans s.reg fbID).filter o.ok, cmd.Removes tid ak) ↔
      Found s fbID ans tid ak ∧ o.bulkRemove tid = true := by
    intro tid ak
    refine exists_mem_filter_iff (Or.inl ⟨rfl, rfl⟩) fun cmd => ?_
    cases cmd <;> simp [Cmd.Removes, eq_comm]
  have hmarked : ∀ tid ak, (∃ cmd ∈ (sweepFB ans s.reg fbID).filter o.ok, cmd.Marks tid ak) ↔
      Found s fbID ans tid ak ∧ o.bulkOffline tid = true := by
    intro tid ak
    refine exists_mem_filter_iff (Or.inr ⟨rfl, rfl⟩) fun cmd => ?_
    cases cmd <;> simp [Cmd.Marks, eq_comm]
  refine ⟨hist', s', ?_, fun tid ak hc => hremoved tid ak ((hremoves tid ak).mpr hc),
    fun tid ak hc => hkept tid ak fun hc' => hc ((hremoves tid ak).mp hc'),
    ⟨marks, hmarks, fun tid ak => (hiff tid ak).trans (hmarked tid ak)⟩, fun ak fb => ?_⟩
  · rw [wholeSweep, replay, hstep]
    exact hreplay
  · rw [howned, deleteFBSet_mem_iff]
    refine and_congr_right fun hfb => ?_
    by_cases heq : fb = fbID
    · -- a set with a member can be read
      have hread : (s.reg.agentsForFB fbID).isSome := by
        rw [Option.isSome_iff_ne_none]
        intro hnone
        have hfalse := Redis.Db.sismember_of_smembers_eq_none (m := ak) hnone
        rw [heq] at hfb
        exact absurd (hfalse.symm.trans hfb) (by simp)
      simp only [hread, heq, and_true, true_and, not_and, Bool.not_eq_true, forall_const]
      cases ans.smembers <;> simp
    · simp [heq]

/-- An agent comes through `f1`, which is found dead. -/
def f1IsDead : List Event :=
  [.touch (str "t") (str "a") (str "f1"), .scan fun _ => true, .askLease (str "f1")]

/-- The tenant of every agent is found. -/
def allOfT : SweepAnswers := { tenantForAgentKey := fun _ => some (str "t") }

/-- The device store cannot be reached. -/
def storeDown : SweepOutcomes := ⟨fun _ => true, fun _ => false, true⟩

theorem sweep_outcome_storeDown :
    ∃ hist s hist' s', replay step [] (.init 0) f1IsDead = some (hist, s) ∧
      replay step hist s (wholeSweep s (str "f1") allOfT storeDown) = some (hist', s') ∧
      s'.reg.score (str "t") (str "a") = none ∧
      ¬s'.reg.ownedBy (str "a") (str "f1") = true := by
  obtain ⟨hist, s, hrun, hdead, howned⟩ :
      ∃ hist s, replay step [] (.init 0) f1IsDead = some (hist, s) ∧ s.dead = [str "f1"] ∧
        s.reg.ownedBy (str "a") (str "f1") = true := ⟨_, _, rfl, rfl, rfl⟩
  have hmem : str "f1" ∈ s.dead := by
    rw [hdead]
    exact List.mem_singleton_self _
  obtain ⟨hist', s', hsweep, hremoved, -, -, hsets⟩ :=
    sweep_outcome (Reach.start.replay hrun) hmem allOfT storeDown
  refine ⟨hist, s, hist', s', hrun, hsweep, hremoved _ _ ⟨⟨rfl, howned, rfl, rfl, by decide⟩, rfl⟩,
    fun hc => ?_⟩
  rcases ((hsets _ _).mp hc).2 rfl with hfalse | hfalse
  · exact absurd hfalse (by decide)
  · exact absurd hfalse (by decide)

/-- A device that could not be marked offline is in no set afterwards. -/
theorem not_retried : ¬∀ (start : ℕ) (hist : History State Event) (s : State),
    Reach step Any (.init start) hist s → ∀ fbID ∈ s.dead, ∀ ans o hist' s',
      replay step hist s (wholeSweep s fbID ans o) = some (hist', s') →
      ∀ ak, s.reg.ownedBy ak fbID = true →
        ¬((∀ tid, s'.reg.score tid ak = none) ∧ ∃ tid, (tid, ak) ∈ s'.offlined) →
          s'.reg.ownedBy ak fbID = true := by
  intro h
  obtain ⟨hist, s, hrun, hdead, howned, hist', s', hsweep, hoff, hgone⟩ :
      ∃ hist s, replay step [] (.init 0) f1IsDead = some (hist, s) ∧ s.dead = [str "f1"] ∧
        s.reg.ownedBy (str "a") (str "f1") = true ∧ ∃ hist' s',
          replay step hist s (wholeSweep s (str "f1") allOfT storeDown) = some (hist', s') ∧
          s'.offlined = [] ∧ s'.reg.ownedBy (str "a") (str "f1") = false :=
    ⟨_, _, rfl, rfl, rfl, _, _, rfl, rfl, rfl⟩
  have hmem : str "f1" ∈ s.dead := by
    rw [hdead]
    exact List.mem_singleton_self _
  have hkept := h 0 hist s (Reach.start.replay hrun) _ hmem allOfT storeDown hist' s' hsweep
    (str "a") howned fun hc => by
      obtain ⟨tid, hin⟩ := hc.2
      rw [hoff] at hin
      exact absurd hin List.not_mem_nil
  exact absurd (hgone.symm.trans hkept) (by simp)

end Presence

end Xsiam

import Xsiam.Lib.Run
import Xsiam.Threat.Service

/-!
# The life of detection rules

The table `RuleStatusTransitions` says which changes of status there are. Only `TransitionStatus`
looks at it: a patch writes any status, and so does the bulk toggle, one of whose statuses the table
does not even have. In a run every change of status follows an edge of the table, from the initial
draft on, and every status is one of it, exactly if no patch and no toggle leaves the table
(`Xsiam.Threat.followsTable_iff_careful`).
-/

namespace Xsiam

namespace Threat

open Go

open Run

/-! ### Changes of status -/

/-- The table has an edge. -/
def Edge (u v : Value) : Prop :=
  ∃ status target, u = .str status ∧ v = .str target ∧ target ∈ ruleStatusTransitions status

/-- What becomes of a rule: it is created as a draft, or keeps its status, or its status follows an
edge. -/
def StatusStep : Option Doc → Option Doc → Prop
  | _, none => True
  | none, some d' => d'.status = .str (str "draft")
  | some d, some d' => d'.status = d.status ∨ Edge d.status d'.status

theorem StatusStep.refl (d : Option Doc) : StatusStep d d := by
  cases d with
  | none => trivial
  | some d => exact Or.inl rfl

variable {σ : Type}

/-- All rules do. -/
def Follows (s s' : State σ) : Prop := ∀ key : GoString, StatusStep s.rules[key]? s'.rules[key]?

/-- A status of the table. -/
def Listed (d : Doc) : Prop := ∃ status ∈ ruleStatuses, d.status = .str status

/-- All rules have one. -/
def ListedAll (s : State σ) : Prop := ∀ (key : GoString) (d : Doc), s.rules[key]? = some d → Listed d

theorem mem_ruleStatuses {status target : GoString} (h : target ∈ ruleStatusTransitions status) :
    target ∈ ruleStatuses := by
  rw [ruleStatusTransitions] at h
  rw [ruleStatuses]
  split_ifs at h
  · simp only [List.mem_cons, List.not_mem_nil, or_false] at h ⊢
    tauto
  · simp only [List.mem_cons, List.not_mem_nil, or_false] at h ⊢
    tauto
  · simp only [List.mem_cons, List.not_mem_nil, or_false] at h ⊢
    tauto
  · simp only [List.mem_cons, List.not_mem_nil, or_false] at h ⊢
    tauto
  · exact absurd h List.not_mem_nil

theorem Follows.listedAll {s s' : State σ} (h : Follows s s') (hs : ListedAll s) : ListedAll s' := by
  intro key d' hd'
  have hstep := h key
  rw [hd'] at hstep
  cases hd : s.rules[key]? with
  | none =>
    rw [hd] at hstep
    exact ⟨str "draft", by simp [ruleStatuses], hstep⟩
  | some d =>
    rw [hd] at hstep
    rcases hstep with hsame | ⟨status, target, -, htarget, hmem⟩
    · obtain ⟨status, hstatus, heq⟩ := hs key d hd
      exact ⟨status, hstatus, hsame.trans heq⟩
    · exact ⟨target, mem_ruleStatuses hmem, htarget⟩

/-! ### Careful requests -/

/-- A status that may be written over a rule. -/
def MayWrite (d : Doc) (v : Value) : Prop := v = d.status ∨ Edge d.status v

/-- A patch and a toggle write a status only where the table has an edge to it, or where it is the
status already. -/
def Careful (s : State σ) (req : Request × Answers) : Prop :=
  match req.1 with
  | .update key patch => req.2.write 0 = true →
      ∀ d, s.rules[key]? = some d → ∀ v, patch.status = some v → MayWrite d v
  | .bulkToggle action keys ids => ∀ status, toggleStatus action = some status →
      ∀ key, Toggled req.2.write (if keys = [] then ids else keys) 0 key →
        ∀ d, s.rules[key]? = some d → MayWrite d (.str status)
  | _ => True

section Steps

variable {lake : DataLake σ} {lib : StdLib} {webhookURL : GoString} {s s' : State σ}

theorem follows_of_rules_eq (h : s'.rules = s.rules) : Follows s s' := by
  intro key
  rw [h]
  exact .refl _

theorem follows_create (key : GoString) (content : RuleContent) (ans : Answers) :
    Follows s (create s key content ans) := by
  rw [create]
  split_ifs with hnew
  · intro k
    show StatusStep _ (s.rules.insert key _)[k]?
    rw [GoMap.getElem?_insert]
    split_ifs with hk
    · rw [hk, hnew.2]
      exact rfl
    · exact .refl _
  · exact follows_of_rules_eq rfl

/-- A status with an edge out of it was read as it is stored. -/
theorem edge_of_decodeStatus {v : Value} {status target : GoString} (h : decodeStatus v = some status)
    (hmem : target ∈ ruleStatusTransitions status) : Edge v (.str target) := by
  have hv : v = .str status := by
    cases v with
    | str st => exact congrArg _ (Option.some.inj h)
    | null =>
      obtain rfl := Option.some.inj h
      have hnone : ruleStatusTransitions [] = [] := rfl
      rw [hnone] at hmem
      exact absurd hmem List.not_mem_nil
    | _ => exact absurd h (by simp [decodeStatus])
  exact ⟨status, target, hv, rfl, hmem⟩

/-- **`TransitionStatus` follows the table.** -/
theorem follows_transitionStatus (key target : GoString) (ans : Answers) :
    Follows s (transitionStatus lake lib webhookURL s key target ans) := by
  rw [transitionStatus]
  split
  · exact follows_of_rules_eq rfl
  · next status content hget =>
    split_ifs with hmem
    · split
      · exact follows_of_rules_eq rfl
      · next rules hupdate =>
        intro k
        show StatusStep _ rules[k]?
        rw [getElem?_update hupdate]
        split_ifs with hk
        · obtain ⟨d, hd, hstatus, -⟩ := status_of_getByID hget
          rw [hk, hd, Option.map_some]
          exact Or.inr (edge_of_decodeStatus hstatus hmem)
        · exact .refl _
    · exact follows_of_rules_eq rfl

theorem follows_delete (key : GoString) (ans : Answers) : Follows s (delete lake s key ans) := by
  rw [delete]
  split
  · exact follows_of_rules_eq rfl
  · intro k
    show StatusStep _ (if ans.write 0 = true then s.rules.erase key else s.rules)[k]?
    split_ifs
    · rw [GoMap.getElem?_erase]
      split_ifs
      · trivial
      · exact .refl _
    · exact .refl _

/-- **A patch follows the table exactly if the status it writes does.** -/
theorem follows_update_iff (key : GoString) (patch : Patch) (write : Bool) :
    Follows s { s with rules := (update s.rules key patch write).getD s.rules } ↔
      (write = true → ∀ d, s.rules[key]? = some d → ∀ v, patch.status = some v → MayWrite d v) := by
  have hstep : ∀ k : GoString, StatusStep s.rules[k]? ((update s.rules key patch write).getD s.rules)[k]? ↔
      (write = true → k = key → ∀ d, s.rules[key]? = some d → ∀ v, patch.status = some v →
        MayWrite d v) := by
    intro k
    rw [getElem?_update_getD]
    split_ifs with hk
    · obtain ⟨hwrite, rfl⟩ := hk
      cases hd : s.rules[k]? with
      | none => exact iff_of_true trivial fun _ _ d hd' => absurd hd' (by simp)
      | some d =>
        simp only [hwrite, Option.some.injEq, forall_true_left, forall_eq', Option.map_some]
        show (patch.status.getD d.status = d.status ∨ Edge d.status (patch.status.getD d.status)) ↔ _
        cases patch.status with
        | none => simp
        | some v => simp [MayWrite]
    · refine iff_of_true (.refl _) fun hwrite heq => absurd ⟨hwrite, heq⟩ hk
  rw [Follows, forall_congr' hstep]
  exact ⟨fun h hwrite => h key hwrite rfl, fun h k hwrite _ => h hwrite⟩

/-- **The bulk toggle follows the table exactly if the status it writes does**, for every rule that
it reaches. -/
theorem follows_bulkToggle_iff (action : GoString) (keys ids : List GoString) (ans : Answers) :
    Follows s (bulkToggle s action keys ids ans) ↔ Careful s (.bulkToggle action keys ids, ans) := by
  rw [bulkToggle]
  dsimp only [Careful]
  cases toggleStatus action with
  | none => exact iff_of_true (follows_of_rules_eq rfl) fun status h => absurd h (by simp)
  | some status =>
    simp only [Option.some.injEq, forall_eq']
    refine forall_congr' fun k => ?_
    show StatusStep _ (toggleAll ans.write status _ 0 s.rules)[k]? ↔ _
    obtain ⟨hpos, hneg⟩ := @getElem?_toggleAll ans.write status (if keys = [] then ids else keys) 0
      s.rules k
    by_cases htoggled : Toggled ans.write (if keys = [] then ids else keys) 0 k
    · rw [hpos htoggled]
      simp only [htoggled, forall_true_left]
      cases s.rules[k]? with
      | none => exact iff_of_true trivial fun d hd => absurd hd (by simp)
      | some d =>
        simp only [Option.some.injEq, forall_eq']
        exact Iff.rfl
    · rw [hneg htoggled]
      exact iff_of_true (.refl _) fun h => absurd h htoggled

/-- **A request follows the table exactly if it is careful.** -/
theorem follows_iff_careful {req : Request × Answers}
    (h : handle lake lib webhookURL s req = some s') : Follows s s' ↔ Careful s req := by
  obtain ⟨req, ans⟩ := req
  cases req with
  | create key content =>
    obtain rfl := Option.some.inj h
    exact iff_of_true (follows_create key content ans) trivial
  | update key patch =>
    obtain rfl := Option.some.inj h
    exact follows_update_iff key patch (ans.write 0)
  | bulkToggle action keys ids =>
    obtain rfl := Option.some.inj h
    exact follows_bulkToggle_iff action keys ids ans
  | transitionStatus key target =>
    obtain rfl := Option.some.inj h
    exact iff_of_true (follows_transitionStatus key target ans) trivial
  | delete key =>
    obtain rfl := Option.some.inj h
    exact iff_of_true (follows_delete key ans) trivial

/-! ### Runs -/

/-- In a run every change of status follows an edge of the table, from the initial status on, and
every status is one of it. -/
structure FollowsTable (lake : DataLake σ) (lib : StdLib) (webhookURL : GoString)
    (hist : History (State σ) (Request × Answers)) (s : State σ) : Prop where
  changes : ∀ p ∈ hist, ∀ s', handle lake lib webhookURL p.1 p.2 = some s' → Follows p.1 s'
  listed : ListedAll s
  listedBefore : ∀ p ∈ hist, ListedAll p.1

/-- **The statuses of a run follow the table exactly if every request is careful.** -/
theorem followsTable_iff_careful {hist : History (State σ) (Request × Answers)}
    (h : Reach (handle lake lib webhookURL) Any (.init lake) hist s) :
    FollowsTable lake lib webhookURL hist s ↔ ∀ p ∈ hist, Careful p.1 p.2 := by
  induction h with
  | start =>
    refine iff_of_true ⟨fun p hp => absurd hp List.not_mem_nil, fun key d hd => ?_,
      fun p hp => absurd hp List.not_mem_nil⟩ fun p hp => absurd hp List.not_mem_nil
    exact absurd hd (by simp [State.init])
  | @next hist s s' req hreach _ hstep ih =>
    rw [List.forall_mem_cons, ← ih, ← follows_iff_careful hstep]
    constructor
    · intro h
      have hchanges := List.forall_mem_cons.mp h.changes
      have hbefore := List.forall_mem_cons.mp h.listedBefore
      exact ⟨hchanges.1 s' hstep, hchanges.2, hbefore.1, hbefore.2⟩
    · rintro ⟨hfollows, h⟩
      refine ⟨List.forall_mem_cons.mpr ⟨fun s₁ hs₁ => ?_, h.changes⟩, hfollows.listedAll h.listed,
        List.forall_mem_cons.mpr ⟨h.listed, h.listedBefore⟩⟩
      rw [← Option.some.inj (hstep.symm.trans hs₁)]
      exact hfollows

end Steps

/-! ### Two runs -/

theorem followsTable_iff_careful_activated :
    ∃ hist s, replay (handle mapLake literalLib []) [] (State.init mapLake)
        [(.create (str "1") ruleR, {}), (.transitionStatus (str "1") (str "testing"), {}),
          (.transitionStatus (str "1") (str "active"), {})] = some (hist, s) ∧
      FollowsTable mapLake literalLib [] hist s := by
  obtain ⟨hist, s, s₀, s₁, s₂, hrun, hhist⟩ : ∃ hist s s₀ s₁ s₂,
      replay (handle mapLake literalLib []) [] (State.init mapLake)
        [(.create (str "1") ruleR, {}), (.transitionStatus (str "1") (str "testing"), {}),
          (.transitionStatus (str "1") (str "active"), {})] = some (hist, s) ∧
      hist = [(s₂, (.transitionStatus (str "1") (str "active"), {})),
        (s₁, (.transitionStatus (str "1") (str "testing"), {})),
        (s₀, (.create (str "1") ruleR, {}))] :=
    ⟨_, _, _, _, _, rfl, rfl⟩
  refine ⟨hist, s, hrun, (followsTable_iff_careful (Reach.start.replay hrun)).mpr ?_⟩
  rw [hhist]
  exact List.forall_mem_cons.mpr ⟨trivial, List.forall_mem_cons.mpr ⟨trivial,
    List.forall_mem_singleton.mpr trivial⟩⟩

/-- A patch makes a draft active. -/
theorem not_followsTable :
    ¬∀ (hist : History (State (GoMap GoString)) (Request × Answers)) (s : State (GoMap GoString)),
      Reach (handle mapLake literalLib []) Any (State.init mapLake) hist s →
        FollowsTable mapLake literalLib [] hist s := by
  intro h
  obtain ⟨hist, s, s₁, s₀, d, d', hrun, hhist, hstep, hd, hd', hbefore, hafter⟩ :
      ∃ hist s s₁ s₀ d d', replay (handle mapLake literalLib []) [] (State.init mapLake)
        [(.create (str "1") ruleR, {}),
          (.update (str "1") { status := some (.str (str "active")) }, {})] = some (hist, s) ∧
      hist = [(s₁, (.update (str "1") { status := some (.str (str "active")) }, {})),
        (s₀, (.create (str "1") ruleR, {}))] ∧
      handle mapLake literalLib [] s₁
        (.update (str "1") { status := some (.str (str "active")) }, {}) = some s ∧
      s₁.rules[str "1"]? = some d ∧ s.rules[str "1"]? = some d' ∧
      d.status = .str (str "draft") ∧ d'.status = .str (str "active") :=
    ⟨_, _, _, _, _, _, rfl, rfl, rfl, rfl, rfl, rfl, rfl⟩
  have hfollows := (h hist s (Reach.start.replay hrun)).changes _ (hhist ▸ List.mem_cons_self) s hstep
    (str "1")
  rw [hd, hd'] at hfollows
  rcases hfollows with hsame | ⟨status, target, hstatus, htarget, hmem⟩
  · rw [hbefore, hafter] at hsame
    exact absurd hsame (by decide)
  · rw [hbefore] at hstatus
    rw [hafter] at htarget
    rw [← Value.str.inj hstatus, ← Value.str.inj htarget] at hmem
    exact absurd hmem (by decide)

end Threat

end Xsiam

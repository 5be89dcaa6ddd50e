import Xsiam.Lib.Directory
import Xsiam.Lib.Run
import Xsiam.Threat.Service

/-!
# Rules and their saved searches

The data lake is to hold one saved search for each active rule, under its name and with its query, and
no other (`Xsiam.Threat.Deployed`). The saved searches are a directory of the rules that are active
(`Directory.Right`), and each request does with it what one of the steps there does.

Only `TransitionStatus` and `Delete` write the data lake. A patch or a toggle that makes a rule
active, or takes it out, or renames it, or changes its query, leaves the data lake as it was; and
rules may share a name, in which case one of them is registered in place of the other, or deleted
with it. In a run the data lake is right in all states exactly if no request does one of these
things (`Xsiam.Threat.deployed_iff_tidy`).
-/

namespace Xsiam

namespace Threat

open Go

open Run

/-! ### The active rules -/

/-- What is active of a document: a rule, if it can be decoded. -/
def Doc.inForce (d : Doc) : Option (Option RuleContent) :=
  if d.status = .str (str "active") then some d.content else none

/-- The active rules, by their keys. -/
def inForce (rules : GoMap Doc) (key : GoString) : Option (Option RuleContent) :=
  rules[key]?.bind Doc.inForce

/-- The name of an active rule. -/
def ruleName (rule : Option RuleContent) : Option GoString := rule.map (·.name)

/-- A query is one of those an active rule stands for. -/
def GoodQuery (lib : StdLib) (rule : Option RuleContent) (q : GoString) : Prop :=
  ∃ content, rule = some content ∧ RuleQuery lib content q

variable {σ : Type} {lake : DataLake σ} {lib : StdLib} {webhookURL : GoString} {s s' : State σ}

/-- **The data lake holds exactly one saved search for each active rule**, under its name and with
its query. -/
def Deployed (lake : DataLake σ) (lib : StdLib) (s : State σ) : Prop :=
  Directory.Right ruleName (GoodQuery lib) (inForce s.rules) (lake.find s.lake)

theorem deployed_init : Deployed lake lib (.init lake) :=
  Directory.right_empty (fun k => by simp [inForce, State.init]) lake.find_empty

/-- A change of one rule. -/
theorem inForce_eq_update {rules rules' : GoMap Doc} {key : GoString}
    (h : ∀ k : GoString, k ≠ key → rules'[k]? = rules[k]?) :
    inForce rules' = Function.update (inForce rules) key (inForce rules' key) := by
  funext k
  rw [Function.update_apply]
  split_ifs with hk
  · rw [hk]
  · rw [inForce, h k hk, inForce]

/-- A change that leaves active what was active. -/
theorem inForce_eq {rules rules' : GoMap Doc} {key : GoString}
    (h : ∀ k : GoString, k ≠ key → rules'[k]? = rules[k]?)
    (hkey : inForce rules' key = inForce rules key) : inForce rules' = inForce rules := by
  rw [inForce_eq_update h, hkey, Function.update_eq_self]

/-! ### The table -/

theorem status_of_edge_active {status : GoString} (h : str "active" ∈ ruleStatusTransitions status) :
    status ≠ str "active" := by
  rintro rfl
  exact absurd h (by decide)

theorem target_of_active {target : GoString} (h : target ∈ ruleStatusTransitions (str "active")) :
    target = str "disabled" := by
  have htable : ruleStatusTransitions (str "active") = [str "disabled"] := by decide
  rw [htable] at h
  exact List.mem_singleton.mp h

theorem status_of_edge_disabled {status : GoString}
    (h : str "disabled" ∈ ruleStatusTransitions status) : status = str "active" := by
  rw [ruleStatusTransitions] at h
  split_ifs at h with _ _ hactive
  · exact absurd h (by decide)
  · exact absurd h (by decide)
  · exact hactive
  · exact absurd h (by decide)
  · exact absurd h List.not_mem_nil

/-! ### Tidy requests -/

/-- No active rule has a name. -/
def NameFree (rules : GoMap Doc) (name : GoString) : Prop :=
  ∀ key content, inForce rules key = some (some content) → content.name ≠ name

/-- What a request must not do: change what is active, or a name or query that is, without the
data lake, or touch the saved search of another rule. -/
def Tidy (lake : DataLake σ) (lib : StdLib) (s : State σ) (req : Request × Answers) : Prop :=
  match req.1 with
  | .create _ _ => True
  | .update key patch => req.2.write 0 = true → ∀ d, s.rules[key]? = some d →
      Directory.Keeps ruleName (GoodQuery lib) (lake.find s.lake) d.inForce (patch.apply d).inForce
  | .bulkToggle action keys ids => ∀ status, toggleStatus action = some status →
      ∀ key, Toggled req.2.write (if keys = [] then ids else keys) 0 key →
        ∀ d, s.rules[key]? = some d → (d.status = .str (str "active") ↔ status = str "active")
  | .transitionStatus key target => ∀ status content,
      getByID s.rules key req.2.read = some (status, content) →
        target ∈ ruleStatusTransitions status → req.2.write 0 = true →
          target = str "active" ∨ target = str "deprecated" → NameFree s.rules content.name
  | .delete key => ∀ content, getByID s.rules key req.2.read = some (str "active", content) →
      req.2.write 0 = true

theorem Deployed.nameFree_iff (h : Deployed lake lib s) {name : GoString} :
    lake.find s.lake name = none ↔ NameFree s.rules name := by
  rw [h.find_eq_none_iff]
  constructor
  · intro hall key content hkey hname
    exact hall key (some content) hkey (congrArg some hname)
  · intro hfree key rule hkey hname
    obtain ⟨content, rfl, hcontent⟩ := Option.map_eq_some_iff.mp hname
    exact hfree key content hkey hcontent

/-! ### What each request does to the directory -/

theorem inForce_create (key : GoString) (content : RuleContent) (ans : Answers) :
    inForce (create s key content ans).rules = inForce s.rules := by
  rw [create]
  split_ifs with hnew
  · refine @inForce_eq _ _ key (fun k hk => GoMap.getElem?_insert_of_ne hk _) ?_
    rw [inForce, GoMap.getElem?_insert, if_pos rfl, inForce, hnew.2]
    rfl
  · rfl

theorem deployed_update_iff (h : Deployed lake lib s) (key : GoString) (patch : Patch) (write : Bool) :
    Deployed lake lib { s with rules := (update s.rules key patch write).getD s.rules } ↔
      (write = true → ∀ d, s.rules[key]? = some d →
        Directory.Keeps ruleName (GoodQuery lib) (lake.find s.lake) d.inForce
          (patch.apply d).inForce) := by
  cases hupdate : update s.rules key patch write with
  | none =>
    refine iff_of_true h fun hwrite d hd => ?_
    rw [update, if_pos hwrite, hd] at hupdate
    exact absurd hupdate (by simp)
  | some rules =>
    have hrules := getElem?_update hupdate
    obtain ⟨hwrite, d, hd⟩ : write = true ∧ ∃ d, s.rules[key]? = some d := by
      rw [update] at hupdate
      split_ifs at hupdate with hwrite
      obtain ⟨d, hd, -⟩ := Option.map_eq_some_iff.mp hupdate
      exact ⟨hwrite, d, hd⟩
    have hkey : inForce rules key = (patch.apply d).inForce := by
      rw [inForce, hrules, if_pos rfl, hd]
      rfl
    have hold : inForce s.rules key = d.inForce := by
      rw [inForce, hd]
      rfl
    rw [Option.getD_some, Deployed,
      @inForce_eq_update s.rules rules key fun k hk => by rw [hrules, if_neg hk], hkey,
      Directory.right_update_iff h, hold, hd]
    simp only [hwrite, Option.some.injEq, forall_true_left, forall_eq']

/-- The bulk toggle leaves active what was active exactly if every rule it reaches was active
already, or not, as the status it writes is. -/
theorem inForce_toggleAll_iff {write : ℕ → Bool} {status : GoString} {keys : List GoString}
    {rules : GoMap Doc} :
    inForce (toggleAll write status keys 0 rules) = inForce rules ↔
      ∀ key, Toggled write keys 0 key → ∀ d, rules[key]? = some d →
        (d.status = .str (str "active") ↔ status = str "active") := by
  have hkey : ∀ key, inForce (toggleAll write status keys 0 rules) key = inForce rules key ↔
      (Toggled write keys 0 key → ∀ d, rules[key]? = some d →
        (d.status = .str (str "active") ↔ status = str "active")) := by
    intro key
    obtain ⟨hpos, hneg⟩ := @getElem?_toggleAll write status keys 0 rules key
    by_cases htoggled : Toggled write keys 0 key
    · rw [inForce, hpos htoggled, inForce]
      simp only [htoggled, forall_true_left]
      cases rules[key]? with
      | none => exact iff_of_true rfl fun d hd => absurd hd (by simp)
      | some d =>
        simp only [Option.map_some, Option.bind_some, Option.some.injEq, forall_eq', Doc.inForce,
          Value.str.injEq]
        by_cases hactive : d.status = .str (str "active")
        · by_cases hstatus : status = str "active"
          · simp [hactive, hstatus]
          · simp [hactive, hstatus]
        · by_cases hstatus : status = str "active"
          · simp [hactive, hstatus]
          · simp [hactive, hstatus]
    · rw [inForce, hneg htoggled]
      exact iff_of_true rfl fun h => absurd h htoggled
  rw [funext_iff]
  exact forall_congr' hkey

theorem deployed_bulkToggle_iff (h : Deployed lake lib s) (action : GoString)
    (keys ids : List GoString) (ans : Answers) :
    Deployed lake lib (bulkToggle s action keys ids ans) ↔
      Tidy lake lib s (.bulkToggle action keys ids, ans) := by
  rw [bulkToggle]
  dsimp only [Tidy]
  cases haction : toggleStatus action with
  | none => exact iff_of_true h fun status h => absurd h (by simp)
  | some status =>
    simp only [Option.some.injEq, forall_eq']
    generalize (if keys = [] then ids else keys) = reached
    have hsame := @inForce_toggleAll_iff ans.write status reached s.rules
    show Directory.Right _ _ (inForce (toggleAll ans.write status reached 0 s.rules)) _ ↔ _
    rw [← hsame]
    by_cases hactive : status = str "active"
    · -- no rule goes, so the directory stays right if none comes
      refine Directory.right_grow_iff h fun k rule hk => ?_
      obtain ⟨hpos, hneg⟩ := @getElem?_toggleAll ans.write status reached 0 s.rules k
      by_cases htoggled : Toggled ans.write reached 0 k
      · obtain ⟨d, hd, hforce⟩ := Option.bind_eq_some_iff.mp hk
        rw [Doc.inForce] at hforce
        split_ifs at hforce
        rw [inForce, hpos htoggled, hd, Option.map_some, Option.bind_some, Doc.inForce,
          if_pos (congrArg Value.str hactive), ← Option.some.inj hforce]
      · rw [inForce, hneg htoggled]
        exact hk
    · -- no rule comes, so the directory stays right if none goes
      refine Directory.right_shrink_iff h fun k rule hk => ?_
      obtain ⟨hpos, hneg⟩ := @getElem?_toggleAll ans.write status reached 0 s.rules k
      by_cases htoggled : Toggled ans.write reached 0 k
      · -- a rule that is toggled is not active
        rw [inForce, hpos htoggled] at hk
        obtain ⟨d, hd, hforce⟩ := Option.bind_eq_some_iff.mp hk
        obtain ⟨d₀, -, rfl⟩ := Option.map_eq_some_iff.mp hd
        rw [Doc.inForce, if_neg fun heq => hactive (Value.str.inj heq)] at hforce
        exact absurd hforce (by simp)
      · rw [inForce, hneg htoggled] at hk
        exact hk

/-- A rule that was read as active is. -/
theorem status_eq_of_decodeStatus {v : Value} (h : decodeStatus v = some (str "active")) :
    v = .str (str "active") := by
  cases v with
  | str st => exact congrArg _ (Option.some.inj h)
  | null => exact absurd (Option.some.inj h) (by decide)
  | _ => exact absurd h (by simp [decodeStatus])

/-- What is in force of a rule that was read. -/
theorem inForce_of_getByID {rules : GoMap Doc} {key status : GoString} {content : RuleContent}
    {read : Bool} (h : getByID rules key read = some (status, content)) :
    inForce rules key = if status = str "active" then some (some content) else none := by
  obtain ⟨d, hd, hstatus, hcontent⟩ := status_of_getByID h
  rw [inForce, hd, Option.bind_some, Doc.inForce]
  by_cases hactive : status = str "active"
  · rw [if_pos (status_eq_of_decodeStatus (hactive ▸ hstatus)), if_pos hactive, hcontent]
  · rw [if_neg, if_neg hactive]
    rintro heq
    rw [heq] at hstatus
    exact hactive (Option.some.inj hstatus).symm

theorem deployed_transitionStatus_iff (h : Deployed lake lib s) (key target : GoString)
    (ans : Answers) :
    Deployed lake lib (transitionStatus lake lib webhookURL s key target ans) ↔
      Tidy lake lib s (.transitionStatus key target, ans) := by
  rw [transitionStatus]
  dsimp only [Tidy]
  cases hget : getByID s.rules key ans.read with
  | none => exact iff_of_true h fun status content hno => absurd hno (by simp)
  | some p =>
    obtain ⟨status, content⟩ := p
    have hold := inForce_of_getByID hget
    obtain ⟨d, hd, -, hcontent⟩ := status_of_getByID hget
    simp only [Option.some.injEq, Prod.mk.injEq, and_imp, forall_eq', forall_apply_eq_imp_iff]
    by_cases hmem : target ∈ ruleStatusTransitions status
    · rw [if_pos hmem]
      cases hupdate : update s.rules key { status := some (.str target) } (ans.write 0) with
      | none =>
        refine iff_of_true h fun _ hwrite => ?_
        rw [update, if_pos hwrite, hd] at hupdate
        exact absurd hupdate (by simp)
      | some rules =>
        have hrules := getElem?_update hupdate
        have hwrite : ans.write 0 = true := by
          rw [update] at hupdate
          split_ifs at hupdate with hwrite
          exact hwrite
        have hothers : ∀ k : GoString, k ≠ key → rules[k]? = s.rules[k]? := fun k hk => by
          rw [hrules, if_neg hk]
        have hnew : inForce rules key = if target = str "active" then some (some content) else none := by
          rw [inForce, hrules, if_pos rfl, hd, Option.map_some, Option.bind_some, Doc.inForce]
          show (if Value.str target = _ then some d.content else none) = _
          rw [hcontent]
          simp only [Value.str.injEq]
        have hupdate := inForce_eq_update hothers
        simp only [hmem, hwrite, forall_true_left]
        show Directory.Right _ _ (inForce rules) (lake.find (deploy ..)) ↔ _
        rw [hupdate, hnew, deploy]
        by_cases hactive : target = str "active"
        · -- the rule is registered, under a name that must be free
          have hinactive := status_of_edge_active (hactive ▸ hmem)
          rw [if_pos hactive, if_pos hactive]
          rw [if_neg hinactive] at hold
          have hregister := Directory.right_register_iff h hold rfl ⟨content, rfl, ans.order, rfl⟩
            (fun hfree => lake.find_create s.lake (savedSearch lib webhookURL ans.order content) hfree)
          exact hregister.trans (h.nameFree_iff.trans ⟨fun hfree _ => hfree, fun hfree => hfree (Or.inl hactive)⟩)
        · rw [if_neg hactive, if_neg hactive]
          by_cases hstatus : status = str "active"
          · -- an active rule is disabled, and its saved search deleted
            obtain rfl := target_of_active (hstatus ▸ hmem)
            rw [if_pos hstatus] at hold
            rw [if_pos (Or.inl rfl)]
            refine iff_of_true (Directory.right_withdraw h hold rfl (lake.find_delete s.lake content.name)) ?_
            rintro (habsurd | habsurd)
            · exact absurd habsurd hactive
            · exact absurd habsurd (by decide)
          · rw [if_neg hstatus] at hold
            rw [← hold, Function.update_eq_self]
            have hdisabled : target ≠ str "disabled" := by
              rintro rfl
              exact hstatus (status_of_edge_disabled hmem)
            by_cases hdeprecated : target = str "deprecated"
            · -- the saved search that is deleted, if there is one, is that of another rule
              rw [if_pos (Or.inr hdeprecated)]
              have hdelete := Directory.right_delete_iff h (lake.find_delete s.lake content.name)
              exact hdelete.trans (h.nameFree_iff.trans
                ⟨fun hfree _ => hfree, fun hfree => hfree (Or.inr hdeprecated)⟩)
            · rw [if_neg (not_or.mpr ⟨hdisabled, hdeprecated⟩)]
              exact iff_of_true h fun htarget => absurd htarget (not_or.mpr ⟨hactive, hdeprecated⟩)
    · rw [if_neg hmem]
      exact iff_of_true h fun hmem' => absurd hmem' hmem

theorem deployed_delete_iff (h : Deployed lake lib s) (key : GoString) (ans : Answers) :
    Deployed lake lib (delete lake s key ans) ↔ Tidy lake lib s (.delete key, ans) := by
  rw [delete]
  dsimp only [Tidy]
  cases hget : getByID s.rules key ans.read with
  | none => exact iff_of_true h fun content hno => absurd hno (by simp)
  | some p =>
    obtain ⟨status, content⟩ := p
    have hold := inForce_of_getByID hget
    have herase : inForce (s.rules.erase key) = Function.update (inForce s.rules) key none := by
      have hnone : inForce (s.rules.erase key) key = none := by
        rw [inForce, GoMap.getElem?_erase, if_pos rfl, Option.bind_none]
      rw [@inForce_eq_update s.rules (s.rules.erase key) key fun k hk => by
        rw [GoMap.getElem?_erase, if_neg hk], hnone]
    show Directory.Right _ _ (inForce (if ans.write 0 = true then s.rules.erase key else s.rules))
      (lake.find (if status = str "active" then lake.delete s.lake content.name else s.lake)) ↔ _
    by_cases hstatus : status = str "active"
    · rw [if_pos hstatus] at hold ⊢
      have hdelete := lake.find_delete s.lake content.name
      simp only [Option.some.injEq, Prod.mk.injEq, hstatus, true_and, forall_eq']
      by_cases hwrite : ans.write 0 = true
      · rw [if_pos hwrite, herase]
        exact iff_of_true (Directory.right_withdraw h hold rfl hdelete) hwrite
      · -- the saved search is gone and the rule stays
        rw [if_neg hwrite, Directory.right_delete_iff h hdelete, h.nameFree_iff]
        exact iff_of_false (fun hfree => hfree key content hold rfl) hwrite
    · rw [if_neg hstatus] at hold ⊢
      refine iff_of_true ?_ fun content' heq => ?_
      · split_ifs
        · rw [herase, ← hold, Function.update_eq_self]
          exact h
        · exact h
      · exact absurd (Prod.mk.inj (Option.some.inj heq)).1 hstatus

/-- **A request leaves the data lake right exactly if it is tidy.** -/
theorem deployed_iff_tidy_step {req : Request × Answers} (h : Deployed lake lib s)
    (hstep : handle lake lib webhookURL s req = some s') :
    Deployed lake lib s' ↔ Tidy lake lib s req := by
  obtain ⟨req, ans⟩ := req
  cases req with
  | create key content =>
    obtain rfl := Option.some.inj hstep
    refine iff_of_true ?_ trivial
    rw [Deployed, inForce_create]
    have hlake : (create s key content ans).lake = s.lake := by
      rw [create]
      split_ifs <;> rfl
    rw [hlake]
    exact h
  | update key patch =>
    obtain rfl := Option.some.inj hstep
    exact deployed_update_iff h key patch (ans.write 0)
  | bulkToggle action keys ids =>
    obtain rfl := Option.some.inj hstep
    exact deployed_bulkToggle_iff h action keys ids ans
  | transitionStatus key target =>
    obtain rfl := Option.some.inj hstep
    exact deployed_transitionStatus_iff h key target ans
  | delete key =>
    obtain rfl := Option.some.inj hstep
    exact deployed_delete_iff h key ans

/-- **The data lake is right in every state of a run exactly if every request is tidy.** -/
theorem deployed_iff_tidy {hist : History (State σ) (Request × Answers)}
    (h : Reach (handle lake lib webhookURL) Any (.init lake) hist s) :
    (Deployed lake lib s ∧ ∀ p ∈ hist, Deployed lake lib p.1) ↔
      ∀ p ∈ hist, Tidy lake lib p.1 p.2 := by
  induction h with
  | start =>
    exact iff_of_true ⟨deployed_init, fun p hp => absurd hp List.not_mem_nil⟩
      fun p hp => absurd hp List.not_mem_nil
  | @next hist s s' req hreach _ hstep ih =>
    rw [List.forall_mem_cons, List.forall_mem_cons, ← ih]
    constructor
    · rintro ⟨hafter, hnow, hbefore⟩
      exact ⟨(deployed_iff_tidy_step hnow hstep).mp hafter, hnow, hbefore⟩
    · rintro ⟨htidy, hnow, hbefore⟩
      exact ⟨(deployed_iff_tidy_step hnow hstep).mpr htidy, hnow, hbefore⟩

/-! ### Two runs -/

theorem deployed_iff_tidy_disabled :
    ∃ hist s, replay (handle mapLake literalLib []) [] (State.init mapLake)
        [(.create (str "1") ruleR, {}), (.transitionStatus (str "1") (str "testing"), {}),
          (.transitionStatus (str "1") (str "active"), {}),
          (.transitionStatus (str "1") (str "disabled"), {})] = some (hist, s) ∧
      Deployed mapLake literalLib s ∧ ∀ p ∈ hist, Deployed mapLake literalLib p.1 := by
  obtain ⟨hist, s, s₀, s₁, s₂, s₃, d, d', hrun, hhist, hrules, hget⟩ :
      ∃ hist s s₀ s₁ s₂ s₃ d d', replay (handle mapLake literalLib []) [] (State.init mapLake)
        [(.create (str "1") ruleR, {}), (.transitionStatus (str "1") (str "testing"), {}),
          (.transitionStatus (str "1") (str "active"), {}),
          (.transitionStatus (str "1") (str "disabled"), {})] = some (hist, s) ∧
      hist = [(s₃, (.transitionStatus (str "1") (str "disabled"), {})),
        (s₂, (.transitionStatus (str "1") (str "active"), {})),
        (s₁, (.transitionStatus (str "1") (str "testing"), {})),
        (s₀, (.create (str "1") ruleR, {}))] ∧
      s₂.rules = ((∅ : GoMap Doc).insert (str "1") d).insert (str "1") ⟨.str (str "testing"), d'⟩ ∧
      getByID s₂.rules (str "1") true = some (str "testing", ruleR) :=
    ⟨_, _, _, _, _, _, _, _, rfl, rfl, rfl, rfl⟩
  have hfree : NameFree s₂.rules (str "R") := by
    intro key content hkey
    rw [inForce, hrules, GoMap.getElem?_insert, GoMap.getElem?_insert] at hkey
    split_ifs at hkey
    · exact absurd hkey (by simp [Doc.inForce])
    · exact absurd hkey (by simp)
  have hactive : Tidy mapLake literalLib s₂ (.transitionStatus (str "1") (str "active"), {}) := by
    intro status content hget' _ _ _
    rw [hget] at hget'
    obtain ⟨-, rfl⟩ := Prod.mk.inj (Option.some.inj hget')
    exact hfree
  -- the other two changes of status neither register a search nor deprecate a rule
  have hother : ∀ s₀ target, target ≠ str "active" → target ≠ str "deprecated" →
      Tidy mapLake literalLib s₀ (.transitionStatus (str "1") target, {}) :=
    fun _ _ hactive hdeprecated _ _ _ _ _ htarget => absurd htarget (not_or.mpr ⟨hactive, hdeprecated⟩)
  refine ⟨hist, s, hrun, (deployed_iff_tidy (Reach.start.replay hrun)).mpr ?_⟩
  rw [hhist]
  exact List.forall_mem_cons.mpr ⟨hother _ _ (by decide) (by decide), List.forall_mem_cons.mpr ⟨hactive,
    List.forall_mem_cons.mpr ⟨hother _ _ (by decide) (by decide), List.forall_mem_singleton.mpr trivial⟩⟩⟩

/-- A bulk toggle makes a draft active, and the data lake does not hear of it. -/
theorem not_deployed :
    ¬∀ (hist : History (State (GoMap GoString)) (Request × Answers)) (s : State (GoMap GoString)),
      Reach (handle mapLake literalLib []) Any (State.init mapLake) hist s →
        Deployed mapLake literalLib s := by
  intro h
  obtain ⟨hist, s, hrun, hforce, hfind⟩ : ∃ hist s, replay (handle mapLake literalLib []) []
        (State.init mapLake) [(.create (str "1") ruleR, {}),
          (.bulkToggle (str "enable") [str "1"] [], {})] = some (hist, s) ∧
      inForce s.rules (str "1") = some (some ruleR) ∧ mapLake.find s.lake (str "R") = none :=
    ⟨_, _, rfl, rfl, rfl⟩
  exact (h hist s (Reach.start.replay hrun)).find_eq_none_iff.mp hfind (str "1") (some ruleR) hforce rfl

end Threat

end Xsiam

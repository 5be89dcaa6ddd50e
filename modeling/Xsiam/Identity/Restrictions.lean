import Xsiam.Identity.RiskService

/-!
# Automatic restrictions

`autoRestrict` of `internal/domain/identity/service.go` restricts a user whose score is 80 or more, unless
he is already. It is run with each signal, and with nothing else: the restriction that an operator releases
or deletes is made again with the next signal. In between, and as long as no write fails, who has 80 is
restricted (`Xsiam.Identity.RiskService.restricted_of_score`), across all restarts. And he has one automatic
restriction at most, as long as no lookup fails (`Xsiam.Identity.RiskService.one_auto`).
-/

namespace Xsiam

namespace Identity

open Go

namespace RiskService

variable {svc : RiskService} {u : GoString} {s : RiskState}

/-! ### Restrictions -/

/-- A user is restricted. -/
def Restricted (u : GoString) (docs : GoMap PrivilegeRestriction) : Prop :=
  ∃ (k : GoString) (p : PrivilegeRestriction), docs[k]? = some p ∧ activeAt u 3 p = true

variable {docs : GoMap PrivilegeRestriction}

theorem Restricted.create (h : Restricted u docs) (key : GoString) (ok : Bool)
    (p : PrivilegeRestriction) : Restricted u ((createDocument docs key ok p).getD docs) := by
  rcases hcreate : createDocument docs key ok p with - | docs'
  · exact h
  · obtain ⟨-, hnew, rfl⟩ := createDocument_eq_some hcreate
    obtain ⟨k, p', hk, hactive⟩ := h
    refine ⟨k, p', ?_, hactive⟩
    rw [Option.getD_some, GoMap.getElem?_insert_of_ne, hk]
    rintro rfl
    rw [hnew] at hk
    cases hk

theorem Restricted.autoRestrict (h : Restricted u docs) (risk : UserRisk) (now : Time) (a : Answer) :
    Restricted u (svc.autoRestrict risk now a docs) := by
  rw [RiskService.autoRestrict]
  split_ifs
  · exact h.create _ _ _
  · exact h

/-- `autoRestrict` leaves its user restricted, unless a call fails that should write. -/
theorem restricted_autoRestrict (hrepo : svc.privRepo = true) {risk : UserRisk} (now : Time)
    {a : Answer} (hok : a.ok = true) (hkey : a.key ≠ []) (hnew : docs[a.key]? = none) :
    Restricted risk.userID (svc.autoRestrict risk now a docs) := by
  rw [autoRestrict]
  split_ifs with hnone
  · rw [createDocument, if_pos ⟨hok, hkey, hnew⟩]
    refine ⟨a.key, autoRestriction risk now, ?_, by simp [activeAt, autoRestriction]⟩
    rw [Option.getD_some, GoMap.getElem?_insert, if_pos rfl]
  · obtain ⟨found, hfound⟩ := Option.ne_none_iff_exists'.mp fun h => hnone ⟨hrepo, h⟩
    exact (result_eq_some hfound).1

/-- A user whose score is 80 or more, in memory or stored, is restricted. -/
structure Guarded (u : GoString) (s : RiskState) : Prop where
  named : ∀ (v : GoString) (r : UserRisk), s.store[v]? = some r → r.userID = v
  memory : ∀ r : UserRisk, s.store[u]? = some r → Float64.c80.le r.riskScore = true →
    Restricted u s.restrictions
  stored : ∀ (k : GoString) (d : UserRisk), s.risks[k]? = some d → d.userID = u →
    Float64.c80.le d.riskScore = true → Restricted u s.restrictions

/-- An event that takes no restriction of a user away, and in which no call fails that should write one. -/
def Upheld (u : GoString) (s : RiskState) : Event → Prop
  | .signal q =>
    q.userID = u → q.answer.ok = true ∧ q.answer.key ≠ [] ∧ s.restrictions[q.answer.key]? = none
  | .release _ userID _ ok => ok = true → userID ≠ u
  | .delete key ok => ok = true → ∀ p, s.restrictions[key]? = some p → p.userID ≠ u
  | _ => True

namespace Guarded

/-- The restrictions changed, and not those of the user. -/
theorem setRestrictions (h : Guarded u s)
    (hkept : Restricted u s.restrictions → Restricted u docs) : Guarded u ⟨s.store, s.risks, docs⟩ where
  named := h.named
  memory r hr h80 := hkept (h.memory r hr h80)
  stored k d hk huser h80 := hkept (h.stored k d hk huser h80)

/-- A risk of the map written to the map and, perhaps, the database: its score is what it was. -/
theorem setStore (h : Guarded u s) {v : GoString} {risk r : UserRisk} (hget : s.store[v]? = some risk)
    (huser : r.userID = risk.userID) (hscore : r.riskScore = risk.riskScore) :
    Guarded u ⟨s.store.insert v r, s.risks, s.restrictions⟩ where
  named := forall_insert (huser.trans (h.named v risk hget)) h.named
  memory r' hr' h80 := by
    rw [GoMap.getElem?_insert] at hr'
    split_ifs at hr' with hu
    · rw [← Option.some.inj hr', hscore] at h80
      exact h.memory risk (hu ▸ hget) h80
    · exact h.memory r' hr' h80
  stored := h.stored

theorem setDoc (h : Guarded u s) {k : GoString} {d : UserRisk}
    (hd : d.userID = u → Float64.c80.le d.riskScore = true → Restricted u s.restrictions) :
    Guarded u ⟨s.store, s.risks.insert k d, s.restrictions⟩ where
  named := h.named
  memory := h.memory
  stored := forall_insert hd h.stored

theorem addSignal (h : Guarded u s) (hrepo : svc.privRepo = true) {q : SignalRequest}
    (hcall : q.userID = u → q.answer.ok = true ∧ q.answer.key ≠ [] ∧
      s.restrictions[q.answer.key]? = none) : Guarded u (svc.addSignal q s) := by
  have huser : (svc.signalled q s.store[q.userID]?).userID = q.userID := by
    rcases hold : s.store[q.userID]? with - | r
    · rfl
    · exact h.named q.userID r hold
  have hkept : Restricted u s.restrictions → Restricted u (svc.addSignal q s).restrictions := by
    intro hr
    rw [RiskService.addSignal]
    dsimp only
    split_ifs
    · exact hr.autoRestrict _ _ _
    · exact hr
  refine ⟨forall_insert huser h.named, fun r hr h80 => ?_,
    fun k d hk hd h80 => hkept (h.stored k d hk hd h80)⟩
  · have hstore : (svc.addSignal q s).store = s.store.insert q.userID (svc.signalled q s.store[q.userID]?) :=
      rfl
    rw [hstore, GoMap.getElem?_insert] at hr
    split_ifs at hr with hu
    · obtain rfl := Option.some.inj hr
      obtain ⟨hok, hkey, hnew⟩ := hcall hu.symm
      have hnow : Restricted (svc.signalled q s.store[q.userID]?).userID
          (svc.autoRestrict (svc.signalled q s.store[q.userID]?) q.now q.answer s.restrictions) :=
        restricted_autoRestrict hrepo q.now hok hkey hnew
      rw [huser, ← hu] at hnow
      rw [RiskService.addSignal]
      dsimp only
      rw [if_pos h80]
      exact hu ▸ hnow
    · exact hkept (h.memory r hr h80)

theorem upsert (h : Guarded u s) {v : GoString} {risk : UserRisk} (hget : s.store[v]? = some risk)
    (now : Time) (a : Answer) : Guarded u (RiskService.upsert risk now a s) := by
  obtain rfl : risk.userID = v := h.named v risk hget
  have hd : ∀ d : UserRisk, d.userID = risk.userID → d.riskScore = risk.riskScore → d.userID = u →
      Float64.c80.le d.riskScore = true → Restricted u s.restrictions := by
    rintro d huser hscore rfl h80
    exact h.memory risk (huser ▸ hget) (hscore ▸ h80)
  rw [RiskService.upsert]
  rcases hres : a.lookup.result s.risks (ofUser risk.userID) with - | - | ⟨k, d⟩
  · dsimp only
    rcases hcreate : createDocument s.risks (newDocument risk now a).key a.ok
      (newDocument risk now a) with - | risks
    · exact h.setStore hget rfl rfl
    · obtain ⟨-, -, rfl⟩ := createDocument_eq_some hcreate
      have hset := h.setStore (r := newDocument risk now a) hget rfl rfl
      exact hset.setDoc (hd (newDocument risk now a) rfl rfl)
  · exact h
  · obtain ⟨-, huser⟩ := (result_eq_some hres).2 (k, d) rfl
    dsimp only
    split_ifs
    · exact h.setDoc (hd (patched risk now d) (of_decide_eq_true huser) rfl)
    · exact h

theorem restore (h : Guarded u s) (order : MapRange) :
    Guarded u { s with store := RiskService.restore order s.risks } where
  named v r hr := by
    obtain ⟨k, d, -, huser, rfl⟩ := restore_eq_some hr
    exact huser
  memory r hr h80 := by
    obtain ⟨k, d, hk, huser, rfl⟩ := restore_eq_some hr
    exact h.stored k d hk huser h80
  stored := h.stored

end Guarded

/-! ### Runs with restrictions -/

/-- A release of another user leaves a user restricted. -/
theorem Restricted.release (h : Restricted u docs) (tenantID : GoString) {v : GoString} (hv : v ≠ u)
    (now : Time) : Restricted u (RiskService.release tenantID v now docs) := by
  obtain ⟨k, p, hk, hactive⟩ := h
  have huser : p.userID = u := by simp_all [activeAt]
  refine ⟨k, p, ?_, hactive⟩
  rw [RiskService.release, Std.ExtTreeMap.getElem?_map, hk, Option.map_some, if_neg]
  rintro ⟨rfl, -⟩
  exact hv huser

theorem Guarded.step (h : Guarded u s) (hrepo : svc.privRepo = true) {ev : Event} {s' : RiskState}
    (hok : Upheld u s ev) (hs : svc.step s ev = some s') : Guarded u s' := by
  obtain rfl := Option.some.inj hs
  cases ev with
  | signal q => exact h.addSignal hrepo hok
  | flush v now collection a =>
    rw [after]
    rcases hget : s.store[v]? with - | risk
    · exact h
    · dsimp only
      split_ifs
      · exact h.upsert hget now a
      · exact h
  | restart listed =>
    cases listed with
    | some order => exact h.restore order
    | none => exact ⟨by simp [after], by simp [after], h.stored⟩
  | create tenantID r key now ok => exact h.setRestrictions fun hr => hr.create _ _ _
  | release tenantID userID now ok =>
    rw [after]
    split_ifs with hrun
    · exact h.setRestrictions fun hr => hr.release tenantID (hok hrun) now
    · exact h
  | delete key ok =>
    rw [after]
    split_ifs with hrun
    · refine h.setRestrictions ?_
      rintro ⟨k, p, hk, hactive⟩
      refine ⟨k, p, ?_, hactive⟩
      rw [GoMap.getElem?_erase, if_neg, hk]
      rintro rfl
      exact hok hrun p hk (by simp_all [activeAt])
    · exact h

/-- **Who has 80 is restricted**: in a run in which no restriction of a user is released or deleted, and none
of those that his signals make fails to be written, he is restricted whenever his score is 80 or more. -/
theorem restricted_of_score (hrepo : svc.privRepo = true) {u : GoString}
    {hist : Run.History RiskState Event} {s : RiskState} (h : svc.Reach hist s)
    (hupheld : ∀ e ∈ hist, Upheld u e.1 e.2) {risk : UserRisk} (hget : s.store[u]? = some risk)
    (h80 : Float64.c80.le risk.riskScore = true) : Restricted u s.restrictions := by
  have hrun : Run.Reach svc.step (fun _ => Upheld u) {} hist s :=
    Run.Reach.restrict h fun e he _ => hupheld e he
  have hinit : Guarded u {} := ⟨by simp, by simp, by simp⟩
  have hguarded : Guarded u s := by
    refine @Run.Reach.invariant _ _ _ _ _ (fun _ => Guarded u) hinit ?_ _ _ hrun
    exact fun h hok hs => h.step hrepo hok hs
  exact hguarded.memory risk hget h80

theorem restricted_of_score_of_restart :
    Restricted (str "u1") (sampleService.after sampleFlushed (.restart (some .byKey))).restrictions := by
  have hrestarted : sampleService.Reach ((sampleFlushed, .restart (some .byKey)) :: _) _ :=
    .next reach_sampleFlushed trivial rfl
  have hscore : (sampleService.after sampleFlushed (.restart (some .byKey))).store[str "u1"]?.map
      UserRisk.riskScore = some .c80 := by
    decide
  obtain ⟨risk, hget, h80⟩ := Option.map_eq_some_iff.mp hscore
  refine restricted_of_score rfl hrestarted ?_ hget ?_
  · simp only [List.forall_mem_cons, Upheld, List.not_mem_nil]
    simp [sampleRequest, show str "1" ≠ [] by decide]
  · rw [h80]
    decide

/-- An active restriction that the service made for a user. -/
def AutoOf (u : GoString) (p : PrivilegeRestriction) : Prop :=
  activeAt u 3 p = true ∧ p.triggerSignal = str "itdr_auto"

/-- No user has two of them. -/
def OneAuto (docs : GoMap PrivilegeRestriction) : Prop :=
  ∀ (u : GoString) (k k' : GoString) (p p' : PrivilegeRestriction), docs[k]? = some p →
    docs[k']? = some p' → AutoOf u p → AutoOf u p' → k = k'

/-- An event in which no lookup of a restriction fails, and nobody makes one that looks like the service's. -/
def Looked : Event → Prop
  | .signal q => q.answer.lookup ≠ .failed
  | .create _ r _ _ _ => r.level = 3 → r.triggerSignal ≠ str "itdr_auto"
  | _ => True

namespace OneAuto

theorem create (h : OneAuto docs) {key : GoString} (ok : Bool) {p : PrivilegeRestriction}
    (hfree : ∀ (v k : GoString) (p' : PrivilegeRestriction), AutoOf v p → docs[k]? = some p' →
      ¬AutoOf v p') : OneAuto ((createDocument docs key ok p).getD docs) := by
  rcases hcreate : createDocument docs key ok p with - | docs'
  · exact h
  · obtain ⟨-, -, rfl⟩ := createDocument_eq_some hcreate
    exact GoMap.unique_insert h fun v k p' hp _ hk => hfree v k p' hp hk

theorem autoRestrict (h : OneAuto docs) {risk : UserRisk} {a : Answer} (hlookup : a.lookup ≠ .failed)
    (now : Time) : OneAuto (svc.autoRestrict risk now a docs) := by
  rw [RiskService.autoRestrict]
  split_ifs with hnone
  · refine h.create a.ok fun v k p' hp hk hp' => ?_
    have huser : risk.userID = v := by
      have hactive := hp.1
      simp only [activeAt, Bool.and_eq_true, decide_eq_true_eq] at hactive
      exact hactive.1.1
    subst huser
    exact (result_eq_none hnone.2).resolve_left hlookup k p' hk hp'.1
  · exact h

theorem release (h : OneAuto docs) (tenantID userID : GoString) (now : Time) :
    OneAuto (RiskService.release tenantID userID now docs) := by
  -- what is active after a release is what it was
  have hkept : ∀ (v k : GoString) (p : PrivilegeRestriction),
      (RiskService.release tenantID userID now docs)[k]? = some p → AutoOf v p → docs[k]? = some p := by
    intro v k p hk hp
    rw [RiskService.release, Std.ExtTreeMap.getElem?_map] at hk
    obtain ⟨p₀, hp₀, rfl⟩ := Option.map_eq_some_iff.mp hk
    split_ifs at hp ⊢ with hreleased
    · simp [AutoOf, activeAt] at hp
    · exact hp₀
  exact fun v k k' p p' hk hk' hp hp' => h v k k' p p' (hkept v k p hk hp) (hkept v k' p' hk' hp') hp hp'

theorem step (h : OneAuto s.restrictions) {ev : Event} {s' : RiskState} (hok : Looked ev)
    (hs : svc.step s ev = some s') : OneAuto s'.restrictions := by
  obtain rfl := Option.some.inj hs
  cases ev with
  | signal q =>
    rw [after, RiskService.addSignal]
    dsimp only
    split_ifs
    · exact h.autoRestrict hok q.now
    · exact h
  | flush v now collection a =>
    have hsame : ∀ risk : UserRisk, (upsert risk now a s).restrictions = s.restrictions := by
      intro risk
      rw [upsert]
      split
      · dsimp only
        split <;> rfl
      · rfl
      · split_ifs <;> rfl
    rw [after]
    rcases s.store[v]? with - | risk
    · exact h
    · dsimp only
      split_ifs
      · rw [hsame]
        exact h
      · exact h
  | restart listed => exact h
  | create tenantID r key now ok =>
    exact h.create ok fun v k p' hp _ _ => hok (by simp_all [AutoOf, activeAt]) hp.2
  | release tenantID userID now ok =>
    rw [after]
    split_ifs
    · exact h.release tenantID userID now
    · exact h
  | delete key ok =>
    rw [after]
    split_ifs
    · exact fun v k k' p p' hk hk' => h v k k' p p' (GoMap.getElem?_of_erase hk) (GoMap.getElem?_of_erase hk')
    · exact h

end OneAuto

/-- **A user has one automatic restriction at most** that is active, in a run in which no lookup of one fails
and nobody makes one by hand that looks like it. -/
theorem one_auto {hist : Run.History RiskState Event} {s : RiskState} (h : svc.Reach hist s)
    (hlooked : ∀ e ∈ hist, Looked e.2) : OneAuto s.restrictions := by
  have hrun : Run.Reach svc.step (fun _ _ => Looked) {} hist s :=
    Run.Reach.restrict h fun e he _ => hlooked e he
  have hinit : OneAuto (∅ : GoMap PrivilegeRestriction) := by simp [OneAuto]
  refine @Run.Reach.invariant _ _ _ _ _ (fun _ s => OneAuto s.restrictions) hinit ?_ _ _ hrun
  exact fun h hok hs => h.step hok hs

/-- The second signal finds the restriction that the first one made. -/
theorem one_auto_of_two :
    OneAuto (sampleService.after sampleSignalled (.signal (sampleRequest 2))).restrictions := by
  have htwice : sampleService.Reach ((sampleSignalled, .signal (sampleRequest 2)) :: _) _ :=
    .next reach_sampleSignalled trivial rfl
  refine one_auto htwice ?_
  simp [Looked, sampleRequest]

end RiskService

end Identity

end Xsiam

import Xsiam.Presence.Gc

/-!
# Sweeps and agents that have moved on

An agent that reconnects through a new instance becomes a member of the set of that
instance and stays a member of the old one, since `Touch` removes it from nowhere. When
the old instance is found dead its sweep takes the agent offline, connected as it is
(`Xsiam.Presence.not_safeFromSweeps`).

That is the only way it goes wrong. An agent that is touched through an instance only where
no other one has it, in its set or in a sweep that is under way
(`Xsiam.Presence.Exclusive`), is left alone by the sweeps of all others, whatever becomes
of other agents (`Xsiam.Presence.safeFromSweeps_of_exclusive`).
-/

namespace Xsiam

namespace Presence

open Go Run

/-! ### The latest event of an agent -/

/-- The agent an event is one of, by tenant and agent key. -/
def Event.agent : Event → Option (GoString × GoString)
  | .touch tenantID agentKey _ => some (tenantID, agentKey)
  | .remove tenantID agentKey _ => some (tenantID, agentKey)
  | _ => none

/-- The instance and the time of the latest event of an agent, where that was a `Touch`. -/
def lastTouch (hist : History State Event) (tenantID agentKey : GoString) :
    Option (GoString × ℕ) :=
  match hist.find? (·.2.agent = some (tenantID, agentKey)) with
  | some (s, .touch _ _ fbID) => some (fbID, s.reg.now)
  | _ => none

section LastTouch

variable {s : State} {tid ak fbID : GoString} (hist : History State Event)

theorem lastTouch_cons_of_ne {ev : Event} (h : ev.agent ≠ some (tid, ak)) :
    lastTouch ((s, ev) :: hist) tid ak = lastTouch hist tid ak := by
  rw [lastTouch, List.find?_cons_of_neg (by simpa using h), lastTouch]

theorem lastTouch_cons_touch :
    lastTouch ((s, .touch tid ak fbID) :: hist) tid ak = some (fbID, s.reg.now) := by
  rw [lastTouch, List.find?_cons_of_pos (by simp [Event.agent])]

theorem lastTouch_cons_remove : lastTouch ((s, .remove tid ak fbID) :: hist) tid ak = none := by
  rw [lastTouch, List.find?_cons_of_pos (by simp [Event.agent])]

end LastTouch

/-! ### Safety -/

/-- No sweep takes an agent offline that is connected through another instance: one whose
latest event was a `Touch`, within `LeaseTTL` of now, through an instance with a live
lease. -/
def SafeFromSweeps (agentKey : GoString) (hist : History State Event) (s : State) : Prop :=
  ∀ (tenantID fbID : GoString) (at_ : ℕ) (dead : GoString) (ev : Event) (s' : State),
    lastTouch hist tenantID agentKey = some (fbID, at_) →
    s.reg.leaseLive fbID = true → s.reg.now ≤ at_ + leaseTTL → dead ≠ fbID →
    s.sweeping ev = some dead → step s ev = some s' →
      s'.reg.score tenantID agentKey = s.reg.score tenantID agentKey ∧
        ∃ marks, s'.offlined = marks ++ s.offlined ∧ (tenantID, agentKey) ∉ marks

/-- An agent key is touched through an instance that has it to itself: no other one has it,
and no other tenant's agent of that key is connected through another one. -/
def Exclusive (agentKey : GoString) (hist : History State Event) (s : State) : Event → Prop
  | .touch tenantID ak fbID => ak = agentKey →
    (∀ fb, fb ≠ fbID → ¬s.Has agentKey fb) ∧
      ∀ tid fb at_, tid ≠ tenantID → lastTouch hist tid agentKey = some (fb, at_) → fb = fbID
  | _ => True

/-- An agent that is connected is had by no other instance. -/
def HeldOnce (agentKey : GoString) (hist : History State Event) (s : State) : Prop :=
  ∀ (tenantID fbID : GoString) (at_ : ℕ), lastTouch hist tenantID agentKey = some (fbID, at_) →
    ∀ fb, fb ≠ fbID → ¬s.Has agentKey fb

section Held

variable {agentKey : GoString} {hist : History State Event} {s s' : State} {ev : Event}

theorem HeldOnce.givesUp (h : HeldOnce agentKey hist s) (hgives : GivesUp s s') :
    HeldOnce agentKey hist s' := fun tid fbID at_ hlast fb hfb hnew =>
  h tid fbID at_ hlast fb hfb (hgives agentKey fb hnew)

/-- An event that is none of an agent keeps it. -/
theorem HeldOnce.step_of_none (h : HeldOnce agentKey hist s) (hev : ev.agent = none)
    (hstep : step s ev = some s') : HeldOnce agentKey ((s, ev) :: hist) s' := by
  have hgives : GivesUp s s' := by
    refine givesUp_step hstep ?_
    rintro tid ak fb rfl
    exact absurd hev (by simp [Event.agent])
  intro tid fbID at_ hlast
  rw [lastTouch_cons_of_ne hist (by simp [hev])] at hlast
  exact h.givesUp hgives tid fbID at_ hlast

/-- `Touch` gives its instance the agent, and no other instance anything. -/
theorem State.has_touch {tenantID fbID ak fb : GoString}
    (h : State.Has { s with reg := s.reg.touch tenantID ak fbID } agentKey fb) :
    s.Has agentKey fb ∨ (agentKey = ak ∧ fb = fbID) := by
  rcases h with howned | hnamed
  · exact (s.reg.ownedBy_touch howned).imp_left Or.inl
  · exact Or.inl (Or.inr hnamed)

/-- **What an exclusive event preserves.** -/
theorem HeldOnce.step (h : HeldOnce agentKey hist s) (hok : Exclusive agentKey hist s ev)
    (hstep : Presence.step s ev = some s') : HeldOnce agentKey ((s, ev) :: hist) s' := by
  cases ev with
  | touch tenantID ak fbID =>
    obtain rfl := Option.some.inj hstep
    intro tid fb' at_ hlast fb hfb hnew
    by_cases hsame : (tenantID, ak) = (tid, agentKey)
    · -- the agent touched: whoever has it has had it before, or is its instance
      obtain ⟨rfl, rfl⟩ := Prod.mk.inj hsame
      rw [lastTouch_cons_touch] at hlast
      obtain ⟨rfl, -⟩ := Prod.mk.inj (Option.some.inj hlast)
      rcases s.has_touch hnew with hold | ⟨-, rfl⟩
      · exact (hok rfl).1 fb hfb hold
      · exact hfb rfl
    · -- another one: where it has the same key, it is another tenant's
      have hne : (Event.touch tenantID ak fbID).agent ≠ some (tid, agentKey) :=
        fun heq => hsame (Option.some.inj heq)
      rw [lastTouch_cons_of_ne hist hne] at hlast
      rcases s.has_touch hnew with hold | ⟨rfl, rfl⟩
      · exact h tid fb' at_ hlast fb hfb hold
      · have htid : tid ≠ tenantID := by
          rintro rfl
          exact hsame rfl
        exact hfb ((hok rfl).2 tid fb' at_ htid hlast).symm
  | remove tenantID ak fbID =>
    have hgives : GivesUp s s' := givesUp_step hstep fun _ _ _ => Event.noConfusion
    intro tid fb' at_ hlast
    by_cases hsame : (tenantID, ak) = (tid, agentKey)
    · obtain ⟨rfl, rfl⟩ := Prod.mk.inj hsame
      rw [lastTouch_cons_remove] at hlast
      exact absurd hlast (by simp)
    · have hne : (Event.remove tenantID ak fbID).agent ≠ some (tid, agentKey) :=
        fun heq => hsame (Option.some.inj heq)
      rw [lastTouch_cons_of_ne hist hne] at hlast
      exact h.givesUp hgives tid fb' at_ hlast
  | renewFB fbID => exact h.step_of_none rfl hstep
  | wait ms => exact h.step_of_none rfl hstep
  | scan page => exact h.step_of_none rfl hstep
  | askLease fbID => exact h.step_of_none rfl hstep
  | sweepFB fbID ans => exact h.step_of_none rfl hstep
  | send n ok => exact h.step_of_none rfl hstep

end Held

theorem heldOnce_init (agentKey : GoString) (start : ℕ) (server : Redis.Server GoString) :
    HeldOnce agentKey [] (.init start server) :=
  fun _ _ _ hlast => absurd hlast (by simp [lastTouch])

/-- **An agent that never has two instances at once is safe from sweeps**, in every state
of every run. -/
theorem safeFromSweeps_of_exclusive {agentKey : GoString} {start : ℕ}
    {server : Redis.Server GoString} {hist : History State Event} {s : State}
    (h : Reach step (Exclusive agentKey) (.init start server) hist s) :
    SafeFromSweeps agentKey hist s := by
  have hheld : HeldOnce agentKey hist s :=
    h.invariant (heldOnce_init agentKey start server) fun hinv hok hstep => hinv.step hok hstep
  intro tid fbID at_ dead ev s' hlast _ _ hdead hsweep hstep
  have halone : LeavesAlone agentKey s s' :=
    leavesAlone_step hsweep hstep (hheld tid fbID at_ hlast dead hdead)
  obtain ⟨marks, hmarks, hnot⟩ := halone.offlined
  exact ⟨halone.score tid, marks, hmarks, hnot tid⟩

/-! ### A dead instance -/

/-- Every agent of an instance was touched through it. -/
def TouchedThrough (hist : History State Event) (s : State) : Prop :=
  ∀ ak fb, s.Has ak fb → ∃ s₀ tid, (s₀, Event.touch tid ak fb) ∈ hist

theorem TouchedThrough.step {hist : History State Event} {s s' : State} {ev : Event}
    (h : TouchedThrough hist s) (hstep : Presence.step s ev = some s') :
    TouchedThrough ((s, ev) :: hist) s' := by
  intro ak fb hhas
  have hold : s.Has ak fb → ∃ s₀ tid, (s₀, Event.touch tid ak fb) ∈ (s, ev) :: hist := by
    intro hs
    obtain ⟨s₀, tid, hmem⟩ := h ak fb hs
    exact ⟨s₀, tid, List.mem_cons_of_mem _ hmem⟩
  by_cases hev : ∃ tid ak fb, ev = .touch tid ak fb
  · obtain ⟨tid, ak', fb', rfl⟩ := hev
    obtain rfl := Option.some.inj hstep
    rcases s.has_touch hhas with hs | ⟨rfl, rfl⟩
    · exact hold hs
    · exact ⟨s, tid, List.mem_cons_self⟩
  · exact hold (givesUp_step hstep (fun tid ak fb heq => hev ⟨tid, ak, fb, heq⟩) ak fb hhas)

theorem touchedThrough {ok : History State Event → State → Event → Prop} {start : ℕ}
    {server : Redis.Server GoString} {hist : History State Event} {s : State}
    (h : Reach step ok (.init start server) hist s) :
    TouchedThrough hist s :=
  h.invariant (fun ak fb hhas => absurd hhas (State.not_has_init start server ak fb))
    fun hinv _ hstep => hinv.step hstep

/-- The first touch of an agent key is exclusive. -/
theorem exclusive_first {ok : History State Event → State → Event → Prop} {start : ℕ}
    {server : Redis.Server GoString} {hist : History State Event} {s : State}
    (h : Reach step ok (.init start server) hist s)
    {tid ak fbID : GoString} (hfirst : ∀ p ∈ hist, ∀ tid', p.2.agent ≠ some (tid', ak)) :
    Exclusive ak hist s (.touch tid ak fbID) := by
  refine fun _ => ⟨fun fb _ hhas => ?_, fun tid' fb at_ _ hlast => ?_⟩
  · obtain ⟨s₀, tid', hmem⟩ := touchedThrough h ak fb hhas
    exact hfirst _ hmem tid' rfl
  · have hnone : hist.find? (·.2.agent = some (tid', ak)) = none :=
      List.find?_eq_none.mpr fun p hp => by simpa using hfirst p hp tid'
    rw [lastTouch, hnone] at hlast
    exact absurd hlast (by simp)

/-- The agent `a` comes through `f1`, which dies, and another agent, or the same one, comes
through `f2`; `f1` is found dead, and its sweep has read the set of its agents. -/
def f1Dies (agentKey : GoString) : List Event :=
  [.renewFB (str "f1"), .touch (str "t") (str "a") (str "f1"), .wait 31000,
    .renewFB (str "f2"), .touch (str "t") agentKey (str "f2"),
    .scan fun _ => true, .askLease (str "f1"),
    .sweepFB (str "f1") { tenantForAgentKey := fun _ => some (str "t") }]

theorem safeFromSweeps_of_exclusive_f1Dies :
    ∃ hist s, replay step [] (.init 0) (f1Dies (str "b")) = some (hist, s) ∧
      lastTouch hist (str "t") (str "b") = some (str "f2", 31000) ∧
      s.sweeping (.send 0 true) = some (str "f1") ∧ SafeFromSweeps (str "b") hist s := by
  have hab : str "a" ≠ str "b" := by decide
  have h₀ : Reach step (Exclusive (str "b")) (.init 0) [] (.init 0) := .start
  have h₁ := h₀.next (show Exclusive _ _ _ (.renewFB (str "f1")) from trivial) rfl
  have h₂ := h₁.next (show Exclusive _ _ _ (.touch (str "t") (str "a") (str "f1")) from
    fun heq => absurd heq hab) rfl
  have h₃ := h₂.next (show Exclusive _ _ _ (.wait 31000) from trivial) rfl
  have h₄ := h₃.next (show Exclusive _ _ _ (.renewFB (str "f2")) from trivial) rfl
  have h₅ := h₄.next (show Exclusive _ _ _ (.touch (str "t") (str "b") (str "f2")) from
    exclusive_first h₄ (by simp [Event.agent, hab])) rfl
  exact ⟨_, _, rfl, rfl, rfl, safeFromSweeps_of_exclusive (Reach.next
    (Reach.next (Reach.next h₅ trivial rfl) trivial rfl) trivial rfl)⟩

/-- An agent that moves on is taken offline by the sweep of the instance it left. -/
theorem not_safeFromSweeps :
    ¬∀ (start : ℕ) (hist : History State Event) (s : State),
      Reach step Any (.init start) hist s → ∀ agentKey, SafeFromSweeps agentKey hist s := by
  intro h
  obtain ⟨hist, s, hrun, hlast, hlive, hnow, hsweep, s', hstep, hbefore, hafter⟩ :
      ∃ hist s, replay step [] (.init 0) (f1Dies (str "a")) = some (hist, s) ∧
        lastTouch hist (str "t") (str "a") = some (str "f2", 31000) ∧
        s.reg.leaseLive (str "f2") = true ∧ s.reg.now = 31000 ∧
        s.sweeping (.send 0 true) = some (str "f1") ∧
        ∃ s', step s (.send 0 true) = some s' ∧
          s.reg.score (str "t") (str "a") = some 31000 ∧
          s'.reg.score (str "t") (str "a") = none :=
    ⟨_, _, rfl, rfl, rfl, rfl, rfl, _, rfl, rfl, rfl⟩
  have hsafe := h 0 hist s (Reach.start.replay hrun) (str "a")
  have hnow' : s.reg.now ≤ 31000 + leaseTTL := by
    rw [hnow]
    decide
  obtain ⟨hscore, -⟩ := hsafe _ _ _ _ _ _ hlast hlive hnow' (by decide) hsweep hstep
  rw [hbefore, hafter] at hscore
  exact absurd hscore (by simp)

end Presence

end Xsiam

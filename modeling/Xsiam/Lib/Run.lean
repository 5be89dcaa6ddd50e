import Mathlib.Data.List.Basic

/-!
# Runs of a state machine

A machine takes events, each of which it may refuse. A run is remembered newest first,
every event together with the state it met (`Run.Reach`), so that a statement about a
reachable state can speak of what happened before. The events a run may take can be
limited by a condition on that past and on the state they meet.
-/

namespace Run

universe u v

variable {σ : Type u} {ε : Type v}

/-- The past of a run: the events taken, newest first, each with the state it met. -/
abbrev History (σ : Type u) (ε : Type v) := List (σ × ε)

/-- The states reached from an initial one by events that meet a condition. -/
inductive Reach (step : σ → ε → Option σ) (ok : History σ ε → σ → ε → Prop) (init : σ) :
    History σ ε → σ → Prop where
  | start : Reach step ok init [] init
  | next {hist : History σ ε} {s s' : σ} {ev : ε} : Reach step ok init hist s →
      ok hist s ev → step s ev = some s' → Reach step ok init ((s, ev) :: hist) s'

/-- Every event is allowed. -/
def Any : History σ ε → σ → ε → Prop := fun _ _ _ => True

variable {step : σ → ε → Option σ} {ok : History σ ε → σ → ε → Prop} {init : σ}

/-- **What an allowed event preserves holds in every state reached.** -/
theorem Reach.invariant {inv : History σ ε → σ → Prop} (hinit : inv [] init)
    (hstep : ∀ {hist : History σ ε} {s s' : σ} {ev : ε}, inv hist s → ok hist s ev →
      step s ev = some s' → inv ((s, ev) :: hist) s') {hist : History σ ε} {s : σ}
    (h : Reach step ok init hist s) : inv hist s := by
  induction h with
  | start => exact hinit
  | next _ hok hs ih => exact hstep ih hok hs

/-- Where an event led is a state that was met later, or the last one. -/
theorem Reach.led {hist : History σ ε} {s : σ} (h : Reach step ok init hist s) :
    ∀ e ∈ hist, ∃ s' ∈ s :: hist.map Prod.fst, step e.1 e.2 = some s' := by
  induction h with
  | start => exact fun e he => absurd he List.not_mem_nil
  | next _ _ hs ih =>
    refine List.forall_mem_cons.mpr ⟨⟨_, List.mem_cons_self, hs⟩, fun e he => ?_⟩
    obtain ⟨s₁, hmem, hs₁⟩ := ih e he
    exact ⟨s₁, List.mem_cons_of_mem _ hmem, hs₁⟩

/-- Take a list of events, oldest first, and keep the past. -/
def replay (step : σ → ε → Option σ) : History σ ε → σ → List ε → Option (History σ ε × σ)
  | hist, s, [] => some (hist, s)
  | hist, s, ev :: evs => (step s ev).bind fun s' => replay step ((s, ev) :: hist) s' evs

/-- A list of events that the machine takes is a run. -/
theorem Reach.replay {evs : List ε} : ∀ {hist hist' : History σ ε} {s s' : σ},
    Reach step Any init hist s → Run.replay step hist s evs = some (hist', s') →
      Reach step Any init hist' s' := by
  induction evs with
  | nil =>
    intro hist hist' s s' h heq
    obtain ⟨rfl, rfl⟩ := Prod.mk.inj (Option.some.inj heq)
    exact h
  | cons ev evs ih =>
    intro hist hist' s s' h heq
    obtain ⟨s₁, hs₁, hrest⟩ := Option.bind_eq_some_iff.mp heq
    exact ih (h.next trivial hs₁) hrest

/-- A list of events that are allowed at any time, and that the machine takes, goes on with a run. -/
theorem Reach.goesOn {evs : List ε} : ∀ {hist hist' : History σ ε} {s s' : σ},
    (∀ ev ∈ evs, ∀ hist s, ok hist s ev) → Reach step ok init hist s →
      Run.replay step hist s evs = some (hist', s') → Reach step ok init hist' s' := by
  induction evs with
  | nil =>
    intro hist hist' s s' _ h heq
    obtain ⟨rfl, rfl⟩ := Prod.mk.inj (Option.some.inj heq)
    exact h
  | cons ev evs ih =>
    intro hist hist' s s' hok h heq
    obtain ⟨hev, hevs⟩ := List.forall_mem_cons.mp hok
    obtain ⟨s₁, hs₁, hrest⟩ := Option.bind_eq_some_iff.mp heq
    exact ih hevs (h.next (hev hist s) hs₁) hrest

/-- A run whose events all meet a condition on the states they met. -/
theorem Reach.restrict {hist : History σ ε} {s : σ} (h : Reach step Any init hist s) :
    (∀ e ∈ hist, ∀ past, ok past e.1 e.2) → Reach step ok init hist s := by
  induction h with
  | start => exact fun _ => .start
  | next _ _ hs ih =>
    intro hok
    obtain ⟨hlast, hbefore⟩ := List.forall_mem_cons.mp hok
    exact .next (ih hbefore) (hlast _) hs

end Run

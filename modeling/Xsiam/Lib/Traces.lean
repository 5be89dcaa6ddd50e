import Mathlib.Data.List.Basic
import Xsiam.Lib.Prog

/-!
# What programs have done

Programs that take turns, as in `Xsiam.Lib.Prog`, where every call is remembered with its reply and with
the moment it was made (`Prog.Doing`), so that a statement about a state can speak of the order of what
several programs did. Moments are counted: each event of a run has one.

What a program ensures about the calls it makes and about its end, given what it has done so far
(`Prog.Ensures`), is said about the program alone. It holds of what is left of it in any company
(`Prog.Traced.tracked_reach`).
-/

universe u

namespace Prog

variable {ι : Type} {ρ : ι → Type} {α β : Type}

/-! ### One program -/

/-- A call with its reply. -/
abbrev Entry (ρ : ι → Type) := (i : ι) × ρ i

/-- Every call meets a condition on what was done before it, newest first, and so does the end. -/
def Ensures (before : List (Entry ρ) → ι → Prop) (final : List (Entry ρ) → α → Prop) :
    List (Entry ρ) → Prog ρ α → Prop
  | trace, done a => final trace a
  | _, crash => True
  | trace, call i next => before trace i ∧ ∀ r, Ensures before final (⟨i, r⟩ :: trace) (next r)

variable {before : List (Entry ρ) → ι → Prop} {mid : List (Entry ρ) → α → Prop}
  {final : List (Entry ρ) → β → Prop} {trace : List (Entry ρ)}

/-- **A program after a program.** -/
theorem Ensures.bind {p : Prog ρ α} {f : α → Prog ρ β} (hp : p.Ensures before mid trace)
    (hf : ∀ trace a, mid trace a → (f a).Ensures before final trace) :
    (p >>= f).Ensures before final trace := by
  induction p generalizing trace with
  | done a => exact hf trace a hp
  | crash => exact trivial
  | call i next ih => exact ⟨hp.1, fun r => ih r (hp.2 r)⟩

/-- What calls do not undo is there at the end, whatever the program is. -/
theorem ensures_of_stable {P : List (Entry ρ) → Prop} (hstable : ∀ e trace, P trace → P (e :: trace))
    (p : Prog ρ α) (h : P trace) : p.Ensures (fun _ _ => True) (fun trace _ => P trace) trace := by
  induction p generalizing trace with
  | done a => exact h
  | crash => exact trivial
  | call i next ih => exact ⟨trivial, fun r => ih r (hstable _ _ h)⟩

/-! ### Programs that take turns -/

/-- A program that was started for a request at some moment: what it has done, newest first, each call
with its moment, and what is left of it. -/
structure Doing (ρ : ι → Type) (κ α : Type) where
  req : κ
  began : ℕ
  trace : List (ℕ × Entry ρ)
  left : Prog ρ α

/-- What several programs work on, the moment, and the programs. -/
structure Traced (ρ : ι → Type) (κ σ α : Type) where
  store : σ
  now : ℕ
  tasks : ℕ → Option (Doing ρ κ α)

/-- What a service does with a call at a moment. Every call gets a reply. -/
abbrev TimedService (ρ : ι → Type) (σ : Type) := ℕ → (i : ι) → σ → ρ i × σ

namespace Traced

variable {κ σ : Type} {ω : Type u}

/-- Nothing has happened yet. -/
def idle (store : σ) : Traced ρ κ σ α := ⟨store, 0, fun _ => none⟩

/-- The next moment, with a task. -/
def goOn (s : Traced ρ κ σ α) (id : ℕ) (store : σ) (t : Doing ρ κ α) : Traced ρ κ σ α :=
  ⟨store, s.now + 1, Function.update s.tasks id (some t)⟩

variable (program : κ → Prog ρ α) (serve : ω → TimedService ρ σ)

/-- One event. -/
def step (s : Traced ρ κ σ α) : Pool.Event κ ω → Option (Traced ρ κ σ α)
  | .start id req =>
    match s.tasks id with
    | none => some (s.goOn id s.store ⟨req, s.now, [], program req⟩)
    | some _ => none
  | .call id w =>
    match s.tasks id with
    | some ⟨req, began, trace, .call i next⟩ =>
      some (s.goOn id (serve w s.now i s.store).2
        ⟨req, began, (s.now, ⟨i, (serve w s.now i s.store).1⟩) :: trace,
          next (serve w s.now i s.store).1⟩)
    | _ => none

variable {program serve} {s s' : Traced ρ κ σ α}

/-- What an event does, whichever it is. -/
theorem step_cases {ev : Pool.Event κ ω} (h : s.step program serve ev = some s') :
    (∃ id req, ev = .start id req ∧ s.tasks id = none ∧
      s' = s.goOn id s.store ⟨req, s.now, [], program req⟩) ∨
    ∃ id w req began trace i next, ev = .call id w ∧
      s.tasks id = some ⟨req, began, trace, .call i next⟩ ∧
      s' = s.goOn id (serve w s.now i s.store).2
        ⟨req, began, (s.now, ⟨i, (serve w s.now i s.store).1⟩) :: trace,
          next (serve w s.now i s.store).1⟩ := by
  rcases ev with ⟨id, req⟩ | ⟨id, w⟩
  · rcases htask : s.tasks id with _ | t
    · simp only [step, htask, Option.some.injEq] at h
      exact .inl ⟨id, req, rfl, htask, h.symm⟩
    · simp [step, htask] at h
  · rcases htask : s.tasks id with _ | ⟨req, began, trace, a | _ | ⟨i, next⟩⟩
    · simp [step, htask] at h
    · simp [step, htask] at h
    · simp [step, htask] at h
    · simp only [step, htask, Option.some.injEq] at h
      exact .inr ⟨id, w, req, began, trace, i, next, rfl, htask, h.symm⟩

theorem goOn_tasks (s : Traced ρ κ σ α) (id : ℕ) (store : σ) (t : Doing ρ κ α) (id' : ℕ) :
    (s.goOn id store t).tasks id' = if id' = id then some t else s.tasks id' :=
  Function.update_apply ..

/-- The calls of a task are behind its start and before this moment. -/
structure Timely (now : ℕ) (t : Doing ρ κ α) : Prop where
  began_lt : t.began < now
  between : ∀ e ∈ t.trace, t.began < e.1 ∧ e.1 < now

theorem Timely.mono {now now' : ℕ} {t : Doing ρ κ α} (h : Timely now t) (hle : now ≤ now') :
    Timely now' t where
  began_lt := Nat.lt_of_lt_of_le h.began_lt hle
  between e he := ⟨(h.between e he).1, Nat.lt_of_lt_of_le (h.between e he).2 hle⟩

/-- What is left of every task ensures what its program ensures, and its calls have their moments. -/
def Tracked (before : κ → List (Entry ρ) → ι → Prop) (final : κ → List (Entry ρ) → α → Prop)
    (s : Traced ρ κ σ α) : Prop :=
  ∀ id t, s.tasks id = some t →
    t.left.Ensures (before t.req) (final t.req) (t.trace.map Prod.snd) ∧ Timely s.now t

variable {before : κ → List (Entry ρ) → ι → Prop} {final : κ → List (Entry ρ) → α → Prop}

theorem Tracked.step {ev : Pool.Event κ ω} (h : s.Tracked before final)
    (hprog : ∀ req, (program req).Ensures (before req) (final req) [])
    (hstep : s.step program serve ev = some s') : s'.Tracked before final := by
  have hold : ∀ id t, s.tasks id = some t →
      t.left.Ensures (before t.req) (final t.req) (t.trace.map Prod.snd) ∧ Timely (s.now + 1) t :=
    fun id t ht => ⟨(h id t ht).1, (h id t ht).2.mono (Nat.le_succ _)⟩
  obtain ⟨id, req, rfl, -, rfl⟩ | ⟨id, w, req, began, trace, i, next, rfl, htask, rfl⟩ :=
    step_cases hstep
  · intro id' t ht
    rw [goOn_tasks] at ht
    split_ifs at ht
    · obtain rfl := Option.some.inj ht
      exact ⟨hprog req, ⟨Nat.lt_succ_self _, fun e he => absurd he List.not_mem_nil⟩⟩
    · exact hold id' t ht
  · intro id' t ht
    rw [goOn_tasks] at ht
    split_ifs at ht
    · obtain rfl := Option.some.inj ht
      obtain ⟨hensures, htimes⟩ := h id _ htask
      refine ⟨hensures.2 _, ⟨Nat.lt_succ_of_lt htimes.began_lt, fun e he => ?_⟩⟩
      obtain rfl | he := List.mem_cons.mp he
      · exact ⟨htimes.began_lt, Nat.lt_succ_self _⟩
      · exact ⟨(htimes.between e he).1, Nat.lt_succ_of_lt (htimes.between e he).2⟩
    · exact hold id' t ht

/-- **What programs ensure alone holds of what is left of them in any company.** -/
theorem tracked_reach {ok : Run.History (Traced ρ κ σ α) (Pool.Event κ ω) → Traced ρ κ σ α →
      Pool.Event κ ω → Prop}
    (hprog : ∀ req, (program req).Ensures (before req) (final req) []) {store : σ}
    {hist : Run.History (Traced ρ κ σ α) (Pool.Event κ ω)}
    (h : Run.Reach (step program serve) ok (idle store) hist s) : s.Tracked before final := by
  refine @Run.Reach.invariant _ _ _ _ _ (fun _ s => s.Tracked before final)
    (fun id t ht => absurd ht (by simp [idle])) ?_ _ _ h
  rintro hist s s' ev hs - hstep
  exact hs.step hprog hstep

/-- A call that a task has made after an event was made before it, or is the event. -/
theorem mem_trace_cases {ev : Pool.Event κ ω} (hstep : s.step program serve ev = some s') {id m : ℕ}
    {t : Doing ρ κ α} {e : Entry ρ} (ht : s'.tasks id = some t) (he : (m, e) ∈ t.trace) :
    (∃ t₀, s.tasks id = some t₀ ∧ t₀.req = t.req ∧ t₀.began = t.began ∧ (m, e) ∈ t₀.trace) ∨
      ∃ w i next, ev = .call id w ∧ m = s.now ∧ e = ⟨i, (serve w s.now i s.store).1⟩ ∧
        s'.store = (serve w s.now i s.store).2 ∧
        s.tasks id = some ⟨t.req, t.began, t.trace.tail, .call i next⟩ := by
  obtain ⟨id', req, rfl, -, rfl⟩ | ⟨id', w, req, began, trace, i, next, rfl, htask, rfl⟩ :=
    step_cases hstep
  · rw [goOn_tasks] at ht
    split_ifs at ht
    · obtain rfl := Option.some.inj ht
      exact absurd he List.not_mem_nil
    · exact .inl ⟨t, ht, rfl, rfl, he⟩
  · rw [goOn_tasks] at ht
    split_ifs at ht with hid
    · obtain rfl := Option.some.inj ht
      subst hid
      obtain heq | hold := List.mem_cons.mp he
      · obtain ⟨rfl, rfl⟩ := Prod.mk.inj heq
        exact .inr ⟨w, i, next, rfl, rfl, rfl, rfl, htask⟩
      · exact .inl ⟨_, htask, rfl, rfl, hold⟩
    · exact .inl ⟨t, ht, rfl, rfl, he⟩

/-- **Every call of a task was answered in a state of the past**, at its moment, and the past is behind
this moment. -/
theorem answered_reach {ok : Run.History (Traced ρ κ σ α) (Pool.Event κ ω) → Traced ρ κ σ α →
      Pool.Event κ ω → Prop} {store : σ} {hist : Run.History (Traced ρ κ σ α) (Pool.Event κ ω)}
    (h : Run.Reach (step program serve) ok (idle store) hist s) :
    (∀ p ∈ hist, p.1.now < s.now) ∧ ∀ id t, s.tasks id = some t → ∀ m i r, (m, ⟨i, r⟩) ∈ t.trace →
      ∃ p ∈ hist, p.1.now = m ∧ ∃ w, (serve w m i p.1.store).1 = r := by
  induction h with
  | start => exact ⟨fun p hp => absurd hp List.not_mem_nil, fun id t ht => absurd ht (by simp [idle])⟩
  | @next hist s s' ev _ _ hstep ih =>
    obtain ⟨hpast, hanswered⟩ := ih
    have hnow : s'.now = s.now + 1 := by
      obtain ⟨_, _, rfl, -, rfl⟩ | ⟨_, _, _, _, _, _, _, rfl, -, rfl⟩ := step_cases hstep
      · rfl
      · rfl
    refine ⟨List.forall_mem_cons.mpr ⟨hnow ▸ Nat.lt_succ_self _, fun p hp => ?_⟩, ?_⟩
    · exact hnow ▸ Nat.lt_succ_of_lt (hpast p hp)
    · intro id t ht m i r he
      obtain ⟨t₀, ht₀, -, -, he₀⟩ | ⟨w, i', next, rfl, rfl, heq, -, -⟩ := mem_trace_cases hstep ht he
      · obtain ⟨p, hp, hm, hw⟩ := hanswered id t₀ ht₀ m i r he₀
        exact ⟨p, List.mem_cons_of_mem _ hp, hm, hw⟩
      · cases heq
        exact ⟨_, List.mem_cons_self, rfl, w, rfl⟩

end Traced

end Prog

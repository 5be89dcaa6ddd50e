import Mathlib.Logic.Function.Basic
import Xsiam.Lib.Run

/-!
# Programs that call a service

A program that works on what it does not own, a database say, makes calls and goes on with the
replies (`Prog`). What a call does is said by the service alone (`Prog.Service`), so one program can
be run from beginning to end (`Prog.run`), or together with others, one call at a time and in any
order (`Prog.Pool.step`). A call that gets no reply takes its program down.

What is preserved by every call that a program may make is preserved by the program
(`Prog.inv_run`), and by all programs of a pool, however their calls take turns
(`Prog.Pool.inv_reach`).
-/

universe u

/-- A program: it has come to its end, has gone down, or makes a call and goes on with the reply. -/
inductive Prog {ι : Type} (ρ : ι → Type) (α : Type) where
  | done (a : α)
  | crash
  | call (i : ι) (next : ρ i → Prog ρ α)

namespace Prog

variable {ι : Type} {ρ : ι → Type} {α β σ : Type}

/-- A program after a program. -/
protected def bind : Prog ρ α → (α → Prog ρ β) → Prog ρ β
  | done a, f => f a
  | crash, _ => crash
  | call i next, f => call i fun r => (next r).bind f

instance : Monad (Prog ρ) where
  pure := done
  bind := Prog.bind

/-- One call, for its reply. -/
def send (i : ι) : Prog ρ (ρ i) := call i done

@[simp] theorem pure_eq (a : α) : (pure a : Prog ρ α) = done a := rfl

@[simp] theorem done_bind (a : α) (f : α → Prog ρ β) : (done a : Prog ρ α) >>= f = f a := rfl

@[simp] theorem crash_bind (f : α → Prog ρ β) : (crash : Prog ρ α) >>= f = crash := rfl

@[simp] theorem call_bind (i : ι) (next : ρ i → Prog ρ α) (f : α → Prog ρ β) :
    call i next >>= f = call i fun r => next r >>= f := rfl

@[simp] theorem send_bind (i : ι) (f : ρ i → Prog ρ β) : send i >>= f = call i f := rfl

theorem map_eq (f : α → β) (p : Prog ρ α) : f <$> p = p >>= fun a => pure (f a) := rfl

/-- A program after two programs. -/
theorem bind_assoc {γ : Type} (p : Prog ρ α) (f : α → Prog ρ β) (g : β → Prog ρ γ) :
    p >>= f >>= g = p >>= fun a => f a >>= g := by
  induction p with
  | done a => rfl
  | crash => rfl
  | call i next ih =>
    rw [call_bind, call_bind, call_bind]
    congr 1
    funext r
    exact ih r

/-! ### A program alone -/

/-- What a service does with a call: its reply, if the call gets one, and what it leaves behind. -/
abbrev Service (ρ : ι → Type) (σ : Type) := (i : ι) → σ → Option (ρ i) × σ

section Run

variable (serve : Service ρ σ)

/-- A program run from beginning to end. -/
def run : Prog ρ α → σ → Option α × σ
  | done a, s => (some a, s)
  | crash, s => (none, s)
  | call i next, s =>
    match serve i s with
    | (some r, s') => run (next r) s'
    | (none, s') => (none, s')

@[simp] theorem run_done (a : α) (s : σ) : run serve (done a : Prog ρ α) s = (some a, s) := rfl

@[simp] theorem run_crash (s : σ) : run serve (crash : Prog ρ α) s = (none, s) := rfl

variable {serve}

theorem run_call_some {i : ι} {next : ρ i → Prog ρ α} {s s' : σ} {r : ρ i}
    (h : serve i s = (some r, s')) : run serve (call i next) s = run serve (next r) s' := by
  rw [run, h]

theorem run_send (i : ι) (s : σ) : run serve (send i) s = serve i s := by
  rw [send, run]
  rcases serve i s with ⟨_ | r, s'⟩
  · rfl
  · rfl

/-- A program after a program, run. -/
theorem run_bind (p : Prog ρ α) (f : α → Prog ρ β) : ∀ s, run serve (p >>= f) s =
    match run serve p s with
    | (some a, s') => run serve (f a) s'
    | (none, s') => (none, s') := by
  induction p with
  | done a => exact fun s => rfl
  | crash => exact fun s => rfl
  | call i next ih =>
    intro s
    rw [call_bind, run, run]
    rcases serve i s with ⟨_ | r, s'⟩
    · rfl
    · exact ih r s'

end Run

/-! ### The calls of a program -/

/-- Every call that a program may make has a property. -/
def Calls (P : ι → Prop) : Prog ρ α → Prop
  | done _ => True
  | crash => True
  | call i next => P i ∧ ∀ r, Calls P (next r)

theorem Calls.bind {P : ι → Prop} {p : Prog ρ α} {f : α → Prog ρ β} (hp : p.Calls P)
    (hf : ∀ a, (f a).Calls P) : (p >>= f).Calls P := by
  induction p with
  | done a => exact hf a
  | crash => exact trivial
  | call i next ih => exact ⟨hp.1, fun r => ih r (hp.2 r)⟩

theorem calls_send {P : ι → Prop} {i : ι} (h : P i) : (send i : Prog ρ (ρ i)).Calls P :=
  ⟨h, fun _ => trivial⟩

theorem calls_of_forall {P : ι → Prop} (h : ∀ i, P i) (p : Prog ρ α) : p.Calls P := by
  induction p with
  | done a => exact trivial
  | crash => exact trivial
  | call i next ih => exact ⟨h i, ih⟩

theorem Calls.mono {P Q : ι → Prop} (hPQ : ∀ i, P i → Q i) {p : Prog ρ α} (hp : p.Calls P) :
    p.Calls Q := by
  induction p with
  | done a => exact trivial
  | crash => exact trivial
  | call i next ih => exact ⟨hPQ i hp.1, fun r => ih r (hp.2 r)⟩

/-- Every call that a program makes when it is run meets a condition, which may look at the state
that the call meets. -/
def Along (serve : Service ρ σ) (good : ι → σ → Prop) : Prog ρ α → σ → Prop
  | done _, _ => True
  | crash, _ => True
  | call i next, s => good i s ∧
    match serve i s with
    | (some r, s') => Along serve good (next r) s'
    | (none, _) => True

theorem along_call {serve : Service ρ σ} {good : ι → σ → Prop} {i : ι} {next : ρ i → Prog ρ α}
    {s : σ} : (call i next).Along serve good s ↔ good i s ∧
      match serve i s with
      | (some r, s') => (next r).Along serve good s'
      | (none, _) => True := by
  rw [Along]

instance decidableAlong {serve : Service ρ σ} {good : ι → σ → Prop} [∀ i s, Decidable (good i s)] :
    ∀ (p : Prog ρ α) (s : σ), Decidable (p.Along serve good s)
  | done _, _ => isTrue trivial
  | crash, _ => isTrue trivial
  | call i next, s =>
    have : Decidable (match serve i s with
        | (some r, s') => (next r).Along serve good s'
        | (none, _) => True) :=
      match serve i s with
      | (some r, s') => decidableAlong (next r) s'
      | (none, _) => isTrue trivial
    decidable_of_iff _ along_call.symm

theorem Calls.along {serve : Service ρ σ} {P : ι → Prop} {good : ι → σ → Prop}
    (h : ∀ i s, P i → good i s) {p : Prog ρ α} (hp : p.Calls P) :
    ∀ s, p.Along serve good s := by
  induction p with
  | done a => exact fun s => trivial
  | crash => exact fun s => trivial
  | call i next ih =>
    intro s
    refine along_call.mpr ⟨h i s hp.1, ?_⟩
    rcases serve i s with ⟨_ | r, s'⟩
    · exact trivial
    · exact ih r (hp.2 r) s'

/-- **What the calls that a program makes preserve is preserved by the program.** -/
theorem inv_along {serve : Service ρ σ} {good : ι → σ → Prop} {P : ι → Prop} {inv : σ → Prop}
    (hserve : ∀ i s, P i → good i s → inv s → inv (serve i s).2) {p : Prog ρ α} (hp : p.Calls P) :
    ∀ {s}, p.Along serve good s → inv s → inv (run serve p s).2 := by
  induction p with
  | done a => exact fun _ hs => hs
  | crash => exact fun _ hs => hs
  | call i next ih =>
    intro s halong hs
    obtain ⟨hgood, hrest⟩ := along_call.mp halong
    have hnext := hserve i s hp.1 hgood hs
    rw [run]
    rcases heq : serve i s with ⟨_ | r, s'⟩
    · rwa [heq] at hnext
    · rw [heq] at hnext hrest
      exact ih r (hp.2 r) hrest hnext

/-- **What the calls of a program preserve is preserved by the program.** -/
theorem inv_run {serve : Service ρ σ} {P : ι → Prop} {inv : σ → Prop}
    (hserve : ∀ i s, P i → inv s → inv (serve i s).2) {p : Prog ρ α} (hp : p.Calls P) {s : σ}
    (hs : inv s) : inv (run serve p s).2 :=
  @inv_along ι ρ α σ serve (fun _ _ => True) P inv (fun i s hi _ => hserve i s hi) p hp s
    (hp.along (fun _ _ _ => trivial) s) hs

/-- A program does the same where the service keeps more than the calls need. -/
theorem run_image {τ : Type} {f : σ → τ} {serve : Service ρ σ} {serve' : Service ρ τ}
    (h : ∀ i s, serve' i (f s) = ((serve i s).1, f (serve i s).2)) (p : Prog ρ α) :
    ∀ s, run serve' p (f s) = ((run serve p s).1, f (run serve p s).2) := by
  induction p with
  | done a => exact fun s => rfl
  | crash => exact fun s => rfl
  | call i next ih =>
    intro s
    rw [run, run, h i s]
    rcases serve i s with ⟨_ | r, s'⟩
    · rfl
    · exact ih r s'

/-! ### Programs that take turns -/

/-- What several programs work on, and what is left of each of them, next to the request that it
was started for. -/
structure Pool (ρ : ι → Type) (κ σ α : Type) where
  store : σ
  tasks : ℕ → Option (κ × Prog ρ α)

namespace Pool

variable {κ : Type} {ω : Type u}

/-- What happens in a pool: a program is started for a request, or makes its next call. How the
call goes is brought along. -/
inductive Event (κ : Type) (ω : Type u) where
  | start (id : ℕ) (req : κ)
  | call (id : ℕ) (w : ω)

variable (program : κ → Prog ρ α) (serve : ω → Service ρ σ)

/-- A task with what is left of its program. -/
def goOn (s : Pool ρ κ σ α) (id : ℕ) (req : κ) (store : σ) (p : Prog ρ α) : Pool ρ κ σ α :=
  ⟨store, Function.update s.tasks id (some (req, p))⟩

/-- One event. -/
def step (s : Pool ρ κ σ α) : Event κ ω → Option (Pool ρ κ σ α)
  | .start id req =>
    match s.tasks id with
    | none => some (s.goOn id req s.store (program req))
    | some _ => none
  | .call id w =>
    match s.tasks id with
    | some (req, .call i next) =>
      match serve w i s.store with
      | (some r, store) => some (s.goOn id req store (next r))
      | (none, store) => some (s.goOn id req store .crash)
    | _ => none

/-- A pool that has nothing to do. -/
def idle (store : σ) : Pool ρ κ σ α := ⟨store, fun _ => none⟩

variable {program serve} {s s' : Pool ρ κ σ α}

/-- What an event does, whichever it is. -/
theorem step_cases {ev : Event κ ω} (h : s.step program serve ev = some s') :
    (∃ id req, ev = .start id req ∧ s.tasks id = none ∧ s' = s.goOn id req s.store (program req)) ∨
    ∃ id w req i next, ev = .call id w ∧ s.tasks id = some (req, .call i next) ∧
      s' = s.goOn id req (serve w i s.store).2
        (match (serve w i s.store).1 with | some r => next r | none => .crash) := by
  rcases ev with ⟨id, req⟩ | ⟨id, w⟩
  · rcases htask : s.tasks id with _ | t
    · simp only [step, htask, Option.some.injEq] at h
      exact .inl ⟨id, req, rfl, htask, h.symm⟩
    · simp [step, htask] at h
  · rcases htask : s.tasks id with _ | ⟨req, a | _ | ⟨i, next⟩⟩
    · simp [step, htask] at h
    · simp [step, htask] at h
    · simp [step, htask] at h
    · refine .inr ⟨id, w, req, i, next, rfl, htask, ?_⟩
      simp only [step, htask] at h
      rcases heq : serve w i s.store with ⟨_ | r, store⟩
      · rw [heq] at h
        exact (Option.some.inj h).symm
      · rw [heq] at h
        exact (Option.some.inj h).symm

@[simp] theorem goOn_store (s : Pool ρ κ σ α) (id : ℕ) (req : κ) (store : σ) (p : Prog ρ α) :
    (s.goOn id req store p).store = store := rfl

theorem goOn_tasks (s : Pool ρ κ σ α) (id : ℕ) (req : κ) (store : σ) (p : Prog ρ α) (id' : ℕ) :
    (s.goOn id req store p).tasks id' = if id' = id then some (req, p) else s.tasks id' :=
  Function.update_apply ..

/-- The call that an event makes meets a condition, which may look at what is worked on, at the
request and at how the call goes. -/
def Meets (good : σ → κ → ω → ι → Prop) (s : Pool ρ κ σ α) : Event κ ω → Prop
  | .start _ _ => True
  | .call id w => ∀ req i next, s.tasks id = some (req, .call i next) → good s.store req w i

theorem meets_call_iff {good : σ → κ → ω → ι → Prop} {s : Pool ρ κ σ α} {id : ℕ} {w : ω} :
    s.Meets good (.call id w) ↔
      match s.tasks id with
      | some (req, .call i _) => good s.store req w i
      | _ => True := by
  rw [Meets]
  rcases htask : s.tasks id with _ | ⟨req, a | _ | ⟨i, next⟩⟩
  · simp
  · simp
  · simp
  · exact ⟨fun h => h req i next rfl, by rintro h _ _ _ ⟨rfl⟩; exact h⟩

instance decidableMeets {good : σ → κ → ω → ι → Prop}
    [∀ store req w i, Decidable (good store req w i)] (s : Pool ρ κ σ α) :
    (ev : Event κ ω) → Decidable (s.Meets good ev)
  | .start _ _ => isTrue trivial
  | .call id w =>
    have : Decidable (match s.tasks id with
        | some (req, .call i _) => good s.store req w i
        | _ => True) :=
      match s.tasks id with
      | some (_, .call _ _) => inferInstance
      | none => isTrue trivial
      | some (_, .done _) => isTrue trivial
      | some (_, .crash) => isTrue trivial
    decidable_of_iff _ meets_call_iff.symm

/-- What is left of every program makes calls of its request only. -/
def Within (P : κ → ι → Prop) (s : Pool ρ κ σ α) : Prop :=
  ∀ id req p, s.tasks id = some (req, p) → p.Calls (P req)

theorem Within.goOn {P : κ → ι → Prop} (h : s.Within P) (id : ℕ) {req : κ} (store : σ)
    {p : Prog ρ α} (hp : p.Calls (P req)) : (s.goOn id req store p).Within P := by
  intro id' req' p' hp'
  rw [goOn_tasks] at hp'
  split_ifs at hp'
  · obtain ⟨rfl, rfl⟩ := Prod.mk.inj (Option.some.inj hp')
    exact hp
  · exact h id' req' p' hp'

/-- **What the calls of all programs preserve, where they meet a condition, holds in every state
reached.** -/
theorem inv_reach {good : σ → κ → ω → ι → Prop} {P : κ → ι → Prop} {inv : σ → Prop}
    {ok : Run.History (Pool ρ κ σ α) (Event κ ω) → Pool ρ κ σ α → Event κ ω → Prop}
    (hprog : ∀ req, (program req).Calls (P req))
    (hserve : ∀ w req i st, P req i → good st req w i → inv st → inv (serve w i st).2)
    (hok : ∀ hist s ev, ok hist s ev → s.Meets good ev) {store : σ} (hinit : inv store)
    {hist : Run.History (Pool ρ κ σ α) (Event κ ω)}
    (h : Run.Reach (step program serve) ok (idle store) hist s) : inv s.store ∧ s.Within P := by
  refine @Run.Reach.invariant _ _ _ _ _ (fun _ s => inv s.store ∧ s.Within P)
    ⟨hinit, fun id req p hp => absurd hp (by simp [idle])⟩ ?_ _ _ h
  rintro hist s s' ev ⟨hinv, htasks⟩ hev hs
  obtain ⟨id, req, rfl, -, rfl⟩ | ⟨id, w, req, i, next, rfl, htask, rfl⟩ := step_cases hs
  · exact ⟨hinv, htasks.goOn id s.store (hprog req)⟩
  · obtain ⟨hi, hnext⟩ := htasks id req _ htask
    refine ⟨hserve w req i s.store hi (hok _ _ _ hev req i next htask) hinv,
      htasks.goOn id _ ?_⟩
    rcases (serve w i s.store).1 with _ | r
    · exact trivial
    · exact hnext r

end Pool

end Prog

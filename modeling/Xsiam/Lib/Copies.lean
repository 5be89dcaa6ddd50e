import Mathlib.Data.List.Infix
import Mathlib.Data.List.Perm.Subperm
import Mathlib.Logic.Function.Basic
import Mathlib.Logic.Relation
import Mathlib.Order.Defs.Unbundled
import Xsiam.Lib.Run

/-!
# Copies of what is stored

A value is changed in a copy of it, and the copy is written over it.

With one copy, which is changed again and again, stored now and then, and read back when it is lost, the
value is written behind (`WriteBehind.Step`). If a change only ever adds to the copy, then what is stored is
never ahead of it (`WriteBehind.Behind`), and what was stored once is never lost: it is part of what is
remembered ever after (`WriteBehind.Steps.kept`). A machine has this of all its runs if each of its events is
one of these steps, or several (`WriteBehind.kept_of_reach`).

With many copies, each of which is taken to add one thing to a list and is then written back
(`WriteBack.step`), a copy is written over what was added since it was taken. So all that was added is in
the list exactly if no copy is older than the list that it is written over (`WriteBack.kept_iff`).
-/

universe u

/-- A value in memory, and what of it is stored. -/
@[ext]
structure WriteBehind (α : Type u) where
  memory : α
  stored : α

namespace WriteBehind

variable {α : Type u} {le : α → α → Prop}

/-- The value grows, or is stored, or memory is lost and read back. -/
inductive Step (le : α → α → Prop) (s : WriteBehind α) : WriteBehind α → Prop where
  | grow (a : α) (h : le s.memory a) : Step le s { s with memory := a }
  | save : Step le s { s with stored := s.memory }
  | recover : Step le s { s with memory := s.stored }

/-- Nothing is stored that is not remembered. -/
def Behind (le : α → α → Prop) (s : WriteBehind α) : Prop := le s.stored s.memory

variable {s s' : WriteBehind α}

theorem Step.behind [IsPreorder α le] (h : Step le s s') (hs : s.Behind le) : s'.Behind le := by
  cases h with
  | grow a ha => exact IsTrans.trans _ _ _ hs ha
  | save => exact refl (r := le) s.memory
  | recover => exact refl (r := le) s.stored

/-- What is stored only grows. -/
theorem Step.stored_le [IsPreorder α le] (h : Step le s s') (hs : s.Behind le) :
    le s.stored s'.stored := by
  cases h with
  | grow a ha => exact refl (r := le) s.stored
  | save => exact hs
  | recover => exact refl (r := le) s.stored

/-! ### Several steps -/

/-- Some steps, one after the other. -/
abbrev Steps (le : α → α → Prop) : WriteBehind α → WriteBehind α → Prop :=
  Relation.ReflTransGen (Step le)

variable [IsPreorder α le]

theorem Steps.behind (h : Steps le s s') (hs : s.Behind le) : s'.Behind le := by
  induction h with
  | refl => exact hs
  | tail _ hstep ih => exact hstep.behind ih

theorem Steps.stored_le (h : Steps le s s') (hs : s.Behind le) : le s.stored s'.stored := by
  induction h with
  | refl => exact refl (r := le) s.stored
  | tail hsteps hstep ih => exact IsTrans.trans _ _ _ ih (hstep.stored_le (Steps.behind hsteps hs))

/-- **What is stored is remembered ever after.** -/
theorem Steps.kept (h : Steps le s s') (hs : s.Behind le) : le s.stored s'.memory :=
  IsTrans.trans _ _ _ (h.stored_le hs) (h.behind hs)

/-! ### Machines -/

section Machine

variable {σ ε : Type*} {step : σ → ε → Option σ} {ok : Run.History σ ε → σ → ε → Prop} {init : σ}
  {abs : σ → WriteBehind α} {inv : σ → Prop}

/-- **A machine that writes behind** remembers in every state reached what was stored by any event
before. -/
theorem kept_of_reach (hinit : inv init) (hbehind : (abs init).Behind le)
    (hstep : ∀ {hist : Run.History σ ε} {s s' : σ} {ev : ε}, inv s → ok hist s ev →
      step s ev = some s' → inv s' ∧ Steps le (abs s) (abs s'))
    {hist : Run.History σ ε} {s : σ} (h : Run.Reach step ok init hist s) :
    inv s ∧ (abs s).Behind le ∧ ∀ e ∈ hist, inv e.1 ∧ (abs e.1).Behind le ∧
      ∀ s₁, step e.1 e.2 = some s₁ → (abs s₁).Behind le ∧ Steps le (abs s₁) (abs s) := by
  induction h with
  | start => exact ⟨hinit, hbehind, fun e he => absurd he List.not_mem_nil⟩
  | next _ hok hs ih =>
    obtain ⟨hinv, hb, hpast⟩ := ih
    obtain ⟨hinv', hsteps⟩ := hstep hinv hok hs
    refine ⟨hinv', hsteps.behind hb, List.forall_mem_cons.mpr ⟨⟨hinv, hb, fun s₁ hs₁ => ?_⟩,
      fun e he => ?_⟩⟩
    · obtain rfl := Option.some.inj (hs.symm.trans hs₁)
      exact ⟨hsteps.behind hb, .refl⟩
    · obtain ⟨hinv₁, hb₁, hafter⟩ := hpast e he
      refine ⟨hinv₁, hb₁, fun s₁ hs₁ => ?_⟩
      exact ⟨(hafter s₁ hs₁).1, (hafter s₁ hs₁).2.trans hsteps⟩

end Machine

end WriteBehind

/-! ### Copies that are written back -/

variable {β : Type u}

/-- A list, and the copies of it that have been taken to add something. -/
structure WriteBack (β : Type u) where
  value : List β
  copies : ℕ → Option (List β)

namespace WriteBack

/-- A copy is taken, or is written back with something added. -/
inductive Event (β : Type u) where
  | read (id : ℕ)
  | write (id : ℕ) (b : β)

/-- A list of which no copy has been taken. -/
def start (init : List β) : WriteBack β := ⟨init, fun _ => none⟩

/-- One event. -/
def step (s : WriteBack β) : Event β → Option (WriteBack β)
  | .read id => some ⟨s.value, Function.update s.copies id (some s.value)⟩
  | .write id b => (s.copies id).map fun xs => ⟨xs ++ [b], Function.update s.copies id none⟩

/-- What an event adds. -/
def Event.added : Event β → Option β
  | .read _ => none
  | .write _ b => some b

/-- What was added in a run, newest first. -/
def added (hist : Run.History (WriteBack β) (Event β)) : List β := hist.filterMap fun e => e.2.added

/-- A copy that is written back is as the list is. -/
def Fresh (s : WriteBack β) : Event β → Prop
  | .read _ => True
  | .write id _ => s.copies id = some s.value

/-- What is known of a list that copies are written over: it began with what it begins with still, it has
no more than was added, and it has it all only as long as all copies were fresh. -/
structure Inv (init : List β) (hist : Run.History (WriteBack β) (Event β)) (s : WriteBack β) : Prop where
  kept : init <+: s.value
  bound : s.value.length ≤ init.length + (added hist).length
  copied : ∀ id xs, s.copies id = some xs →
    init <+: xs ∧ (xs = s.value ∨ xs.length < init.length + (added hist).length)
  exact_iff : s.value.length = init.length + (added hist).length ↔ ∀ e ∈ hist, Fresh e.1 e.2
  all : (∀ e ∈ hist, Fresh e.1 e.2) → s.value = init ++ (added hist).reverse

variable {init : List β} {hist : Run.History (WriteBack β) (Event β)} {s s' : WriteBack β}

theorem Inv.start (init : List β) : Inv init [] (start init) where
  kept := List.prefix_rfl
  bound := by simp [WriteBack.start]
  copied id xs h := by cases h
  exact_iff := by simp [WriteBack.start, added]
  all _ := by simp [WriteBack.start, added]

theorem Inv.read (h : Inv init hist s) (id : ℕ) :
    Inv init ((s, .read id) :: hist) ⟨s.value, Function.update s.copies id (some s.value)⟩ := by
  have hfresh : (∀ e ∈ (s, Event.read id) :: hist, Fresh e.1 e.2) ↔ ∀ e ∈ hist, Fresh e.1 e.2 := by
    rw [List.forall_mem_cons]
    exact and_iff_right trivial
  have hadded : added ((s, Event.read id) :: hist) = added hist := rfl
  refine ⟨h.kept, by rw [hadded]; exact h.bound, fun id' xs hxs => ?_,
    by rw [hfresh, hadded]; exact h.exact_iff, by rw [hfresh, hadded]; exact h.all⟩
  dsimp only at hxs
  rw [Function.update_apply] at hxs
  rw [hadded]
  split_ifs at hxs
  · obtain rfl := Option.some.inj hxs
    exact ⟨h.kept, .inl rfl⟩
  · exact h.copied id' xs hxs

theorem Inv.write (h : Inv init hist s) {id : ℕ} {xs : List β} (hcopy : s.copies id = some xs) (b : β) :
    Inv init ((s, .write id b) :: hist) ⟨xs ++ [b], Function.update s.copies id none⟩ := by
  have hadded : added ((s, Event.write id b) :: hist) = b :: added hist := rfl
  obtain ⟨hkept, hsize⟩ := h.copied id xs hcopy
  have hbound : xs.length ≤ init.length + (added hist).length := by
    rcases hsize with rfl | hlt
    · exact h.bound
    · exact hlt.le
  -- a copy that is as long as all that was added is the list, and the list is
  have hexact : xs.length = init.length + (added hist).length ↔
      ∀ e ∈ (s, Event.write id b) :: hist, Fresh e.1 e.2 := by
    rw [List.forall_mem_cons, ← h.exact_iff, Fresh, hcopy]
    constructor
    · intro heq
      obtain rfl := hsize.resolve_right (by omega)
      exact ⟨rfl, heq⟩
    · rintro ⟨hxs, heq⟩
      rw [Option.some.inj hxs, heq]
  refine ⟨hkept.trans (List.prefix_append _ _), ?_, fun id' ys hys => ?_, ?_, fun hfresh => ?_⟩
  · rw [hadded, List.length_append, List.length_singleton, List.length_cons]
    omega
  · dsimp only at hys
    rw [Function.update_apply] at hys
    split_ifs at hys
    obtain ⟨hys, hysSize⟩ := h.copied id' ys hys
    refine ⟨hys, .inr ?_⟩
    have hle : ys.length ≤ init.length + (added hist).length := by
      rcases hysSize with rfl | hlt
      · exact h.bound
      · exact hlt.le
    rw [hadded, List.length_cons]
    omega
  · rw [← hexact, hadded, List.length_append, List.length_singleton, List.length_cons]
    omega
  · obtain ⟨hcurrent, hbefore⟩ := List.forall_mem_cons.mp hfresh
    have hxs : xs = s.value := Option.some.inj (hcopy.symm.trans hcurrent)
    rw [hadded, List.reverse_cons, ← List.append_assoc, ← h.all hbefore, hxs]

theorem inv_of_reach (h : Run.Reach step Run.Any (start init) hist s) : Inv init hist s := by
  refine @Run.Reach.invariant _ _ _ _ _ (Inv init) (Inv.start init) ?_ _ _ h
  intro hist s s' ev hinv _ hs
  cases ev with
  | read id =>
    obtain rfl := Option.some.inj hs
    exact hinv.read id
  | write id b =>
    obtain ⟨xs, hcopy, rfl⟩ := Option.map_eq_some_iff.mp hs
    exact hinv.write hcopy b

/-- **All that was added is in the list** exactly if each copy was fresh when it was written back. -/
theorem kept_iff (h : Run.Reach step Run.Any (start init) hist s) (hnodup : (added hist).Nodup)
    (hnew : ∀ b ∈ added hist, b ∉ init) :
    (∀ b ∈ added hist, b ∈ s.value) ↔ ∀ e ∈ hist, Fresh e.1 e.2 := by
  have hinv := inv_of_reach h
  constructor
  · intro hall
    obtain ⟨rest, hrest⟩ := hinv.kept
    have hsub : added hist ⊆ rest := by
      intro b hb
      have hmem := hall b hb
      rw [← hrest] at hmem
      exact (List.mem_append.mp hmem).resolve_left (hnew b hb)
    rw [← hinv.exact_iff]
    refine Nat.le_antisymm hinv.bound ?_
    rw [← hrest, List.length_append]
    exact Nat.add_le_add_left (hnodup.subperm hsub).length_le _
  · intro hfresh b hb
    rw [hinv.all hfresh]
    exact List.mem_append_right _ (List.mem_reverse.mpr hb)

end WriteBack

import Mathlib.Data.List.Basic

/-!
# Folds that may fail

A loop over a list that changes a state and may give up, `List.foldlM` in `Option`. Four rules:
what a step commutes with, the loop commutes with (`PartialFold.foldlM_hom`); where it depends on
the elements alone whether a step succeeds, the loop succeeds exactly when every step does
(`PartialFold.returns_iff`); what the steps do to a part of the state, the loop does
(`PartialFold.proj_foldlM`); and what the steps keep, the loop keeps
(`PartialFold.foldlM_invariant`).
-/

namespace PartialFold

universe u v w

variable {α : Type u} {β : Type v} {γ : Type w}

/-- A map of states that every step commutes with. -/
theorem foldlM_hom {f : α → γ → Option α} {f' : β → γ → Option β} {g : α → β}
    (h : ∀ a x, f' (g a) x = (f a x).map g) (l : List γ) :
    ∀ a, l.foldlM f' (g a) = (l.foldlM f a).map g := by
  induction l with
  | nil => intro a; rfl
  | cons x l ih =>
    intro a
    rw [List.foldlM_cons, List.foldlM_cons, h]
    cases hx : f a x with
    | none => rfl
    | some b => exact ih b

/-- Steps that succeed or fail whatever the state. -/
theorem returns_iff {f : α → γ → Option α} {ok : γ → Prop}
    (h : ∀ a x, (∃ b, f a x = some b) ↔ ok x) (l : List γ) :
    ∀ a, (∃ b, l.foldlM f a = some b) ↔ ∀ x ∈ l, ok x := by
  induction l with
  | nil => intro a; exact iff_of_true ⟨a, rfl⟩ (by simp)
  | cons x l ih =>
    intro a
    rw [List.foldlM_cons, List.forall_mem_cons, ← h a x]
    cases hx : f a x with
    | none => exact iff_of_false (by simp) (by simp)
    | some b =>
      change (∃ c, l.foldlM f b = some c) ↔ _
      rw [ih b]
      exact ⟨fun hl => ⟨⟨b, rfl⟩, hl⟩, fun hl => hl.2⟩

/-- A part of the state that every step changes in a known way. -/
theorem proj_foldlM {f : α → γ → Option α} (π : α → β) (op : β → γ → β)
    (h : ∀ {a b x}, f a x = some b → π b = op (π a) x) {l : List γ} :
    ∀ {a b}, l.foldlM f a = some b → π b = l.foldl op (π a) := by
  induction l with
  | nil =>
    intro a b hl
    obtain rfl : a = b := Option.some.inj hl
    rfl
  | cons x l ih =>
    intro a b hl
    rw [List.foldlM_cons] at hl
    obtain ⟨c, hc, hl⟩ := Option.bind_eq_some_iff.mp hl
    rw [List.foldl_cons, ← h hc]
    exact ih hl

/-- What every step keeps, the loop keeps. -/
theorem foldlM_invariant {f : α → γ → Option α} (inv : α → Prop) {l : List γ}
    (h : ∀ {a b x}, x ∈ l → inv a → f a x = some b → inv b) :
    ∀ {a b}, inv a → l.foldlM f a = some b → inv b := by
  induction l with
  | nil =>
    intro a b ha hl
    obtain rfl : a = b := Option.some.inj hl
    exact ha
  | cons x l ih =>
    intro a b ha hl
    rw [List.foldlM_cons] at hl
    obtain ⟨c, hc, hl⟩ := Option.bind_eq_some_iff.mp hl
    exact ih (fun hx => h (List.mem_cons_of_mem _ hx)) (h List.mem_cons_self ha hc) hl

end PartialFold

import Mathlib.Data.List.Infix

/-!
# Patterns with wildcards

A pattern is a list of items: a letter, one letter of any kind, or any run of letters. A text
matches it (`Wildcard.fits`) if it can be cut into pieces that match the items one by one.
-/

namespace Wildcard

/-- An item of a pattern. -/
inductive Item (α : Type) where
  /-- Any run of letters, also none. -/
  | run
  /-- One letter. -/
  | one
  /-- This letter. -/
  | letter (a : α)

variable {α : Type} [DecidableEq α]

/-- Whether a text matches a pattern. -/
def fits : List (Item α) → List α → Bool
  | [], t => t.isEmpty
  | .run :: p, t => t.tails.any (fits p)
  | .one :: _, [] => false
  | .one :: p, _ :: t => fits p t
  | .letter _ :: _, [] => false
  | .letter a :: p, b :: t => a = b && fits p t

/-- A run takes any beginning of the text. -/
theorem fits_run_iff {p : List (Item α)} {t : List α} :
    fits (.run :: p) t = true ↔ ∃ s u, t = s ++ u ∧ fits p u = true := by
  rw [fits, List.any_eq_true]
  constructor
  · rintro ⟨u, hu, hfits⟩
    obtain ⟨s, rfl⟩ := (List.mem_tails _ _).mp hu
    exact ⟨s, u, rfl, hfits⟩
  · rintro ⟨s, u, rfl, hfits⟩
    exact ⟨u, (List.mem_tails _ _).mpr (List.suffix_append s u), hfits⟩

/-- What an item matches when it stands for the letter it was made from. -/
def Stands (i : Item α) (a : α) : Prop := i = .letter a ∨ i = .one ∨ i = .run

/-- **A text matches a pattern whose items stand for its letters**, whatever is in front of it and
behind it. -/
theorem fits_append_of_stands {item : α → Item α} (hitem : ∀ a, Stands (item a) a)
    {q : List (Item α)} {t : List α} (ht : fits q t = true) (s : List α) :
    fits (s.map item ++ q) (s ++ t) = true := by
  induction s with
  | nil => exact ht
  | cons a s ih =>
    rw [List.map_cons, List.cons_append, List.cons_append]
    rcases hitem a with h | h | h
    · rw [h, fits, ih]
      simp
    · rw [h, fits, ih]
    · rw [h, fits_run_iff]
      exact ⟨[a], s ++ t, rfl, ih⟩

end Wildcard

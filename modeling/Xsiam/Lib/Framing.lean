import Mathlib.Data.List.Basic

/-!
# Messages in a stream

A stream comes in pieces, and messages are found at its start one after the other. What is found
at the start of some input (`Framing.Found`) is a message, or nothing yet, or the end of what can be
read, perhaps after a last message; and more input behind it changes a message or an end no more
(`Framing.Finder`).

The messages of a stream are then the same however it is cut: what is read of the pieces one after
the other, with what each of them left over, is what is read of the whole
(`Framing.Reads.append`), and that is unique (`Framing.Reads.unique`).
-/

namespace Framing

universe u v

/-- What is found at the start of some input. -/
inductive Found (μ : Type v) where
  /-- Too little to say. -/
  | more
  /-- A message, and its length. -/
  | message (m : μ) (n : ℕ)
  /-- The end, perhaps after a last message. -/
  | stop (m : Option μ)

/-- A way of finding messages that later input does not change. -/
structure Finder (α : Type u) (μ : Type v) where
  find : List α → Found μ
  le_length : ∀ {w : List α} {m : μ} {n : ℕ}, find w = .message m n → n ≤ w.length
  message_append : ∀ {w : List α} {m : μ} {n : ℕ} (v : List α), find w = .message m n →
    find (w ++ v) = .message m n
  stop_append : ∀ {w : List α} {m : Option μ} (v : List α), find w = .stop m →
    find (w ++ v) = .stop m

/-- The messages of some input, and what is left over behind them, unless the input ends with
them. -/
inductive Reads {α : Type u} {μ : Type v} (F : Finder α μ) :
    List α → List μ → Option (List α) → Prop where
  | more {w : List α} : F.find w = .more → Reads F w [] (some w)
  | message {w : List α} {m : μ} {n : ℕ} {ms : List μ} {r : Option (List α)} :
      F.find w = .message m n → Reads F (w.drop n) ms r → Reads F w (m :: ms) r
  | stop {w : List α} {m : Option μ} : F.find w = .stop m → Reads F w m.toList none

variable {α : Type u} {μ : Type v} {F : Finder α μ} {w v : List α} {ms ms' : List μ}
  {r r' : Option (List α)}

/-- **There is one way to read some input.** -/
theorem Reads.unique (h : Reads F w ms r) (h' : Reads F w ms' r') : ms = ms' ∧ r = r' := by
  induction h generalizing ms' with
  | more hfind =>
    cases h' with
    | more _ => exact ⟨rfl, rfl⟩
    | message hfind' _ => exact absurd (hfind.symm.trans hfind') (by simp)
    | stop hfind' => exact absurd (hfind.symm.trans hfind') (by simp)
  | message hfind _ ih =>
    cases h' with
    | more hfind' => exact absurd (hfind.symm.trans hfind') (by simp)
    | message hfind' hrest =>
      obtain ⟨rfl, rfl⟩ := Found.message.inj (hfind.symm.trans hfind')
      obtain ⟨rfl, rfl⟩ := ih hrest
      exact ⟨rfl, rfl⟩
    | stop hfind' => exact absurd (hfind.symm.trans hfind') (by simp)
  | stop hfind =>
    cases h' with
    | more hfind' => exact absurd (hfind.symm.trans hfind') (by simp)
    | message hfind' _ => exact absurd (hfind.symm.trans hfind') (by simp)
    | stop hfind' =>
      obtain rfl := Found.stop.inj (hfind.symm.trans hfind')
      exact ⟨rfl, rfl⟩

/-- **A stream in two pieces**: the second one is read behind what the first one left over. -/
theorem Reads.append {rest : List α} (h : Reads F w ms (some rest))
    (hrest : Reads F (rest ++ v) ms' r) : Reads F (w ++ v) (ms ++ ms') r := by
  generalize hr : some rest = r₀ at h
  induction h with
  | more _ =>
    obtain rfl := Option.some.inj hr
    exact hrest
  | message hfind _ ih =>
    refine .message (F.message_append v hfind) ?_
    rw [List.drop_append_of_le_length (F.le_length hfind)]
    exact ih hr
  | stop _ => exact absurd hr (by simp)

/-- What comes behind the end is not read. -/
theorem Reads.append_none (h : Reads F w ms none) (v : List α) : Reads F (w ++ v) ms none := by
  generalize hr : none = r₀ at h
  induction h with
  | more _ => exact absurd hr (by simp)
  | message hfind _ ih =>
    refine .message (F.message_append v hfind) ?_
    rw [List.drop_append_of_le_length (F.le_length hfind)]
    exact ih hr
  | stop hfind => exact .stop (F.stop_append v hfind)

/-- What is left over is the end of the input, and too little to say what it is. -/
theorem Reads.rest {rest : List α} (h : Reads F w ms (some rest)) :
    F.find rest = .more ∧ rest <:+ w := by
  generalize hr : some rest = r₀ at h
  induction h with
  | more hfind =>
    obtain rfl := Option.some.inj hr
    exact ⟨hfind, List.suffix_rfl⟩
  | message _ _ ih =>
    obtain ⟨hfind, hsuffix⟩ := ih hr
    exact ⟨hfind, hsuffix.trans (List.drop_suffix _ _)⟩
  | stop _ => exact absurd hr (by simp)

end Framing

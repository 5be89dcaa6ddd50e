import Mathlib.Algebra.Group.Nat.Defs

/-!
# Readers with an offset of 32 bits

Code that reads a body of bytes where it lies keeps an offset into it in a machine word. Before it
reads an item it asks whether the offset and the length of the item are more than the length of the
body, and then it moves the offset on; both sums may wrap around. Such a reader yields a value or
fails, and what it did until then stays done (`Scan`).

What is true afterwards is said by a triple (`Scan.Triple`), with one postcondition for what is
yielded and one for a failure. Where the body leaves room for an item below `2 ^ 32` no sum wraps
around, so an offset that moves on only after it was asked about never leaves the body
(`Scan.triple_advance`).
-/

namespace Scan

/-- Where a reader is. -/
structure Cursor (σ : Type) where
  off : UInt32
  /-- The offsets it was at before, latest first. -/
  past : List UInt32 := []
  /-- What else it works on. -/
  own : σ

/-- The offsets a reader was at until now. -/
def Cursor.offsets {σ : Type} (c : Cursor σ) : List UInt32 := c.off :: c.past

end Scan

/-- A reader: what it yields unless it fails, and where it is then. -/
def Scan (σ α : Type) := Scan.Cursor σ → Option α × Scan.Cursor σ

namespace Scan

variable {σ α β : Type}

instance : Monad (Scan σ) where
  pure a := fun c => (some a, c)
  bind p f := fun c =>
    match p c with
    | (some a, c') => f a c'
    | (none, c') => (none, c')

def fail : Scan σ α := fun c => (none, c)

def offset : Scan σ UInt32 := fun c => (some c.off, c)

/-- `off += n` -/
def advance (n : UInt32) : Scan σ Unit := fun c =>
  (some (), { c with off := c.off + n, past := c.off :: c.past })

def modify (f : σ → σ) : Scan σ Unit := fun c => (some (), { c with own := f c.own })

/-! ### Triples -/

/-- What holds after a reader that starts where something holds: `Q` of what it yields, and `E`
where it fails. -/
def Triple (P : Cursor σ → Prop) (p : Scan σ α) (Q : α → Cursor σ → Prop) (E : Cursor σ → Prop) :
    Prop :=
  ∀ c, P c →
    match p c with
    | (some a, c') => Q a c'
    | (none, c') => E c'

section Rules

variable {P : Cursor σ → Prop} {Q : α → Cursor σ → Prop} {E : Cursor σ → Prop} {p : Scan σ α}

theorem triple_pure {a : α} (h : ∀ c, P c → Q a c) : Triple P (pure a : Scan σ α) Q E := h

/-- **One reader after another.** -/
theorem Triple.bind {R : β → Cursor σ → Prop} {q : Scan σ β} {f : β → Scan σ α}
    (hq : Triple P q R E) (hf : ∀ b, Triple (R b) (f b) Q E) : Triple P (q >>= f) Q E := by
  intro c hc
  have hfirst := hq c hc
  change match (match q c with
    | (some b, c') => f b c'
    | (none, c') => (none, c')) with
    | (some a, c') => Q a c'
    | (none, c') => E c'
  rcases hq : q c with ⟨_ | b, c'⟩
  · rw [hq] at hfirst
    exact hfirst
  · rw [hq] at hfirst
    exact hf b c' hfirst

theorem Triple.mono {Q' : α → Cursor σ → Prop} {E' : Cursor σ → Prop} (h : Triple P p Q E)
    (hQ : ∀ a c, Q a c → Q' a c) (hE : ∀ c, E c → E' c) : Triple P p Q' E' := by
  intro c hc
  have hafter := h c hc
  rcases hp : p c with ⟨_ | a, c'⟩
  · rw [hp] at hafter
    exact hE c' hafter
  · rw [hp] at hafter
    exact hQ a c' hafter

/-- What is known before a reader apart from where it is. -/
theorem triple_and {φ : Prop} (h : φ → Triple P p Q E) : Triple (fun c => φ ∧ P c) p Q E :=
  fun c hc => h hc.1 c hc.2

theorem triple_exists {ι : Type} {P : ι → Cursor σ → Prop} (h : ∀ i, Triple (P i) p Q E) :
    Triple (fun c => ∃ i, P i c) p Q E := by
  rintro c ⟨i, hi⟩
  exact h i c hi

end Rules

/-! ### Offsets -/

/-- A reader has never left a body of a length. -/
def Inside (len : ℕ) (c : Cursor σ) : Prop := ∀ o ∈ c.offsets, o.toNat ≤ len

/-- A reader is at an offset of a body that it has never left. -/
structure At (len : ℕ) (o : UInt32) (w : σ) (c : Cursor σ) : Prop where
  off_eq : c.off = o
  own_eq : c.own = w
  inside : Inside len c

section Offsets

variable {len : ℕ} {o n : UInt32} {w : σ} {Q : α → Cursor σ → Prop} {E : Cursor σ → Prop}
  {p : Scan σ α}

theorem At.off_le {c : Cursor σ} (h : At len o w c) : o.toNat ≤ len :=
  h.off_eq ▸ h.inside _ List.mem_cons_self

theorem triple_offset {f : UInt32 → Scan σ α} (h : Triple (At len o w) (f o) Q E) :
    Triple (At len o w) (offset >>= f) Q E := by
  intro c hc
  obtain rfl := hc.off_eq
  exact h c hc

theorem triple_modify {g : σ → σ} {f : Unit → Scan σ α} (h : Triple (At len o (g w)) (f ()) Q E) :
    Triple (At len o w) (modify g >>= f) Q E := by
  intro c hc
  exact h _ ⟨hc.off_eq, congrArg g hc.own_eq, hc.inside⟩

/-- A sum that does not wrap around. -/
theorem toNat_add_of_lt {k : ℕ} (hn : n.toNat = k) (h : o.toNat + k < 2 ^ 32) :
    (o + n).toNat = o.toNat + k := by
  rw [UInt32.toNat_add, hn, Nat.mod_eq_of_lt h]

/-- The offset moves on within the body. -/
theorem triple_advance {f : Unit → Scan σ α} (hroom : (o + n).toNat ≤ len)
    (h : Triple (At len (o + n) w) (f ()) Q E) : Triple (At len o w) (advance n >>= f) Q E := by
  intro c hc
  refine h _ ⟨congrArg (· + n) hc.off_eq, hc.own_eq, ?_⟩
  intro o' ho'
  rcases List.mem_cons.mp ho' with rfl | ho'
  · change (c.off + n).toNat ≤ len
    rw [hc.off_eq]
    exact hroom
  · exact hc.inside o' ho'

/-- **An item of `k` bytes is asked for.** Where the body leaves room for the item the sum does not wrap
around, so the question is the one that is meant. -/
theorem triple_ask {l : UInt32} {k : ℕ} {b : Prop} [Decidable b] (hl : l.toNat = len) (hn : n.toNat = k)
    (hsum : len + k < 2 ^ 32) (hfail : len < o.toNat + k ∨ b → ∀ c, Inside len c → E c)
    (hgo : ¬(len < o.toNat + k ∨ b) → (o + n).toNat = o.toNat + k → Triple (At len o w) p Q E) :
    Triple (At len o w) (if o + n > l ∨ b then fail else p) Q E := by
  intro c hc
  have ho := hc.off_le
  have hadd : (o + n).toNat = o.toNat + k := toNat_add_of_lt hn (by omega)
  have hiff : o + n > l ↔ len < o.toNat + k := by
    rw [gt_iff_lt, UInt32.lt_iff_toNat_lt, hadd, hl]
  by_cases h : o + n > l ∨ b
  · rw [if_pos h]
    exact hfail (h.imp_left hiff.mp) c hc.inside
  · rw [if_neg h]
    exact hgo (mt (Or.imp_left hiff.mpr) h) hadd c hc

/-- The same, where nothing else is asked. -/
theorem triple_ask_item {l : UInt32} {k : ℕ} (hl : l.toNat = len) (hn : n.toNat = k)
    (hsum : len + k < 2 ^ 32) (hfail : len < o.toNat + k → ∀ c, Inside len c → E c)
    (hgo : ¬len < o.toNat + k → (o + n).toNat = o.toNat + k → Triple (At len o w) p Q E) :
    Triple (At len o w) (if o + n > l then fail else p) Q E := by
  have hask := triple_ask (b := False) hl hn hsum (fun h => hfail (h.resolve_right id))
    fun h => hgo (mt Or.inl h)
  simp only [or_false] at hask
  exact hask

end Offsets

end Scan

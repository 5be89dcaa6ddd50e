import Mathlib.Algebra.Order.BigOperators.Group.List
import Mathlib.Algebra.GroupWithZero.Nat
import Mathlib.Algebra.Order.Group.Nat
import Mathlib.Data.List.Infix

/-!
# Cutting a sequence at a separator

The leftmost, non-overlapping occurrences of a separator in a sequence
(`Separator.cuts`), as a loop finds them that looks for the separator, passes over it,
and looks again in what is left.

Taking occurrences from the left finds as many as there can be: however a sequence is
written as parts with separators between them (`Separator.Glued`), there are at most
as many separators between the parts as cuts
(`Separator.Glued.length_add_count_le`). So parts that are glued with as many
separators as there are cuts have no separator left in them.
-/

namespace Separator

variable {α : Type*} [DecidableEq α] (sep : List α)

/-- The offsets of the cuts of a sequence that stands at an offset. The first counter is
the length of the separator that is still to be passed over. -/
def cutsFrom : ℕ → ℕ → List α → List ℕ
  | _, _, [] => []
  | j + 1, k, _ :: bs => cutsFrom j (k + 1) bs
  | 0, k, b :: bs =>
    if sep.isPrefixOf (b :: bs) then k :: cutsFrom (sep.length - 1) (k + 1) bs
    else cutsFrom 0 (k + 1) bs

/-- The offsets at which a sequence is cut. -/
def cuts (s : List α) : List ℕ := cutsFrom sep 0 0 s

/-- The number of cuts. -/
def count (s : List α) : ℕ := (cuts sep s).length

/-! ### Cuts, one by one -/

theorem cutsFrom_skip (s : List α) : ∀ j k : ℕ,
    cutsFrom sep j k s = cutsFrom sep 0 (k + j) (s.drop j) := by
  induction s with
  | nil => intro j k; rcases j with _ | j <;> simp [cutsFrom]
  | cons b bs ih =>
    intro j k
    rcases j with _ | j
    · rfl
    · rw [cutsFrom, ih, List.drop_succ_cons]
      congr 1
      omega

theorem cutsFrom_shift (s : List α) : ∀ j k : ℕ,
    cutsFrom sep j k s = (cutsFrom sep j 0 s).map (k + ·) := by
  induction s with
  | nil => intro j k; simp [cutsFrom]
  | cons b bs ih =>
    have hone : ∀ j k : ℕ, cutsFrom sep j (k + 1) bs =
        (cutsFrom sep j 1 bs).map (k + ·) := by
      intro j k
      rw [ih j (k + 1), ih j 1, List.map_map]
      refine List.map_congr_left fun x _ => ?_
      simp only [Function.comp_apply]
      omega
    intro j k
    rcases j with _ | j
    · rw [cutsFrom, cutsFrom]
      split_ifs
      · rw [hone, List.map_cons, Nat.add_zero]
      · exact hone 0 k
    · rw [cutsFrom, cutsFrom]
      exact hone j k

variable {sep}

/-- Where the separator stands, the sequence is cut. -/
theorem cutsFrom_of_isPrefix (hsep : sep ≠ []) {s : List α} (h : sep <+: s) (k : ℕ) :
    cutsFrom sep 0 k s = k :: cutsFrom sep 0 (k + sep.length) (s.drop sep.length) := by
  have hlen : 0 < sep.length := List.length_pos_iff.mpr hsep
  rcases s with _ | ⟨b, bs⟩
  · exact absurd (List.prefix_nil.mp h) hsep
  · obtain ⟨n, hn⟩ : ∃ n, sep.length = n + 1 := ⟨sep.length - 1, by omega⟩
    rw [cutsFrom, if_pos (List.isPrefixOf_iff_prefix.mpr h), cutsFrom_skip, hn]
    congr 2
    omega

theorem cutsFrom_of_notPrefix {b : α} {bs : List α} (h : ¬sep <+: b :: bs) (k : ℕ) :
    cutsFrom sep 0 k (b :: bs) = cutsFrom sep 0 (k + 1) bs := by
  rw [cutsFrom, if_neg (by simpa [List.isPrefixOf_iff_prefix] using h)]

/-- Without the separator there is no cut. -/
theorem cutsFrom_eq_nil {s : List α} (h : ∀ j, ¬sep <+: s.drop j) (k : ℕ) :
    cutsFrom sep 0 k s = [] := by
  induction s generalizing k with
  | nil => rfl
  | cons b bs ih =>
    rw [cutsFrom_of_notPrefix (by simpa using h 0)]
    exact ih (fun j => by simpa using h (j + 1)) (k + 1)

/-- The first occurrence is the first cut, and the others are those of what is left behind
it. -/
theorem cutsFrom_of_first (hsep : sep ≠ []) {s : List α} {i : ℕ} (hi : sep <+: s.drop i)
    (hmin : ∀ j < i, ¬sep <+: s.drop j) (k : ℕ) :
    cutsFrom sep 0 k s =
      (k + i) :: cutsFrom sep 0 (k + (i + sep.length)) (s.drop (i + sep.length)) := by
  induction i generalizing s k with
  | zero =>
    rw [List.drop_zero] at hi
    simpa using cutsFrom_of_isPrefix hsep hi k
  | succ i ih =>
    rcases s with _ | ⟨b, bs⟩
    · rw [List.drop_nil] at hi
      exact absurd (List.prefix_nil.mp hi) hsep
    · have hhead : ¬sep <+: b :: bs := by simpa using hmin 0 (Nat.succ_pos i)
      rw [cutsFrom_of_notPrefix hhead,
        ih (by simpa using hi) (fun j hj => by simpa using hmin (j + 1) (by omega)) (k + 1)]
      have h1 : k + 1 + i = k + (i + 1) := by omega
      have h2 : k + 1 + (i + sep.length) = k + (i + 1 + sep.length) := by omega
      have h3 : i + 1 + sep.length = i + sep.length + 1 := by omega
      rw [h1, h2, h3, List.drop_succ_cons]

/-- The separator stands at every cut. -/
theorem prefix_of_mem_cutsFrom {s : List α} : ∀ {j k o : ℕ}, o ∈ cutsFrom sep j k s →
    k ≤ o ∧ sep <+: s.drop (o - k) := by
  induction s with
  | nil => intro j k o ho; simp [cutsFrom] at ho
  | cons b bs ih =>
    have hnext : ∀ {j k o : ℕ}, o ∈ cutsFrom sep j (k + 1) bs →
        k ≤ o ∧ sep <+: (b :: bs).drop (o - k) := by
      intro j k o ho
      obtain ⟨hle, hpre⟩ := ih ho
      have hsucc : o - k = o - (k + 1) + 1 := by omega
      rw [hsucc, List.drop_succ_cons]
      exact ⟨by omega, hpre⟩
    intro j k o ho
    rcases j with _ | j
    · rw [cutsFrom] at ho
      split_ifs at ho with hpre
      · rcases List.mem_cons.mp ho with rfl | ho
        · rw [Nat.sub_self]
          exact ⟨le_rfl, List.isPrefixOf_iff_prefix.mp hpre⟩
        · exact hnext ho
      · exact hnext ho
    · exact hnext ho

/-- Offsets that leave room for a text of a length between any two of them. -/
inductive Spaced (n : ℕ) : ℕ → List ℕ → Prop
  | nil (k : ℕ) : Spaced n k []
  | cons {k o : ℕ} {os : List ℕ} : k ≤ o → Spaced n (o + n) os → Spaced n k (o :: os)

omit [DecidableEq α] in
theorem Spaced.mono {n k k' : ℕ} {os : List ℕ} (h : Spaced n k os) (hk : k' ≤ k) :
    Spaced n k' os := by
  cases h with
  | nil => exact .nil k'
  | cons hle hrest => exact .cons (hk.trans hle) hrest

/-- The separators at the cuts do not overlap. -/
theorem spaced_cutsFrom (hsep : sep ≠ []) (s : List α) :
    ∀ j k : ℕ, Spaced sep.length (k + j) (cutsFrom sep j k s) := by
  have hpos : 0 < sep.length := List.length_pos_iff.mpr hsep
  induction s with
  | nil => intro j k; rcases j with _ | j <;> exact .nil _
  | cons b bs ih =>
    intro j k
    rcases j with _ | j
    · rw [cutsFrom]
      split_ifs
      · have hrest := ih (sep.length - 1) (k + 1)
        rw [show k + 1 + (sep.length - 1) = k + sep.length by omega] at hrest
        exact .cons le_rfl hrest
      · exact (ih 0 (k + 1)).mono (by omega)
    · rw [cutsFrom]
      have hrest := ih j (k + 1)
      rwa [show k + 1 + j = k + (j + 1) by omega] at hrest

/-! ### Counting cuts -/

theorem length_cutsFrom (s : List α) (k : ℕ) : (cutsFrom sep 0 k s).length = count sep s := by
  rw [cutsFrom_shift, List.length_map]
  rfl

theorem count_of_isPrefix (hsep : sep ≠ []) {s : List α} (h : sep <+: s) :
    count sep s = count sep (s.drop sep.length) + 1 := by
  rw [count, cuts, cutsFrom_of_isPrefix hsep h, List.length_cons, length_cutsFrom]

theorem count_of_notPrefix {b : α} {bs : List α} (h : ¬sep <+: b :: bs) :
    count sep (b :: bs) = count sep bs := by
  rw [count, cuts, cutsFrom_of_notPrefix h, length_cutsFrom]

@[simp] theorem count_nil : count sep [] = 0 := rfl

/-- A sequence has no cut exactly when the separator is nowhere in it. -/
theorem count_eq_zero_iff (hsep : sep ≠ []) (s : List α) : count sep s = 0 ↔ ¬sep <:+: s := by
  constructor
  · intro h hinf
    induction s with
    | nil => exact hsep (List.infix_nil.mp hinf)
    | cons b bs ih =>
      by_cases hpre : sep <+: b :: bs
      · rw [count_of_isPrefix hsep hpre] at h
        omega
      · rw [count_of_notPrefix hpre] at h
        exact ih h ((List.infix_cons_iff.mp hinf).resolve_left hpre)
  · intro h
    have hnone : ∀ j, ¬sep <+: s.drop j := fun j hj =>
      h (hj.isInfix.trans (List.drop_suffix j s).isInfix)
    rw [count, cuts, cutsFrom_eq_nil hnone, List.length_nil]

/-- Leaving out elements in front loses cuts, but at most one for every length of the
separator. The two bounds are proved together, on sequences up to a length. -/
theorem count_drop_bounds (hsep : sep ≠ []) (n : ℕ) :
    ∀ s : List α, s.length ≤ n →
      (∀ m, count sep (s.drop m) ≤ count sep s) ∧
        ∀ m ≤ sep.length, count sep s ≤ count sep (s.drop m) + 1 := by
  have hpos : 0 < sep.length := List.length_pos_iff.mpr hsep
  induction n with
  | zero =>
    intro s hs
    obtain rfl : s = [] := List.length_eq_zero_iff.mp (by omega)
    simp
  | succ n ih =>
    intro s hs
    rcases s with _ | ⟨b, bs⟩
    · simp
    · have hbs : bs.length ≤ n := by simpa using hs
      obtain ⟨ihle, ihge⟩ := ih bs hbs
      by_cases hpre : sep <+: b :: bs
      · -- the separator in front is the one cut that can be lost
        obtain ⟨l, hl⟩ : ∃ l, sep.length = l + 1 := ⟨sep.length - 1, by omega⟩
        have hcount : count sep (b :: bs) = count sep (bs.drop l) + 1 := by
          rw [count_of_isPrefix hsep hpre, hl, List.drop_succ_cons]
        have htail : count sep bs ≤ count sep (bs.drop l) + 1 := ihge l (by omega)
        constructor
        · intro m
          rcases m with _ | m
          · exact le_rfl
          · have := ihle m
            rw [List.drop_succ_cons]
            omega
        · intro m hm
          rcases m with _ | m
          · exact Nat.le_succ _
          · have hdrop : bs.drop l = (bs.drop m).drop (l - m) := by
              rw [List.drop_drop]
              congr 1
              omega
            have hle := (ih (bs.drop m) (by rw [List.length_drop]; omega)).1 (l - m)
            rw [← hdrop] at hle
            rw [List.drop_succ_cons]
            omega
      · rw [count_of_notPrefix hpre]
        constructor
        · intro m
          rcases m with _ | m
          · exact (count_of_notPrefix hpre).le
          · exact ihle m
        · intro m hm
          rcases m with _ | m
          · rw [List.drop_zero, count_of_notPrefix hpre]
            exact Nat.le_succ _
          · exact ihge m (by omega)

theorem count_le_drop (hsep : sep ≠ []) (s : List α) {m : ℕ} (hm : m ≤ sep.length) :
    count sep s ≤ count sep (s.drop m) + 1 :=
  (count_drop_bounds hsep s.length s le_rfl).2 m hm

/-- **Cutting from the left loses nothing**: a sequence has at least the cuts of two
pieces of it together. -/
theorem count_add_le (hsep : sep ≠ []) (t : List α) (n : ℕ) :
    ∀ s : List α, s.length ≤ n → count sep s + count sep t ≤ count sep (s ++ t) := by
  have hpos : 0 < sep.length := List.length_pos_iff.mpr hsep
  induction n with
  | zero =>
    intro s hs
    obtain rfl : s = [] := List.length_eq_zero_iff.mp (by omega)
    simp
  | succ n ih =>
    intro s hs
    rcases s with _ | ⟨b, bs⟩
    · simp
    by_cases hpre : sep <+: b :: bs
    · -- a separator in front is one of the first piece
      have hlong : sep.length ≤ (b :: bs).length := hpre.length_le
      have hboth : sep <+: b :: bs ++ t := hpre.trans (List.prefix_append _ _)
      have hrest := ih ((b :: bs).drop sep.length) (by rw [List.length_drop]; omega)
      rw [count_of_isPrefix hsep hpre, count_of_isPrefix hsep hboth,
        List.drop_append_of_le_length hlong]
      omega
    · by_cases hboth : sep <+: b :: bs ++ t
      · -- a separator that stands across the seam: the first piece is too short for one
        have hshort : (b :: bs).length < sep.length := by
          by_contra hc
          exact hpre (List.prefix_of_prefix_length_le hboth (List.prefix_append _ _) (by omega))
        have hzero : count sep (b :: bs) = 0 := by
          rw [count_eq_zero_iff hsep]
          intro hinf
          have := hinf.length_le
          omega
        have hdrop : (b :: bs ++ t).drop sep.length = t.drop (sep.length - (b :: bs).length) := by
          rw [List.drop_append, List.drop_of_length_le hshort.le, List.nil_append]
        have hle := count_le_drop hsep t (m := sep.length - (b :: bs).length) (by omega)
        rw [hzero, count_of_isPrefix hsep hboth, hdrop]
        omega
      · rw [count_of_notPrefix hpre]
        rw [List.cons_append] at hboth ⊢
        rw [count_of_notPrefix hboth]
        exact ih bs (by simpa using hs)

/-! ### Parts and separators -/

omit [DecidableEq α] in
/-- A sequence is some parts with separators between them. -/
inductive Glued (isSep : List α → Prop) : List (List α) → List α → Prop
  | one (p : List α) : Glued isSep [p] p
  | cons {p w : List α} {ps : List (List α)} {s : List α} :
      isSep w → Glued isSep ps s → Glued isSep (p :: ps) (p ++ (w ++ s))

/-- **Parts cannot be glued with more separators than there are cuts**, and what the parts
still have in them counts as well. The separators are read through a map. -/
theorem Glued.length_add_count_le (hsep : sep ≠ []) {f : α → α} {ps : List (List α)}
    {s : List α} (h : Glued (fun w => w.map f = sep) ps s) :
    ps.length + (ps.map fun p => count sep (p.map f)).sum ≤ count sep (s.map f) + 1 := by
  induction h with
  | one p => simp [Nat.add_comm]
  | @cons p w ps s hw _ ih =>
    have hcut : count sep (w.map f ++ s.map f) = count sep (s.map f) + 1 := by
      rw [hw, count_of_isPrefix hsep (List.prefix_append _ _), List.drop_left]
    have hadd := count_add_le hsep (w.map f ++ s.map f) (p.map f).length (p.map f) le_rfl
    rw [hcut] at hadd
    simp only [List.length_cons, List.map_cons, List.sum_cons, List.map_append]
    omega

/-- Parts that are glued with as many separators as there are cuts have none in them. -/
theorem Glued.not_infix (hsep : sep ≠ []) {f : α → α} {ps : List (List α)} {s : List α}
    (h : Glued (fun w => w.map f = sep) ps s) (hlen : ps.length = count sep (s.map f) + 1) :
    ∀ p ∈ ps, ¬sep <:+: p.map f := by
  have hsum := h.length_add_count_le hsep
  intro p hp
  rw [← count_eq_zero_iff hsep]
  have hle := List.single_le_sum (fun _ _ => Nat.zero_le _) _
    (List.mem_map_of_mem (f := fun p => count sep (p.map f)) hp)
  omega

end Separator

import Mathlib.Data.List.Basic
import Mathlib.Data.List.Range
import Mathlib.Data.List.TakeDrop
import Mathlib.Order.Lattice

/-!
# Pages of lists

A page of a list is its part from a multiple of the size of pages on. The pages up to one of them are the
list up to there (`Paging.flatMap_page`).

Where a list is put into order anew for each of its pages, elements with one key can be in another order
each time, so that the pages are not those of one list. They are, but for the order of what is on them,
if at the end of each page the keys fall (`Paging.flatMap_page_perm`); and if they do not, there is an
order in which the first element of the next page is the last of this one (`Paging.exists_exchanged`).
Whether the keys fall at a place does not depend on the order that elements with one key are in
(`Paging.Falls`).
-/

namespace Paging

variable {α β : Type*}

/-- A page of a list, the pages counted from 0 on. -/
def page (size k : ℕ) (l : List α) : List α := (l.drop (k * size)).take size

theorem take_append_page (size k : ℕ) (l : List α) :
    l.take (k * size) ++ page size k l = l.take ((k + 1) * size) := by
  rw [page, Nat.succ_mul, List.take_add]

/-- **The first pages are the first part of the list.** -/
theorem flatMap_page (size n : ℕ) (l : List α) :
    ((List.range n).flatMap fun k => page size k l) = l.take (n * size) := by
  induction n with
  | zero => rw [List.range_zero, List.flatMap_nil, Nat.zero_mul, List.take_zero]
  | succ n ih =>
    rw [List.range_succ, List.flatMap_append, ih, List.flatMap_singleton, take_append_page]

theorem page_eq_nil_iff {size : ℕ} (hsize : 0 < size) (k : ℕ) (l : List α) :
    page size k l = [] ↔ l.length ≤ k * size := by
  rw [page, List.take_eq_nil_iff, List.drop_eq_nil_iff]
  exact or_iff_right hsize.ne'

/-- An element at a place of a page is on the page. -/
theorem mem_page {size k i : ℕ} {l : List α} {a : α} (hget : l[k * size + i]? = some a) (hi : i < size) :
    a ∈ page size k l := by
  refine List.mem_of_getElem? (i := i) ?_
  rw [page, List.getElem?_take_of_lt hi, List.getElem?_drop]
  exact hget

theorem page_sublist (size k : ℕ) (l : List α) : List.Sublist (page size k l) l :=
  (List.take_sublist _ _).trans (List.drop_sublist _ _)

/-! ### Lists in the order of their keys -/

variable [LinearOrder β] {key : α → β} {l l' : List α}

/-- The keys do not rise. -/
def Ranked (key : α → β) (l : List α) : Prop := l.Pairwise fun a b => key b ≤ key a

/-- The keys fall behind the first `n` elements: some `n` of them are above all others. -/
def Falls (key : α → β) (n : ℕ) (l : List α) : Prop :=
  ∃ top rest, l.Perm (top ++ rest) ∧ top.length = n ∧ ∀ a ∈ top, ∀ b ∈ rest, key b < key a

/-- What is true of high keys is true of the first elements. -/
theorem filter_eq_take (hl : Ranked key l) {p : α → Bool}
    (hp : ∀ a b, key a ≤ key b → p a = true → p b = true) : l.filter p = l.take (l.filter p).length := by
  induction l with
  | nil => rfl
  | cons a l ih =>
    obtain ⟨hhead, hrest⟩ := List.pairwise_cons.mp hl
    by_cases ha : p a = true
    · rw [List.filter_cons_of_pos ha, List.length_cons, List.take_succ_cons, ← ih hrest]
    · have hnone : l.filter p = [] :=
        List.filter_eq_nil_iff.mpr fun b hb hpb => ha (hp b a (hhead b hb) hpb)
      rw [List.filter_cons_of_neg ha, hnone]
      rfl

/-- The elements that are above all others are the first. -/
theorem take_perm_top {top rest : List α} (hl : Ranked key l) (hperm : l.Perm (top ++ rest))
    (hfall : ∀ a ∈ top, ∀ b ∈ rest, key b < key a) : (l.take top.length).Perm top := by
  let p : α → Bool := fun a => rest.all fun b => key b < key a
  have hp : ∀ a, p a = true ↔ ∀ b ∈ rest, key b < key a := by
    intro a
    simp [p]
  have hup : ∀ a b, key a ≤ key b → p a = true → p b = true := fun a b hab ha =>
    (hp b).mpr fun c hc => ((hp a).mp ha c hc).trans_le hab
  have htop : top.filter p = top := List.filter_eq_self.mpr fun a ha => (hp a).mpr (hfall a ha)
  have hnone : rest.filter p = [] :=
    List.filter_eq_nil_iff.mpr fun b hb hpb => lt_irrefl _ ((hp b).mp hpb b hb)
  have hfilter : (l.filter p).Perm top := by
    have hboth := hperm.filter p
    rwa [List.filter_append, htop, hnone, List.append_nil] at hboth
  rw [← hfilter.length_eq, ← filter_eq_take hl hup]
  exact hfilter

/-- **Where the keys fall, the first elements are the same in every order.** -/
theorem take_perm_take {n : ℕ} (hl : Ranked key l) (hl' : Ranked key l') (hperm : l.Perm l')
    (hfalls : Falls key n l) : (l.take n).Perm (l'.take n) := by
  obtain ⟨top, rest, hsplit, rfl, hfall⟩ := hfalls
  exact (take_perm_top hl hsplit hfall).trans (take_perm_top hl' (hperm.symm.trans hsplit) hfall).symm

theorem Falls.of_perm {n : ℕ} (h : Falls key n l) (hperm : l.Perm l') : Falls key n l' := by
  obtain ⟨top, rest, hsplit, hlen, hfall⟩ := h
  exact ⟨top, rest, hperm.symm.trans hsplit, hlen, hfall⟩

/-- **Where they do not fall, the two elements at that place can be exchanged.** -/
theorem exists_exchanged {n : ℕ} (hl : Ranked key l) (hpos : 0 < n) (hlt : n < l.length)
    (hfalls : ¬Falls key n l) :
    ∃ (a b : α) (before after : List α), l = before ++ a :: b :: after ∧ before.length + 1 = n ∧
      Ranked key (before ++ b :: a :: after) := by
  obtain ⟨m, rfl⟩ := Nat.exists_eq_succ_of_ne_zero hpos.ne'
  obtain ⟨a, b, before, after, rfl, hbefore⟩ : ∃ (a b : α) (before after : List α),
      l = before ++ a :: b :: after ∧ before.length = m := by
    refine ⟨l[m], l[m + 1], l.take m, l.drop (m + 2), ?_, List.length_take_of_le (by omega)⟩
    rw [List.getElem_cons_drop, List.getElem_cons_drop, List.take_append_drop]
  refine ⟨a, b, before, after, rfl, by omega, ?_⟩
  rw [Ranked, List.pairwise_append, List.pairwise_cons, List.pairwise_cons] at hl
  obtain ⟨hbefore', ⟨hhead, hb, hafter⟩, hcross⟩ := hl
  have hle : key a ≤ key b := by
    by_contra hgt
    refine hfalls ⟨before ++ [a], b :: after, ?_, ?_, ?_⟩
    · rw [List.append_assoc, List.singleton_append]
    · rw [List.length_append, List.length_singleton, hbefore]
    · -- what is behind is not above `b`, and what is before not below `a`
      have hlow : ∀ y ∈ b :: after, key y ≤ key b := List.forall_mem_cons.mpr ⟨le_rfl, hb⟩
      have hhigh : ∀ x ∈ before ++ [a], key a ≤ key x := by
        intro x hx
        rcases List.mem_append.mp hx with hx | hx
        · exact hcross x hx a List.mem_cons_self
        · rw [List.mem_singleton.mp hx]
      exact fun x hx y hy => (hlow y hy).trans_lt ((not_le.mp hgt).trans_le (hhigh x hx))
  rw [Ranked, List.pairwise_append, List.pairwise_cons, List.pairwise_cons]
  refine ⟨hbefore', ⟨?_, ?_, hafter⟩, ?_⟩
  · exact List.forall_mem_cons.mpr ⟨hle, hb⟩
  · exact fun y hy => (hb y hy).trans (hhead b List.mem_cons_self)
  · intro x hx y hy
    refine hcross x hx y ?_
    rw [List.mem_cons, List.mem_cons] at hy ⊢
    exact or_left_comm.mp hy

/-- **The first pages of lists with the same elements, each in an order of its own**: where the keys fall
at the end of each page but the last, they have the first elements of the list of the last page. -/
theorem flatMap_page_perm {ls : ℕ → List α} {size n : ℕ} (hranked : ∀ k, Ranked key (ls k))
    (hperm : ∀ k, (ls k).Perm l)
    (hfalls : ∀ k, 0 < k → k < n → k * size < l.length → Falls key (k * size) l) :
    ∀ m < n, ((List.range (m + 1)).flatMap fun k => page size k (ls k)).Perm
      ((ls m).take ((m + 1) * size)) := by
  intro m
  induction m with
  | zero =>
    intro _
    simp [page]
  | succ m ih =>
    intro hm
    rw [List.range_succ, List.flatMap_append, List.flatMap_singleton, ← take_append_page]
    refine ((ih (Nat.lt_of_succ_lt hm)).trans ?_).append_right _
    have hsame : (ls m).Perm (ls (m + 1)) := (hperm m).trans (hperm (m + 1)).symm
    rcases Nat.lt_or_ge ((m + 1) * size) l.length with hlt | hge
    · exact take_perm_take (hranked m) (hranked (m + 1)) hsame
        ((hfalls (m + 1) m.succ_pos hm hlt).of_perm (hperm m).symm)
    · -- everything is on the pages before
      rw [List.take_of_length_le ((hperm m).length_eq.trans_le hge),
        List.take_of_length_le ((hperm (m + 1)).length_eq.trans_le hge)]
      exact hsame

end Paging

import Mathlib.Data.List.Perm.Basic
import Mathlib.Logic.Function.Basic

/-!
# Lists that have one owner's elements in common

Two lists agree on an owner if they have the same elements of that owner, in the same order. What is
computed of elements that have to be the owner's is then the same for both
(`Xsiam.Beside.filter_factorsThrough`).

What is computed of all elements is another matter. A `Xsiam.Beside.Tally` counts the elements of a
list under keys, whatever their order. Where a list is read as a whole or not at all, two lists that
agree on an owner are counted alike exactly if what the other owners have in them makes no
difference beside the elements of the owner (`Xsiam.Beside.Tally.eq_iff_alike`).
-/

namespace Xsiam

namespace Beside

variable {α κ : Type*}

/-! ### What is the owner's -/

/-- What a list has of an owner. -/
def ownPart (own : α → Bool) (l : List α) : List α := l.filter own

/-- What a list has of others. -/
def strangers (own : α → Bool) (l : List α) : List α := l.filter fun a => !own a

variable {own p : α → Bool}

/-- **A query that asks for the owner's elements depends on them only.** -/
theorem filter_factorsThrough (hp : ∀ a, p a = true → own a = true) :
    (List.filter p).FactorsThrough (ownPart own) := by
  intro l l' h
  have hown : ∀ l : List α, l.filter p = (ownPart own l).filter p := by
    intro l
    rw [ownPart, List.filter_filter]
    refine List.filter_congr fun a _ => ?_
    cases hpa : p a with
    | false => rfl
    | true => rw [hp a hpa]; rfl
  rw [hown l, hown l', h]

theorem perm_ownPart_append_strangers (own : α → Bool) (l : List α) :
    (ownPart own l ++ strangers own l).Perm l := List.filter_append_perm own l

/-- The owner's part of what is selected by one test more. -/
theorem ownPart_filter (own p : α → Bool) (l : List α) :
    ownPart own (l.filter p) = (ownPart own l).filter p := by
  simp only [ownPart, List.filter_filter, Bool.and_comm]

/-! ### Reading a list -/

/-- A list that is read as a whole, or not at all. -/
def readAll (reads : α → Bool) (l : List α) : Option (List α) :=
  if l.all reads then some l else none

variable {reads : α → Bool} {l l' : List α}

theorem isSome_readAll : (readAll reads l).isSome = l.all reads := by
  rw [readAll]
  split_ifs with h
  · exact h.symm
  · exact (Bool.eq_false_iff.mpr h).symm

theorem readAll_of_all (h : l.all reads = true) : readAll reads l = some l := if_pos h

theorem eq_of_readAll {a : List α} (h : readAll reads l = some a) : a = l := by
  rw [readAll] at h
  split_ifs at h
  exact (Option.some.inj h).symm

/-- A list can be read if the owner's part can be read and the rest too. -/
theorem isSome_readAll_iff (own : α → Bool) : (readAll reads l).isSome ↔
    (ownPart own l).all reads = true ∧ (readAll reads (strangers own l)).isSome := by
  rw [isSome_readAll, isSome_readAll, ← (perm_ownPart_append_strangers own l).all_eq,
    List.all_append, Bool.and_eq_true]

/-! ### Counting -/

/-- A way to count the elements of a list under keys, whatever their order. -/
structure Tally (α κ : Type*) where
  count : List α → κ → ℕ
  perm : ∀ {l l' : List α}, l.Perm l' → count l = count l'
  nil : ∀ k, count [] k = 0

namespace Tally

/-- The elements that pass a test for each key. -/
def ofTest (test : κ → α → Bool) : Tally α κ where
  count l k := l.countP (test k)
  perm h := funext fun k => h.countP_eq (test k)
  nil _ := rfl

variable (t : Tally α κ) (own reads) (l l')

/-- What others have in two lists makes no difference beside the elements of an owner, which the
lists agree on: both can be read and count the same, or one of them can be read and counts nothing,
or none can be read. Where the owner's part cannot be read, nothing else makes a difference. -/
def Alike : Prop :=
  (ownPart own l).all reads = true →
    match readAll reads (strangers own l), readAll reads (strangers own l') with
    | some others, some others' =>
      ∀ k, t.count (ownPart own l ++ others) k = t.count (ownPart own l ++ others') k
    | some others, none | none, some others => ∀ k, t.count (ownPart own l ++ others) k = 0
    | none, none => True

variable {own reads l l'}

theorem count_of_read {others : List α} (hown : (ownPart own l).all reads = true)
    (h : readAll reads (strangers own l) = some others) :
    t.count ((readAll reads l).getD []) = t.count (ownPart own l ++ others) := by
  obtain ⟨a, ha⟩ := Option.isSome_iff_exists.mp
    ((isSome_readAll_iff own).mpr ⟨hown, by rw [h]; rfl⟩)
  rw [ha, Option.getD_some, eq_of_readAll ha, eq_of_readAll h]
  exact (t.perm (perm_ownPart_append_strangers own l)).symm

theorem count_of_unread (own : α → Bool) (h : ¬((ownPart own l).all reads = true ∧
    (readAll reads (strangers own l)).isSome)) (k : κ) :
    t.count ((readAll reads l).getD []) k = 0 := by
  rw [Option.not_isSome_iff_eq_none.mp (mt (isSome_readAll_iff own).mp h)]
  exact t.nil k

/-- **Lists that agree on an owner are counted alike exactly if the others make no difference.** -/
theorem eq_iff_alike (h : ownPart own l = ownPart own l') :
    t.count ((readAll reads l).getD []) = t.count ((readAll reads l').getD []) ↔
      t.Alike own reads l l' := by
  rw [Alike, funext_iff]
  by_cases hown : (ownPart own l).all reads = true
  swap
  · -- neither can be read, whatever the others have
    refine iff_of_true (fun k => ?_) fun hread => absurd hread hown
    rw [t.count_of_unread own fun hread => hown hread.1,
      t.count_of_unread own fun hread => hown (h ▸ hread.1)]
  have hown' : (ownPart own l').all reads = true := h ▸ hown
  rw [imp_iff_right hown]
  cases hl : readAll reads (strangers own l) with
  | none =>
    have hzero := t.count_of_unread own (fun hread => absurd (hl ▸ hread.2) (by simp))
    cases hl' : readAll reads (strangers own l') with
    | none =>
      have hzero' := t.count_of_unread own (fun hread => absurd (hl' ▸ hread.2) (by simp))
      exact iff_of_true (fun k => by rw [hzero, hzero']) trivial
    | some others =>
      rw [t.count_of_read hown' hl', ← h]
      exact forall_congr' fun k => by rw [hzero, eq_comm]
  | some others =>
    rw [t.count_of_read hown hl]
    cases hl' : readAll reads (strangers own l') with
    | none =>
      have hzero' := t.count_of_unread own (fun hread => absurd (hl' ▸ hread.2) (by simp))
      exact forall_congr' fun k => by rw [hzero']
    | some others' => rw [t.count_of_read hown' hl', ← h]

/-- The same elements in another order make no difference. -/
theorem alike_of_perm (h : ownPart own l = ownPart own l') (hperm : l.Perm l') :
    t.Alike own reads l l' := by
  refine (t.eq_iff_alike h).mp ?_
  rw [readAll, readAll, hperm.all_eq]
  split_ifs
  · exact t.perm hperm
  · rfl

/-- Where everything can be read, it is only counted. -/
theorem alike_iff_of_all (h : l.all reads = true) (h' : l'.all reads = true) :
    t.Alike own reads l l' ↔ ∀ k, t.count (ownPart own l ++ strangers own l) k =
      t.count (ownPart own l ++ strangers own l') k := by
  have hpart : ∀ {l : List α} {p : α → Bool}, l.all reads = true →
      (l.filter p).all reads = true := fun hl =>
    List.all_eq_true.mpr fun a ha => List.all_eq_true.mp hl a (List.mem_of_mem_filter ha)
  have hothers : ∀ {l : List α}, l.all reads = true →
      readAll reads (strangers own l) = some (strangers own l) :=
    fun hl => readAll_of_all (hpart hl)
  rw [Alike, hothers h, hothers h']
  exact imp_iff_right (hpart h)

/-- Where elements are counted one by one, the owner's make no difference to the difference. -/
theorem ofTest_append_eq_iff {test : κ → α → Bool} {mine others others' : List α} {k : κ} :
    (ofTest test).count (mine ++ others) k = (ofTest test).count (mine ++ others') k ↔
      (ofTest test).count others k = (ofTest test).count others' k := by
  simp only [ofTest, List.countP_append, Nat.add_left_cancel_iff]

end Tally

end Beside

end Xsiam

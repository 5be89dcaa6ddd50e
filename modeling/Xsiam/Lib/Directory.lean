import Mathlib.Logic.Function.Basic
import Mathlib.Tactic.SplitIfs

/-!
# A directory of the items in force

Some items are in force, each under a key, and each has a name. What was last registered under a
name is in a directory, which is kept apart from the items. It is right if it holds one entry for
each item, under a name that no other item has, and no entry besides (`Directory.Right`).

Items come into force and go, and their entries are written and deleted, by steps that need not do
both. For each of these steps it is said when it leaves the directory right
(`Directory.right_register_iff`, `Directory.right_withdraw`, `Directory.right_delete_iff`), and a
step that leaves the directory as it is leaves it right only if it leaves the items in force
(`Directory.right_update_iff`, `Directory.right_grow_iff`, `Directory.right_shrink_iff`).
-/

namespace Directory

universe u v w x

variable {κ : Type u} {α : Type v} {ν : Type w} {ρ : Type x}

/-- The directory holds one entry for each item in force, and no other. -/
structure Right (name : α → Option ν) (good : α → ρ → Prop) (items : κ → Option α)
    (find : ν → Option ρ) : Prop where
  /-- An item in force is registered. -/
  registered : ∀ k i, items k = some i → ∃ n q, name i = some n ∧ find n = some q ∧ good i q
  /-- What is registered is an item in force. -/
  owned : ∀ n q, find n = some q → ∃ k i, items k = some i ∧ name i = some n
  /-- No two items in force have one name. -/
  distinct : ∀ k k' i i' n, items k = some i → items k' = some i' → name i = some n →
    name i' = some n → k = k'

section

variable {name : α → Option ν} {good : α → ρ → Prop} {items items' : κ → Option α}
  {find find' : ν → Option ρ}

/-- A directory without entries is right for no items. -/
theorem right_empty (hitems : ∀ k, items k = none) (hfind : ∀ n, find n = none) :
    Right name good items find where
  registered := fun k i hk => absurd ((hitems k).symm.trans hk) (by simp)
  owned := fun n q hn => absurd ((hfind n).symm.trans hn) (by simp)
  distinct := fun k _ i _ _ hk => absurd ((hitems k).symm.trans hk) (by simp)

/-- A name is free exactly if no item in force has it. -/
theorem Right.find_eq_none_iff (h : Right name good items find) {n : ν} :
    find n = none ↔ ∀ k i, items k = some i → name i ≠ some n := by
  constructor
  · intro hnone k i hk hname
    obtain ⟨n', q, hname', hfind, -⟩ := h.registered k i hk
    rw [Option.some.inj (hname.symm.trans hname'), hfind] at hnone
    exact absurd hnone (by simp)
  · intro hall
    by_contra hne
    obtain ⟨q, hq⟩ := Option.ne_none_iff_exists'.mp hne
    obtain ⟨k, i, hk, hname⟩ := h.owned n q hq
    exact hall k i hk hname

/-- **An entry that is deleted while the items stay**: there must be none. -/
theorem right_delete_iff (h : Right name good items find) {n : ν} [DecidableEq ν]
    (hfind : ∀ m, find' m = if m = n then none else find m) :
    Right name good items find' ↔ find n = none := by
  constructor
  · intro h'
    rw [h.find_eq_none_iff]
    exact h'.find_eq_none_iff.mp (by rw [hfind, if_pos rfl])
  · intro hnone
    have hsame : find' = find := by
      ext1 m
      rw [hfind]
      split_ifs with hm
      · rw [hm, hnone]
      · rfl
    rw [hsame]
    exact h

/-! ### Steps that leave the directory as it is -/

/-- Items that come into force without being registered. -/
theorem right_grow_iff (h : Right name good items find)
    (hgrow : ∀ k i, items k = some i → items' k = some i) :
    Right name good items' find ↔ items' = items := by
  constructor
  · intro h'
    ext k i
    refine ⟨fun hk => ?_, hgrow k i⟩
    obtain ⟨n, q, hname, hfind, -⟩ := h'.registered k i hk
    obtain ⟨j, i₀, hj, hname₀⟩ := h.owned n q hfind
    -- the entry is that of an item that was in force before
    obtain rfl := h'.distinct k j i i₀ n hk (hgrow j i₀ hj) hname hname₀
    rw [hj, ← Option.some.inj ((hgrow k i₀ hj).symm.trans hk)]
  · rintro rfl
    exact h

/-- Items that go while their entries stay. -/
theorem right_shrink_iff (h : Right name good items find)
    (hshrink : ∀ k i, items' k = some i → items k = some i) :
    Right name good items' find ↔ items' = items := by
  constructor
  · intro h'
    ext k i
    refine ⟨hshrink k i, fun hk => ?_⟩
    obtain ⟨n, q, hname, hfind, -⟩ := h.registered k i hk
    obtain ⟨j, i₀, hj, hname₀⟩ := h'.owned n q hfind
    -- another item would have to answer for the entry
    obtain rfl := h.distinct k j i i₀ n hk (hshrink j i₀ hj) hname hname₀
    rw [hj, ← Option.some.inj ((hshrink k i₀ hj).symm.trans hk)]
  · rintro rfl
    exact h

variable [DecidableEq κ]

/-- An item that is replaced while its entry stays: it must go with the entry. -/
theorem right_replace_iff (h : Right name good items find) {k : κ} {i : α} (hk : items k = some i)
    (i' : α) :
    Right name good (Function.update items k (some i')) find ↔
      name i' = name i ∧ ∀ n q, name i = some n → find n = some q → good i' q := by
  obtain ⟨n, q, hname, hfind, -⟩ := h.registered k i hk
  constructor
  · intro h'
    obtain ⟨n', q', hname', hfind', hgood'⟩ := h'.registered k i' (Function.update_self k _ _)
    obtain ⟨j, i₀, hj, hname₀⟩ := h'.owned n q hfind
    have hsame : n' = n := by
      rw [Function.update_apply] at hj
      split_ifs at hj with hjk
      · obtain rfl := Option.some.inj hj
        exact Option.some.inj (hname'.symm.trans hname₀)
      · exact absurd (h.distinct j k i₀ i n hj hk hname₀ hname) hjk
    refine ⟨by rw [hname', hname, hsame], fun m r hm hr => ?_⟩
    rw [← Option.some.inj (hname.symm.trans hm), ← hsame, hfind'] at hr
    exact Option.some.inj hr ▸ hgood'
  · rintro ⟨hsame, hgood⟩
    -- what stands under `k` has the name of the item that was there
    have hold : ∀ {j i₀}, Function.update items k (some i') j = some i₀ →
        ∃ i₁, items j = some i₁ ∧ name i₀ = name i₁ := by
      intro j i₀ hj
      rw [Function.update_apply] at hj
      split_ifs at hj with hjk
      · exact ⟨i, hjk ▸ hk, Option.some.inj hj ▸ hsame⟩
      · exact ⟨i₀, hj, rfl⟩
    refine ⟨fun j i₀ hj => ?_, fun m r hm => ?_, fun j j' i₀ i₁ m hj hj' hname₀ hname₁ => ?_⟩
    · rw [Function.update_apply] at hj
      split_ifs at hj
      · obtain rfl := Option.some.inj hj
        exact ⟨n, q, hsame.trans hname, hfind, hgood n q hname hfind⟩
      · exact h.registered j i₀ hj
    · obtain ⟨j, i₀, hj, hname₀⟩ := h.owned m r hm
      by_cases hjk : j = k
      · obtain rfl := Option.some.inj ((hjk ▸ hj).symm.trans hk)
        exact ⟨k, i', Function.update_self k _ _, hsame.trans hname₀⟩
      · exact ⟨j, i₀, by rw [Function.update_of_ne hjk, hj], hname₀⟩
    · obtain ⟨i₂, hj, heq⟩ := hold hj
      obtain ⟨i₃, hj', heq'⟩ := hold hj'
      exact h.distinct j j' i₂ i₃ m hj hj' (heq ▸ hname₀) (heq' ▸ hname₁)

/-- What is in force under a key before and after, with the directory as it is: nothing, or items
of one name of which the later one goes with the entry too. -/
def Keeps (name : α → Option ν) (good : α → ρ → Prop) (find : ν → Option ρ) :
    Option α → Option α → Prop
  | none, none => True
  | some i, some i' => name i' = name i ∧ ∀ n q, name i = some n → find n = some q → good i' q
  | _, _ => False

/-- **What becomes of one item while the directory stays as it is.** -/
theorem right_update_iff (h : Right name good items find) (k : κ) (i' : Option α) :
    Right name good (Function.update items k i') find ↔ Keeps name good find (items k) i' := by
  cases hk : items k with
  | none =>
    cases i' with
    | none =>
      rw [← hk, Function.update_eq_self, hk]
      exact iff_of_true h trivial
    | some i' =>
      have hgrow : ∀ j i, items j = some i → Function.update items k (some i') j = some i := by
        intro j i hj
        rw [Function.update_of_ne, hj]
        rintro rfl
        exact absurd (hk.symm.trans hj) (by simp)
      refine iff_of_false (fun h' => ?_) id
      have hat := congrFun ((right_grow_iff h hgrow).mp h') k
      rw [Function.update_self, hk] at hat
      exact absurd hat (by simp)
  | some i =>
    cases i' with
    | none =>
      have hshrink : ∀ j i, Function.update items k none j = some i → items j = some i := by
        intro j i hj
        rw [Function.update_apply] at hj
        split_ifs at hj
        exact hj
      refine iff_of_false (fun h' => ?_) id
      have hat := congrFun ((right_shrink_iff h hshrink).mp h') k
      rw [Function.update_self, hk] at hat
      exact absurd hat (by simp)
    | some i' => exact right_replace_iff h hk i'

/-! ### Steps that write the directory -/

/-- **An item that comes into force and is registered**: its name must be free. -/
theorem right_register_iff (h : Right name good items find) {k : κ} (hk : items k = none) {i : α}
    {n : ν} {q : ρ} (hname : name i = some n) (hgood : good i q) [DecidableEq ν]
    (hfind : find n = none → ∀ m, find' m = if m = n then some q else find m) :
    Right name good (Function.update items k (some i)) find' ↔ find n = none := by
  constructor
  · intro h'
    rw [h.find_eq_none_iff]
    intro j i₀ hj hname₀
    have hne : j ≠ k := by
      rintro rfl
      exact absurd (hk.symm.trans hj) (by simp)
    refine hne (h'.distinct j k i₀ i n ?_ (Function.update_self k _ _) hname₀ hname)
    rw [Function.update_of_ne hne, hj]
  · intro hfree
    have hnone := h.find_eq_none_iff.mp hfree
    refine ⟨fun j i₀ hj => ?_, fun m r hm => ?_, fun j j' i₀ i₁ m hj hj' hname₀ hname₁ => ?_⟩
    · rw [Function.update_apply] at hj
      split_ifs at hj with hjk
      · obtain rfl := Option.some.inj hj
        exact ⟨n, q, hname, by rw [hfind hfree, if_pos rfl], hgood⟩
      · obtain ⟨m, r, hname₀, hm, hgood₀⟩ := h.registered j i₀ hj
        refine ⟨m, r, hname₀, ?_, hgood₀⟩
        rw [hfind hfree, if_neg, hm]
        rintro rfl
        exact hnone j i₀ hj hname₀
    · rw [hfind hfree] at hm
      split_ifs at hm with hmn
      · exact ⟨k, i, Function.update_self k _ _, hmn ▸ hname⟩
      · obtain ⟨j, i₀, hj, hname₀⟩ := h.owned m r hm
        refine ⟨j, i₀, ?_, hname₀⟩
        rw [Function.update_of_ne, hj]
        rintro rfl
        exact absurd (hk.symm.trans hj) (by simp)
    · -- two items of one name, one of which may be the new one
      rw [Function.update_apply] at hj hj'
      split_ifs at hj hj' with hjk hjk' hjk'
      · rw [hjk, hjk']
      · obtain rfl := Option.some.inj hj
        obtain rfl := Option.some.inj (hname.symm.trans hname₀)
        exact absurd hname₁ (hnone j' i₁ hj')
      · obtain rfl := Option.some.inj hj'
        obtain rfl := Option.some.inj (hname.symm.trans hname₁)
        exact absurd hname₀ (hnone j i₀ hj)
      · exact h.distinct j j' i₀ i₁ m hj hj' hname₀ hname₁

/-- **An item that goes together with its entry.** -/
theorem right_withdraw (h : Right name good items find) {k : κ} {i : α} (hk : items k = some i)
    {n : ν} (hname : name i = some n) [DecidableEq ν]
    (hfind : ∀ m, find' m = if m = n then none else find m) :
    Right name good (Function.update items k none) find' := by
  have hrest : ∀ {j i₀}, Function.update items k none j = some i₀ → j ≠ k ∧ items j = some i₀ := by
    intro j i₀ hj
    rw [Function.update_apply] at hj
    split_ifs at hj with hjk
    exact ⟨hjk, hj⟩
  refine ⟨fun j i₀ hj => ?_, fun m r hm => ?_, fun j j' i₀ i₁ m hj hj' hname₀ hname₁ => ?_⟩
  · obtain ⟨hjk, hj⟩ := hrest hj
    obtain ⟨m, r, hname₀, hm, hgood₀⟩ := h.registered j i₀ hj
    refine ⟨m, r, hname₀, ?_, hgood₀⟩
    rw [hfind, if_neg, hm]
    rintro rfl
    exact hjk (h.distinct j k i₀ i m hj hk hname₀ hname)
  · rw [hfind] at hm
    split_ifs at hm with hmn
    obtain ⟨j, i₀, hj, hname₀⟩ := h.owned m r hm
    refine ⟨j, i₀, ?_, hname₀⟩
    rw [Function.update_of_ne, hj]
    rintro rfl
    obtain rfl := Option.some.inj (hj.symm.trans hk)
    exact hmn (Option.some.inj (hname₀.symm.trans hname))
  · exact h.distinct j j' i₀ i₁ m (hrest hj).2 (hrest hj').2 hname₀ hname₁

end

end Directory

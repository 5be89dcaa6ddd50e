import Mathlib.Data.List.Nodup
import Mathlib.Logic.Function.Basic

/-!
# References that are kept on both sides

Members each refer to one owner or to none, and every owner has a list of the members that
refer to it (`Links`). The two sides are written apart, and they are consistent
(`Links.Consistent`) if every reference goes to an owner that is there and every list has
exactly the members that refer to its owner, each once.

An operation that writes one side only keeps them consistent exactly if it changes nothing
there that the other side would have to know (`Links.consistent_refer_iff`,
`Links.consistent_drop_iff`, `Links.consistent_close_iff`). An owner may take over another
one's list as a whole if the references go with it (`Links.Consistent.absorb`).
-/

universe u v

/-- The references of the members there are, and the lists of the owners there are. -/
structure Links (ι : Type u) (γ : Type v) where
  ref : ι → Option (Option γ)
  list : γ → Option (List ι)

namespace Links

variable {ι : Type u} {γ : Type v}

/-- Both sides say the same. -/
structure Consistent (l : Links ι γ) : Prop where
  there : ∀ i g, l.ref i = some (some g) → l.list g ≠ none
  nodup : ∀ g is, l.list g = some is → is.Nodup
  mem_iff : ∀ g is, l.list g = some is → ∀ i, i ∈ is ↔ l.ref i = some (some g)

variable {l : Links ι γ}

/-- A list with a member is that of the owner the member refers to. -/
theorem Consistent.ref_of_mem (h : l.Consistent) {g : γ} {is : List ι} {i : ι}
    (hg : l.list g = some is) (hi : i ∈ is) : l.ref i = some (some g) :=
  (h.mem_iff g is hg i).mp hi

/-! ### Members -/

section Members

variable [DecidableEq ι]

/-- A member there is from now on, which refers to no owner. -/
def join (l : Links ι γ) (i : ι) : Links ι γ := { l with ref := Function.update l.ref i (some none) }

/-- A member refers to another owner, or to none. -/
def refer (l : Links ι γ) (i : ι) (o : Option γ) : Links ι γ :=
  { l with ref := Function.update l.ref i (some o) }

/-- A member there is no more. -/
def drop (l : Links ι γ) (i : ι) : Links ι γ := { l with ref := Function.update l.ref i none }

/-- Nobody has to know of a member that refers to no owner and did not before. -/
theorem Consistent.write (h : l.Consistent) {i : ι} {r : Option (Option γ)}
    (hold : ∀ g, l.ref i ≠ some (some g)) (hnew : ∀ g, r ≠ some (some g)) :
    (Links.mk (Function.update l.ref i r) l.list).Consistent where
  there j g hj := by
    simp only [Function.update_apply] at hj
    split_ifs at hj
    · exact absurd hj (hnew g)
    · exact h.there j g hj
  nodup := h.nodup
  mem_iff g is hg j := by
    simp only [Function.update_apply]
    split_ifs with hji
    · rw [h.mem_iff g is hg j, hji]
      exact iff_of_false (hold g) (hnew g)
    · exact h.mem_iff g is hg j

theorem Consistent.join (h : l.Consistent) {i : ι} (hi : l.ref i = none) :
    (l.join i).Consistent :=
  h.write (fun g => by rw [hi]; exact Option.some_ne_none _ |>.symm) fun g => by simp

/-- **Who writes references only may not change any.** -/
theorem consistent_refer_iff (h : l.Consistent) {i : ι} {o o' : Option γ} (hi : l.ref i = some o)
    (ho' : ∀ g, o' = some g → l.list g ≠ none) : (l.refer i o').Consistent ↔ o' = o := by
  constructor
  · intro h'
    have hself : (l.refer i o').ref i = some o' := Function.update_self ..
    -- the list of either owner has the member before and after
    rcases ho : o' with _ | g'
    · rcases o with _ | g
      · rfl
      · obtain ⟨is, his⟩ := Option.ne_none_iff_exists'.mp (h.there i g hi)
        have hmem := (h.mem_iff g is his i).mpr hi
        have hstill := h'.ref_of_mem his hmem
        rw [hself, ho] at hstill
        cases hstill
    · obtain ⟨is, his⟩ := Option.ne_none_iff_exists'.mp (ho' g' ho)
      have hmem := (h'.mem_iff g' is his i).mpr (by rw [hself, ho])
      have hbefore := h.ref_of_mem his hmem
      rw [hi] at hbefore
      exact (Option.some.inj hbefore).symm
  · rintro rfl
    have hsame : l.refer i o' = l := by
      rw [refer, ← hi, Function.update_eq_self]
    rwa [hsame]

/-- **A member may go unnoticed exactly if it refers to no owner.** -/
theorem consistent_drop_iff (h : l.Consistent) {i : ι} {o : Option γ} (hi : l.ref i = some o) :
    (l.drop i).Consistent ↔ o = none := by
  constructor
  · intro h'
    rcases o with _ | g
    · rfl
    · obtain ⟨is, his⟩ := Option.ne_none_iff_exists'.mp (h.there i g hi)
      have hgone := h'.ref_of_mem his ((h.mem_iff g is his i).mpr hi)
      have hself : (l.drop i).ref i = none := Function.update_self ..
      rw [hself] at hgone
      cases hgone
  · rintro rfl
    exact h.write (fun g => by simp [hi]) fun g => by simp

end Members

/-! ### Owners -/

section Owners

variable [DecidableEq γ]

/-- An owner with a list. -/
def own (l : Links ι γ) (g : γ) (is : List ι) : Links ι γ :=
  { l with list := Function.update l.list g (some is) }

/-- An owner there is no more. -/
def close (l : Links ι γ) (g : γ) : Links ι γ := { l with list := Function.update l.list g none }

/-- An owner there is from now on, with no member. -/
theorem Consistent.open (h : l.Consistent) {g : γ} (hg : l.list g = none) :
    (l.own g []).Consistent where
  there i x hi := by
    simp only [own, Function.update_apply]
    split_ifs
    · exact Option.some_ne_none _
    · exact h.there i x hi
  nodup x is hx := by
    simp only [own, Function.update_apply] at hx
    split_ifs at hx
    · cases hx
      exact List.nodup_nil
    · exact h.nodup x is hx
  mem_iff x is hx i := by
    simp only [own, Function.update_apply] at hx
    split_ifs at hx with hxg
    · cases hx
      refine iff_of_false List.not_mem_nil fun hi => ?_
      exact h.there i x hi (hxg ▸ hg)
    · exact h.mem_iff x is hx i

/-- **An owner may go unnoticed exactly if no member refers to it.** -/
theorem consistent_close_iff (h : l.Consistent) {g : γ} :
    (l.close g).Consistent ↔ ∀ i, l.ref i ≠ some (some g) := by
  constructor
  · intro h' i hi
    exact h'.there i g hi (Function.update_self ..)
  · intro hnone
    refine ⟨fun i x hi => ?_, fun x is hx => ?_, fun x is hx i => ?_⟩
    · have hx : x ≠ g := by
        rintro rfl
        exact hnone i hi
      simp only [close, Function.update_of_ne hx]
      exact h.there i x hi
    · simp only [close, Function.update_apply] at hx
      split_ifs at hx
      exact h.nodup x is hx
    · simp only [close, Function.update_apply] at hx
      split_ifs at hx
      exact h.mem_iff x is hx i

/-- Members of a list refer to an owner from now on. -/
def referAll [DecidableEq ι] (l : Links ι γ) (is : List ι) (g : γ) : Links ι γ :=
  { l with ref := fun i => if i ∈ is then some (some g) else l.ref i }

/-- An owner with the list of another one, which goes, after its own. -/
def absorb [DecidableEq ι] (l : Links ι γ) (g x : γ) (is js : List ι) : Links ι γ :=
  ((l.referAll js g).close x).own g (is ++ js)

theorem absorb_ref [DecidableEq ι] (l : Links ι γ) (g x : γ) (is js : List ι) (i : ι) :
    (l.absorb g x is js).ref i = if i ∈ js then some (some g) else l.ref i := rfl

theorem absorb_list [DecidableEq ι] (l : Links ι γ) (g x : γ) (is js : List ι) (y : γ) :
    (l.absorb g x is js).list y =
      if y = g then some (is ++ js) else if y = x then none else l.list y :=
  (Function.update_apply ..).trans (if_congr Iff.rfl rfl (Function.update_apply ..))

/-- **An owner takes over the list of another one**, and the references with it. -/
theorem Consistent.absorb [DecidableEq ι] (h : l.Consistent) {g x : γ} {is js : List ι}
    (hg : l.list g = some is) (hx : l.list x = some js) (hne : x ≠ g) :
    (l.absorb g x is js).Consistent where
  there i y hi := by
    rw [absorb_ref] at hi
    rw [absorb_list]
    by_cases hy : y = g
    · rw [if_pos hy]
      exact Option.some_ne_none _
    · rw [if_neg hy]
      by_cases hmem : i ∈ js
      · rw [if_pos hmem] at hi
        exact absurd (Option.some.inj (Option.some.inj hi)).symm hy
      · rw [if_neg hmem] at hi
        rw [if_neg]
        · exact h.there i y hi
        · rintro rfl
          exact hmem ((h.mem_iff y js hx i).mpr hi)
  nodup y ks hy := by
    rw [absorb_list] at hy
    split_ifs at hy
    · obtain rfl := Option.some.inj hy
      -- a member of both lists would refer to two owners
      refine List.nodup_append'.mpr ⟨h.nodup g is hg, h.nodup x js hx, ?_⟩
      intro i hi hj
      have hrefs := (h.ref_of_mem hg hi).symm.trans (h.ref_of_mem hx hj)
      exact hne (Option.some.inj (Option.some.inj hrefs)).symm
    · exact h.nodup y ks hy
  mem_iff y ks hy i := by
    rw [absorb_list] at hy
    rw [absorb_ref]
    by_cases hyg : y = g
    · rw [if_pos hyg] at hy
      obtain rfl := Option.some.inj hy
      rw [hyg, List.mem_append, h.mem_iff g is hg i]
      split_ifs with hmem
      · exact iff_of_true (.inr hmem) rfl
      · exact or_iff_left hmem
    · rw [if_neg hyg] at hy
      split_ifs at hy with hyx
      split_ifs with hmem
      · -- a member that was taken over was in no third list
        refine iff_of_false (fun hi => hyx ?_) fun hi => hyg ?_
        · have hrefs := (h.ref_of_mem hy hi).symm.trans (h.ref_of_mem hx hmem)
          exact Option.some.inj (Option.some.inj hrefs)
        · exact (Option.some.inj (Option.some.inj hi)).symm
      · exact h.mem_iff y ks hy i

end Owners

end Links

import Mathlib.Data.List.Count
import Mathlib.Data.List.Perm.Basic
import Mathlib.Data.List.Nodup
import Mathlib.Data.List.Basic

/-!
# Grouping by key

A list of keyed values is collected into groups, one for each key that occurs, and the
groups are visited in some order. What survives is the list under each key
(`Grouping.under`): collecting one value at a time keeps it (`Grouping.Buckets.concat`),
and so does flattening the groups again, in whatever order they are visited
(`Grouping.Grouped.under_flat`). Two lists with the same values under every key are
permutations of each other (`Grouping.perm_of_under`), so nothing is lost and nothing is
there twice.
-/

namespace Grouping

variable {α β : Type} [DecidableEq α]

/-! ### The values under a key -/

/-- The values under a key, in order. -/
def under (k : α) (kvs : List (α × β)) : List β :=
  kvs.filterMap fun kv => if kv.1 = k then some kv.2 else none

variable {k : α} {kvs kvs' : List (α × β)}

@[simp] theorem under_nil : under k ([] : List (α × β)) = [] := rfl

@[simp] theorem under_append : under k (kvs ++ kvs') = under k kvs ++ under k kvs' :=
  List.filterMap_append

theorem under_cons (kv : α × β) :
    under k (kv :: kvs) = if kv.1 = k then kv.2 :: under k kvs else under k kvs := by
  by_cases h : kv.1 = k <;> simp [under, h]

@[simp] theorem mem_under {v : β} : v ∈ under k kvs ↔ (k, v) ∈ kvs := by
  rw [under, List.mem_filterMap]
  constructor
  · rintro ⟨⟨k', v'⟩, hkv, heq⟩
    split_ifs at heq with hk
    obtain rfl := Option.some.inj heq
    obtain rfl := hk
    exact hkv
  · intro h
    exact ⟨(k, v), h, if_pos rfl⟩

/-- Values that all carry one key. -/
theorem under_map_mk (k' : α) (vs : List β) :
    under k (vs.map (k', ·)) = if k' = k then vs else [] := by
  induction vs with
  | nil => split_ifs <;> rfl
  | cons v vs ih =>
    rw [List.map_cons, under_cons, ih]
    by_cases h : k' = k <;> simp [h]

theorem count_under [DecidableEq β] (v : β) : (under k kvs).count v = kvs.count (k, v) := by
  induction kvs with
  | nil => rfl
  | cons kv kvs ih =>
    rw [under_cons, List.count_cons]
    obtain ⟨k', v'⟩ := kv
    by_cases h : k' = k
    · rw [if_pos h, List.count_cons, ih]
      simp [h]
    · rw [if_neg h, ih]
      simp [h]

/-- **The lists under the keys say what a list holds**, up to the order across keys. -/
theorem perm_of_under (h : ∀ k, under k kvs = under k kvs') : kvs.Perm kvs' := by
  classical
  rw [List.perm_iff_count]
  rintro ⟨k, v⟩
  rw [← count_under, ← count_under, h k]

/-! ### Collecting -/

/-- A partial function that holds, at each key that occurs, the values under it. -/
def Buckets (f : α → Option (List β)) (kvs : List (α × β)) : Prop :=
  ∀ k, f k = if under k kvs = [] then none else some (under k kvs)

namespace Buckets

variable {f f' : α → Option (List β)}

theorem nil (hf : ∀ k, f k = none) : Buckets f ([] : List (α × β)) := by
  intro k
  rw [hf k, under_nil, if_pos rfl]

theorem getD (h : Buckets f kvs) (k : α) : (f k).getD [] = under k kvs := by
  rw [h k]
  split_ifs with h0
  · exact h0.symm
  · rfl

/-- One more value, appended to the bucket of its key. -/
theorem concat (h : Buckets f kvs) {k : α} {v : β}
    (hk : f' k = some ((f k).getD [] ++ [v])) (hne : ∀ k', k' ≠ k → f' k' = f k') :
    Buckets f' (kvs ++ [(k, v)]) := by
  intro k'
  rw [under_append, under_cons, under_nil]
  by_cases hk' : k' = k
  · subst hk'
    rw [hk, h.getD, if_pos rfl, if_neg (by simp)]
  · rw [hne k' hk', h k', if_neg (Ne.symm hk'), List.append_nil]

end Buckets

/-! ### Groups -/

/-- The groups of a list of keyed values: the lists under the keys that occur, each once. -/
structure Grouped (gs : List (α × List β)) (kvs : List (α × β)) : Prop where
  nodup : (gs.map Prod.fst).Nodup
  mem_iff : ∀ k vs, (k, vs) ∈ gs ↔ vs = under k kvs ∧ vs ≠ []

/-- The values of groups one after the other, each with its key. -/
def flat (gs : List (α × List β)) : List (α × β) := gs.flatMap fun g => g.2.map (g.1, ·)

variable {gs gs' : List (α × List β)}

/-- The entries of a map of buckets are groups, in any order. -/
theorem Buckets.grouped {f : α → Option (List β)} (h : Buckets f kvs)
    (hnd : (gs.map Prod.fst).Nodup) (hmem : ∀ k vs, (k, vs) ∈ gs ↔ f k = some vs) :
    Grouped gs kvs := by
  refine ⟨hnd, fun k vs => ?_⟩
  rw [hmem, h k]
  split_ifs with h0
  · rw [h0]
    simp
  · constructor
    · intro heq
      obtain rfl := Option.some.inj heq
      exact ⟨rfl, h0⟩
    · rintro ⟨rfl, -⟩
      rfl

omit [DecidableEq α] in
@[simp] theorem flat_nil : flat ([] : List (α × List β)) = [] := rfl

omit [DecidableEq α] in
theorem flat_cons (g : α × List β) : flat (g :: gs) = g.2.map (g.1, ·) ++ flat gs := rfl

/-- A key that no group has holds nothing. -/
theorem under_flat_of_notMem (h : k ∉ gs.map Prod.fst) : under k (flat gs) = [] := by
  induction gs with
  | nil => rfl
  | cons g gs ih =>
    rw [List.map_cons, List.mem_cons, not_or] at h
    rw [flat_cons, under_append, under_map_mk, if_neg (Ne.symm h.1), ih h.2, List.append_nil]

theorem under_flat_of_mem (hnd : (gs.map Prod.fst).Nodup) {vs : List β} (h : (k, vs) ∈ gs) :
    under k (flat gs) = vs := by
  induction gs with
  | nil => exact absurd h List.not_mem_nil
  | cons g gs ih =>
    rw [List.map_cons, List.nodup_cons] at hnd
    rw [flat_cons, under_append, under_map_mk]
    rcases List.mem_cons.mp h with rfl | hgs
    · rw [if_pos rfl, under_flat_of_notMem hnd.1, List.append_nil]
    · -- the head has another key, since the keys are distinct
      have hne : g.1 ≠ k := by
        rintro rfl
        exact hnd.1 (List.mem_map.mpr ⟨_, hgs, rfl⟩)
      rw [if_neg hne, List.nil_append, ih hnd.2 hgs]

/-- **Grouping keeps the list under each key**, in whatever order the groups come. -/
theorem Grouped.under_flat (h : Grouped gs kvs) (k : α) : under k (flat gs) = under k kvs := by
  by_cases hk : k ∈ gs.map Prod.fst
  · obtain ⟨⟨k', vs⟩, hmem, rfl⟩ := List.mem_map.mp hk
    rw [under_flat_of_mem h.nodup hmem]
    exact ((h.mem_iff k' vs).mp hmem).1
  · rw [under_flat_of_notMem hk]
    by_contra hne
    exact hk (List.mem_map.mpr ⟨(k, under k kvs), (h.mem_iff _ _).mpr ⟨rfl, Ne.symm hne⟩, rfl⟩)

omit [DecidableEq α] in
theorem flat_append : flat (gs ++ gs') = flat gs ++ flat gs' := List.flatMap_append

/-- Values that carry their own key are selected by it as by the key beside them. -/
theorem filter_map_snd {key : β → α} (h : ∀ kv ∈ kvs, key kv.2 = kv.1) (k : α) :
    (kvs.map Prod.snd).filter (key · = k) = under k kvs := by
  induction kvs with
  | nil => rfl
  | cons kv kvs ih =>
    have hkv : key kv.2 = kv.1 := h kv List.mem_cons_self
    rw [List.map_cons, List.filter_cons, under_cons, hkv,
      ih fun kv' hkv' => h kv' (List.mem_cons_of_mem _ hkv')]
    simp only [decide_eq_true_eq]

/-! ### Visits that stop half-way -/

/-- A visit to groups that stopped inside the group of a key: that group is incomplete,
and of the others each is there as a whole or not at all. -/
structure CutShort (got kvs : List (α × β)) (k : α) : Prop where
  initial : ∀ c, under c got <+: under c kvs
  whole : ∀ c, c ≠ k → under c got = [] ∨ under c got = under c kvs
  missing : under k got ≠ under k kvs

/-- **What a visit leaves that stops inside a group**, whatever the order of the visit. -/
theorem Grouped.cutShort {before after : List (α × List β)} {done rest : List β}
    (h : Grouped (before ++ (k, done ++ rest) :: after) kvs) (hrest : rest ≠ []) :
    CutShort (flat before ++ done.map (k, ·)) kvs k := by
  have hnd := h.nodup
  rw [List.map_append, List.map_cons, List.nodup_append] at hnd
  obtain ⟨-, hafter, hdisj⟩ := hnd
  rw [List.nodup_cons] at hafter
  -- the groups before and after the one that failed have other keys
  have hkb : k ∉ before.map Prod.fst := fun hk => hdisj k hk k List.mem_cons_self rfl
  have hall : ∀ c, under c kvs =
      under c (flat before) ++ ((if k = c then done ++ rest else []) ++ under c (flat after)) := by
    intro c
    rw [← h.under_flat c, flat_append, under_append, flat_cons, under_append, under_map_mk]
  have hgot : ∀ c, under c (flat before ++ done.map (k, ·)) =
      under c (flat before) ++ if k = c then done else [] := by
    intro c
    rw [under_append, under_map_mk]
  have hkgot : under k (flat before ++ done.map (k, ·)) = done := by
    rw [hgot, if_pos rfl, under_flat_of_notMem hkb, List.nil_append]
  have hkall : under k kvs = done ++ rest := by
    rw [hall, if_pos rfl, under_flat_of_notMem hkb, under_flat_of_notMem hafter.1,
      List.nil_append, List.append_nil]
  have hwhole : ∀ c, c ≠ k → under c (flat before ++ done.map (k, ·)) = [] ∨
      under c (flat before ++ done.map (k, ·)) = under c kvs := by
    intro c hc
    rw [hgot, hall, if_neg (Ne.symm hc), if_neg (Ne.symm hc), List.append_nil, List.nil_append]
    by_cases hcb : c ∈ before.map Prod.fst
    · right
      have hca : c ∉ after.map Prod.fst := fun hca =>
        hdisj c hcb c (List.mem_cons_of_mem _ hca) rfl
      rw [under_flat_of_notMem hca, List.append_nil]
    · left
      exact under_flat_of_notMem hcb
  refine ⟨fun c => ?_, hwhole, ?_⟩
  · by_cases hc : c = k
    · rw [hc, hkgot, hkall]
      exact List.prefix_append _ _
    · rcases hwhole c hc with hnil | heq
      · rw [hnil]
        exact List.nil_prefix
      · exact ⟨[], by rw [heq, List.append_nil]⟩
  · rw [hkgot, hkall]
    simpa using hrest

end Grouping

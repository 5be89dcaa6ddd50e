import Xsiam.Lib.RedisLaws

/-!
# Ranges of scores

The commands that select the members of a sorted set by their scores, from a bound on. A bound
is counted in or left out, and both commands fail on a key of another type.

What is selected is said by the scores of the members (`Redis.Db.mem_zrangeByScore`), and so is
what lies between two bounds of which one is wider: they count alike exactly if no member is
between them (`Redis.Db.zcount_eq_iff`).
-/

namespace Redis

namespace Db

variable {K : Type} [Ord K] [Std.TransOrd K]

/-- The members of a sorted set with their scores, member by member. -/
def zmembers (db : Db K) (k : K) : Option (List (K × ℕ)) := zsetOf (db.find? k)

variable {db : Db K} {k : K} {min : Bound}

theorem zcount_eq : db.zcount k min = (db.zmembers k).map (·.countP (min.admits ·.2)) :=
  db.server.zcount_eq ..

theorem zrangeByScore_eq : db.zrangeByScore k min = (db.zmembers k).map fun kvs =>
    ((kvs.filter (min.admits ·.2)).mergeSort (fun a b => a.2 ≤ b.2)).map (·.1) :=
  db.server.zrangeByScore_eq ..

theorem nodup_zmembers [Std.LawfulEqOrd K] {kvs : List (K × ℕ)} (h : db.zmembers k = some kvs) :
    (kvs.map (·.1)).Nodup := by
  rw [zmembers] at h
  generalize db.find? k = found at h
  rcases found with _ | ⟨_ | _ | z, x⟩
  · obtain rfl := Option.some.inj h
    exact List.nodup_nil
  · cases h
  · cases h
  · obtain rfl := Option.some.inj h
    rw [List.Nodup, List.pairwise_map]
    refine Std.ExtTreeMap.distinct_keys_toList.imp fun {a b} hne heq => hne ?_
    exact heq ▸ Std.ReflCmp.compare_self

theorem mem_zmembers [Std.LawfulEqOrd K] {kvs : List (K × ℕ)} (h : db.zmembers k = some kvs)
    {m : K} {score : ℕ} : (m, score) ∈ kvs ↔ db.zscore k m = some score := by
  rw [zscore_eq]
  rw [zmembers] at h
  generalize db.find? k = found at h ⊢
  rcases found with _ | ⟨_ | _ | z, x⟩
  · obtain rfl := Option.some.inj h
    exact iff_of_false List.not_mem_nil (by simp)
  · cases h
  · cases h
  · obtain rfl := Option.some.inj h
    exact Std.ExtTreeMap.mem_toList_iff_getElem?_eq_some

/-- A key that holds no sorted set scores nobody. -/
theorem zscore_of_zmembers (h : db.zmembers k = none) (m : K) : db.zscore k m = none := by
  rw [zmembers] at h
  rw [zscore_eq]
  generalize db.find? k = found at h ⊢
  rcases found with _ | ⟨_ | _ | _, x⟩
  · rfl
  · rfl
  · rfl
  · cases h

/-- Both commands select the same members. -/
theorem length_zrangeByScore :
    (db.zrangeByScore k min).map List.length = db.zcount k min := by
  rw [zrangeByScore_eq, zcount_eq, Option.map_map]
  refine congrArg (Option.map · _) ?_
  ext kvs
  simp only [Function.comp_apply]
  rw [List.length_map, List.length_mergeSort, List.countP_eq_length_filter]

theorem nodup_zrangeByScore [Std.LawfulEqOrd K] {ms : List K}
    (h : db.zrangeByScore k min = some ms) : ms.Nodup := by
  rw [zrangeByScore_eq] at h
  obtain ⟨kvs, hkvs, rfl⟩ := Option.map_eq_some_iff.mp h
  have hsorted := (List.mergeSort_perm (kvs.filter (min.admits ·.2)) (fun a b => a.2 ≤ b.2)).map
    (·.1)
  refine hsorted.nodup_iff.mpr ?_
  exact (nodup_zmembers hkvs).sublist (List.filter_sublist.map _)

/-- **What is selected**: the members whose scores are in the range. -/
theorem mem_zrangeByScore [Std.LawfulEqOrd K] {m : K} :
    (∃ ms, db.zrangeByScore k min = some ms ∧ m ∈ ms) ↔
      ∃ score, db.zscore k m = some score ∧ min.admits score = true := by
  rw [zrangeByScore_eq]
  cases hkvs : db.zmembers k with
  | none =>
    refine iff_of_false (by simp) ?_
    rintro ⟨score, hscore, -⟩
    exact absurd ((zscore_of_zmembers hkvs m).symm.trans hscore) (by simp)
  | some kvs =>
    simp only [Option.map_some, Option.some.injEq, exists_eq_left', List.mem_map,
      List.mem_mergeSort, List.mem_filter]
    constructor
    · rintro ⟨⟨m', score⟩, ⟨hmem, hmin⟩, rfl⟩
      exact ⟨score, (mem_zmembers hkvs).mp hmem, hmin⟩
    · rintro ⟨score, hscore, hmin⟩
      exact ⟨(m, score), ⟨(mem_zmembers hkvs).mpr hscore, hmin⟩, rfl⟩

/-- **Two bounds of which one is wider count alike exactly if no member is between them.** -/
theorem zcount_eq_iff [Std.LawfulEqOrd K] {min min' : Bound}
    (hwider : ∀ n, min.admits n = true → min'.admits n = true) :
    db.zcount k min = db.zcount k min' ↔
      ∀ m score, db.zscore k m = some score → min'.admits score = true →
        min.admits score = true := by
  rw [zcount_eq, zcount_eq]
  cases hkvs : db.zmembers k with
  | none =>
    refine iff_of_true rfl fun m score hscore => ?_
    exact absurd ((zscore_of_zmembers hkvs m).symm.trans hscore) (by simp)
  | some kvs =>
    -- those in the narrower range are some of those in the wider one: as many, if all of them
    have hsub : (kvs.filter (min.admits ·.2)).Sublist (kvs.filter (min'.admits ·.2)) :=
      List.monotone_filter_right _ fun kv => hwider kv.2
    simp only [Option.map_some, Option.some.injEq, List.countP_eq_length_filter]
    constructor
    · intro hlength m score hscore hmin'
      have hmem := (mem_zmembers hkvs).mpr hscore
      have hfilter : (m, score) ∈ kvs.filter (min.admits ·.2) := by
        rw [hsub.eq_of_length hlength]
        exact List.mem_filter.mpr ⟨hmem, hmin'⟩
      exact (List.mem_filter.mp hfilter).2
    · intro hnone
      refine congrArg List.length (List.filter_congr fun kv hkv => ?_)
      rw [Bool.eq_iff_iff]
      exact ⟨hwider kv.2, hnone kv.1 kv.2 ((mem_zmembers hkvs).mp hkv)⟩

end Db

end Redis

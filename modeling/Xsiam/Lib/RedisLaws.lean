import Xsiam.Lib.Redis

/-!
# What the commands of the server change

A command writes under one key, if it does anything: what is found there afterwards is one
thing, and what is found under every other key is what was found before
(`Redis.Db.Writes`). For each command it is said what is found, from what is documented of it, and
three readings follow: the type under a key, the members of a set, the scores of a sorted set.

Only strings are given an expiry. So sets and sorted sets stay where they are as time
passes (`Redis.Db.Lasting`). And only `SADD` adds a member to a set: all other commands leave
every set with members it had (`Redis.Db.Shrinks`).
-/

namespace Redis

variable {K : Type} [Ord K]

/-- What `TYPE` answers for a key that is there. -/
inductive Kind where
  | string
  | set
  | zset
  deriving DecidableEq

/-- The type of a value. -/
def Value.kind : Value K → Kind
  | .string _ => .string
  | .set _ => .set
  | .zset _ => .zset

namespace Db

section Readings

variable [Std.TransOrd K] {db : Db K} {k m : K}

/-- `TYPE`, where there is something. -/
def type (db : Db K) (k : K) : Option Kind := (db.find? k).map (·.value.kind)

/-- Only strings go away by themselves. -/
def Lasting (db : Db K) : Prop :=
  ∀ k e, db.find? k = some e → e.value.kind ≠ .string → e.expireAt = none

theorem Lasting.expiry {v : Value K} {x : Option ℕ} (h : db.Lasting)
    (hfind : db.find? k = some ⟨v, x⟩) (hv : v.kind ≠ .string) : x = none := h k _ hfind hv

theorem find?_empty (start : ℕ) (server : Server K) (k : K) :
    (empty start server).find? k = none := by
  rw [Keyspace.find?, empty, Std.ExtTreeMap.getElem?_empty]
  rfl

theorem zscore_eq : db.zscore k m = (db.find? k).bind (·.value.score m) :=
  db.server.zscore_eq ..

/-- What is asked for is the members, in some order, unless the key is of another type. -/
theorem smembers_rel : Option.Rel (fun ms set => ∀ m, m ∈ ms ↔ set.contains m = true)
    (db.smembers k) (setOf (db.find? k)) := db.server.smembers_rel ..

/-! ### Types -/

theorem present_eq_isSome_type : db.present k = (db.type k).isSome := by
  rw [type, Option.isSome_map]
  exact db.server.present_eq ..

/-- A command fails if what it finds is of another type. -/
theorem map_eq_none_iff {out : Option (Keyspace K)} {r : Option (Option (Entry K))}
    (h : db.toKeyspace.Carries k out r) : out.map db.holding = none ↔ r = none := by
  cases r with
  | none => exact iff_of_true (Option.map_eq_none_iff.mpr h) rfl
  | some r =>
    obtain ⟨ks, rfl, -⟩ := h
    exact iff_of_false (by simp) (by simp)

/-- `SADD` fails only on a key of another type. -/
theorem sadd_eq_none_iff : db.sadd k m = none ↔ db.type k = some .string ∨ db.type k = some .zset := by
  rw [sadd, map_eq_none_iff (db.server.carries_sadd ..), type]
  rcases db.find? k with _ | ⟨_ | _ | _, x⟩ <;> simp [Value.kind, saddEntry]

theorem srem_eq_none_iff : db.srem k m = none ↔ db.type k = some .string ∨ db.type k = some .zset := by
  rw [srem, map_eq_none_iff (db.server.carries_srem ..), type]
  rcases db.find? k with _ | ⟨_ | _ | _, x⟩ <;> simp [Value.kind, sremEntry]

theorem zadd_eq_none_iff {score : ℕ} :
    db.zadd k m score = none ↔ db.type k = some .string ∨ db.type k = some .set := by
  rw [zadd, map_eq_none_iff (db.server.carries_zadd ..), type]
  rcases db.find? k with _ | ⟨_ | _ | _, x⟩ <;> simp [Value.kind, zaddEntry]

theorem zrem_eq_none_iff {ms : List K} :
    db.zrem k ms = none ↔ db.type k = some .string ∨ db.type k = some .set := by
  rw [zrem, map_eq_none_iff (db.server.carries_zrem ..), type]
  rcases db.find? k with _ | ⟨_ | _ | _, x⟩ <;> simp [Value.kind, zremEntry]

theorem sismember_eq_false (h : db.type k ≠ some .set) : db.sismember k m = false := by
  rw [type] at h
  rw [sismember]
  rcases hfind : db.find? k with _ | ⟨_ | _ | _, x⟩
  · rfl
  · rfl
  · exact absurd (by rw [hfind]; rfl) h
  · rfl

theorem zscore_eq_none (h : db.type k ≠ some .zset) : db.zscore k m = none := by
  rw [type] at h
  rw [zscore_eq]
  rcases hfind : db.find? k with _ | ⟨_ | _ | _, x⟩
  · rfl
  · rfl
  · rfl
  · exact absurd (by rw [hfind]; rfl) h

/-! ### Time -/

/-- What is there after some time was there before. -/
theorem find?_wait {ms : ℕ} {e : Entry K} (h : (db.wait ms).find? k = some e) :
    db.find? k = some e := by
  obtain ⟨hentry, hlive⟩ := Option.filter_eq_some_iff.mp h
  refine Option.filter_eq_some_iff.mpr ⟨hentry, ?_⟩
  rw [Entry.live] at hlive ⊢
  split at hlive
  · rfl
  · have hlt : db.now + ms < _ := of_decide_eq_true hlive
    exact decide_eq_true (by omega)

/-- Time takes nothing but strings away. -/
theorem find?_wait_of_lasting (hdb : db.Lasting) (ms : ℕ) (hkind : db.type k ≠ some .string) :
    (db.wait ms).find? k = db.find? k := by
  cases hfind : db.find? k with
  | none =>
    cases hwait : (db.wait ms).find? k with
    | none => rfl
    | some e => exact absurd (hfind.symm.trans (find?_wait hwait)) (by simp)
  | some e =>
    have hne : e.value.kind ≠ .string := by
      intro heq
      rw [type, hfind, Option.map_some, heq] at hkind
      exact hkind rfl
    obtain ⟨hentry, -⟩ := Option.filter_eq_some_iff.mp hfind
    refine Option.filter_eq_some_iff.mpr ⟨hentry, ?_⟩
    rw [Entry.live, hdb k e hfind hne]

theorem type_wait {ms : ℕ} {kind : Kind} (h : (db.wait ms).type k = some kind) :
    db.type k = some kind := by
  obtain ⟨e, hfind, rfl⟩ := Option.map_eq_some_iff.mp h
  rw [type, find?_wait hfind, Option.map_some]

theorem lasting_wait (hdb : db.Lasting) (ms : ℕ) : (db.wait ms).Lasting :=
  fun k e hfind hkind => hdb k e (find?_wait hfind) hkind

theorem sismember_wait (hdb : db.Lasting) (ms : ℕ) :
    (db.wait ms).sismember k m = db.sismember k m := by
  by_cases hkind : db.type k = some .string
  · have hbefore : db.type k ≠ some .set := by simp [hkind]
    rw [sismember_eq_false hbefore, sismember_eq_false]
    intro hset
    exact absurd ((type_wait hset).symm.trans hkind) (by simp)
  · rw [sismember, find?_wait_of_lasting hdb ms hkind, sismember]

theorem zscore_wait (hdb : db.Lasting) (ms : ℕ) : (db.wait ms).zscore k m = db.zscore k m := by
  by_cases hkind : db.type k = some .string
  · have hbefore : db.type k ≠ some .zset := by simp [hkind]
    rw [zscore_eq_none hbefore, zscore_eq_none]
    intro hzset
    exact absurd ((type_wait hzset).symm.trans hkind) (by simp)
  · rw [zscore_eq, find?_wait_of_lasting hdb ms hkind, zscore_eq]

/-! ### Scanning -/

/-- Each key is scanned once. -/
theorem nodup_scan (p : K → Bool) : (db.scan p).Nodup := db.server.nodup_scan ..

theorem mem_scan {p : K → Bool} : k ∈ db.scan p ↔ db.present k = true ∧ p k = true := by
  rw [present, db.server.present_eq]
  exact db.server.mem_scan ..

/-- A key that cannot be read as a set has no members. -/
theorem sismember_of_smembers_eq_none (h : db.smembers k = none) : db.sismember k m = false := by
  have hrel := db.smembers_rel (k := k)
  rw [h] at hrel
  rw [sismember]
  rcases hfind : db.find? k with _ | ⟨_ | _ | _, x⟩
  · rfl
  · rfl
  · rw [hfind] at hrel
    cases hrel
  · rfl

theorem mem_smembers {ms : List K} (h : db.smembers k = some ms) :
    m ∈ ms ↔ db.sismember k m = true := by
  have hrel := db.smembers_rel (k := k)
  rw [h] at hrel
  rw [sismember]
  rcases hfind : db.find? k with _ | ⟨_ | set | _, x⟩
  · rw [hfind] at hrel
    obtain ⟨hmem⟩ := hrel
    rw [hmem]
    simp
  · rw [hfind] at hrel
    cases hrel
  · rw [hfind] at hrel
    obtain ⟨hmem⟩ := hrel
    exact hmem m
  · rw [hfind] at hrel
    cases hrel

end Readings

/-! ### Writing -/

section Writes

variable [Std.TransOrd K] [DecidableEq K]

/-- One key is written: what is found there is `r`, and nothing else changes. -/
structure Writes (db : Db K) (k : K) (r : Option (Entry K)) (db' : Db K) : Prop where
  now : db'.now = db.now
  find? : ∀ k', db'.find? k' = if k' = k then r else db.find? k'

variable {db db' : Db K} {k k' m m' : K}

namespace Writes

variable {r : Option (Entry K)}

theorem type (h : Writes db k r db') :
    db'.type k' = if k' = k then r.map (·.value.kind) else db.type k' := by
  rw [Db.type, h.find?]
  split_ifs
  · rfl
  · rfl

theorem sismember (h : Writes db k r db') :
    db'.sismember k' m = if k' = k then r.any (·.value.mem m) else db.sismember k' m := by
  rw [Db.sismember, Db.sismember, h.find?]
  split_ifs
  · rfl
  · rfl

theorem zscore (h : Writes db k r db') :
    db'.zscore k' m = if k' = k then r.bind (·.value.score m) else db.zscore k' m := by
  rw [zscore_eq, zscore_eq, h.find?]
  split_ifs
  · rfl
  · rfl

theorem lasting (h : Writes db k r db') (hdb : db.Lasting)
    (hr : ∀ e ∈ r, e.value.kind ≠ .string → e.expireAt = none) : db'.Lasting := by
  intro k' e hfind hkind
  rw [h.find?] at hfind
  split_ifs at hfind
  · exact hr e hfind hkind
  · exact hdb k' e hfind hkind

end Writes

/-- What is stored is replaced by what a command leaves. -/
theorem writes_holding {r : Option (Entry K)} {ks : Keyspace K}
    (h : db.toKeyspace.Writes k r ks) : Writes db k r (db.holding ks) := by
  refine ⟨h.now, fun k' => ?_⟩
  split_ifs with hk
  · exact hk ▸ h.found
  · exact h.others k' hk

theorem writes_del : Writes db k none (db.del k) := writes_holding (db.server.writes_del ..)

theorem writes_setEx {s : K} {ttl : ℕ} (httl : 0 < ttl) :
    Writes db k (some ⟨.string s, some (db.now + ttl)⟩) (db.setEx k s ttl) :=
  writes_holding (db.server.writes_setEx _ _ _ httl)

/-- A command that does not fail leaves what it makes of what it finds. -/
theorem writes_of_carries {out : Option (Keyspace K)} {made : Option (Option (Entry K))}
    (hcarries : db.toKeyspace.Carries k out made) (h : out.map db.holding = some db') :
    ∃ r, made = some r ∧ Writes db k r db' := by
  cases made with
  | none =>
    rw [Keyspace.Carries] at hcarries
    rw [hcarries] at h
    cases h
  | some r =>
    obtain ⟨ks, rfl, hwrites⟩ := hcarries
    obtain rfl := Option.some.inj h
    exact ⟨r, rfl, writes_holding hwrites⟩

variable [Std.LawfulEqOrd K]

/-! ### Sets -/

/-- `SADD`: a set that has what it had, and the member. -/
theorem writes_sadd (h : db.sadd k m = some db') : ∃ ms x, Writes db k (some ⟨.set ms, x⟩) db' ∧
    (∀ m', ms.contains m' = true ↔ db.sismember k m' = true ∨ m' = m) ∧
    (x = none ∨ ∃ ms', db.find? k = some ⟨.set ms', x⟩) := by
  have hinsert : ∀ (ms : Std.ExtTreeSet K compare) (m' : K),
      (ms.insert m).contains m' = true ↔ ms.contains m' = true ∨ m' = m := by
    intro ms m'
    rw [Std.ExtTreeSet.contains_insert, Bool.or_eq_true, beq_iff_eq,
      Std.LawfulEqCmp.compare_eq_iff_eq, or_comm]
    exact or_congr_right eq_comm
  obtain ⟨r, hmade, hwrites⟩ := writes_of_carries (db.server.carries_sadd ..) h
  obtain ⟨hfind, rfl⟩ | ⟨ms, x, hfind, rfl⟩ := saddEntry_cases hmade
  · refine ⟨_, _, hwrites, fun m' => ?_, Or.inl rfl⟩
    rw [hinsert, sismember, hfind]
    simp
  · refine ⟨_, _, hwrites, fun m' => ?_, Or.inr ⟨ms, hfind⟩⟩
    rw [hinsert, sismember, hfind]
    rfl

/-- `SREM`: a set that has what it had but the member, or nothing. -/
theorem writes_srem (h : db.srem k m = some db') : ∃ r, Writes db k r db' ∧
    (∀ m', r.any (·.value.mem m') = true ↔ db.sismember k m' = true ∧ m' ≠ m) ∧
    ∀ e ∈ r, e.value.kind = .set ∧ ∃ ms', db.find? k = some ⟨.set ms', e.expireAt⟩ := by
  obtain ⟨r, hmade, hwrites⟩ := writes_of_carries (db.server.carries_srem ..) h
  obtain ⟨hfind, rfl⟩ | ⟨ms, x, hfind, rfl⟩ := sremEntry_cases hmade
  · refine ⟨none, hwrites, fun m' => ?_, fun e he => absurd he (by simp)⟩
    rw [sismember, hfind]
    simp
  · have herase : ∀ m', (ms.erase m).contains m' = true ↔ db.sismember k m' = true ∧ m' ≠ m := by
      intro m'
      rw [sismember, hfind, Option.any_some, Value.mem, Std.ExtTreeSet.contains_erase,
        Bool.and_eq_true, and_comm]
      refine and_congr_right fun _ => ?_
      rw [bne_iff_ne, ne_eq, Std.LawfulEqCmp.compare_eq_iff_eq, ne_eq, eq_comm]
    split_ifs at hwrites with hempty
    · refine ⟨none, hwrites, fun m' => ?_, fun e he => absurd he (by simp)⟩
      rw [← herase, Std.ExtTreeSet.isEmpty_iff.mp hempty]
      simp
    · refine ⟨_, hwrites, fun m' => herase m', ?_⟩
      rintro e he
      obtain rfl := Option.some.inj he
      exact ⟨rfl, ms, hfind⟩

/-! ### Sorted sets -/

/-- `ZADD`: a sorted set with the scores it had, and that of the member. -/
theorem writes_zadd {score : ℕ} (h : db.zadd k m score = some db') :
    ∃ z x, Writes db k (some ⟨.zset z, x⟩) db' ∧
      (∀ m', z[m']? = if m' = m then some score else db.zscore k m') ∧
      (x = none ∨ ∃ z', db.find? k = some ⟨.zset z', x⟩) := by
  have hinsert : ∀ (z : Std.ExtTreeMap K ℕ compare) (m' : K),
      (z.insert m score)[m']? = if m' = m then some score else z[m']? := by
    intro z m'
    rw [Std.ExtTreeMap.getElem?_insert]
    refine if_congr ?_ rfl rfl
    rw [Std.LawfulEqCmp.compare_eq_iff_eq, eq_comm]
  obtain ⟨r, hmade, hwrites⟩ := writes_of_carries (db.server.carries_zadd ..) h
  obtain ⟨hfind, rfl⟩ | ⟨z, x, hfind, rfl⟩ := zaddEntry_cases hmade
  · refine ⟨_, _, hwrites, fun m' => ?_, Or.inl rfl⟩
    rw [hinsert, zscore_eq, hfind, Std.ExtTreeMap.getElem?_empty]
    rfl
  · refine ⟨_, _, hwrites, fun m' => ?_, Or.inr ⟨z, hfind⟩⟩
    rw [hinsert, zscore_eq, hfind]
    rfl

omit [DecidableEq K] in
theorem getElem?_foldl_erase (ms : List K) (hm : m ∉ ms) : ∀ z : Std.ExtTreeMap K ℕ compare,
    (ms.foldl (fun z m => z.erase m) z)[m]? = z[m]? := by
  induction ms with
  | nil => exact fun _ => rfl
  | cons a ms ih =>
    intro z
    rw [List.mem_cons, not_or] at hm
    rw [List.foldl_cons, ih hm.2, Std.ExtTreeMap.getElem?_erase, if_neg]
    rw [Std.LawfulEqCmp.compare_eq_iff_eq]
    exact Ne.symm hm.1

omit [DecidableEq K] in
theorem getElem?_foldl_erase_of_mem (ms : List K) (hm : m ∈ ms) :
    ∀ z : Std.ExtTreeMap K ℕ compare, (ms.foldl (fun z m => z.erase m) z)[m]? = none := by
  induction ms with
  | nil => exact absurd hm List.not_mem_nil
  | cons a ms ih =>
    intro z
    rw [List.foldl_cons]
    by_cases hmem : m ∈ ms
    · exact ih hmem _
    · obtain rfl : m = a := (List.mem_cons.mp hm).resolve_right hmem
      rw [getElem?_foldl_erase ms hmem, Std.ExtTreeMap.getElem?_erase_self]

/-- `ZREM`: a sorted set without the scores of the members, or nothing. -/
theorem writes_zrem {ms : List K} (h : db.zrem k ms = some db') : ∃ r, Writes db k r db' ∧
    (∀ m', r.bind (·.value.score m') = if m' ∈ ms then none else db.zscore k m') ∧
    ∀ e ∈ r, e.value.kind = .zset ∧ ∃ z', db.find? k = some ⟨.zset z', e.expireAt⟩ := by
  obtain ⟨r, hmade, hwrites⟩ := writes_of_carries (db.server.carries_zrem ..) h
  obtain ⟨hfind, rfl⟩ | ⟨z, x, hfind, rfl⟩ := zremEntry_cases hmade
  · refine ⟨none, hwrites, fun m' => ?_, fun e he => absurd he (by simp)⟩
    rw [zscore_eq, hfind]
    simp
  · have herase : ∀ m', (ms.foldl (fun z m => z.erase m) z)[m']? =
        if m' ∈ ms then none else db.zscore k m' := by
      intro m'
      split_ifs with hmem
      · exact getElem?_foldl_erase_of_mem ms hmem z
      · rw [getElem?_foldl_erase ms hmem, zscore_eq, hfind]
        rfl
    split_ifs at hwrites with hempty
    · refine ⟨none, hwrites, fun m' => ?_, fun e he => absurd he (by simp)⟩
      rw [← herase, Std.ExtTreeMap.isEmpty_iff.mp hempty, Std.ExtTreeMap.getElem?_empty]
      rfl
    · refine ⟨_, hwrites, fun m' => herase m', ?_⟩
      rintro e he
      obtain rfl := Option.some.inj he
      exact ⟨rfl, z, hfind⟩

/-! ### Members and scores, whatever stood under the key -/

/-- **`SADD` adds the member**, and touches no other membership. -/
theorem sismember_sadd (h : db.sadd k m = some db') :
    db'.sismember k' m' = true ↔ db.sismember k' m' = true ∨ (k' = k ∧ m' = m) := by
  obtain ⟨ms, x, hwrites, hms, -⟩ := writes_sadd h
  rw [hwrites.sismember]
  split_ifs with hk
  · rw [Option.any_some, Value.mem, hms, hk]
    simp
  · simp [hk]

omit [Std.LawfulEqOrd K] in
/-- **`DEL` leaves the scores under other keys.** -/
theorem zscore_del_of_ne (h : k' ≠ k) : (db.del k).zscore k' m = db.zscore k' m := by
  rw [writes_del.zscore, if_neg h]

/-- **`ZREM` leaves the scores of the members it does not name.** -/
theorem zscore_zrem {ms : List K} (h : db.zrem k ms = some db') (hm : m ∉ ms) :
    db'.zscore k' m = db.zscore k' m := by
  obtain ⟨r, hwrites, hr, -⟩ := writes_zrem h
  rw [hwrites.zscore]
  split_ifs with hk
  · rw [hr, if_neg hm, hk]
  · rfl

/-- A command that adds no member to any set. -/
def Shrinks (db db' : Db K) : Prop :=
  ∀ k m, db'.sismember k m = true → db.sismember k m = true

omit [DecidableEq K] [Std.LawfulEqOrd K] in
theorem Shrinks.refl (db : Db K) : Shrinks db db := fun _ _ h => h

omit [DecidableEq K] [Std.LawfulEqOrd K] in
theorem Shrinks.trans {db₁ db₂ db₃ : Db K} (h₁ : Shrinks db₁ db₂) (h₂ : Shrinks db₂ db₃) :
    Shrinks db₁ db₃ := fun k m h => h₁ k m (h₂ k m h)

omit [Std.LawfulEqOrd K] in
/-- What is written has no members but those found there before. -/
theorem Writes.shrinks {r : Option (Entry K)} (h : Writes db k r db')
    (hr : ∀ m, r.any (·.value.mem m) = true → db.sismember k m = true) : Shrinks db db' := by
  intro k' m hm
  rw [h.sismember] at hm
  split_ifs at hm with hk
  · exact hk ▸ hr m hm
  · exact hm

omit [Std.LawfulEqOrd K] in
theorem shrinks_del : Shrinks db (db.del k) := writes_del.shrinks fun _ hm => absurd hm (by simp)

theorem shrinks_srem (h : db.srem k m = some db') : Shrinks db db' := by
  obtain ⟨r, hwrites, hr, -⟩ := writes_srem h
  exact hwrites.shrinks fun m' hm' => ((hr m').mp hm').1

theorem shrinks_zadd {score : ℕ} (h : db.zadd k m score = some db') : Shrinks db db' := by
  obtain ⟨z, x, hwrites, -⟩ := writes_zadd h
  exact hwrites.shrinks fun m' hm' => absurd hm' (by simp [Value.mem])

theorem shrinks_zrem {ms : List K} (h : db.zrem k ms = some db') : Shrinks db db' := by
  obtain ⟨r, hwrites, -, hr⟩ := writes_zrem h
  refine hwrites.shrinks fun m hm => ?_
  rw [Option.any_eq_true] at hm
  obtain ⟨⟨v, x⟩, he, hmem⟩ := hm
  -- what is left is a sorted set, which has no members
  obtain ⟨hkind, -⟩ := hr _ he
  cases v with
  | zset z => exact absurd hmem (by simp [Value.mem])
  | string s => exact absurd hkind (by simp [Value.kind])
  | set ms => exact absurd hkind (by simp [Value.kind])

omit [Std.LawfulEqOrd K] in
theorem shrinks_setEx {s : K} {ttl : ℕ} (httl : 0 < ttl) : Shrinks db (db.setEx k s ttl) :=
  (writes_setEx httl).shrinks fun _ hm => absurd hm (by simp [Value.mem])

omit [DecidableEq K] [Std.LawfulEqOrd K] in
theorem shrinks_wait {ms : ℕ} : Shrinks db (db.wait ms) := by
  intro k' m h
  rw [sismember, Option.any_eq_true] at h
  obtain ⟨e, hfind, hmem⟩ := h
  rw [sismember, find?_wait hfind]
  exact hmem

end Writes

end Db

end Redis

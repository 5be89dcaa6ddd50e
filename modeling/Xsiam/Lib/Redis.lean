import Std.Data.ExtTreeMap
import Std.Data.ExtTreeSet
import Mathlib.Data.List.Basic
import Mathlib.Data.Int.Order.Basic

/-!
# A key-value server with typed values and expiry

What is stored is said by what is found under a key (`Redis.Keyspace.find?`): a key past its expiry
is as good as absent. A server is any that does what is documented of its commands on strings, sets
and sorted sets (`Redis.Server`): a command on a key of another type fails and changes nothing, a
set that loses its last member is no longer there, and writing a string replaces whatever was
there. One that keeps everything in memory is among them (`Redis.inMemory`).

What programs rely on is mostly said of two readings, membership in the set under a key
(`Redis.Db.sismember`) and the score of a member of the sorted set under a key
(`Redis.Db.zscore`).
-/

namespace Redis

variable {K : Type} [Ord K]

/-- A value. -/
inductive Value (K : Type) [Ord K] where
  | string (s : K)
  | set (members : Std.ExtTreeSet K compare)
  | zset (scores : Std.ExtTreeMap K ℕ compare)

/-- A member of a set. -/
def Value.mem [Std.TransOrd K] (m : K) : Value K → Bool
  | .set ms => ms.contains m
  | _ => false

/-- The score of a member of a sorted set. -/
def Value.score [Std.TransOrd K] (m : K) : Value K → Option ℕ
  | .zset z => z[m]?
  | _ => none

/-- A value, with the time in milliseconds from which on it is gone. -/
structure Entry (K : Type) [Ord K] where
  value : Value K
  expireAt : Option ℕ

/-- Whether an entry is still there. -/
def Entry.live (now : ℕ) (e : Entry K) : Bool :=
  match e.expireAt with
  | none => true
  | some t => now < t

/-- The clock, and what is stored, entries that are gone included. -/
structure Keyspace (K : Type) [Ord K] where
  now : ℕ
  entries : Std.ExtTreeMap K (Entry K) compare

/-- The lower bound of a range: `n`, or `(n` where it is left out. -/
inductive Bound where
  | incl (n : ℤ)
  | excl (n : ℤ)

/-- A score is in the range of a bound. -/
def Bound.admits : Bound → ℕ → Bool
  | .incl n, score => n ≤ score
  | .excl n, score => n < score

@[simp] theorem Bound.admits_incl {n : ℤ} {score : ℕ} :
    (Bound.incl n).admits score = true ↔ n ≤ score := decide_eq_true_iff

@[simp] theorem Bound.admits_excl {n : ℤ} {score : ℕ} :
    (Bound.excl n).admits score = true ↔ n < score := decide_eq_true_iff

/-! ### What a command makes of what it finds

A command finds an entry or nothing and leaves an entry or nothing. It fails on an entry of another
type. -/

section Entries

variable [Std.TransOrd K]

/-- `SADD` -/
def saddEntry (m : K) : Option (Entry K) → Option (Option (Entry K))
  | none => some (some ⟨.set ((∅ : Std.ExtTreeSet K compare).insert m), none⟩)
  | some ⟨.set ms, x⟩ => some (some ⟨.set (ms.insert m), x⟩)
  | some _ => none

/-- `SREM` -/
def sremEntry (m : K) : Option (Entry K) → Option (Option (Entry K))
  | none => some none
  | some ⟨.set ms, x⟩ =>
    some (if (ms.erase m).isEmpty then none else some ⟨.set (ms.erase m), x⟩)
  | some _ => none

/-- `ZADD` of one member. -/
def zaddEntry (m : K) (score : ℕ) : Option (Entry K) → Option (Option (Entry K))
  | none => some (some ⟨.zset ((∅ : Std.ExtTreeMap K ℕ compare).insert m score), none⟩)
  | some ⟨.zset z, x⟩ => some (some ⟨.zset (z.insert m score), x⟩)
  | some _ => none

/-- `ZREM` of several members. -/
def zremEntry (ms : List K) : Option (Entry K) → Option (Option (Entry K))
  | none => some none
  | some ⟨.zset z, x⟩ =>
    let z := ms.foldl (fun z m => z.erase m) z
    some (if z.isEmpty then none else some ⟨.zset z, x⟩)
  | some _ => none

/-- The set that is found. -/
def setOf : Option (Entry K) → Option (Std.ExtTreeSet K compare)
  | none => some ∅
  | some ⟨.set ms, _⟩ => some ms
  | some _ => none

/-- The members of the sorted set that is found with their scores, member by member. -/
def zsetOf : Option (Entry K) → Option (List (K × ℕ))
  | none => some []
  | some ⟨.zset z, _⟩ => some z.toList
  | some _ => none

/-- What is left expires when what was found does. -/
def KeepsExpiry (change : Option (Entry K) → Option (Option (Entry K))) : Prop :=
  ∀ found e, change found = some (some e) → e.expireAt = found.bind (·.expireAt)

section Cases

variable {m : K} {score : ℕ} {ms : List K} {found : Option (Entry K)} {r : Option (Entry K)}

theorem saddEntry_cases (h : saddEntry m found = some r) :
    (found = none ∧ r = some ⟨.set ((∅ : Std.ExtTreeSet K compare).insert m), none⟩) ∨
      ∃ set x, found = some ⟨.set set, x⟩ ∧ r = some ⟨.set (set.insert m), x⟩ := by
  rcases found with _ | ⟨_ | set | _, x⟩
  · exact .inl ⟨rfl, (Option.some.inj h).symm⟩
  · cases h
  · exact .inr ⟨set, x, rfl, (Option.some.inj h).symm⟩
  · cases h

theorem sremEntry_cases (h : sremEntry m found = some r) :
    (found = none ∧ r = none) ∨ ∃ set x, found = some ⟨.set set, x⟩ ∧
      r = if (set.erase m).isEmpty then none else some ⟨.set (set.erase m), x⟩ := by
  rcases found with _ | ⟨_ | set | _, x⟩
  · exact .inl ⟨rfl, (Option.some.inj h).symm⟩
  · cases h
  · exact .inr ⟨set, x, rfl, (Option.some.inj h).symm⟩
  · cases h

theorem zaddEntry_cases (h : zaddEntry m score found = some r) :
    (found = none ∧ r = some ⟨.zset ((∅ : Std.ExtTreeMap K ℕ compare).insert m score), none⟩) ∨
      ∃ z x, found = some ⟨.zset z, x⟩ ∧ r = some ⟨.zset (z.insert m score), x⟩ := by
  rcases found with _ | ⟨_ | _ | z, x⟩
  · exact .inl ⟨rfl, (Option.some.inj h).symm⟩
  · cases h
  · cases h
  · exact .inr ⟨z, x, rfl, (Option.some.inj h).symm⟩

theorem zremEntry_cases (h : zremEntry ms found = some r) :
    (found = none ∧ r = none) ∨ ∃ z x, found = some ⟨.zset z, x⟩ ∧
      r = if (ms.foldl (fun z m => z.erase m) z).isEmpty then none
        else some ⟨.zset (ms.foldl (fun z m => z.erase m) z), x⟩ := by
  rcases found with _ | ⟨_ | _ | z, x⟩
  · exact .inl ⟨rfl, (Option.some.inj h).symm⟩
  · cases h
  · cases h
  · exact .inr ⟨z, x, rfl, (Option.some.inj h).symm⟩

end Cases

theorem keepsExpiry_saddEntry (m : K) : KeepsExpiry (saddEntry m) := by
  intro found e h
  obtain ⟨rfl, he⟩ | ⟨set, x, rfl, he⟩ := saddEntry_cases h
  · cases he
    rfl
  · cases he
    rfl

theorem keepsExpiry_sremEntry (m : K) : KeepsExpiry (sremEntry m) := by
  intro found e h
  obtain ⟨-, he⟩ | ⟨set, x, rfl, he⟩ := sremEntry_cases h
  · cases he
  · split_ifs at he
    cases he
    rfl

theorem keepsExpiry_zaddEntry (m : K) (score : ℕ) : KeepsExpiry (zaddEntry m score) := by
  intro found e h
  obtain ⟨rfl, he⟩ | ⟨z, x, rfl, he⟩ := zaddEntry_cases h
  · cases he
    rfl
  · cases he
    rfl

theorem keepsExpiry_zremEntry (ms : List K) : KeepsExpiry (zremEntry ms) := by
  intro found e h
  obtain ⟨-, he⟩ | ⟨z, x, rfl, he⟩ := zremEntry_cases h
  · cases he
  · split_ifs at he
    cases he
    rfl

end Entries

/-! ### Servers -/

namespace Keyspace

variable [Std.TransOrd K]

/-- What a command finds under a key. -/
def find? (ks : Keyspace K) (k : K) : Option (Entry K) := ks.entries[k]?.filter (·.live ks.now)

/-- One key is written: what is found there is `r`, and nothing else changes. -/
structure Writes (ks : Keyspace K) (k : K) (r : Option (Entry K)) (ks' : Keyspace K) : Prop where
  now : ks'.now = ks.now
  found : ks'.find? k = r
  others : ∀ k', k' ≠ k → ks'.find? k' = ks.find? k'

/-- A command fails, or leaves what it makes of what it finds. -/
def Carries (ks : Keyspace K) (k : K) (out : Option (Keyspace K)) :
    Option (Option (Entry K)) → Prop
  | none => out = none
  | some r => ∃ ks', out = some ks' ∧ ks.Writes k r ks'

/-- Time passes. -/
def wait (ks : Keyspace K) (ms : ℕ) : Keyspace K := { ks with now := ks.now + ms }

end Keyspace

/-- A server: its commands, and what is documented of them. `none` is a key of another type. -/
structure Server (K : Type) [Ord K] [Std.TransOrd K] where
  /-- `DEL` -/
  del : Keyspace K → K → Keyspace K
  /-- `SET` with an expiry. -/
  setEx : Keyspace K → K → K → ℕ → Keyspace K
  sadd : Keyspace K → K → K → Option (Keyspace K)
  srem : Keyspace K → K → K → Option (Keyspace K)
  zadd : Keyspace K → K → K → ℕ → Option (Keyspace K)
  /-- `ZREM` of several members. -/
  zrem : Keyspace K → K → List K → Option (Keyspace K)
  /-- `EXISTS` -/
  present : Keyspace K → K → Bool
  smembers : Keyspace K → K → Option (List K)
  /-- The keys that a whole `SCAN` goes through, those that pass a test. -/
  scan : Keyspace K → (K → Bool) → List K
  /-- `ZSCORE`; `none` is also a member that is not there. -/
  zscore : Keyspace K → K → K → Option ℕ
  /-- `ZCOUNT` up to `+inf`. -/
  zcount : Keyspace K → K → Bound → Option ℕ
  /-- `ZRANGEBYSCORE` up to `+inf`. -/
  zrangeByScore : Keyspace K → K → Bound → Option (List K)
  writes_del (ks : Keyspace K) (k : K) : ks.Writes k none (del ks k)
  writes_setEx (ks : Keyspace K) (k s : K) {ttl : ℕ} (h : 0 < ttl) :
    ks.Writes k (some ⟨.string s, some (ks.now + ttl)⟩) (setEx ks k s ttl)
  carries_sadd (ks : Keyspace K) (k m : K) :
    ks.Carries k (sadd ks k m) (saddEntry m (ks.find? k))
  carries_srem (ks : Keyspace K) (k m : K) :
    ks.Carries k (srem ks k m) (sremEntry m (ks.find? k))
  carries_zadd (ks : Keyspace K) (k m : K) (score : ℕ) :
    ks.Carries k (zadd ks k m score) (zaddEntry m score (ks.find? k))
  carries_zrem (ks : Keyspace K) (k : K) (ms : List K) :
    ks.Carries k (zrem ks k ms) (zremEntry ms (ks.find? k))
  present_eq (ks : Keyspace K) (k : K) : present ks k = (ks.find? k).isSome
  /-- The members come in any order. -/
  smembers_rel (ks : Keyspace K) (k : K) :
    Option.Rel (fun ms set => ∀ m, m ∈ ms ↔ set.contains m = true) (smembers ks k)
      (setOf (ks.find? k))
  mem_scan (ks : Keyspace K) (p : K → Bool) (k : K) :
    k ∈ scan ks p ↔ (ks.find? k).isSome = true ∧ p k = true
  /-- Each key comes once, while the table of the keys is not resized. -/
  nodup_scan (ks : Keyspace K) (p : K → Bool) : (scan ks p).Nodup
  zscore_eq (ks : Keyspace K) (k m : K) :
    zscore ks k m = (ks.find? k).bind (·.value.score m)
  zcount_eq (ks : Keyspace K) (k : K) (min : Bound) :
    zcount ks k min = (zsetOf (ks.find? k)).map (·.countP (min.admits ·.2))
  /-- By score, and members with one score by member. -/
  zrangeByScore_eq (ks : Keyspace K) (k : K) (min : Bound) :
    zrangeByScore ks k min = (zsetOf (ks.find? k)).map fun kvs =>
      ((kvs.filter (min.admits ·.2)).mergeSort (fun a b => a.2 ≤ b.2)).map (·.1)

/-- A server, with what it stores. -/
structure Db (K : Type) [Ord K] [Std.TransOrd K] extends Keyspace K where
  server : Server K

namespace Db

section Commands

variable [Std.TransOrd K] (db : Db K) (k m : K)

/-- A server that stores nothing. -/
def empty (start : ℕ) (server : Server K) : Db K := ⟨⟨start, ∅⟩, server⟩

/-- What is stored is replaced. -/
def holding (ks : Keyspace K) : Db K := ⟨ks, db.server⟩

/-- `DEL` -/
def del : Db K := db.holding (db.server.del db.toKeyspace k)

/-- `EXISTS` -/
def present : Bool := db.server.present db.toKeyspace k

/-- `SET` with an expiry. -/
def setEx (s : K) (ttl : ℕ) : Db K := db.holding (db.server.setEx db.toKeyspace k s ttl)

/-- `SADD`; `none` is a key of another type. -/
def sadd : Option (Db K) := (db.server.sadd db.toKeyspace k m).map db.holding

/-- `SREM` -/
def srem : Option (Db K) := (db.server.srem db.toKeyspace k m).map db.holding

/-- `SMEMBERS` -/
def smembers : Option (List K) := db.server.smembers db.toKeyspace k

/-- `ZADD` of one member. -/
def zadd (score : ℕ) : Option (Db K) := (db.server.zadd db.toKeyspace k m score).map db.holding

/-- `ZREM` of several members. -/
def zrem (ms : List K) : Option (Db K) := (db.server.zrem db.toKeyspace k ms).map db.holding

/-- The keys `SCAN` goes through, those that pass a test. -/
def scan (p : K → Bool) : List K := db.server.scan db.toKeyspace p

/-- `ZSCORE` -/
def zscore : Option ℕ := db.server.zscore db.toKeyspace k m

/-- `ZCOUNT` up to `+inf`. -/
def zcount (min : Bound) : Option ℕ := db.server.zcount db.toKeyspace k min

/-- `ZRANGEBYSCORE` up to `+inf`. -/
def zrangeByScore (min : Bound) : Option (List K) := db.server.zrangeByScore db.toKeyspace k min

/-- Time passes. -/
def wait (ms : ℕ) : Db K := db.holding (db.toKeyspace.wait ms)

/-- A member of the set under a key. -/
def sismember : Bool := (db.find? k).any (·.value.mem m)

end Commands

end Db

/-! ### A server in memory -/

namespace Keyspace

variable [Std.TransOrd K]

/-- Leave something under a key, or nothing. -/
def store (ks : Keyspace K) (k : K) : Option (Entry K) → Keyspace K
  | none => { ks with entries := ks.entries.erase k }
  | some e => { ks with entries := ks.entries.insert k e }

/-- Leave what is made of what is found. -/
def change (ks : Keyspace K) (k : K) (made : Option (Entry K) → Option (Option (Entry K))) :
    Option (Keyspace K) := (made (ks.find? k)).map (ks.store k)

variable {ks : Keyspace K} {k : K}

theorem live_of_find? {e : Entry K} (h : ks.find? k = some e) : e.live ks.now = true :=
  (Option.filter_eq_some_iff.mp h).2

theorem live_of_keepsExpiry {made : Option (Entry K) → Option (Option (Entry K))}
    (hmade : KeepsExpiry made) {e : Entry K} (h : made (ks.find? k) = some (some e)) :
    e.live ks.now = true := by
  have hexpiry := hmade _ e h
  rcases hfind : ks.find? k with _ | found
  · rw [hfind] at hexpiry
    rw [Entry.live, hexpiry]
    rfl
  · rw [hfind] at hexpiry
    have hlive := live_of_find? hfind
    rw [Entry.live] at hlive ⊢
    rwa [hexpiry]

variable [Std.LawfulEqOrd K]

theorem writes_store {r : Option (Entry K)} (hr : ∀ e, r = some e → e.live ks.now = true) :
    ks.Writes k r (ks.store k r) := by
  cases r with
  | none =>
    refine ⟨rfl, ?_, fun k' hk' => ?_⟩
    · rw [find?, store, Std.ExtTreeMap.getElem?_erase_self]
      rfl
    · rw [find?, store, Std.ExtTreeMap.getElem?_erase, if_neg, find?]
      rw [Std.LawfulEqCmp.compare_eq_iff_eq]
      exact Ne.symm hk'
  | some e =>
    refine ⟨rfl, ?_, fun k' hk' => ?_⟩
    · rw [find?, store, Std.ExtTreeMap.getElem?_insert_self]
      exact Option.filter_some_pos (hr e rfl)
    · rw [find?, store, Std.ExtTreeMap.getElem?_insert, if_neg, find?]
      rw [Std.LawfulEqCmp.compare_eq_iff_eq]
      exact Ne.symm hk'

theorem carries_change {made : Option (Entry K) → Option (Option (Entry K))}
    (hmade : KeepsExpiry made) : ks.Carries k (ks.change k made) (made (ks.find? k)) := by
  rw [change]
  rcases h : made (ks.find? k) with _ | r
  · rfl
  · refine ⟨_, rfl, writes_store fun e he => live_of_keepsExpiry hmade (k := k) ?_⟩
    rw [h, he]

/-- The keys that are still there, those that pass a test. -/
def liveKeys (ks : Keyspace K) (p : K → Bool) : List K :=
  (ks.entries.toList.filter fun kv => kv.2.live ks.now && p kv.1).map (·.1)

theorem mem_liveKeys {p : K → Bool} :
    k ∈ ks.liveKeys p ↔ (ks.find? k).isSome = true ∧ p k = true := by
  rw [liveKeys, List.mem_map]
  constructor
  · rintro ⟨⟨k', e⟩, hmem, rfl⟩
    obtain ⟨hentry, htest⟩ := List.mem_filter.mp hmem
    obtain ⟨hlive, hp⟩ := Bool.and_eq_true_iff.mp htest
    have hget := Std.ExtTreeMap.mem_toList_iff_getElem?_eq_some.mp hentry
    refine ⟨?_, hp⟩
    rw [Option.isSome_iff_exists]
    exact ⟨e, Option.filter_eq_some_iff.mpr ⟨hget, hlive⟩⟩
  · rintro ⟨hpresent, hp⟩
    obtain ⟨e, hfind⟩ := Option.isSome_iff_exists.mp hpresent
    obtain ⟨hentry, hlive⟩ := Option.filter_eq_some_iff.mp hfind
    refine ⟨(k, e), List.mem_filter.mpr
      ⟨Std.ExtTreeMap.mem_toList_iff_getElem?_eq_some.mpr hentry, ?_⟩, rfl⟩
    exact Bool.and_eq_true_iff.mpr ⟨hlive, hp⟩

omit [Std.LawfulEqOrd K] in
theorem nodup_liveKeys (p : K → Bool) : (ks.liveKeys p).Nodup := by
  rw [liveKeys, List.Nodup, List.pairwise_map]
  refine (List.Pairwise.filter _ ?_)
  refine Std.ExtTreeMap.distinct_keys_toList.imp fun h heq => h ?_
  rw [heq]
  exact Std.ReflCmp.compare_self

end Keyspace

/-- A server that keeps everything in memory. -/
def inMemory [Std.TransOrd K] [Std.LawfulEqOrd K] : Server K where
  del ks k := ks.store k none
  setEx ks k s ttl := ks.store k (some ⟨.string s, some (ks.now + ttl)⟩)
  sadd ks k m := ks.change k (saddEntry m)
  srem ks k m := ks.change k (sremEntry m)
  zadd ks k m score := ks.change k (zaddEntry m score)
  zrem ks k ms := ks.change k (zremEntry ms)
  present ks k := (ks.find? k).isSome
  smembers ks k := (setOf (ks.find? k)).map (·.toList)
  scan := Keyspace.liveKeys
  zscore ks k m := (ks.find? k).bind (·.value.score m)
  zcount ks k min := (zsetOf (ks.find? k)).map (·.countP (min.admits ·.2))
  zrangeByScore ks k min := (zsetOf (ks.find? k)).map fun kvs =>
    ((kvs.filter (min.admits ·.2)).mergeSort (fun a b => a.2 ≤ b.2)).map (·.1)
  writes_del _ _ := Keyspace.writes_store fun _ he => by cases he
  writes_setEx ks _ _ _ h := Keyspace.writes_store fun e he => by
    cases he
    exact decide_eq_true (Nat.lt_add_of_pos_right h)
  carries_sadd _ _ m := Keyspace.carries_change (keepsExpiry_saddEntry m)
  carries_srem _ _ m := Keyspace.carries_change (keepsExpiry_sremEntry m)
  carries_zadd _ _ m score := Keyspace.carries_change (keepsExpiry_zaddEntry m score)
  carries_zrem _ _ ms := Keyspace.carries_change (keepsExpiry_zremEntry ms)
  present_eq _ _ := rfl
  smembers_rel ks k := by
    rcases setOf (ks.find? k) with _ | ms
    · exact .none
    · exact .some fun m => Std.ExtTreeSet.mem_toList
  mem_scan _ _ _ := Keyspace.mem_liveKeys
  nodup_scan _ := Keyspace.nodup_liveKeys
  zscore_eq _ _ _ := rfl
  zcount_eq _ _ _ := rfl
  zrangeByScore_eq _ _ _ := rfl

end Redis

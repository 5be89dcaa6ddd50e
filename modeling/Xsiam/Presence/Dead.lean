import Xsiam.Presence.Keys

/-!
# Which instances are found dead

`DeadFBInstances` of `internal/presence/presence.go` scans for the keys of sets and asks
for each whether there is a lease. Leases are kept out of the scan by their first letter:
the glob `agent:fb:[^l]*` passes over every key with an `l` there, and so over the set of
every instance whose ID starts with one. The test for `lease` that comes after the scan
finds nothing left to reject.

A lease, on the other hand, is anything under its key, and the set of another instance may
stand there. These are the only two ways to miss an instance that is dead, and none is
reported that is not (`Xsiam.Presence.findsDead_iff`).
-/

namespace Xsiam

namespace Presence

open Go Redis Run

namespace Registry

variable (reg : Registry)

/-- `DeadFBInstances`, where the scan comes to its end and every question is answered. -/
def deadFBInstances : List GoString :=
  (reg.scanFBSets fun _ => true).filter fun fbID => !reg.leaseLive fbID

/-- An instance has a lease. -/
def LeaseAlive (fbID : GoString) : Prop := Db.type reg (keyFBLease fbID) = some .string

/-- The dead instances are found, once each, and nothing else is. -/
def FindsDead : Prop :=
  reg.deadFBInstances.Nodup ∧
    ∀ fbID, fbID ∈ reg.deadFBInstances ↔ reg.AgentSet fbID ∧ ¬reg.LeaseAlive fbID

end Registry

/-- An ID that the glob does not pass over. -/
def Scannable (fbID : GoString) : Prop := ∃ b rest, fbID = b :: rest ∧ b ≠ 0x6C

theorem not_scannable_leaseID (fbID : GoString) : ¬Scannable (leaseID fbID) := by
  rintro ⟨b, rest, hcons, hb⟩
  exact hb (List.cons.inj hcons).1.symm

namespace Registry

/-! ### The scan -/

theorem matchesFBGlob_iff {key : GoString} :
    matchesFBGlob key = true ↔ ∃ fbID, key = keyFBSet fbID ∧ Scannable fbID := by
  constructor
  · intro h
    rw [matchesFBGlob] at h
    cases hcut : cutPrefix key (str "agent:fb:") with
    | none =>
      rw [hcut] at h
      exact absurd h (by simp)
    | some fbID =>
      rw [hcut] at h
      rcases fbID with _ | ⟨b, rest⟩
      · exact absurd h (by simp)
      · exact ⟨b :: rest, cutPrefix_eq_some.mp hcut, b, rest, rfl, of_decide_eq_true h⟩
  · rintro ⟨fbID, rfl, b, rest, rfl, hb⟩
    have hcut : cutPrefix (keyFBSet (b :: rest)) (str "agent:fb:") = some (b :: rest) :=
      cutPrefix_eq_some.mpr rfl
    rw [matchesFBGlob, hcut]
    exact decide_eq_true hb

/-- What comes after the prefix of a key is the ID. -/
theorem drop_keyFBSet (fbID : GoString) : (keyFBSet fbID).drop 9 = fbID :=
  List.drop_left' (by decide)

/-- No key that the glob lets through is rejected afterwards. -/
theorem isFBSetKey_of_scannable {fbID : GoString} (h : Scannable fbID) :
    isFBSetKey (keyFBSet fbID) = true := by
  obtain ⟨b, rest, rfl, hb⟩ := h
  have hlen : (keyFBSet (b :: rest)).length = 10 + rest.length := by
    rw [keyFBSet, List.length_append, List.length_cons, show (str "agent:fb:").length = 9 by decide]
    omega
  have htake : (keyFBSet (b :: rest)).take 9 = str "agent:fb:" := List.take_left' (by decide)
  have hlease : (b :: rest).take 5 ≠ str "lease" := by
    intro heq
    exact hb (List.cons.inj heq).1
  rw [isFBSetKey, drop_keyFBSet, hlen, htake]
  simp only [hlease, ne_eq, not_false_eq_true, decide_true, Bool.or_true, Bool.and_true]
  exact decide_eq_true (by omega)

variable {reg : Registry}

theorem mem_scanFBSets {fbID : GoString} : fbID ∈ reg.scanFBSets (fun _ => true) ↔
    Db.present reg (keyFBSet fbID) = true ∧ Scannable fbID := by
  rw [scanFBSets, List.mem_map]
  constructor
  · rintro ⟨key, hmem, rfl⟩
    obtain ⟨hpresent, hglob⟩ := Db.mem_scan.mp (List.mem_filter.mp hmem).1
    rw [Bool.and_true] at hglob
    obtain ⟨fbID, rfl, hscan⟩ := matchesFBGlob_iff.mp hglob
    rw [drop_keyFBSet]
    exact ⟨hpresent, hscan⟩
  · rintro ⟨hpresent, hscan⟩
    refine ⟨keyFBSet fbID, List.mem_filter.mpr ⟨Db.mem_scan.mpr ⟨hpresent, ?_⟩,
      isFBSetKey_of_scannable hscan⟩, drop_keyFBSet fbID⟩
    rw [Bool.and_true]
    exact matchesFBGlob_iff.mpr ⟨fbID, rfl, hscan⟩

theorem nodup_scanFBSets : (reg.scanFBSets fun _ => true).Nodup := by
  refine List.Nodup.map_on ?_ ((Db.nodup_scan _).filter _)
  intro key hkey key' hkey' heq
  have hprefix : ∀ key ∈ (Db.scan reg fun key => matchesFBGlob key && true).filter isFBSetKey,
      ∃ fbID, key = keyFBSet fbID := by
    intro key hkey
    have hglob := (Db.mem_scan.mp (List.mem_filter.mp hkey).1).2
    rw [Bool.and_true] at hglob
    obtain ⟨fbID, rfl, -⟩ := matchesFBGlob_iff.mp hglob
    exact ⟨fbID, rfl⟩
  obtain ⟨fbID, rfl⟩ := hprefix key hkey
  obtain ⟨fbID', rfl⟩ := hprefix key' hkey'
  rw [drop_keyFBSet, drop_keyFBSet] at heq
  rw [heq]

/-! ### What is found -/

/-- Under the key of an instance that is scanned there is a set, or nothing. -/
theorem present_keyFBSet (h : Typed reg) {fbID : GoString} (hscan : Scannable fbID) :
    Db.present reg (keyFBSet fbID) = true ↔ reg.AgentSet fbID := by
  rw [Db.present_eq_isSome_type, AgentSet]
  rcases htype : Db.type reg (keyFBSet fbID) with _ | _ | _ | _
  · simp
  · -- a lease there would be that of an instance whose ID is not scanned
    obtain ⟨fb, hkey⟩ := h.holds _ _ htype
    rw [keyFBLease_eq, keyFBSet_inj] at hkey
    exact absurd (hkey ▸ hscan) (not_scannable_leaseID fb)
  · simp
  · exact absurd htype (type_keyFBSet h fbID)

/-- Under the key of a lease there is a lease, or the set of another instance. -/
theorem leaseLive_iff (h : Typed reg) (fbID : GoString) :
    reg.leaseLive fbID = true ↔ reg.LeaseAlive fbID ∨ reg.AgentSet (leaseID fbID) := by
  rw [leaseLive, Db.present_eq_isSome_type, LeaseAlive, AgentSet, ← keyFBLease_eq]
  rcases htype : Db.type reg (keyFBLease fbID) with _ | _ | _ | _
  · simp
  · simp
  · simp
  · rw [keyFBLease_eq] at htype
    exact absurd htype (type_keyFBSet h _)

/-- **What is found**: the instances that are scanned, with a set, and with nothing under
the key of their lease. -/
theorem mem_deadFBInstances (h : Typed reg) (fbID : GoString) :
    fbID ∈ reg.deadFBInstances ↔ reg.AgentSet fbID ∧ Scannable fbID ∧
      ¬reg.LeaseAlive fbID ∧ ¬reg.AgentSet (leaseID fbID) := by
  have hlease : (!reg.leaseLive fbID) = true ↔
      ¬reg.LeaseAlive fbID ∧ ¬reg.AgentSet (leaseID fbID) := by
    rw [← not_or, ← leaseLive_iff h, Bool.not_eq_true', Bool.not_eq_true]
  rw [deadFBInstances, List.mem_filter, mem_scanFBSets, hlease]
  constructor
  · rintro ⟨⟨hpresent, hscan⟩, hnot⟩
    exact ⟨(present_keyFBSet h hscan).mp hpresent, hscan, hnot⟩
  · rintro ⟨hset, hscan, hnot⟩
    exact ⟨⟨(present_keyFBSet h hscan).mpr hset, hscan⟩, hnot⟩

theorem findsDead_of_typed_iff (h : Typed reg) : reg.FindsDead ↔
    ∀ fbID, reg.AgentSet fbID → ¬reg.LeaseAlive fbID →
      Scannable fbID ∧ ¬reg.AgentSet (leaseID fbID) := by
  constructor
  · rintro ⟨-, hmem⟩ fbID hset hlease
    obtain ⟨-, hscan, -, hnot⟩ := (mem_deadFBInstances h fbID).mp ((hmem fbID).mpr ⟨hset, hlease⟩)
    exact ⟨hscan, hnot⟩
  · intro hall
    refine ⟨nodup_scanFBSets.filter _, fun fbID => ?_⟩
    rw [mem_deadFBInstances h]
    constructor
    · rintro ⟨hset, -, hlease, -⟩
      exact ⟨hset, hlease⟩
    · rintro ⟨hset, hlease⟩
      obtain ⟨hscan, hnot⟩ := hall fbID hset hlease
      exact ⟨hset, hscan, hlease, hnot⟩

end Registry

/-- **When the dead instances are found**, in any state reached: when no dead instance has
an ID that starts with `l`, or a lease's key that is taken by the set of another one. -/
theorem findsDead_iff {start : ℕ} {server : Server GoString} {hist : History State Event}
    {s : State} (h : Reach step Any (.init start server) hist s) : s.reg.FindsDead ↔
      ∀ fbID, s.reg.AgentSet fbID → ¬s.reg.LeaseAlive fbID →
        Scannable fbID ∧ ¬s.reg.AgentSet (leaseID fbID) :=
  Registry.findsDead_of_typed_iff (Typed.ofReach h)

/-- An agent comes through an instance whose lease then runs out. -/
def goesSilent (fbID : GoString) : List Event :=
  [.renewFB fbID, .touch (str "t") (str "a") fbID, .wait 30000]

theorem findsDead_iff_goesSilent :
    ∃ hist s, replay step [] (.init 0) (goesSilent (str "f1")) = some (hist, s) ∧
      s.reg.deadFBInstances = [str "f1"] ∧ (s.reg.FindsDead ↔
        ∀ fbID, s.reg.AgentSet fbID → ¬s.reg.LeaseAlive fbID →
          Scannable fbID ∧ ¬s.reg.AgentSet (leaseID fbID)) :=
  ⟨_, _, rfl, by decide +kernel, findsDead_iff (Reach.start.replay
    (show replay step [] (.init 0) (goesSilent (str "f1")) = some _ from rfl))⟩

/-- An instance is not found dead because of how its ID is spelt. -/
theorem dead_not_found : ¬∀ (start : ℕ) (hist : History State Event) (s : State),
    Reach step Any (.init start) hist s → s.reg.FindsDead := by
  intro h
  obtain ⟨hist, s, hrun, hset, hlease, hnone⟩ :
      ∃ hist s, replay step [] (.init 0) (goesSilent (str "l1")) = some (hist, s) ∧
        s.reg.AgentSet (str "l1") ∧ Db.type s.reg (keyFBLease (str "l1")) = none ∧
        s.reg.deadFBInstances = [] :=
    ⟨_, _, rfl, rfl, rfl, by decide +kernel⟩
  have hfinds := (h 0 hist s (Reach.start.replay hrun)).2 (str "l1")
  rw [hnone] at hfinds
  refine absurd (hfinds.mpr ⟨hset, fun halive => ?_⟩) List.not_mem_nil
  rw [Registry.LeaseAlive, hlease] at halive
  exact absurd halive (by simp)

end Presence

end Xsiam

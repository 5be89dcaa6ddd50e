import Mathlib.Algebra.Order.Ring.Rat
import Mathlib.Tactic.FieldSimp
import Mathlib.Tactic.NormNum
import Xsiam.Incidents.Repository
import Xsiam.Lib.Lexical
import Xsiam.Lib.Slots

/-!
# The traffic of the last hours

`HourlyTrafficBuckets` of `internal/repository/network.go`: the connections of a tenant, summed by hour.

The query groups them by the hour of UTC, and the buckets are looked up by the hour that the clock of
the server shows. So a bucket has the label it should have where that clock has gone on evenly
(`Xsiam.Network.InStep.clock`), and the traffic of a slot that is as many hours further round as the
clock is ahead of UTC (`Xsiam.Network.bucketBytes_eq`), with what is later than all slots. Each
connection of the slots still is in one bucket (`Xsiam.Network.exists_unique_bucket`), if only in
another one. `Xsiam.Network.partition_iff` says when the buckets are those of the slots.
-/

namespace Xsiam

namespace Network

open Go Incidents

/-! ### The query -/

/-- `model.NetworkConnection`, the members that are read here. -/
structure Connection where
  tenantID : GoString
  detectedAt : Time
  bytesInbound : ℤ
  bytesOutbound : ℤ

/-- `DATE_HOUR`, the hour of UTC. -/
def dateHour (t : Time) : ℤ := Slots.clock hour 24 t

/-- `now.Truncate(time.Hour).Add(-23 * time.Hour)` -/
def since (now : Time) : Time := now / hour * hour - 23 * hour

/-- `SUM(...) / 1073741824.0`. The sum is exact, as it is in floats below 2 ^ 53. -/
def gigabytes (bytes : ℤ) : ℚ := bytes / 1073741824

/-- What the query returns for an hour. -/
structure Row where
  hour : ℤ
  inboundGB : ℚ
  outboundGB : ℚ
deriving DecidableEq

/-- `doc.tenant_id == @tid AND doc.detected_at >= @since`, with times compared as instants. -/
def recent (tenantID : GoString) (start : Time) (conns : List Connection) : List Connection :=
  conns.filter fun c => c.tenantID = tenantID && start ≤ c.detectedAt

/-- The connections under an hour, `COLLECT hour = h INTO g`. -/
def group (tenantID : GoString) (start : Time) (conns : List Connection) (h : ℤ) :
    List Connection :=
  (recent tenantID start conns).filter fun c => dateHour c.detectedAt = h

def row (tenantID : GoString) (start : Time) (conns : List Connection) (h : ℤ) : Row :=
  { hour := h
    inboundGB := gigabytes ((group tenantID start conns h).map (·.bytesInbound)).sum
    outboundGB := gigabytes ((group tenantID start conns h).map (·.bytesOutbound)).sum }

/-- The rows, one for each hour there is. -/
def trafficRows (tenantID : GoString) (start : Time) (conns : List Connection) : List Row :=
  ((recent tenantID start conns).map fun c => dateHour c.detectedAt).dedup.map
    (row tenantID start conns)

/-! ### The buckets -/

/-- The zone of the server: how far its clock is ahead of UTC, at an instant. -/
structure Zone where
  offset : Time → Time

/-- `Hour` of a time in the zone. -/
def Zone.hour (z : Zone) (t : Time) : ℤ := Slots.clock Incidents.hour 24 (t + z.offset t)

/-- `%02d:00` -/
def hourLabel (h : ℤ) : GoString := Lexical.digits 2 h.toNat ++ str ":00"

structure Bucket where
  hour : GoString
  inboundGB : ℚ
  outboundGB : ℚ
deriving DecidableEq

/-- `bucketMap`, by the hours of the rows. -/
def bucketMap (rows : List Row) : ℤ → Option Bucket :=
  rows.foldl (fun m r => Function.update m r.hour
    (some ⟨hourLabel r.hour, r.inboundGB, r.outboundGB⟩)) fun _ => none

/-- The hour of a bucket, counted back from the one that the clock shows. What is divided is not
negative, so that the rest is the one of Go. -/
def bucketHour (z : Zone) (now : Time) (i : ℕ) : ℤ := (z.hour now - 23 + i + 24) % 24

def bucket (z : Zone) (now : Time) (rows : List Row) (i : ℕ) : Bucket :=
  (bucketMap rows (bucketHour z now i)).getD ⟨hourLabel (bucketHour z now i), 0, 0⟩

/-- `HourlyTrafficBuckets`. The clock is read for the query, and again when it has answered, or
failed. -/
def hourlyTrafficBuckets (z : Zone) (now₁ now₂ : Time) (tenantID : GoString)
    (conns : Except GoString (List Connection)) : Except GoString (List Bucket) :=
  conns.map fun conns =>
    (List.range 24).map (bucket z now₂ (trafficRows tenantID (since now₁) conns))

/-! ### Hours -/

variable (z : Zone) (now now₁ now₂ : Time) (tenantID : GoString) (conns : List Connection)

theorem hour_pos : 0 < hour := by decide

theorem hour_dvd_since : hour ∣ since now :=
  dvd_sub (dvd_mul_left hour (now / hour)) (dvd_mul_left hour 23)

theorem dateHour_since : dateHour (since now) = (dateHour now - 23) % 24 := by
  have hsince : since now = (now / hour - 23) * hour := by
    rw [since]
    ring
  rw [dateHour, dateHour, Slots.clock, Slots.clock, hsince, Int.mul_ediv_cancel _ hour_pos.ne',
    Int.emod_sub_emod]

theorem zone_hour_mem (t : Time) : 0 ≤ z.hour t ∧ z.hour t < 24 := Slots.clock_mem (by decide)

theorem bucketHour_mem (i : ℕ) : 0 ≤ bucketHour z now i ∧ bucketHour z now i < 24 :=
  ⟨Int.emod_nonneg _ (by decide), Int.emod_lt_of_pos _ (by decide)⟩

/-- **Labels tell the hours of a day apart.** -/
theorem hourLabel_inj {h h' : ℤ} (hh : 0 ≤ h ∧ h < 24) (hh' : 0 ≤ h' ∧ h' < 24) :
    hourLabel h = hourLabel h' ↔ h = h' := by
  rw [hourLabel, hourLabel, List.append_left_inj, Lexical.digits_inj (by omega) (by omega)]
  omega

theorem gigabytes_inj {b b' : ℤ} : gigabytes b = gigabytes b' ↔ b = b' := by
  rw [gigabytes, gigabytes, div_left_inj' (by norm_num), Int.cast_inj]

/-- The hours that the clock of the server is ahead of UTC, from one reading to the other. -/
def ahead : ℤ := (z.hour now₂ - dateHour now₁) % 24

theorem ahead_mem : 0 ≤ ahead z now₁ now₂ ∧ ahead z now₁ now₂ < 24 :=
  ⟨Int.emod_nonneg _ (by decide), Int.emod_lt_of_pos _ (by decide)⟩

/-- **The slot whose hour of UTC a bucket has** is as many slots further round as the clock is ahead. -/
theorem bucketHour_sub_since (i : ℕ) :
    (z.hour now₂ - 23 + i + 24 - dateHour (since now₁)) % 24 = (i + ahead z now₁ now₂) % 24 := by
  rw [dateHour_since, ahead]
  omega

/-! ### Slots -/

/-- Where a slot starts. There are 24, the last one with the time it is. -/
def slotStart (i : ℤ) : Time := since now + i * hour

/-- The connections of a tenant that were detected in a slot. -/
def slotConns (i : ℤ) : List Connection :=
  conns.filter fun c =>
    c.tenantID = tenantID && (slotStart now i ≤ c.detectedAt && c.detectedAt < slotStart now (i + 1))

/-- The connections of a tenant that were detected after all slots, at an hour of UTC. -/
def lateConns (h : ℤ) : List Connection :=
  conns.filter fun c =>
    c.tenantID = tenantID && (slotStart now 24 ≤ c.detectedAt && dateHour c.detectedAt = h)

theorem since_le_iff {t : Time} : since now ≤ t ↔ 0 ≤ Slots.slot hour (since now) t := by
  rw [Slots.slot, Int.ediv_nonneg_iff_of_pos hour_pos, sub_nonneg]

theorem slotStart_le_iff {t : Time} {i : ℤ} :
    slotStart now i ≤ t ↔ i ≤ Slots.slot hour (since now) t := by
  rw [slotStart, Slots.slot, Int.le_ediv_iff_mul_le hour_pos]
  constructor
  · intro h
    linarith
  · intro h
    linarith

theorem lt_slotStart_iff {t : Time} {i : ℤ} :
    t < slotStart now i ↔ Slots.slot hour (since now) t < i := by
  rw [← not_le, slotStart_le_iff, not_le]

/-- **In the slots, a connection is under the hour of a bucket exactly in the one slot.** -/
theorem dateHour_eq_bucketHour_iff {t : Time} (i : ℕ)
    (ht : 0 ≤ Slots.slot hour (since now₁) t ∧ Slots.slot hour (since now₁) t < 24) :
    dateHour t = bucketHour z now₂ i ↔
      Slots.slot hour (since now₁) t = (i + ahead z now₁ now₂) % 24 := by
  rw [← bucketHour_sub_since]
  exact Slots.clock_eq_iff (hour_dvd_since now₁) ht

/-! ### What is in a bucket -/

/-- The connections that a bucket is the sum over. -/
def bucketConns (i : ℕ) : List Connection :=
  group tenantID (since now₁) conns (bucketHour z now₂ i)

theorem mem_bucketConns {c : Connection} {i : ℕ} :
    c ∈ bucketConns z now₁ now₂ tenantID conns i ↔ (c ∈ conns ∧ c.tenantID = tenantID ∧
      since now₁ ≤ c.detectedAt) ∧ dateHour c.detectedAt = bucketHour z now₂ i := by
  simp only [bucketConns, group, recent, List.mem_filter, Bool.and_eq_true, decide_eq_true_eq]

theorem bucketMap_rows (hs : List ℤ) (h : ℤ) :
    bucketMap (hs.map (row tenantID (since now₁) conns)) h = if h ∈ hs then
      some ⟨hourLabel h, gigabytes ((group tenantID (since now₁) conns h).map (·.bytesInbound)).sum,
        gigabytes ((group tenantID (since now₁) conns h).map (·.bytesOutbound)).sum⟩ else none := by
  induction hs using List.reverseRecOn with
  | nil => rfl
  | append_singleton hs h' ih =>
    rw [bucketMap, List.map_append, List.foldl_append, ← bucketMap]
    by_cases hh : h = h'
    · simp [hh, row]
    · simp [hh, row, ih]

/-- **A bucket is the sum over the connections under its hour**, also where there are none. -/
theorem bucket_eq (i : ℕ) : bucket z now₂ (trafficRows tenantID (since now₁) conns) i =
    ⟨hourLabel (bucketHour z now₂ i),
      gigabytes ((bucketConns z now₁ now₂ tenantID conns i).map (·.bytesInbound)).sum,
      gigabytes ((bucketConns z now₁ now₂ tenantID conns i).map (·.bytesOutbound)).sum⟩ := by
  rw [bucket, trafficRows, bucketMap_rows, bucketConns]
  split_ifs with hmem
  · rfl
  · -- an hour has no row if it has no connections
    have hnone : group tenantID (since now₁) conns (bucketHour z now₂ i) = [] := by
      rw [group, List.filter_eq_nil_iff]
      rintro c hc heq
      exact hmem (List.mem_dedup.mpr (List.mem_map.mpr ⟨c, hc, of_decide_eq_true heq⟩))
    simp [hnone, gigabytes]

/-- **The bytes of a bucket** are those of the slot further round, and those that are late. -/
theorem bucketBytes_eq (bytes : Connection → ℤ) (i : ℕ) :
    ((bucketConns z now₁ now₂ tenantID conns i).map bytes).sum =
      ((slotConns now₁ tenantID conns ((i + ahead z now₁ now₂) % 24)).map bytes).sum +
        ((lateConns now₁ tenantID conns (bucketHour z now₂ i)).map bytes).sum := by
  rw [bucketConns, group, recent, List.filter_filter, Slots.sum_filter_split bytes _
    fun c => decide (c.detectedAt < slotStart now₁ 24)]
  congr 3
  · -- within the slots, what is under the hour is what is in the one slot
    refine List.filter_congr fun c _ => Bool.eq_iff_iff.mpr ?_
    simp only [Bool.and_eq_true, decide_eq_true_eq, since_le_iff, lt_slotStart_iff, slotStart_le_iff]
    constructor
    · rintro ⟨⟨hhour, htenant, hpos⟩, hlt⟩
      have hslot := (dateHour_eq_bucketHour_iff z now₁ now₂ i ⟨hpos, hlt⟩).mp hhour
      exact ⟨htenant, hslot.ge, hslot.trans_lt (Int.lt_succ _)⟩
    · rintro ⟨htenant, hle, hlt⟩
      have hslot := le_antisymm (Int.lt_add_one_iff.mp hlt) hle
      have hmem : 0 ≤ Slots.slot hour (since now₁) c.detectedAt ∧
          Slots.slot hour (since now₁) c.detectedAt < 24 := by omega
      exact ⟨⟨(dateHour_eq_bucketHour_iff z now₁ now₂ i hmem).mpr hslot, htenant, hmem.1⟩, hmem.2⟩
  · -- behind them the query has no bound
    refine List.filter_congr fun c _ => Bool.eq_iff_iff.mpr ?_
    simp only [Bool.and_eq_true, decide_eq_true_eq, Bool.not_eq_true', decide_eq_false_iff_not,
      since_le_iff, not_lt, slotStart_le_iff]
    constructor
    · rintro ⟨⟨hhour, htenant, -⟩, hlate⟩
      exact ⟨htenant, hlate, hhour⟩
    · rintro ⟨htenant, hlate, hhour⟩
      exact ⟨⟨hhour, htenant, by omega⟩, hlate⟩

/-- **Each connection of the slots is in one bucket.** -/
theorem exists_unique_bucket {c : Connection} (hc : c ∈ conns) (htenant : c.tenantID = tenantID)
    (hfirst : slotStart now₁ 0 ≤ c.detectedAt) (hlast : c.detectedAt < slotStart now₁ 24) :
    ∃! i, i < 24 ∧ c ∈ bucketConns z now₁ now₂ tenantID conns i := by
  have hpos := (slotStart_le_iff now₁).mp hfirst
  have hlt := (lt_slotStart_iff now₁).mp hlast
  have hsince := (since_le_iff now₁).mpr hpos
  have hahead := ahead_mem z now₁ now₂
  -- the bucket is the slot turned back
  refine ⟨((Slots.slot hour (since now₁) c.detectedAt - ahead z now₁ now₂) % 24).toNat,
    ⟨by omega, ?_⟩, ?_⟩
  · rw [mem_bucketConns, dateHour_eq_bucketHour_iff z now₁ now₂ _ ⟨hpos, hlt⟩]
    exact ⟨⟨hc, htenant, hsince⟩, by omega⟩
  · rintro i ⟨hi, hmem⟩
    have hslot := (dateHour_eq_bucketHour_iff z now₁ now₂ i ⟨hpos, hlt⟩).mp
      ((mem_bucketConns z now₁ now₂ tenantID conns).mp hmem).2
    omega

/-! ### When the buckets are those of the slots -/

/-- The buckets are those of the slots, in their order. -/
structure Partition (buckets : List Bucket) : Prop where
  length : buckets.length = 24
  label : ∀ (i : ℕ) b, buckets[i]? = some b → b.hour = hourLabel (z.hour (slotStart now₁ i))
  inbound : ∀ (i : ℕ) b, buckets[i]? = some b →
    b.inboundGB = gigabytes ((slotConns now₁ tenantID conns i).map (·.bytesInbound)).sum
  outbound : ∀ (i : ℕ) b, buckets[i]? = some b →
    b.outboundGB = gigabytes ((slotConns now₁ tenantID conns i).map (·.bytesOutbound)).sum
  once : ∀ c ∈ conns, c.tenantID = tenantID → slotStart now₁ 0 ≤ c.detectedAt →
    c.detectedAt < slotStart now₁ 24 →
      ∃! i, i < buckets.length ∧ c ∈ bucketConns z now₁ now₂ tenantID conns i

/-- The clock shows at each slot the hour that is counted back to, and the traffic of the slots is the
same when they are turned round by what it is ahead of UTC, with what is late. -/
structure InStep : Prop where
  clock : ∀ i : ℕ, i < 24 → z.hour (slotStart now₁ i) = bucketHour z now₂ i
  traffic : ∀ bytes ∈ [Connection.bytesInbound, Connection.bytesOutbound], ∀ i : ℕ, i < 24 →
    ((slotConns now₁ tenantID conns ((i + ahead z now₁ now₂) % 24)).map bytes).sum +
        ((lateConns now₁ tenantID conns (bucketHour z now₂ i)).map bytes).sum =
      ((slotConns now₁ tenantID conns i).map bytes).sum

/-- **The buckets are those of the slots exactly if all is in step.** -/
theorem partition_iff (z : Zone) (now₁ now₂ : Time) (tenantID : GoString) (conns : List Connection) :
    (∃ buckets, hourlyTrafficBuckets z now₁ now₂ tenantID (.ok conns) = .ok buckets ∧
      Partition z now₁ now₂ tenantID conns buckets) ↔ InStep z now₁ now₂ tenantID conns := by
  -- the buckets by their numbers
  have hbucket : ∀ (i : ℕ) b, ((List.range 24).map (bucket z now₂
      (trafficRows tenantID (since now₁) conns)))[i]? = some b ↔ i < 24 ∧
        bucket z now₂ (trafficRows tenantID (since now₁) conns) i = b := by
    intro i b
    rw [List.getElem?_map]
    by_cases hi : i < 24
    · simp [hi]
    · simp [hi]
  constructor
  · rintro ⟨buckets, heq, h⟩
    obtain rfl := Except.ok.inj heq
    have hget := fun (i : ℕ) (hi : i < 24) => (hbucket i _).mpr ⟨hi, rfl⟩
    refine ⟨fun i hi => ?_, ?_⟩
    · have hlabel := h.label i _ (hget i hi)
      rw [bucket_eq, hourLabel_inj (bucketHour_mem z now₂ i) (zone_hour_mem z _)] at hlabel
      exact hlabel.symm
    · simp only [List.forall_mem_cons, List.not_mem_nil, false_imp_iff, implies_true, and_true]
      refine ⟨fun i hi => ?_, fun i hi => ?_⟩
      · have hinbound := h.inbound i _ (hget i hi)
        rwa [bucket_eq, gigabytes_inj, bucketBytes_eq] at hinbound
      · have houtbound := h.outbound i _ (hget i hi)
        rwa [bucket_eq, gigabytes_inj, bucketBytes_eq] at houtbound
  · intro h
    refine ⟨_, rfl, by simp, fun i b hb => ?_, fun i b hb => ?_, fun i b hb => ?_, ?_⟩
    · obtain ⟨hi, rfl⟩ := (hbucket i b).mp hb
      rw [bucket_eq, h.clock i hi]
    · obtain ⟨hi, rfl⟩ := (hbucket i b).mp hb
      rw [bucket_eq, ← h.traffic _ List.mem_cons_self i hi, ← bucketBytes_eq]
    · obtain ⟨hi, rfl⟩ := (hbucket i b).mp hb
      rw [bucket_eq, ← h.traffic _ (List.mem_cons_of_mem _ List.mem_cons_self) i hi,
        ← bucketBytes_eq]
    · rintro c hc htenant hfirst hlast
      rw [List.length_map, List.length_range]
      exact exists_unique_bucket z now₁ now₂ tenantID conns hc htenant hfirst hlast

/-! ### Servers -/

/-- **On a server whose clock shows UTC** all is in step, if it is read twice in one hour and nothing is
detected after that. -/
theorem inStep_utc (hutc : ∀ t, z.hour t = dateHour t) (hread : dateHour now₂ = dateHour now₁)
    (hlate : ∀ c ∈ conns, c.tenantID = tenantID → c.detectedAt < slotStart now₁ 24) :
    InStep z now₁ now₂ tenantID conns := by
  have hahead : ahead z now₁ now₂ = 0 := by
    rw [ahead, hutc, hread, sub_self, Int.zero_emod]
  have hnone : ∀ h, lateConns now₁ tenantID conns h = [] := by
    intro h
    refine List.filter_eq_nil_iff.mpr ?_
    rintro c hc htest
    simp only [Bool.and_eq_true, decide_eq_true_eq] at htest
    exact absurd (hlate c hc htest.1) (not_lt.mpr htest.2.1)
  refine ⟨fun i _ => ?_, ?_⟩
  · rw [hutc, slotStart, dateHour, Slots.clock_start hour_pos (hour_dvd_since now₁), ← dateHour,
      dateHour_since, bucketHour, hutc, hread]
    omega
  · rintro bytes - i hi
    rw [hahead, add_zero, Int.emod_eq_of_lt (by omega) (by omega), hnone, List.map_nil, List.sum_nil,
      add_zero]

/-- **Where the clock is ahead by the same time for good**, the labels are right exactly if it has shown
no full hour since the one of UTC. So where that time is of full hours they always are. -/
theorem labels_iff (lead : Time) :
    (∀ i : ℕ, i < 24 →
      Zone.hour ⟨fun _ => lead⟩ (slotStart now i) = bucketHour ⟨fun _ => lead⟩ now i) ↔
        (now + lead) / hour = (now / hour * hour + lead) / hour := by
  -- a slot starts whole hours from the last full hour of UTC
  have hstart : ∀ i : ℕ, Zone.hour ⟨fun _ => lead⟩ (slotStart now i) =
      ((now / hour * hour + lead) / hour - 23 + i) % 24 := by
    intro i
    have hsplit : slotStart now i + lead =
        now / hour * hour + lead + (-23 + i) * hour := by
      rw [slotStart, since]
      ring
    rw [Zone.hour, Slots.clock, hsplit, Int.add_mul_ediv_right _ _ hour_pos.ne', ← add_assoc,
      ← sub_eq_add_neg]
  -- since then the clock has shown one full hour at most
  have hle : (now / hour * hour + lead) / hour ≤ (now + lead) / hour :=
    Int.ediv_le_ediv hour_pos (by have := Int.ediv_mul_le now hour_pos.ne'; linarith)
  have hlt : (now + lead) / hour ≤ (now / hour * hour + lead) / hour + 1 := by
    rw [← Int.add_mul_ediv_right _ 1 hour_pos.ne', one_mul]
    exact Int.ediv_le_ediv hour_pos (by have := Int.lt_ediv_add_one_mul_self now hour_pos; linarith)
  constructor
  · intro h
    have h₀ := h 0 (by decide)
    rw [hstart, bucketHour, Zone.hour, Slots.clock, Nat.cast_zero] at h₀
    have hsame : ∀ a b : ℤ, b ≤ a → a ≤ b + 1 → (b - 23 + 0) % 24 = (a % 24 - 23 + 0 + 24) % 24 →
        a = b := by omega
    exact hsame _ _ hle hlt h₀
  · intro h i _
    rw [hstart, bucketHour, Zone.hour, Slots.clock, ← h]
    dsimp only
    omega

/-! ### A server east of Greenwich -/

/-- The clock is two hours ahead. -/
def twoHours : Zone := ⟨fun _ => 2 * hour⟩

/-- A connection that is detected at ten o'clock, with a gigabyte received. -/
def atTen : Connection := ⟨str "t1", 10 * hour, 1073741824, 0⟩

/-- **A connection of this hour is shown in the bucket of two hours ago**, and the bucket of this hour
is empty. -/
theorem not_partition :
    bucket twoHours (10 * hour) (trafficRows (str "t1") (since (10 * hour)) [atTen]) 21 =
      ⟨str "10:00", 1, 0⟩ ∧
    bucket twoHours (10 * hour) (trafficRows (str "t1") (since (10 * hour)) [atTen]) 23 =
      ⟨str "12:00", 0, 0⟩ ∧
    slotConns (10 * hour) (str "t1") [atTen] 23 = [atTen] ∧
    ¬∃ buckets, hourlyTrafficBuckets twoHours (10 * hour) (10 * hour) (str "t1") (.ok [atTen]) =
      .ok buckets ∧ Partition twoHours (10 * hour) (10 * hour) (str "t1") [atTen] buckets := by
  have hthis : bucket twoHours (10 * hour) (trafficRows (str "t1") (since (10 * hour)) [atTen]) 23 =
      ⟨str "12:00", 0, 0⟩ := by decide +kernel
  have hslot : slotConns (10 * hour) (str "t1") [atTen] 23 = [atTen] := rfl
  refine ⟨by decide +kernel, hthis, hslot, ?_⟩
  rintro ⟨buckets, heq, h⟩
  obtain rfl := Except.ok.inj heq
  have hinbound := h.inbound 23 _ rfl
  rw [hthis, Nat.cast_ofNat, hslot] at hinbound
  exact absurd hinbound (by decide +kernel)

end Network

end Xsiam

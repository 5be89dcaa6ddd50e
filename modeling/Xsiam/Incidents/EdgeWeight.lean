import Mathlib.Tactic.Linarith
import Xsiam.Go.Numbers
import Xsiam.Incidents.Causality
import Xsiam.Lib.Overlap

/-!
# The weight of an edge

`calcEdgeWeight` of `internal/domain/incident/causality_service.go`, over exact numbers: two alerts on
one asset have four tenths, each tactic and each indicator that they have in common brings three, and
one is the most there is (`Xsiam.Incidents.exactWeight_eq`).

The inner loops end at the first hit, so a tactic that the second alert has twice counts once. The
outer ones go through all tactics of the first alert, so one that the first alert has twice counts
twice. So the weight depends on which of the alerts comes first, and it grows with a repetition in the
list of the first, unless there is nothing in common or the weight cannot grow any more
(`Xsiam.Incidents.similarity_iff`).
-/

namespace Xsiam

namespace Incidents

open Go Overlap

/-! ### The weight -/

/-- `calcEdgeWeight`, over any numbers. -/
def edgeWeight {K : Type} (N : Numbers K) (a b : Alert) : K :=
  let onAsset : K :=
    if a.assetID.isSome ∧ a.assetID = b.assetID then N.add (N.const .zero) (N.const .c0_4)
    else N.const .zero
  let tactics := (a.mitreTactics.filter fun t => b.mitreTactics.contains t).foldl
    (fun w _ => N.add w (N.const .c0_3)) onAsset
  let w := (a.iocs.filter fun i => b.iocs.any fun j => i.value = j.value).foldl
    (fun w _ => N.add w (N.const .c0_3)) tactics
  if N.lt (N.const .c1) w then N.const .c1 else w

/-- Over floats it is the weight that the graphs have. -/
theorem calcEdgeWeight_eq (ops : FloatOps) (a b : Alert) :
    calcEdgeWeight ops a b = edgeWeight (.floats ops) a b := by
  rw [calcEdgeWeight, edgeWeight]
  simp only [Numbers.floats, Literal.float]
  congr!

/-- The weight over exact numbers. -/
def exactWeight (a b : Alert) : ℚ := edgeWeight .exact a b

/-- Two alerts are on one asset. -/
def SameAsset (a b : Alert) : Prop := a.assetID.isSome ∧ a.assetID = b.assetID

instance (a b : Alert) : Decidable (SameAsset a b) := inferInstanceAs (Decidable (_ ∧ _))

theorem sameAsset_comm {a b : Alert} : SameAsset a b ↔ SameAsset b a := by
  constructor
  · rintro ⟨hsome, heq⟩
    exact ⟨heq ▸ hsome, heq.symm⟩
  · rintro ⟨hsome, heq⟩
    exact ⟨heq ▸ hsome, heq.symm⟩

/-- The values of the indicators of an alert. -/
def iocValues (a : Alert) : List GoString := a.iocs.map (·.value)

/-- How many tactics and indicators of one alert the other one has. -/
def matching (a b : Alert) : ℕ :=
  overlap a.mitreTactics b.mitreTactics + overlap (iocValues a) (iocValues b)

/-- What the asset is worth. -/
def assetWeight (a b : Alert) : ℚ := if SameAsset a b then 4 / 10 else 0

theorem assetWeight_comm (a b : Alert) : assetWeight a b = assetWeight b a := by
  rw [assetWeight, assetWeight, if_congr sameAsset_comm rfl rfl]

theorem foldl_add_const {α : Type} (w c : ℚ) (l : List α) :
    l.foldl (fun w _ => w + c) w = w + l.length * c := by
  induction l generalizing w with
  | nil => simp
  | cons x l ih =>
    rw [List.foldl_cons, ih, List.length_cons, Nat.cast_succ]
    ring

/-- **The weight**: what the asset is worth and three tenths for each match, one at most. -/
theorem exactWeight_eq (a b : Alert) :
    exactWeight a b = min 1 (assetWeight a b + matching a b * (3 / 10)) := by
  have htactics : (a.mitreTactics.filter fun t => b.mitreTactics.contains t).length =
      overlap a.mitreTactics b.mitreTactics := by
    rw [overlap, ← List.countP_eq_length_filter]
    exact List.countP_congr fun t _ => by simp
  have hiocs : (a.iocs.filter fun i => b.iocs.any fun j => i.value = j.value).length =
      overlap (iocValues a) (iocValues b) := by
    rw [overlap, ← List.countP_eq_length_filter, iocValues, iocValues, List.countP_map]
    refine List.countP_congr fun i _ => ?_
    rw [Function.comp_apply, List.any_eq_true]
    simp only [decide_eq_true_eq, List.mem_map]
    exact exists_congr fun j => and_congr_right fun _ => eq_comm
  have hasset : (if a.assetID.isSome ∧ a.assetID = b.assetID then (0 : ℚ) + 4 / 10 else 0) =
      assetWeight a b := by
    rw [zero_add]
    rfl
  have hsum : exactWeight a b = if (1 : ℚ) <
      (assetWeight a b + overlap a.mitreTactics b.mitreTactics * (3 / 10)) +
        overlap (iocValues a) (iocValues b) * (3 / 10) then 1 else
      (assetWeight a b + overlap a.mitreTactics b.mitreTactics * (3 / 10)) +
        overlap (iocValues a) (iocValues b) * (3 / 10) := by
    rw [← htactics, ← hiocs, ← hasset, ← foldl_add_const, ← foldl_add_const]
    simp only [exactWeight, edgeWeight, Numbers.exact, Literal.exact, decide_eq_true_eq]
  have hmatching : assetWeight a b + matching a b * (3 / 10) =
      (assetWeight a b + overlap a.mitreTactics b.mitreTactics * (3 / 10)) +
        overlap (iocValues a) (iocValues b) * (3 / 10) := by
    rw [matching, Nat.cast_add]
    ring
  rw [hsum, hmatching, min_def]
  split_ifs with hlt hle hle
  · rfl
  · exact absurd hlt.le hle
  · exact le_antisymm (not_lt.mp hlt) hle
  · rfl

/-! ### Where the weight is one -/

/-- The number of matches from which on the weight is one. -/
def fullCount (a b : Alert) : ℕ := if SameAsset a b then 2 else 4

/-- The first alert has so many matches that the weight is one. -/
def Full (a b : Alert) : Prop := fullCount a b ≤ matching a b

instance (a b : Alert) : Decidable (Full a b) := inferInstanceAs (Decidable (_ ≤ _))

theorem one_le_iff_full (a b : Alert) :
    1 ≤ assetWeight a b + matching a b * (3 / 10) ↔ Full a b := by
  rw [Full, fullCount, assetWeight]
  split_ifs
  · constructor
    · intro h
      have hlt : (1 : ℚ) < matching a b := by linarith
      exact_mod_cast hlt
    · intro h
      have hle : (2 : ℚ) ≤ matching a b := by exact_mod_cast h
      linarith
  · constructor
    · intro h
      have hlt : (3 : ℚ) < matching a b := by linarith
      exact_mod_cast hlt
    · intro h
      have hle : (4 : ℚ) ≤ matching a b := by exact_mod_cast h
      linarith

theorem exactWeight_eq_one_iff {a b : Alert} : exactWeight a b = 1 ↔ Full a b := by
  rw [exactWeight_eq, min_eq_left_iff, one_le_iff_full]

/-- Two weights with the same value of the asset are equal if the matches are as many, or if both
are one. -/
theorem exactWeight_eq_iff {a b a' b' : Alert} (h : assetWeight a b = assetWeight a' b') :
    exactWeight a b = exactWeight a' b' ↔
      matching a b = matching a' b' ∨ Full a b ∧ Full a' b' := by
  have hfull := one_le_iff_full a b
  have hfull' := one_le_iff_full a' b'
  rw [← h] at hfull'
  constructor
  · intro heq
    by_cases hone : Full a b
    · exact .inr ⟨hone, exactWeight_eq_one_iff.mp (heq ▸ exactWeight_eq_one_iff.mpr hone)⟩
    · have hone' : ¬Full a' b' := fun hf =>
        hone (exactWeight_eq_one_iff.mp (heq ▸ exactWeight_eq_one_iff.mpr hf))
      rw [exactWeight_eq, exactWeight_eq, ← h, min_eq_right (not_le.mp (mt hfull.mp hone)).le,
        min_eq_right (not_le.mp (mt hfull'.mp hone')).le] at heq
      have hcount : (matching a b : ℚ) = matching a' b' := by linarith
      exact .inl (by exact_mod_cast hcount)
  · rintro (heq | ⟨hone, hone'⟩)
    · rw [exactWeight_eq, exactWeight_eq, h, heq]
    · rw [exactWeight_eq_one_iff.mpr hone, exactWeight_eq_one_iff.mpr hone']

/-! ### What a similarity is -/

/-- An alert with a tactic or the value of an indicator repeated. -/
inductive Repeats (a : Alert) : Alert → Prop where
  | tactic {ts : List GoString} {t : GoString} (ht : t ∈ a.mitreTactics)
      (hts : ts.Perm (t :: a.mitreTactics)) : Repeats a { a with mitreTactics := ts }
  | ioc {is : List IocEntry} {i : IocEntry} (hi : i.value ∈ iocValues a)
      (his : is.Perm (i :: a.iocs)) : Repeats a { a with iocs := is }

/-- Two alerts with a tactic or an indicator that is added to both. -/
inductive Joins (a b : Alert) : Alert → Alert → Prop where
  | tactic {ts us : List GoString} {t : GoString} (hts : ts.Perm (t :: a.mitreTactics))
      (hus : us.Perm (t :: b.mitreTactics)) :
      Joins a b { a with mitreTactics := ts } { b with mitreTactics := us }
  | ioc {is js : List IocEntry} {i j : IocEntry} (hij : i.value = j.value)
      (his : is.Perm (i :: a.iocs)) (hjs : js.Perm (j :: b.iocs)) :
      Joins a b { a with iocs := is } { b with iocs := js }

/-- The weight is a symmetric similarity of two alerts. -/
structure Similarity (a b : Alert) : Prop where
  symm : exactWeight a b = exactWeight b a
  nonneg : 0 ≤ exactWeight a b
  le_one : exactWeight a b ≤ 1
  repeat_left : ∀ a', Repeats a a' → exactWeight a' b = exactWeight a b
  repeat_right : ∀ b', Repeats b b' → exactWeight a b' = exactWeight a b
  joins : ∀ a' b', Joins a b a' b' → exactWeight a b ≤ exactWeight a' b'

/-- Two alerts have no tactic and no indicator in common. -/
def Apart (a b : Alert) : Prop :=
  (∀ t ∈ a.mitreTactics, t ∉ b.mitreTactics) ∧ ∀ i ∈ a.iocs, ∀ j ∈ b.iocs, i.value ≠ j.value

theorem Apart.symm {a b : Alert} (h : Apart a b) : Apart b a :=
  ⟨fun t ht ht' => h.1 t ht' ht, fun i hi j hj hij => h.2 j hj i hi hij.symm⟩

theorem matching_eq_zero_iff {a b : Alert} : matching a b = 0 ↔ Apart a b := by
  rw [matching, Nat.add_eq_zero_iff, overlap_eq_zero_iff, overlap_eq_zero_iff, Apart]
  refine and_congr_right fun _ => ?_
  simp only [iocValues, List.forall_mem_map]
  refine forall₂_congr fun i _ => ⟨fun h j hj hij => h (hij ▸ List.mem_map_of_mem hj), ?_⟩
  intro h hmem
  obtain ⟨j, hj, hij⟩ := List.mem_map.mp hmem
  exact h j hj hij.symm

/-! ### Repetitions -/

theorem iocValues_of_perm {a : Alert} {is : List IocEntry} {i : IocEntry}
    (his : is.Perm (i :: a.iocs)) :
    (iocValues { a with iocs := is }).Perm (i.value :: iocValues a) := his.map _

variable {a b a' b' : Alert}

theorem Repeats.assetWeight_left (h : Repeats a a') : assetWeight a' b = assetWeight a b := by
  cases h <;> rfl

theorem Repeats.assetWeight_right (h : Repeats b b') : assetWeight a b' = assetWeight a b := by
  cases h <;> rfl

/-- **A repetition in the second alert makes no difference.** -/
theorem Repeats.matching_right (h : Repeats b b') : matching a b' = matching a b := by
  have hsame : ∀ {α : Type} {x : α} {xs xs' : List α}, x ∈ xs → xs'.Perm (x :: xs) →
      ∀ y, y ∈ xs' ↔ y ∈ xs := by
    intro α x xs xs' hx hperm y
    rw [hperm.mem_iff, List.mem_cons]
    exact ⟨fun hy => hy.elim (fun heq => heq ▸ hx) id, .inr⟩
  cases h with
  | tactic ht hts =>
    exact congrArg (· + _) (overlap_congr_right a.mitreTactics (hsame ht hts))
  | ioc hi his =>
    exact congrArg (_ + ·) (overlap_congr_right (iocValues a) (hsame hi (iocValues_of_perm his)))

/-- A repetition in the first alert can bring a match more. -/
theorem Repeats.matching_left (h : Repeats a a') (b : Alert) : matching a b ≤ matching a' b := by
  cases h with
  | tactic ht hts =>
    have hone := overlap_of_perm_cons b.mitreTactics hts
    simp only [matching, iocValues]
    omega
  | ioc hi his =>
    have hone := overlap_of_perm_cons (iocValues b) (iocValues_of_perm his)
    simp only [matching]
    omega

/-- **Where there is a match, one that is repeated brings one more.** -/
theorem exists_repeats (h : 0 < matching a b) :
    ∃ a', Repeats a a' ∧ matching a' b = matching a b + 1 := by
  by_cases htactic : 0 < overlap a.mitreTactics b.mitreTactics
  · obtain ⟨t, ht, hmem⟩ := exists_of_overlap_pos htactic
    refine ⟨_, .tactic ht (.refl _), ?_⟩
    have hone := overlap_of_perm_cons b.mitreTactics (.refl (t :: a.mitreTactics))
    rw [if_pos hmem] at hone
    simp only [matching, iocValues] at hone ⊢
    omega
  · have hioc : 0 < overlap (iocValues a) (iocValues b) := by
      rw [matching] at h
      omega
    obtain ⟨v, hv, hmem⟩ := exists_of_overlap_pos hioc
    obtain ⟨i, hi, rfl⟩ := List.mem_map.mp hv
    refine ⟨_, .ioc hv (.refl _), ?_⟩
    have hone := overlap_of_perm_cons (iocValues b)
      (iocValues_of_perm (a := a) (.refl (i :: a.iocs)))
    rw [if_pos hmem] at hone
    simp only [matching] at hone ⊢
    omega

/-- Nothing is lost by what is added to both. -/
theorem Joins.matching_le (h : Joins a b a' b') : matching a b ≤ matching a' b' := by
  cases h with
  | tactic hts hus =>
    refine Nat.add_le_add_right (overlap_mono ?_ ?_) _
    · exact (List.sublist_cons_self _ _).subperm.trans hts.symm.subperm
    · exact fun t ht => hus.mem_iff.mpr (List.mem_cons_of_mem _ ht)
  | ioc hij his hjs =>
    refine Nat.add_le_add_left (overlap_mono ?_ ?_) _
    · exact (List.sublist_cons_self _ _).subperm.trans (iocValues_of_perm his).symm.subperm
    · exact fun v hv => (iocValues_of_perm hjs).mem_iff.mpr (List.mem_cons_of_mem _ hv)

theorem Joins.assetWeight_eq (h : Joins a b a' b') : assetWeight a' b' = assetWeight a b := by
  cases h <;> rfl

/-- More matches are no less weight. -/
theorem exactWeight_le (hasset : assetWeight a b = assetWeight a' b')
    (h : matching a b ≤ matching a' b') : exactWeight a b ≤ exactWeight a' b' := by
  rw [exactWeight_eq, exactWeight_eq, hasset]
  have hcast : (matching a b : ℚ) ≤ matching a' b' := by exact_mod_cast h
  exact min_le_min le_rfl (by linarith)

/-! ### Where the weight is a similarity -/

/-- **When the weight is symmetric**: one alert has as many matches as the other, or both have so
many that the weight is one. -/
theorem exactWeight_comm_iff : exactWeight a b = exactWeight b a ↔
    matching a b = matching b a ∨ Full a b ∧ Full b a := exactWeight_eq_iff (assetWeight_comm a b)

/-- It is so for alerts that have no tactic and no indicator twice. -/
theorem exactWeight_comm_of_nodup (ha : a.mitreTactics.Nodup ∧ (iocValues a).Nodup)
    (hb : b.mitreTactics.Nodup ∧ (iocValues b).Nodup) : exactWeight a b = exactWeight b a := by
  refine exactWeight_comm_iff.mpr (.inl ?_)
  rw [matching, matching, overlap_comm ha.1 hb.1, overlap_comm ha.2 hb.2]

theorem exactWeight_mem : 0 ≤ exactWeight a b ∧ exactWeight a b ≤ 1 := by
  rw [exactWeight_eq]
  have hasset : 0 ≤ assetWeight a b := by
    rw [assetWeight]
    split_ifs
    · norm_num
    · exact le_rfl
  have hcount : (0 : ℚ) ≤ matching a b := Nat.cast_nonneg _
  exact ⟨le_min zero_le_one (by linarith), min_le_left ..⟩

/-- No repetition in the first alert makes a difference exactly if there is no match, or the weight
is one. -/
theorem repeat_left_iff : (∀ a', Repeats a a' → exactWeight a' b = exactWeight a b) ↔
    Apart a b ∨ Full a b := by
  constructor
  · intro h
    by_cases hzero : matching a b = 0
    · exact .inl (matching_eq_zero_iff.mp hzero)
    obtain ⟨a', hrepeats, hone⟩ := exists_repeats (Nat.pos_of_ne_zero hzero)
    rcases (exactWeight_eq_iff hrepeats.assetWeight_left).mp (h a' hrepeats) with heq | ⟨-, hfull⟩
    · omega
    · exact .inr hfull
  · intro h a' hrepeats
    refine (exactWeight_eq_iff hrepeats.assetWeight_left).mpr ?_
    rcases h with happart | hfull
    · -- what is repeated is no match, since there is none
      refine .inl ?_
      cases hrepeats with
      | tactic ht hts =>
        have hone := overlap_of_perm_cons b.mitreTactics hts
        rw [if_neg (happart.1 _ ht)] at hone
        exact congrArg (· + _) hone
      | ioc hi his =>
        have hone := overlap_of_perm_cons (iocValues b) (iocValues_of_perm his)
        have hnot : ∀ v ∈ iocValues a, v ∉ iocValues b :=
          overlap_eq_zero_iff.mp (Nat.add_eq_zero_iff.mp (matching_eq_zero_iff.mpr happart)).2
        rw [if_neg (hnot _ hi)] at hone
        exact congrArg (_ + ·) hone
    · refine .inr ⟨?_, hfull⟩
      have hmore := hrepeats.matching_left b
      have hasset : SameAsset a' b ↔ SameAsset a b := by cases hrepeats <;> rfl
      rw [Full, fullCount, if_congr hasset rfl rfl]
      exact Nat.le_trans hfull hmore

/-- **The weight is a symmetric similarity exactly if there is nothing in common, or each alert has
so many matches in the other that the weight is one.** -/
theorem similarity_iff (a b : Alert) : Similarity a b ↔ Apart a b ∨ Full a b ∧ Full b a := by
  constructor
  · intro h
    rcases repeat_left_iff.mp h.repeat_left with happart | hfull
    · exact .inl happart
    · -- a weight of one is one the other way round too
      have hone := exactWeight_eq_one_iff.mpr hfull
      exact .inr ⟨hfull, exactWeight_eq_one_iff.mp (h.symm ▸ hone)⟩
  · intro h
    refine ⟨exactWeight_comm_iff.mpr ?_, exactWeight_mem.1, exactWeight_mem.2,
      repeat_left_iff.mpr (h.imp id And.left), fun b' hrepeats => ?_, fun a' b' hjoins => ?_⟩
    · refine h.imp_left fun happart => ?_
      rw [matching_eq_zero_iff.mpr happart, matching_eq_zero_iff.mpr happart.symm]
    · exact (exactWeight_eq_iff hrepeats.assetWeight_right).mpr (.inl hrepeats.matching_right)
    · exact exactWeight_le hjoins.assetWeight_eq.symm hjoins.matching_le

/-- An alert that has a tactic twice, and one that has it once. -/
def twiceAlert : Alert :=
  { sampleAlert "1" "ALT-1" "t1" with
    assetID := none, mitreTactics := [str "TA0008", str "TA0008"], iocs := [] }

def onceAlert : Alert :=
  { sampleAlert "2" "ALT-2" "t1" with assetID := none, mitreTactics := [str "TA0008"], iocs := [] }

/-- **The weight of a tactic that one of two alerts has twice** depends on which comes first. -/
theorem not_similarity : exactWeight twiceAlert onceAlert = 6 / 10 ∧
    exactWeight onceAlert twiceAlert = 3 / 10 ∧ ¬Similarity twiceAlert onceAlert := by
  have htwice : exactWeight twiceAlert onceAlert = 6 / 10 := by
    rw [exactWeight_eq, assetWeight, if_neg (by decide +kernel),
      show matching twiceAlert onceAlert = 2 by decide +kernel]
    norm_num
  have honce : exactWeight onceAlert twiceAlert = 3 / 10 := by
    rw [exactWeight_eq, assetWeight, if_neg (by decide +kernel),
      show matching onceAlert twiceAlert = 1 by decide +kernel]
    norm_num
  refine ⟨htwice, honce, fun h => ?_⟩
  have hsymm := h.symm
  rw [htwice, honce] at hsymm
  norm_num at hsymm

end Incidents

end Xsiam

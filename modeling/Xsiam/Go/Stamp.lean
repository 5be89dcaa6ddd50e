import Mathlib.Order.Monotone.Basic
import Xsiam.Go.Text
import Xsiam.Lib.Lexical

/-!
# Times as JSON writes them

A `time.Time` is an instant with the offset of a zone, and `encoding/json` writes it in RFC 3339: the
date and the clock of the zone, the fraction of the second without the zeros at its end, and the offset.
A fraction of zero is not written, and neither are the seconds of an offset. What has no year of four
digits, or an offset of a day, is not written at all.

`Xsiam.Go.Stamp.text_le_iff` says in which order the texts are: in that of what the clocks show, not of
the instants, and within one second not even that, since what stands behind the last digit of a fraction
is compared with the digits of a longer one.
-/

namespace Xsiam

namespace Go

/-! ### The calendar -/

/-- The days before a year, from the year 0 on. -/
def yearStart (y : ℕ) : ℕ := 365 * y + (y + 3) / 4 - (y + 99) / 100 + (y + 399) / 400

/-- The 29th of February, if the year has one. -/
def leapDay (y : ℕ) : ℕ := if y % 4 = 0 ∧ (y % 100 ≠ 0 ∨ y % 400 = 0) then 1 else 0

/-- The days before a month of a year, `daysBefore` of the library. -/
def monthStart (y : ℕ) : ℕ → ℕ
  | 0 => 0
  | 1 => 31
  | 2 => 59 + leapDay y
  | 3 => 90 + leapDay y
  | 4 => 120 + leapDay y
  | 5 => 151 + leapDay y
  | 6 => 181 + leapDay y
  | 7 => 212 + leapDay y
  | 8 => 243 + leapDay y
  | 9 => 273 + leapDay y
  | 10 => 304 + leapDay y
  | 11 => 334 + leapDay y
  | m + 12 => 365 + leapDay y + m

theorem leapDay_le (y : ℕ) : leapDay y ≤ 1 := by
  rw [leapDay]
  split_ifs
  · exact le_refl 1
  · exact Nat.zero_le 1

theorem yearStart_succ (y : ℕ) : yearStart (y + 1) = yearStart y + 365 + leapDay y := by
  have h₄ : (y + 1 + 3) / 4 = (y + 3) / 4 + if y % 4 = 0 then 1 else 0 := by
    split_ifs with h
    · omega
    · omega
  have h₁ : (y + 1 + 99) / 100 = (y + 99) / 100 + if y % 100 = 0 then 1 else 0 := by
    split_ifs with h
    · omega
    · omega
  have h₀ : (y + 1 + 399) / 400 = (y + 399) / 400 + if y % 400 = 0 then 1 else 0 := by
    split_ifs with h
    · omega
    · omega
  have hle : (y + 99) / 100 ≤ y := by omega
  have hleap : (if y % 4 = 0 then 1 else 0) + (if y % 400 = 0 then 1 else 0) =
      leapDay y + if y % 100 = 0 then 1 else 0 := by
    have hcentury : y % 400 = 0 → y % 100 = 0 := fun h => by omega
    have hfourth : y % 100 = 0 → y % 4 = 0 := fun h => by omega
    rw [leapDay]
    by_cases h : y % 100 = 0
    · by_cases h' : y % 400 = 0
      · simp [h, h', hfourth h]
      · simp [h, h', hfourth h]
    · simp [h, mt hcentury h]
  have hcentury : (if y % 100 = 0 then 1 else 0) ≤ 1 := by
    split_ifs
    · exact le_refl 1
    · exact Nat.zero_le 1
  rw [yearStart, yearStart, h₄, h₁, h₀]
  generalize (y + 3) / 4 = a at *
  generalize (y + 99) / 100 = b at *
  generalize (y + 399) / 400 = c at *
  omega

theorem yearStart_mono : Monotone yearStart := by
  refine monotone_nat_of_le_succ fun y => ?_
  rw [yearStart_succ]
  omega

theorem monthStart_mono (y : ℕ) : Monotone (monthStart y) := by
  refine monotone_nat_of_le_succ fun m => ?_
  have hleap := leapDay_le y
  match m with
  | 0 | 1 | 2 | 3 | 4 | 5 | 6 | 7 | 8 | 9 | 10 | 11 => simp only [monthStart]; omega
  | m + 12 => simp only [monthStart]; omega

/-! ### Times -/

/-- A `time.Time` that JSON can write: nanoseconds since the epoch, and the offset of its zone in
seconds. -/
structure Stamp where
  instant : ℤ
  offset : ℤ
  offset_bound : -86400 < offset ∧ offset < 86400
  year_bound : 0 ≤ instant / 10 ^ 9 + offset + 719528 * 86400 ∧
    instant / 10 ^ 9 + offset + 719528 * 86400 < 3652425 * 86400
deriving DecidableEq

namespace Stamp

/-- UTC is an offset. -/
theorem utc_bound : -86400 < (0 : ℤ) ∧ (0 : ℤ) < 86400 := by
  decide

variable (t : Stamp)

/-- The seconds of its clock, from the year 0 on. -/
def second : ℕ := (t.instant / 10 ^ 9 + t.offset + 719528 * 86400).toNat

/-- The nanoseconds within the second. -/
def nano : ℕ := (t.instant % 10 ^ 9).toNat

/-- The day, from the year 0 on. -/
def day : ℕ := t.second / 86400

/-- The second of the day. -/
def clock : ℕ := t.second % 86400

def year : ℕ := Lexical.stepOf yearStart 9999 t.day

def yearDay : ℕ := t.day - yearStart t.year

/-- The month, from 0 on. -/
def month : ℕ := Lexical.stepOf (monthStart t.year) 11 t.yearDay

/-- The day of the month, from 0 on. -/
def monthDay : ℕ := t.yearDay - monthStart t.year t.month

/-- The digits of the fraction that are written. -/
def fraction : List UInt8 := Lexical.trimZeros (Lexical.digits 9 t.nano)

/-- The offset in minutes. -/
def minutes : ℤ := t.offset.tdiv 60

/-- The zone: `Z07:00` of `time`. -/
def zone : GoString :=
  if t.offset = 0 then str "Z"
  else (if t.minutes < 0 then 0x2D else 0x2B) :: (Lexical.digits 2 (t.minutes.natAbs / 60) ++
    0x3A :: Lexical.digits 2 (t.minutes.natAbs % 60))

/-- The fraction with its point, and the zone. -/
def tail : GoString := (if t.fraction = [] then [] else 0x2E :: t.fraction) ++ t.zone

/-- `MarshalJSON`, without the quotes. -/
def text : GoString :=
  Lexical.digits 4 t.year ++ 0x2D :: (Lexical.digits 2 (t.month + 1) ++
    0x2D :: (Lexical.digits 2 (t.monthDay + 1) ++ 0x54 :: (Lexical.digits 2 (t.clock / 3600) ++
      0x3A :: (Lexical.digits 2 (t.clock / 60 % 60) ++
        0x3A :: (Lexical.digits 2 (t.clock % 60) ++ t.tail)))))

/-! ### What the clock shows -/

theorem second_eq : (t.second : ℤ) = t.instant / 10 ^ 9 + t.offset + 719528 * 86400 :=
  Int.toNat_of_nonneg t.year_bound.1

theorem nano_eq : (t.nano : ℤ) = t.instant % 10 ^ 9 :=
  Int.toNat_of_nonneg (Int.emod_nonneg _ (by decide))

theorem nano_lt : t.nano < 10 ^ 9 := by
  have := t.nano_eq
  omega

theorem day_lt : t.day < yearStart (9999 + 1) := by
  have hsecond := t.second_eq
  have hbound := t.year_bound
  have hstart : yearStart (9999 + 1) = 3652425 := by decide
  rw [hstart, day]
  omega

theorem year_le : t.year ≤ 9999 := Lexical.stepOf_le_bound ..

theorem yearStart_le : yearStart t.year ≤ t.day := Lexical.stepOf_le (by decide) 9999 t.day

theorem lt_yearStart : t.day < yearStart (t.year + 1) := Lexical.lt_stepOf_succ t.day_lt

theorem yearDay_lt : t.yearDay < monthStart t.year (11 + 1) := by
  have hle := t.yearStart_le
  have hlt := t.lt_yearStart
  rw [yearStart_succ] at hlt
  rw [yearDay]
  simp only [monthStart]
  omega

theorem month_le : t.month ≤ 11 := Lexical.stepOf_le_bound ..

theorem monthStart_le : monthStart t.year t.month ≤ t.yearDay :=
  Lexical.stepOf_le (by rfl) 11 t.yearDay

theorem lt_monthStart : t.yearDay < monthStart t.year (t.month + 1) :=
  Lexical.lt_stepOf_succ t.yearDay_lt

theorem monthDay_lt : t.monthDay < 31 := by
  have hlt := t.lt_monthStart
  have hleap := leapDay_le t.year
  have hle := t.month_le
  rw [monthDay]
  interval_cases t.month
  all_goals
    simp only [monthStart] at hlt ⊢
    omega

variable {t} {u : Stamp}

/-- Days are in the order of years, months and days. -/
theorem day_lt_iff : t.day < u.day ↔
    t.year < u.year ∨ t.year = u.year ∧ (t.month < u.month ∨
      t.month = u.month ∧ t.monthDay < u.monthDay) := by
  rw [Lexical.lt_iff_step yearStart_mono t.yearStart_le t.lt_yearStart u.yearStart_le u.lt_yearStart]
  refine or_congr_right (and_congr_right fun hyear => ?_)
  have hmonth := u.monthStart_le
  have hmonth' := u.lt_monthStart
  rw [← hyear] at hmonth hmonth'
  rw [monthDay, monthDay, ← hyear, ← yearDay, hyear, ← yearDay, ← hyear]
  exact Lexical.lt_iff_step (monthStart_mono _) t.monthStart_le t.lt_monthStart hmonth hmonth'

theorem day_eq_iff : t.day = u.day ↔
    t.year = u.year ∧ t.month = u.month ∧ t.monthDay = u.monthDay := by
  have hlt := day_lt_iff (t := t) (u := u)
  have hgt := day_lt_iff (t := u) (u := t)
  omega

/-- Clocks are in the order of hours, minutes and seconds. -/
theorem clock_le_iff {c d : ℕ} (hc : c < 86400) (hd : d < 86400) {z w : GoString} :
    Lexical.digits 2 (c / 3600) ++ 0x3A :: (Lexical.digits 2 (c / 60 % 60) ++
        0x3A :: (Lexical.digits 2 (c % 60) ++ z)) ≤
      Lexical.digits 2 (d / 3600) ++ 0x3A :: (Lexical.digits 2 (d / 60 % 60) ++
        0x3A :: (Lexical.digits 2 (d % 60) ++ w)) ↔ c < d ∨ c = d ∧ z ≤ w := by
  rw [Lexical.field_le_iff (by omega) (by omega), Lexical.field_le_iff (by omega) (by omega),
    Lexical.append_le_append_iff (by simp), Lexical.digits_lt_iff (by omega) (by omega),
    Lexical.digits_inj (by omega) (by omega)]
  by_cases htail : z ≤ w
  · simp only [htail, and_true]
    omega
  · simp only [htail, and_false, or_false]
    omega

/-- **Texts are in the order of the seconds that the clocks show.** -/
theorem text_le_iff_second :
    t.text ≤ u.text ↔ t.second < u.second ∨ t.second = u.second ∧ t.tail ≤ u.tail := by
  have hyear := t.year_le
  have hyear' := u.year_le
  have hmonth := t.month_le
  have hmonth' := u.month_le
  have hday := t.monthDay_lt
  have hday' := u.monthDay_lt
  have hclock : t.clock < 86400 := Nat.mod_lt _ (by decide)
  have hclock' : u.clock < 86400 := Nat.mod_lt _ (by decide)
  rw [text, text, Lexical.field_le_iff (by omega) (by omega), Lexical.field_le_iff (by omega) (by omega),
    Lexical.field_le_iff (by omega) (by omega), clock_le_iff hclock hclock']
  have hlt := day_lt_iff (t := t) (u := u)
  have heq := day_eq_iff (t := t) (u := u)
  rw [day, day] at hlt heq
  rw [clock, clock]
  by_cases htail : t.tail ≤ u.tail
  · simp only [htail, and_true]
    omega
  · simp only [htail, and_false, or_false]
    omega

/-! ### Zones -/

variable (t) in
/-- The place of the zone in the order of the texts: the offsets with a plus sign first, then those with a
minus sign, and `Z` last. -/
def zoneRank : ℕ :=
  if t.offset = 0 then 2880
  else if t.minutes < 0 then 1440 + t.minutes.natAbs else t.minutes.natAbs

variable (t) in
theorem minutes_lt : t.minutes.natAbs < 1440 := by
  have hbound := t.offset_bound
  have hdiv : t.minutes.natAbs = t.offset.natAbs / 60 := Int.natAbs_tdiv _ _
  omega

theorem minutes_le_iff {m n : ℕ} (hm : m < 1440) (hn : n < 1440) :
    Lexical.digits 2 (m / 60) ++ 0x3A :: Lexical.digits 2 (m % 60) ≤
      Lexical.digits 2 (n / 60) ++ 0x3A :: Lexical.digits 2 (n % 60) ↔ m ≤ n := by
  rw [Lexical.field_le_iff (by omega) (by omega), Lexical.digits_le_iff (by omega) (by omega)]
  omega

theorem zone_le_iff : t.zone ≤ u.zone ↔ t.zoneRank ≤ u.zoneRank := by
  have ht := t.minutes_lt
  have hu := u.minutes_lt
  have hz : str "Z" = [0x5A] := by decide
  rw [zone, zone, zoneRank, zoneRank, hz]
  by_cases hzero : t.offset = 0
  · rw [if_pos hzero, if_pos hzero]
    by_cases hzero' : u.offset = 0
    · rw [if_pos hzero', if_pos hzero']
      simp
    · rw [if_neg hzero', if_neg hzero']
      split_ifs
      · exact iff_of_false (Lexical.not_cons_le_cons (by decide) _ _) (by omega)
      · exact iff_of_false (Lexical.not_cons_le_cons (by decide) _ _) (by omega)
  · rw [if_neg hzero, if_neg hzero]
    by_cases hzero' : u.offset = 0
    · rw [if_pos hzero', if_pos hzero']
      split_ifs
      · exact iff_of_true (Lexical.cons_le_cons (by decide) _ _) (by omega)
      · exact iff_of_true (Lexical.cons_le_cons (by decide) _ _) (by omega)
    · rw [if_neg hzero', if_neg hzero']
      split_ifs
      · simp [List.cons_le_cons_iff, minutes_le_iff ht hu]
      · exact iff_of_false (Lexical.not_cons_le_cons (by decide) _ _) (by omega)
      · exact iff_of_true (Lexical.cons_le_cons (by decide) _ _) (by omega)
      · simp [List.cons_le_cons_iff, minutes_le_iff ht hu]

variable (t) in
/-- `Z` is above the digits, and the signs are below them and below the point. -/
theorem zone_head : ∃ c z, t.zone = c :: z ∧
    (t.offset = 0 ∧ c = 0x5A ∨ t.offset ≠ 0 ∧ (c = 0x2B ∨ c = 0x2D)) := by
  rw [zone]
  by_cases hzero : t.offset = 0
  · exact ⟨_, _, if_pos hzero, .inl ⟨hzero, rfl⟩⟩
  · refine ⟨_, _, if_neg hzero, .inr ⟨hzero, ?_⟩⟩
    split_ifs
    · exact .inr rfl
    · exact .inl rfl

/-! ### Fractions -/

theorem fraction_eq_nil_iff : t.fraction = [] ↔ t.nano = 0 :=
  Lexical.trimZeros_digits_eq_nil_iff t.nano_lt

/-- **Fractions are in order, unless the digits of one begin those of the other and `Z` is behind
them.** -/
theorem tail_lt (h : t.nano < u.nano) :
    if t.fraction <+: u.fraction ∧ t.offset = 0 then u.tail < t.tail else t.tail < u.tail := by
  obtain ⟨c, z, hzone, hc⟩ := t.zone_head
  have hfraction : u.fraction ≠ [] := mt fraction_eq_nil_iff.mp (by omega)
  have habove : 0x39 < c ↔ t.offset = 0 := by
    rcases hc with ⟨hzero, rfl⟩ | ⟨hzero, rfl | rfl⟩
    · exact iff_of_true (by decide) hzero
    · exact iff_of_false (by decide) hzero
    · exact iff_of_false (by decide) hzero
  have hbelow : c < 0x2E ↔ t.offset ≠ 0 := by
    rcases hc with ⟨hzero, rfl⟩ | ⟨hzero, rfl | rfl⟩
    · exact iff_of_false (by decide) (not_not.mpr hzero)
    · exact iff_of_true (by decide) hzero
    · exact iff_of_true (by decide) hzero
  rw [tail, tail, if_neg hfraction, hzone]
  by_cases hnil : t.fraction = []
  · -- no point is written, so what is compared is the zone with the point
    rw [if_pos hnil, hnil]
    split_ifs with hbegins
    · refine List.cons_lt_cons_iff.mpr (.inl ?_)
      exact UInt8.lt_trans (by decide) (habove.mpr hbegins.2)
    · refine List.cons_lt_cons_iff.mpr (.inl (hbelow.mpr fun hzero => hbegins ⟨List.nil_prefix, hzero⟩))
  · have hlt := Lexical.trimmed_lt (z := z) (w := u.zone) (c := c) (by simp)
      (fun d hd => (Lexical.digit_bounds d hd).1) (fun d hd => Lexical.digit_bounds d hd)
      (by rcases hc with ⟨-, rfl⟩ | ⟨-, rfl | rfl⟩ <;> decide)
      ((Lexical.digits_lt_iff t.nano_lt u.nano_lt).mpr h)
    rw [if_neg hnil]
    simp only [habove] at hlt
    simpa [fraction, UInt8.lt_irrefl] using hlt

theorem tail_le_iff_of_nano_eq (h : t.nano = u.nano) :
    t.tail ≤ u.tail ↔ t.zoneRank ≤ u.zoneRank := by
  have hfraction : t.fraction = u.fraction := by rw [fraction, fraction, h]
  rw [tail, tail, hfraction, Lexical.append_le_append_iff rfl, zone_le_iff]
  simp [List.lt_irrefl]

/-! ### The order of the texts -/

variable (t) in
/-- What the clock shows, in nanoseconds. -/
def shown : ℕ := t.second * 10 ^ 9 + t.nano

variable (t u) in
/-- The clocks show the same second, the digits that are written of one fraction begin those of the other,
and `Z` is behind them. -/
def Clash : Prop :=
  t.second = u.second ∧
    (t.nano < u.nano ∧ t.fraction <+: u.fraction ∧ t.offset = 0 ∨
      u.nano < t.nano ∧ u.fraction <+: t.fraction ∧ u.offset = 0)

instance : Decidable (Clash t u) := inferInstanceAs (Decidable (_ ∧ _))

variable (t u) in
/-- The order of the texts: what the clocks show, turned round where they clash, and then the zone. -/
def ReadsBefore : Prop :=
  if Clash t u then u.shown < t.shown
  else t.shown < u.shown ∨ t.shown = u.shown ∧ t.zoneRank ≤ u.zoneRank

instance : Decidable (ReadsBefore t u) := by
  unfold ReadsBefore
  infer_instance

/-- **The order of the texts.** -/
theorem text_le_iff : t.text ≤ u.text ↔ ReadsBefore t u := by
  have hnano := t.nano_lt
  have hnano' := u.nano_lt
  rw [text_le_iff_second, ReadsBefore, shown, shown]
  by_cases hsecond : t.second = u.second
  · obtain h | h | h := lt_trichotomy t.nano u.nano
    · have hlt := tail_lt h
      split_ifs at hlt with hbegins
      · rw [if_pos ⟨hsecond, .inl ⟨h, hbegins⟩⟩]
        exact iff_of_false (by simp [hsecond, List.not_le.mpr hlt]) (by omega)
      · rw [if_neg fun hclash => hclash.2.elim (fun hc => hbegins hc.2) fun hc => by omega]
        exact iff_of_true (.inr ⟨hsecond, List.le_of_lt hlt⟩) (by omega)
    · rw [if_neg fun hclash => hclash.2.elim (fun hc => by omega) fun hc => by omega,
        tail_le_iff_of_nano_eq h]
      simp [hsecond, h]
    · have hlt := tail_lt h
      split_ifs at hlt with hbegins
      · rw [if_pos ⟨hsecond, .inr ⟨h, hbegins⟩⟩]
        exact iff_of_true (.inr ⟨hsecond, List.le_of_lt hlt⟩) (by omega)
      · rw [if_neg fun hclash => hclash.2.elim (fun hc => by omega) fun hc => hbegins hc.2]
        exact iff_of_false (by simp [hsecond, List.not_le.mpr hlt]) (by omega)
  · rw [if_neg fun hclash => hsecond hclash.1]
    omega

variable (t u) in
/-- Where the order of the texts is that of the instants. With one offset it is, unless the clocks
clash. -/
def InOrder : Prop :=
  if t.offset = u.offset then ¬Clash t u else (ReadsBefore t u ↔ t.instant ≤ u.instant)

instance : Decidable (InOrder t u) := by
  unfold InOrder
  infer_instance

/-- With one offset, instants are in the order of what the clocks show. -/
theorem instant_le_iff (h : t.offset = u.offset) : t.instant ≤ u.instant ↔ t.shown ≤ u.shown := by
  have hsecond := t.second_eq
  have hsecond' := u.second_eq
  have hnano := t.nano_eq
  have hnano' := u.nano_eq
  rw [shown, shown]
  omega

/-- **The texts of two times are in the order of their instants exactly if they are in order.** -/
theorem inOrder_iff : InOrder t u ↔ (t.text ≤ u.text ↔ t.instant ≤ u.instant) := by
  rw [InOrder, text_le_iff]
  split_ifs with hoffset
  · have hrank : t.zoneRank = u.zoneRank := by rw [zoneRank, zoneRank, minutes, minutes, hoffset]
    rw [instant_le_iff hoffset, ReadsBefore, hrank]
    split_ifs with hclash
    · exact iff_of_false (not_not.mpr hclash) (by omega)
    · exact iff_of_true hclash (by omega)
  · rfl

end Stamp

end Go

end Xsiam

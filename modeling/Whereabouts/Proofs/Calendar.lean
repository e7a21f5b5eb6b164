import Mathlib.Algebra.BigOperators.Intervals
import Mathlib.Algebra.Order.BigOperators.Group.Finset
import Mathlib.Tactic.IntervalCases
import Whereabouts.Calendar

/-! Days of the calendar, counted from its first one by the lengths of the years and months before
them. A date is determined by its number, and the one that is computed for a day has the number of
that day. -/
namespace Whereabouts

namespace Calendar

/-- The sizes of all boxes from the first one to the one before `i`. -/
def sizeBefore (first : Nat) (size : Nat → Nat) (i : Nat) : Nat := ∑ k ∈ Finset.Ico first i, size k

section Boxes

variable {first : Nat} {size : Nat → Nat}

lemma sizeBefore_succ {i : Nat} (hi : first ≤ i) :
    sizeBefore first size (i + 1) = sizeBefore first size i + size i :=
  Finset.sum_Ico_succ_top hi size

lemma sizeBefore_mono : Monotone (sizeBefore first size) := fun _ _ h =>
  Finset.sum_le_sum_of_subset (Finset.Ico_subset_Ico_right h)

/-- A place in a box lies before all boxes that come later, and before no others. -/
lemma place_le_sizeBefore_iff {i x : Nat} (hi : first ≤ i) (hpos : 1 ≤ x) (hle : x ≤ size i)
    (n : Nat) : sizeBefore first size i + x ≤ sizeBefore first size n ↔ i < n := by
  constructor
  · intro h
    by_contra hn
    have hmono : sizeBefore first size n ≤ sizeBefore first size i :=
      sizeBefore_mono (Nat.le_of_not_lt hn)
    omega
  · intro h
    have hmono : sizeBefore first size (i + 1) ≤ sizeBefore first size n := sizeBefore_mono h
    rw [sizeBefore_succ hi] at hmono
    omega

/-- Places that are numbered through all boxes are the same if their numbers are. -/
lemma place_unique {i j x y : Nat} (hi : first ≤ i) (hj : first ≤ j)
    (hx : 1 ≤ x ∧ x ≤ size i) (hy : 1 ≤ y ∧ y ≤ size j)
    (h : sizeBefore first size i + x = sizeBefore first size j + y) : i = j ∧ x = y := by
  have hlt (n : Nat) : i < n ↔ j < n := by
    rw [← place_le_sizeBefore_iff hi hx.1 hx.2, h, place_le_sizeBefore_iff hj hy.1 hy.2]
  have hij : i = j := by
    have hi' := hlt (i + 1)
    have hj' := hlt (j + 1)
    omega
  subst hij
  exact ⟨rfl, Nat.add_left_cancel h⟩

end Boxes

def daysInYear (year : Nat) : Nat := if isLeap year then 366 else 365

def daysBeforeYear : Nat → Nat := sizeBefore 0 daysInYear

def daysBeforeMonth (year : Nat) : Nat → Nat := sizeBefore 1 (daysInMonth year)

lemma isLeap_iff (year : Nat) : isLeap year = true ↔ 4 ∣ year ∧ (¬ 100 ∣ year ∨ 400 ∣ year) := by
  simp [isLeap, Nat.dvd_iff_mod_eq_zero]

lemma daysInMonth_le (year month : Nat) : daysInMonth year month ≤ 31 := by
  unfold daysInMonth
  split <;> (try split) <;> decide

lemma daysInYear_eq (year : Nat) : daysInYear year = 31 + daysInMonth year 2 + 306 := by
  rw [daysInYear, daysInMonth]
  split <;> rfl

lemma daysBeforeMonth_eq {year month : Nat} (hpos : 1 ≤ month) (hle : month ≤ 13) :
    daysBeforeMonth year month =
      if month ≤ 2 then 31 * (month - 1)
      else (153 * (month - 3) + 2) / 5 + 31 + daysInMonth year 2 := by
  unfold daysBeforeMonth sizeBefore
  interval_cases month <;> simp [Finset.sum_Ico_succ_top, daysInMonth] <;> omega

end Calendar

open Calendar

namespace Date

/-- The date is one of the calendar. -/
structure InCalendar (d : Date) : Prop where
  month : 1 ≤ d.month ∧ d.month ≤ 12
  day : 1 ≤ d.day ∧ d.day ≤ daysInMonth d.year d.month

/-- The number of a date, one for 1 January of the year 0. -/
def ordinal (d : Date) : Nat := daysBeforeYear d.year + (daysBeforeMonth d.year d.month + d.day)

/-- The day on which the time of Unix begins. -/
def epoch : Date := ⟨1970, 1, 1⟩

namespace InCalendar

variable {d e : Date}

lemma dayOfYear (h : d.InCalendar) :
    1 ≤ daysBeforeMonth d.year d.month + d.day ∧
      daysBeforeMonth d.year d.month + d.day ≤ daysInYear d.year := by
  have hyear : daysBeforeMonth d.year 13 = daysInYear d.year := by
    rw [daysBeforeMonth_eq (by decide) le_rfl, if_neg (by decide), daysInYear_eq]
    omega
  have hle : daysBeforeMonth d.year d.month + d.day ≤ daysBeforeMonth d.year 13 :=
    (place_le_sizeBefore_iff h.month.1 h.day.1 h.day.2 13).mpr (Nat.lt_succ_of_le h.month.2)
  exact ⟨le_add_left h.day.1, hyear ▸ hle⟩

lemma ordinal_le_iff (h : d.InCalendar) (year : Nat) :
    d.ordinal ≤ daysBeforeYear year ↔ d.year < year :=
  place_le_sizeBefore_iff (Nat.zero_le _) h.dayOfYear.1 h.dayOfYear.2 year

/-- No two dates have the same number. -/
theorem eq_of_ordinal_eq (hd : d.InCalendar) (he : e.InCalendar) (h : d.ordinal = e.ordinal) :
    d = e := by
  obtain ⟨hyear, hdays⟩ := place_unique (Nat.zero_le _) (Nat.zero_le _) hd.dayOfYear he.dayOfYear h
  rw [hyear] at hdays
  obtain ⟨hmonth, hday⟩ := place_unique hd.month.1 he.month.1 (hyear ▸ hd.day) he.day hdays
  cases d
  cases e
  simp_all

end InCalendar
end Date

namespace Calendar

/-- Days before the year that begins on 1 March of `year`, counted from 1 March of the year 0. -/
def daysBeforeMarch (year : Nat) : Nat := 365 * year + year / 4 - year / 100 + year / 400

/-- A day in the year that begins on 1 March of `year`. -/
def ofMarch (year fromMarch day : Nat) : Date :=
  let month := if fromMarch < 10 then fromMarch + 3 else fromMarch - 9
  ⟨year + (if month ≤ 2 then 1 else 0), month, day⟩

lemma daysBeforeMarch_succ (year : Nat) :
    daysBeforeMarch (year + 1) = daysBeforeMarch year + daysInYear (year + 1) := by
  have h100 : 100 ∣ year + 1 → 4 ∣ year + 1 := dvd_trans (by decide)
  have h400 : 400 ∣ year + 1 → 100 ∣ year + 1 := dvd_trans (by decide)
  have hle : year / 100 ≤ year / 4 := Nat.div_le_div_left (by decide) (by decide)
  -- Each quotient grows by one where the year is its multiple.
  simp only [daysBeforeMarch, daysInYear, isLeap_iff, Nat.succ_div]
  generalize year / 4 = a at hle ⊢
  generalize year / 100 = b at hle ⊢
  generalize year / 400 = c
  by_cases h4 : 4 ∣ year + 1 <;> by_cases hb : 100 ∣ year + 1 <;> by_cases hc : 400 ∣ year + 1 <;>
    simp_all <;> omega

/-- From 1 March on there are 306 days in every year, and 60 before it in the year 0. -/
lemma daysBeforeYear_succ (year : Nat) :
    daysBeforeYear (year + 1) = daysBeforeMarch year + 366 := by
  induction year with
  | zero => rfl
  | succ y ih =>
    have hyear : daysBeforeYear (y + 1 + 1) = daysBeforeYear (y + 1) + daysInYear (y + 1) :=
      sizeBefore_succ (Nat.zero_le _)
    rw [hyear, ih, daysBeforeMarch_succ]
    omega

lemma daysBeforeYear_add_february (year : Nat) :
    daysBeforeYear year + 31 + daysInMonth year 2 = daysBeforeMarch year + 60 := by
  have hsucc := daysBeforeYear_succ year
  have hyear : daysBeforeYear (year + 1) = daysBeforeYear year + daysInYear year :=
    sizeBefore_succ (Nat.zero_le _)
  rw [hyear, daysInYear_eq] at hsucc
  omega

lemma ordinal_ofMarch {fromMarch : Nat} (hm : fromMarch < 12) (year day : Nat) :
    (ofMarch year fromMarch day).ordinal =
      daysBeforeMarch year + 60 + (153 * fromMarch + 2) / 5 + day := by
  unfold ofMarch Date.ordinal
  by_cases h : fromMarch < 10
  · have hmarch := daysBeforeYear_add_february year
    have hlate : ¬ fromMarch + 3 ≤ 2 := by omega
    simp only [if_pos h, if_neg hlate, add_zero]
    rw [daysBeforeMonth_eq (by omega) (by omega), if_neg hlate, Nat.add_sub_cancel]
    omega
  · have hearly : fromMarch - 9 ≤ 2 := by omega
    simp only [if_neg h, if_pos hearly]
    rw [daysBeforeYear_succ, daysBeforeMonth_eq (by omega) (by omega), if_pos hearly]
    omega

/-- The first 365 days of such a year are in the calendar, and a last one if it ends in a leap
year. -/
lemma inCalendar_ofMarch {year ofYear : Nat} (hd : ofYear ≤ 365)
    (hleap : ofYear = 365 → isLeap (year + 1) = true) :
    let fromMarch := (5 * ofYear + 2) / 153
    (ofMarch year fromMarch (ofYear - (153 * fromMarch + 2) / 5 + 1)).InCalendar := by
  intro fromMarch
  have hm : fromMarch < 12 := by omega
  have hlow : 153 * fromMarch ≤ 5 * ofYear + 2 := Nat.mul_div_le _ _
  have hhigh : 5 * ofYear + 2 < 153 * (fromMarch + 1) := Nat.lt_mul_div_succ _ (by decide)
  clear_value fromMarch
  constructor
  · simp only [ofMarch]
    split <;> omega
  · interval_cases fromMarch
    case «11» =>
      have hfebruary : ofYear - 337 + 1 ≤ if isLeap (year + 1) then 29 else 28 := by
        split
        case isTrue => omega
        case isFalse h =>
          have hne : ofYear ≠ 365 := fun h365 => h (hleap h365)
          omega
      exact ⟨Nat.le_add_left _ _, hfebruary⟩
    all_goals
      simp only [ofMarch, daysInMonth]
      simp only [Nat.reduceLT, Nat.reduceAdd, Nat.reduceSub, if_true, if_false]
      omega

/-- A day of an era: its century, the four years in that, one of these, and the day since 1 March.
Only a fourth year has a 366th day, and one that ends a century only at the end of the era. -/
structure EraDay (n : Nat) where
  century : Nat
  four : Nat
  year : Nat
  day : Nat
  century_lt : century < 4
  four_lt : four < 25
  year_lt : year < 4
  day_le : day ≤ 365
  eq : n = 36524 * century + 1461 * four + 365 * year + day
  last : day = 365 → year = 3 ∧ (four = 24 → century = 3)

namespace EraDay

variable {n : Nat}

lemma nonempty (h : n < eraDays) : Nonempty (EraDay n) := by
  unfold eraDays at h
  let century := min (n / 36524) 3
  let four := (n - 36524 * century) / 1461
  let ofFour := (n - 36524 * century) % 1461
  let year := min (ofFour / 365) 3
  have hcentury : century < 4 := by omega
  have hfour : four < 25 := by omega
  have hyear : year < 4 := by omega
  have hday : ofFour - 365 * year ≤ 365 := by omega
  exact ⟨century, four, year, ofFour - 365 * year, hcentury, hfour, hyear, hday, by omega,
    by omega⟩

def yearOfEra (p : EraDay n) : Nat := 100 * p.century + 4 * p.four + p.year

/-- Without the leap days up to a day, each of its years has 365 days. -/
lemma yearOfEra_eq (p : EraDay n) :
    (n - n / 1460 + n / 36524 - n / 146096) / 365 = p.yearOfEra := by
  obtain ⟨c, k, j, d, hc, hk, hj, hd, hn, hlast⟩ := p
  unfold yearOfEra
  simp only
  by_cases hend : n = 146096
  · obtain rfl : c = 3 := by omega
    obtain rfl : k = 24 := by omega
    obtain rfl : j = 3 := by omega
    rw [hend]
  · have hera : n / 146096 = 0 := by omega
    have hcentury : n / 36524 = c := by omega
    have hfour : n / 1460 = 25 * c + k + (24 * c + k + 365 * j + d) / 1460 := by omega
    -- A leap day that is counted too early is taken from a year with days to spare.
    have hrest : (24 * c + k + 365 * j + d) / 1460 = 0 ∧ d < 365 ∨
        (24 * c + k + 365 * j + d) / 1460 = 1 ∧ 1 ≤ d := by omega
    rw [hera, hcentury, hfour]
    obtain ⟨hzero, hlt⟩ | ⟨hone, hpos⟩ := hrest
    · rw [hzero]
      omega
    · rw [hone]
      omega

lemma daysBefore_add_day (p : EraDay n) :
    365 * p.yearOfEra + p.yearOfEra / 4 - p.yearOfEra / 100 + p.day = n := by
  obtain ⟨c, k, j, d, hc, hk, hj, hd, hn, -⟩ := p
  unfold yearOfEra
  have h4 : (100 * c + 4 * k + j) / 4 = 25 * c + k := by omega
  have h100 : (100 * c + 4 * k + j) / 100 = c := by omega
  simp only [h4, h100]
  omega

lemma yearOfEra_lt (p : EraDay n) : p.yearOfEra < 400 := by
  have hcentury := p.century_lt
  have hfour := p.four_lt
  have hyear := p.year_lt
  unfold yearOfEra
  omega

lemma isLeap_of_last (p : EraDay n) (h : p.day = 365) (era : Nat) :
    isLeap (era * 400 + p.yearOfEra + 1) = true := by
  obtain ⟨hyear, hcentury⟩ := p.last h
  have hfour := p.four_lt
  rw [isLeap_iff, yearOfEra]
  omega

end EraDay

lemma daysBeforeMarch_add_era (era year : Nat) :
    daysBeforeMarch (era * 400 + year) = eraDays * era + daysBeforeMarch year := by
  have h4 : (era * 400 + year) / 4 = 100 * era + year / 4 := by omega
  have h100 : (era * 400 + year) / 100 = 4 * era + year / 100 := by omega
  have h400 : (era * 400 + year) / 400 = era + year / 400 := by omega
  have hle : year / 100 ≤ year / 4 := Nat.div_le_div_left (by decide) (by decide)
  rw [daysBeforeMarch, daysBeforeMarch, h4, h100, h400, eraDays]
  generalize year / 4 = a at hle ⊢
  generalize year / 100 = b at hle ⊢
  omega

/-- The day as one of a year from March. -/
lemma date_eq_ofMarch (n : Nat) : ∃ year ofYear, ofYear ≤ 365 ∧
    (ofYear = 365 → isLeap (year + 1) = true) ∧
    n + epochOffset = daysBeforeMarch year + ofYear ∧
    date n = ofMarch year ((5 * ofYear + 2) / 153)
      (ofYear - (153 * ((5 * ofYear + 2) / 153) + 2) / 5 + 1) := by
  obtain ⟨p⟩ := EraDay.nonempty (Nat.mod_lt (n + epochOffset) (by decide : 0 < eraDays))
  have hdays := p.daysBefore_add_day
  refine ⟨(n + epochOffset) / eraDays * 400 + p.yearOfEra, p.day, p.day_le,
    fun h => p.isLeap_of_last h _, ?_, ?_⟩
  · have hmarch : daysBeforeMarch p.yearOfEra + p.day = (n + epochOffset) % eraDays := by
      rw [daysBeforeMarch, Nat.div_eq_of_lt p.yearOfEra_lt, Nat.add_zero, hdays]
    rw [daysBeforeMarch_add_era, Nat.add_assoc, hmarch, Nat.div_add_mod]
  · have hofYear : (n + epochOffset) % eraDays -
        (365 * p.yearOfEra + p.yearOfEra / 4 - p.yearOfEra / 100) = p.day :=
      Nat.sub_eq_of_eq_add' hdays.symm
    unfold date
    simp only [p.yearOfEra_eq, hofYear]
    rfl

theorem inCalendar_date (n : Nat) : (date n).InCalendar := by
  obtain ⟨year, ofYear, hd, hleap, -, hdate⟩ := date_eq_ofMarch n
  rw [hdate]
  exact inCalendar_ofMarch hd hleap

lemma ordinal_epoch : Date.epoch.ordinal = 719529 := by
  unfold Date.ordinal Date.epoch
  rw [daysBeforeYear_succ, daysBeforeMonth_eq (by decide) (by decide)]
  rfl

/-- The date of a day has the number of the day. -/
theorem ordinal_date (n : Nat) : (date n).ordinal = Date.epoch.ordinal + n := by
  obtain ⟨year, ofYear, hd, -, hn, hdate⟩ := date_eq_ofMarch n
  unfold epochOffset at hn
  rw [hdate, ordinal_ofMarch (by omega), ordinal_epoch]
  omega

end Calendar

/-- A second of a day. -/
structure Stamp where
  date : Date
  hour : Nat
  minute : Nat
  second : Nat
  deriving Repr, DecidableEq

namespace Stamp

structure InCalendar (s : Stamp) : Prop where
  date : s.date.InCalendar
  hour : s.hour < 24
  minute : s.minute < 60
  second : s.second < 60

/-- Seconds since the epoch, negative before it. -/
def seconds (s : Stamp) : Int :=
  86400 * (s.date.ordinal - Date.epoch.ordinal) + 3600 * s.hour + 60 * s.minute + s.second

/-- The stamp of a second after the epoch. -/
def ofSeconds (n : Nat) : Stamp :=
  ⟨Calendar.date (n / 86400), n / 3600 % 24, n / 60 % 60, n % 60⟩

lemma inCalendar_ofSeconds (n : Nat) : (ofSeconds n).InCalendar where
  date := inCalendar_date _
  hour := Nat.mod_lt _ (by decide)
  minute := Nat.mod_lt _ (by decide)
  second := Nat.mod_lt _ (by decide)

lemma seconds_ofSeconds (n : Nat) : (ofSeconds n).seconds = n := by
  simp only [seconds, ofSeconds, ordinal_date]
  omega

namespace InCalendar

variable {s t : Stamp}

/-- No two stamps are the same second. -/
theorem eq_of_seconds_eq (hs : s.InCalendar) (ht : t.InCalendar) (h : s.seconds = t.seconds) :
    s = t := by
  obtain ⟨d, hour, minute, second⟩ := s
  obtain ⟨d', hour', minute', second'⟩ := t
  obtain ⟨hd, hhour, hminute, hsecond⟩ := hs
  obtain ⟨hd', hhour', hminute', hsecond'⟩ := ht
  simp only [seconds] at *
  obtain rfl : d = d' := hd.eq_of_ordinal_eq hd' (by omega)
  obtain rfl : hour = hour' := by omega
  obtain rfl : minute = minute' := by omega
  obtain rfl : second = second' := by omega
  rfl

/-- The instants that are not shown are those after the year 262142. -/
theorem limit_le_iff (hs : s.InCalendar) {t : Timestamp} (h : s.seconds = (t / 1000 : Nat)) :
    limit ≤ t ↔ 262142 < s.date.year := by
  have hyear := hs.date.ordinal_le_iff (262142 + 1)
  have hhour := hs.hour
  have hminute := hs.minute
  have hsecond := hs.second
  rw [daysBeforeYear_succ, show daysBeforeMarch 262142 = 95745399 from rfl] at hyear
  unfold seconds at h
  rw [ordinal_epoch] at h
  change (8210266876800000 : Nat) ≤ t ↔ _
  omega

end InCalendar
end Stamp
end Whereabouts

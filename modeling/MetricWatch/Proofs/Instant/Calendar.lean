import Mathlib.Tactic.IntervalCases
import Mathlib.Tactic.SplitIfs
import MetricWatch.Instant

namespace MetricWatch

/-- A day of an era of 400 years that begin in March: four centuries of 25 groups of four years, of
which the last ones are longer. The 366th day of a year is the 29th of February of the next calendar
year. -/
structure EraDay where
  era : Int
  century : Nat
  group : Nat
  year : Nat
  day : Nat
  century_lt : century < 4
  group_lt : group < 25
  year_lt : year < 4
  day_lt : day < 366
  leap : day = 365 → year = 3 ∧ (group ≠ 24 ∨ century = 3)

namespace EraDay

def yearOfEra (e : EraDay) : Nat := 100 * e.century + 4 * e.group + e.year

def dayOfEra (e : EraDay) : Nat := 36524 * e.century + 1461 * e.group + 365 * e.year + e.day

def days (e : EraDay) : Int := e.era * 146097 + e.dayOfEra - 719468

/-- Months since March. -/
def month (e : EraDay) : Nat := (5 * e.day + 2) / 153

def date (e : EraDay) : Date where
  year := e.era * 400 + e.yearOfEra + if e.month < 10 then 0 else 1
  month := if e.month < 10 then e.month + 3 else e.month - 9
  day := e.day - (153 * e.month + 2) / 5 + 1

theorem yearOfEra_lt (e : EraDay) : e.yearOfEra < 400 := by
  obtain ⟨hc, hg, hy⟩ := (⟨e.century_lt, e.group_lt, e.year_lt⟩ : _ ∧ _ ∧ _)
  unfold yearOfEra
  omega

theorem dayOfEra_lt (e : EraDay) : e.dayOfEra < 146097 := by
  have hc := e.century_lt
  have hg := e.group_lt
  have hy := e.year_lt
  have hd := e.day_lt
  have hl := e.leap
  unfold dayOfEra
  omega

theorem exists_days_eq (days : Int) : ∃ e : EraDay, e.days = days := by
  obtain ⟨n, hn⟩ : ∃ n, n = ((days + 719468) % 146097).toNat := ⟨_, rfl⟩
  obtain ⟨c, m, hc, hm, hcm⟩ : ∃ c m, c < 4 ∧ (m < 36524 ∨ m = 36524 ∧ c = 3) ∧
      n = 36524 * c + m := ⟨min (n / 36524) 3, n - 36524 * min (n / 36524) 3, by omega⟩
  obtain ⟨g, k, hg, hk, hgk⟩ : ∃ g k, g < 25 ∧ k < 1461 ∧ m = 1461 * g + k :=
    ⟨m / 1461, m % 1461, by omega⟩
  obtain ⟨y, d, hy, hd, hyd⟩ : ∃ y d, y < 4 ∧ (d < 365 ∨ d = 365 ∧ y = 3) ∧ k = 365 * y + d :=
    ⟨min (k / 365) 3, k - 365 * min (k / 365) 3, by omega⟩
  refine ⟨⟨(days + 719468) / 146097, c, g, y, d, hc, hg, hy, by omega, by omega⟩, ?_⟩
  unfold EraDay.days dayOfEra
  dsimp only
  omega

theorem yearOfEra_eq (e : EraDay) :
    (e.dayOfEra - e.dayOfEra / 1460 + e.dayOfEra / 36524 - e.dayOfEra / 146096) / 365 =
      e.yearOfEra := by
  obtain ⟨era, c, g, y, d, hc, hg, hy, hd, hleap⟩ := e
  unfold dayOfEra yearOfEra
  dsimp only
  obtain ⟨n, hn⟩ : ∃ n, n = 36524 * c + 1461 * g + 365 * y + d := ⟨_, rfl⟩
  rw [← hn]
  by_cases hlast : 1461 * g + (365 * y + d) < 36524
  · have hcenturies : n / 36524 = c := by omega
    have heras : n / 146096 = 0 := by omega
    obtain ⟨k, hk, hgroups⟩ : ∃ k, k = (24 * c + g + 365 * y + d) / 1460 ∧
        n / 1460 = 25 * c + g + k := ⟨_, rfl, by omega⟩
    rw [hcenturies, heras, hgroups]
    omega
  · have hend : n = 146096 := by omega
    rw [hend]
    omega

theorem toNat_emod_days (e : EraDay) : ((e.days + 719468) % 146097).toNat = e.dayOfEra := by
  have hday := e.dayOfEra_lt
  unfold days
  omega

theorem days_ediv (e : EraDay) : (e.days + 719468) / 146097 = e.era := by
  have hday := e.dayOfEra_lt
  unfold days
  omega

theorem yearStart_eq (e : EraDay) :
    365 * e.yearOfEra + e.yearOfEra / 4 - e.yearOfEra / 100 + e.day = e.dayOfEra := by
  obtain ⟨era, c, g, y, d, hc, hg, hy, hd, hleap⟩ := e
  unfold dayOfEra yearOfEra
  dsimp only
  have hfour : (100 * c + 4 * g + y) / 4 = 25 * c + g := by omega
  have hcentury : (100 * c + 4 * g + y) / 100 = c := by omega
  rw [hfour, hcentury]
  omega

theorem month_lt (e : EraDay) : e.month < 12 := by
  have hday := e.day_lt
  unfold month
  omega

theorem monthStart_le (e : EraDay) : (153 * e.month + 2) / 5 ≤ e.day := by
  unfold month
  omega

theorem lt_monthStart_succ (e : EraDay) : e.day < (153 * (e.month + 1) + 2) / 5 := by
  unfold month
  omega

theorem date_of_lt {e : EraDay} (h : e.month < 10) :
    e.date = ⟨e.era * 400 + e.yearOfEra, e.month + 3, e.day - (153 * e.month + 2) / 5 + 1⟩ := by
  simp [date, h]

theorem date_of_le {e : EraDay} (h : 10 ≤ e.month) :
    e.date = ⟨e.era * 400 + e.yearOfEra + 1, e.month - 9, e.day - (153 * e.month + 2) / 5 + 1⟩ := by
  simp [date, Nat.not_lt.2 h]

theorem ofDays_days (e : EraDay) : Date.ofDays e.days = e.date := by
  have hday : e.dayOfEra - (365 * e.yearOfEra + e.yearOfEra / 4 - e.yearOfEra / 100) = e.day := by
    rw [← e.yearStart_eq]
    omega
  rw [Date.ofDays, toNat_emod_days, days_ediv, yearOfEra_eq, hday, ← month]
  rcases Nat.lt_or_ge e.month 10 with hmonth | hmonth
  · rw [date_of_lt hmonth, if_pos hmonth, if_neg (by omega)]
  · have hlt := e.month_lt
    have hlate : ¬ e.month < 10 := by omega
    have hearly : e.month - 9 ≤ 2 := by omega
    simp only [date_of_le hmonth, if_neg hlate, if_pos hearly]

/-- The last two months of an era year belong to the next calendar year. -/
theorem date_year (e : EraDay) :
    (if e.date.month ≤ 2 then e.date.year - 1 else e.date.year) = e.era * 400 + e.yearOfEra := by
  rcases Nat.lt_or_ge e.month 10 with hmonth | hmonth
  · rw [date_of_lt hmonth, if_neg (by dsimp only; omega)]
  · have hlt := e.month_lt
    rw [date_of_le hmonth, if_pos (by dsimp only; omega)]
    exact Int.add_sub_cancel _ _

theorem date_month (e : EraDay) : (e.date.month + 9) % 12 = e.month := by
  have hlt := e.month_lt
  rw [date]
  dsimp only
  split_ifs
  · omega
  · omega

theorem toDays_date (e : EraDay) : e.date.toDays = e.days := by
  have hle := e.monthStart_le
  have hday : (153 * ((e.date.month + 9) % 12) + 2) / 5 + e.date.day = e.day + 1 := by
    rw [date_month, date]
    dsimp only
    omega
  have hyears := e.yearOfEra_lt
  have hstart := e.yearStart_eq
  rw [Date.toDays, date_year, hday]
  unfold days
  omega

theorem leapYear_of_day_eq {e : EraDay} (h : e.day = 365) :
    Date.leapYear (e.era * 400 + e.yearOfEra + 1) = true := by
  obtain ⟨hyear, hcentury⟩ := e.leap h
  have hc := e.century_lt
  have hg := e.group_lt
  unfold Date.leapYear yearOfEra
  simp only [Bool.and_eq_true, Bool.or_eq_true, decide_eq_true_eq]
  omega

theorem day_le_daysInMonth (e : EraDay) :
    e.date.day ≤ Date.daysInMonth e.date.year e.date.month := by
  have hlt := e.month_lt
  have hle := e.monthStart_le
  have hend := e.lt_monthStart_succ
  have hday := e.day_lt
  rcases Nat.lt_or_ge e.month 10 with hmonth | hmonth
  · rw [date_of_lt hmonth]
    generalize e.month = m at *
    dsimp only
    interval_cases m
    all_goals
      simp [Date.daysInMonth]
      omega
  · rw [date_of_le hmonth]
    rcases Nat.eq_or_lt_of_le (Nat.le_of_lt_succ hlt) with hfebruary | hjanuary
    · rw [hfebruary]
      by_cases hlast : e.day = 365
      · simp [Date.daysInMonth, leapYear_of_day_eq hlast, hlast]
      · have hshort : 28 ≤ Date.daysInMonth (e.era * 400 + e.yearOfEra + 1) (11 - 9) := by
          rw [Date.daysInMonth, if_pos rfl]
          split_ifs
          · exact Nat.le_succ 28
          · exact Nat.le_refl 28
        dsimp only
        omega
    · have hmonth' : e.month = 10 := by omega
      rw [hmonth'] at hend ⊢
      simp [Date.daysInMonth]
      omega

theorem exists_date (e : EraDay) (hfirst : Date.firstYear ≤ e.date.year)
    (hlast : e.date.year ≤ Date.lastYear) : e.date.Exists := by
  have hmonth : 1 ≤ e.date.month ∧ e.date.month ≤ 12 := by
    have hlt := e.month_lt
    rw [date]
    dsimp only
    split_ifs
    · omega
    · omega
  exact ⟨hfirst, hlast, hmonth.1, hmonth.2, Nat.le_add_left 1 _, e.day_le_daysInMonth⟩

theorem year_bounds (e : EraDay) (hfirst : Date.toDays ⟨Date.firstYear, 1, 1⟩ ≤ e.days)
    (hlast : e.days < Date.toDays ⟨Date.lastYear + 1, 1, 1⟩) :
    Date.firstYear ≤ e.date.year ∧ e.date.year ≤ Date.lastYear := by
  have hstart : Date.toDays ⟨Date.firstYear, 1, 1⟩ = -96465292 := by decide
  have hend : Date.toDays ⟨Date.lastYear + 1, 1, 1⟩ = 95026237 := by decide
  have hday := e.day_lt
  have hyear := e.yearOfEra_lt
  have hsum := e.yearStart_eq
  rw [hstart, days] at hfirst
  rw [hend, days] at hlast
  unfold Date.firstYear Date.lastYear
  rcases Nat.lt_or_ge e.month 10 with hmonth | hmonth
  · rw [date_of_lt hmonth]
    unfold month at hmonth
    dsimp only
    constructor
    · omega
    · omega
  · rw [date_of_le hmonth]
    have hwinter : 306 ≤ e.day := by
      unfold month at hmonth
      omega
    have hera : e.era ≤ 655 := by omega
    dsimp only
    constructor
    · omega
    · rcases Int.lt_or_eq_of_le hera with hera | hera
      · omega
      · rw [hera] at hlast ⊢
        omega

end EraDay

namespace Date

theorem toDays_ofDays (days : Int) : (ofDays days).toDays = days := by
  obtain ⟨e, rfl⟩ := EraDay.exists_days_eq days
  rw [e.ofDays_days, e.toDays_date]

theorem exists_ofDays {days : Int} (hfirst : toDays ⟨firstYear, 1, 1⟩ ≤ days)
    (hlast : days < toDays ⟨lastYear + 1, 1, 1⟩) : (ofDays days).Exists := by
  obtain ⟨e, rfl⟩ := EraDay.exists_days_eq days
  rw [e.ofDays_days]
  obtain ⟨hfirst, hlast⟩ := e.year_bounds hfirst hlast
  exact e.exists_date hfirst hlast

end Date

end MetricWatch

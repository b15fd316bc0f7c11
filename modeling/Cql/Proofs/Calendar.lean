import Mathlib.Tactic.IntervalCases
import Cql.Calendar

/-!
# The calendar day of a count

`Date.civilOfDays` is a formula; the calendar is a definition, year by year and month by month.
Both are compared with years that begin in March.  Of these only the leap day at the end is not
regular, so that the day on which one begins is a sum of quotients (`marchStart`) and the days
before a month of it are a quotient too (`marchMonths`).  The formula finds the year and the month
of March that a day lies in (`yearOfEra_spec`, `civilOfDays_march`), and the calendar has as many
days before them (`dayNumber_march`).

Days of the calendar are numbered in their order (`dayNumber_lt`), and the day after has the next
number (`dayNumber_next`); so a number has one day at most, and what has the number of a day is it.

* `civilOfDays_spec`   the formula gives a day of the calendar, and the one that has the number;
* `before_iff`         the order of days is that of their numbers;
* `civil_calendar`     what follows for the days that a word can count.
-/

namespace Cql

/-! ## years -/

theorem leapYear_iff {y : Int} :
    leapYear y = true ↔ y % 4 = 0 ∧ (y % 100 ≠ 0 ∨ y % 400 = 0) := by
  simp [leapYear]

/-- the leap day of a year, if it has one -/
def leapDay (y : Int) : Int := if leapYear y then 1 else 0

/-- days from 1970-01-01 to the first day of a year -/
def yearStart (y : Int) : Int := 365 * y + (y - 1) / 4 - (y - 1) / 100 + (y - 1) / 400 - 719527

theorem leapDay_eq (y : Int) : leapDay y =
    y / 4 - (y - 1) / 4 - (y / 100 - (y - 1) / 100) + (y / 400 - (y - 1) / 400) := by
  unfold leapDay
  split
  · next h =>
    obtain ⟨h4, h100⟩ := leapYear_iff.1 h
    omega
  · next h =>
    rw [leapYear_iff] at h
    omega

theorem leapDay_cases (y : Int) : leapDay y = 0 ∨ leapDay y = 1 := by
  unfold leapDay
  split
  · exact .inr rfl
  · exact .inl rfl

theorem yearStart_succ (y : Int) : yearStart (y + 1) = yearStart y + 365 + leapDay y := by
  rw [leapDay_eq]
  unfold yearStart
  omega

theorem yearStart_mono {a b : Int} (h : a ≤ b) : yearStart a ≤ yearStart b := by
  unfold yearStart
  omega

theorem daysOfYears_eq (y : Int) (n : Nat) : daysOfYears y n = yearStart (y + n) - yearStart y := by
  induction n with
  | zero => simp [daysOfYears]
  | succ n ih =>
    have hlength : (if leapYear (y + n) then 366 else 365) = 365 + leapDay (y + n) := by
      unfold leapDay
      split <;> rfl
    have hnext : y + (n + 1 : Nat) = y + n + 1 := by omega
    rw [daysOfYears, ih, hlength, hnext, yearStart_succ]
    omega

/-! ## months -/

theorem monthLength_pos (y m : Int) : 0 < monthLength y m := by
  unfold monthLength
  split
  · split <;> omega
  · split <;> omega

theorem daysOfMonths_mono (y : Int) {m n : Nat} (h : m ≤ n) :
    daysOfMonths y m ≤ daysOfMonths y n := by
  induction h with
  | refl => exact Int.le_refl _
  | @step n _ ih =>
    have hpos := monthLength_pos y (n + 1 : Nat)
    rw [daysOfMonths]
    omega

theorem daysOfMonths_twelve (y : Int) : daysOfMonths y 12 = 365 + leapDay y := by
  unfold leapDay
  cases h : leapYear y <;> simp [daysOfMonths, monthLength, h]

/-! ## the numbers of days -/

theorem dayNumber_eq (c : CivilDate) : c.dayNumber =
    yearStart c.year + daysOfMonths c.year (c.month - 1).toNat + (c.day - 1) := by
  have hepoch : yearStart 1970 = 0 := rfl
  unfold CivilDate.dayNumber
  split
  · rw [daysOfYears_eq, show (1970 : Int) + (c.year - 1970).toNat = c.year by omega, hepoch]
    omega
  · rw [daysOfYears_eq, show c.year + ((1970 - c.year).toNat : Int) = 1970 by omega, hepoch]
    omega

/-- a day stands within its month -/
theorem dayNumber_month {c : CivilDate} (h : c.Valid) :
    yearStart c.year + daysOfMonths c.year (c.month - 1).toNat ≤ c.dayNumber ∧
      c.dayNumber < yearStart c.year + daysOfMonths c.year c.month.toNat := by
  obtain ⟨hm, -, hd, hle⟩ := h
  have hmonth : c.month.toNat = (c.month - 1).toNat + 1 := by omega
  have hsame : (((c.month - 1).toNat + 1 : Nat) : Int) = c.month := by omega
  rw [dayNumber_eq, hmonth, daysOfMonths, hsame]
  omega

/-- a day stands within its year -/
theorem dayNumber_year {c : CivilDate} (h : c.Valid) :
    yearStart c.year ≤ c.dayNumber ∧ c.dayNumber < yearStart (c.year + 1) := by
  obtain ⟨hfrom, hto⟩ := dayNumber_month h
  have hfirst : 0 ≤ daysOfMonths c.year (c.month - 1).toNat :=
    daysOfMonths_mono c.year (Nat.zero_le _)
  have hlast : daysOfMonths c.year c.month.toNat ≤ daysOfMonths c.year 12 := by
    have hm := h.2.1
    exact daysOfMonths_mono c.year (by omega)
  rw [daysOfMonths_twelve] at hlast
  rw [yearStart_succ]
  omega

theorem dayNumber_lt {a b : CivilDate} (ha : a.Valid) (hb : b.Valid) (h : a.Before b) :
    a.dayNumber < b.dayNumber := by
  rcases h with hyear | ⟨hyear, hmonth | ⟨hmonth, hday⟩⟩
  · calc a.dayNumber < yearStart (a.year + 1) := (dayNumber_year ha).2
      _ ≤ yearStart b.year := yearStart_mono hyear
      _ ≤ b.dayNumber := (dayNumber_year hb).1
  · have hle : daysOfMonths b.year a.month.toNat ≤ daysOfMonths b.year (b.month - 1).toNat :=
      daysOfMonths_mono b.year (by omega)
    have hto := (dayNumber_month ha).2
    have hfrom := (dayNumber_month hb).1
    rw [hyear] at hto
    omega
  · rw [dayNumber_eq, dayNumber_eq, hyear, hmonth]
    omega

theorem before_or_eq (a b : CivilDate) : a.Before b ∨ a = b ∨ b.Before a := by
  obtain ⟨y, m, d⟩ := a
  obtain ⟨y', m', d'⟩ := b
  simp only [CivilDate.Before, CivilDate.mk.injEq]
  omega

/-- the order of days is that of their numbers -/
theorem before_iff {a b : CivilDate} (ha : a.Valid) (hb : b.Valid) :
    a.Before b ↔ a.dayNumber < b.dayNumber := by
  refine ⟨dayNumber_lt ha hb, fun hlt => ?_⟩
  rcases before_or_eq a b with h | rfl | h
  · exact h
  · exact absurd hlt (Int.lt_irrefl _)
  · have hgt := dayNumber_lt hb ha h
    omega

theorem eq_of_dayNumber {a b : CivilDate} (ha : a.Valid) (hb : b.Valid)
    (h : a.dayNumber = b.dayNumber) : a = b := by
  rcases before_or_eq a b with hlt | heq | hgt
  · have hne := dayNumber_lt ha hb hlt
    omega
  · exact heq
  · have hne := dayNumber_lt hb ha hgt
    omega

/-- the day after is a day of the calendar and has the next number -/
theorem dayNumber_next {c : CivilDate} (h : c.Valid) :
    c.next.Valid ∧ c.next.dayNumber = c.dayNumber + 1 := by
  obtain ⟨hm, hm', hd, hd'⟩ := h
  unfold CivilDate.next
  split
  · next hlt =>
    have hd : 1 ≤ c.day + 1 := by omega
    refine ⟨⟨hm, hm', hd, hlt⟩, ?_⟩
    rw [dayNumber_eq, dayNumber_eq]
    show yearStart c.year + daysOfMonths c.year (c.month - 1).toNat + (c.day + 1 - 1) = _
    omega
  · next hlast =>
    -- the last day of its month
    have hday : c.day = monthLength c.year c.month := by omega
    have hmonth : ((c.month - 1).toNat : Int) + 1 = c.month := by omega
    have hsum : daysOfMonths c.year c.month.toNat =
        daysOfMonths c.year (c.month - 1).toNat + c.day := by
      rw [hday, show c.month.toNat = (c.month - 1).toNat + 1 by omega, daysOfMonths]
      congr 2
    split
    · next hlt =>
      have hm : 1 ≤ c.month + 1 := by omega
      refine ⟨⟨hm, hlt, Int.le_refl 1, monthLength_pos _ _⟩, ?_⟩
      rw [dayNumber_eq, dayNumber_eq]
      show yearStart c.year + daysOfMonths c.year (c.month + 1 - 1).toNat + (1 - 1) = _
      rw [show c.month + 1 - 1 = c.month by omega, hsum]
      omega
    · have htwelve : c.month.toNat = 12 := by omega
      have htwo : (1 : Int) ≤ 12 := by decide
      refine ⟨⟨Int.le_refl 1, htwo, Int.le_refl 1, monthLength_pos _ _⟩, ?_⟩
      rw [htwelve, daysOfMonths_twelve] at hsum
      rw [dayNumber_eq, dayNumber_eq]
      show yearStart (c.year + 1) + daysOfMonths (c.year + 1) 0 + (1 - 1) = _
      rw [yearStart_succ, daysOfMonths]
      omega

/-! ## years that begin in March -/

/-- days from 0000-03-01 to the first of March -/
def marchStart (y : Int) : Int := 365 * y + y / 4 - y / 100 + y / 400

/-- days from the first of March to that of a later month of the same year of March -/
def marchMonths (m : Int) : Int := (153 * m + 2) / 5

/-- a day by its year of March, by the months since March, and by the days since its month began -/
def ofMarch (y m d : Int) : CivilDate := if m < 10 then ⟨y, m + 3, d + 1⟩ else ⟨y + 1, m - 9, d + 1⟩

/-- the length of a month of a year of March -/
def marchLength (y m : Int) : Int :=
  if m < 11 then marchMonths (m + 1) - marchMonths m else 28 + leapDay (y + 1)

theorem marchStart_succ (y : Int) : marchStart (y + 1) = marchStart y + 365 + leapDay (y + 1) := by
  rw [leapDay_eq]
  unfold marchStart
  omega

theorem yearStart_eq (y : Int) : yearStart y = marchStart y - 719468 - 59 - leapDay y := by
  rw [leapDay_eq]
  unfold yearStart marchStart
  omega

/-- from March on, five months have 153 days -/
theorem monthLength_march (y : Int) {m : Int} (h : 0 ≤ m) (h' : m < 10) :
    monthLength y (m + 3) = marchMonths (m + 1) - marchMonths m := by
  interval_cases m <;> rfl

theorem daysOfMonths_march (y : Int) {m : Nat} (h : m < 10) :
    daysOfMonths y (m + 2) = 59 + leapDay y + marchMonths m := by
  induction m with
  | zero =>
    unfold leapDay
    cases h : leapYear y <;> simp [daysOfMonths, monthLength, marchMonths, h]
  | succ m ih =>
    have hm : ((m + 1 + 1 + 1 : Nat) : Int) = m + 3 := by omega
    have hm' : ((m + 1 : Nat) : Int) = m + 1 := by omega
    rw [daysOfMonths, ih (by omega), hm, hm', monthLength_march y (by omega) (by omega)]
    omega

theorem monthLength_ofMarch (y : Int) {m d : Int} (h : 0 ≤ m) (h' : m < 12) :
    monthLength (ofMarch y m d).year (ofMarch y m d).month = marchLength y m := by
  unfold ofMarch
  split
  · next hlt =>
    rw [marchLength, if_pos (by omega)]
    exact monthLength_march y h hlt
  · next hge =>
    rcases (by omega : m = 10 ∨ m = 11) with rfl | rfl
    · rfl
    · show (if leapYear (y + 1) then 29 else 28) = 28 + leapDay (y + 1)
      unfold leapDay
      split <;> rfl

theorem valid_ofMarch {y m d : Int} (hm : 0 ≤ m) (hm' : m < 12) (hd : 0 ≤ d)
    (hd' : d < marchLength y m) : (ofMarch y m d).Valid := by
  have hlength := monthLength_ofMarch y (d := d) hm hm'
  unfold CivilDate.Valid
  rw [hlength]
  unfold ofMarch
  split
  · show 1 ≤ m + 3 ∧ m + 3 ≤ 12 ∧ 1 ≤ d + 1 ∧ d + 1 ≤ _
    omega
  · show 1 ≤ m - 9 ∧ m - 9 ≤ 12 ∧ 1 ≤ d + 1 ∧ d + 1 ≤ _
    omega

theorem dayNumber_ofMarch {y m d : Int} (hm : 0 ≤ m) (hm' : m < 12) :
    (ofMarch y m d).dayNumber = marchStart y + marchMonths m + d - 719468 := by
  rw [dayNumber_eq]
  unfold ofMarch
  split
  · next hlt =>
    show yearStart y + daysOfMonths y (m + 3 - 1).toNat + (d + 1 - 1) = _
    have hmonths := daysOfMonths_march y (m := m.toNat) (by omega)
    rw [Int.toNat_of_nonneg hm] at hmonths
    rw [show (m + 3 - 1).toNat = m.toNat + 2 by omega, hmonths, yearStart_eq]
    omega
  · show yearStart (y + 1) + daysOfMonths (y + 1) (m - 9 - 1).toNat + (d + 1 - 1) = _
    rw [yearStart_succ, yearStart_eq]
    rcases (by omega : m = 10 ∨ m = 11) with rfl | rfl
    · have hnone : daysOfMonths (y + 1) (10 - 9 - 1 : Int).toNat = 0 := rfl
      have hmarch : marchMonths 10 = 306 := rfl
      omega
    · have hjanuary : daysOfMonths (y + 1) (11 - 9 - 1 : Int).toNat = 31 := rfl
      have hmarch : marchMonths 11 = 337 := rfl
      omega

/-! ## the formula -/

/-- the year of a day of an era, by its century, its four years in it and its day in these -/
theorem yearOfEra_eq {e c q s : Int} (hc : 0 ≤ c) (hc' : c < 4) (hq : 0 ≤ q) (hs : 0 ≤ s)
    (hs' : s < 1461) (he : e = 36524 * c + (1461 * q + s)) (hlt : 1461 * q + s < 36524) :
    (e - e / 1460 + e / 36524 - e / 146096) / 365 = 100 * c + 4 * q + min 3 (s / 365) := by
  have hera : e / 146096 = 0 := by omega
  have hcentury : e / 36524 = c := by omega
  -- a day that closes four years is one too many for the last of them, and has a quotient too many
  have hquad : e / 1460 = 25 * c + q + (24 * c + q + s) / 1460 := by omega
  rw [hera, hcentury, hquad, he]
  omega

theorem marchStart_eq {c q t : Int} (hc : 0 ≤ c) (hc' : c < 4) (hq : 0 ≤ q) (hq' : q < 25)
    (ht : 0 ≤ t) (ht' : t < 4) :
    marchStart (100 * c + 4 * q + t) = 36524 * c + 1461 * q + 365 * t := by
  unfold marchStart
  omega

theorem leapDay_quad (c : Int) {q : Int} (hq : 0 ≤ q) (hq' : q < 24) :
    leapDay (100 * c + 4 * q + 3 + 1) = 1 :=
  if_pos (leapYear_iff.2 ⟨by omega, .inl (by omega)⟩)

theorem yearOfEra_spec {e : Int} (h : 0 ≤ e) (h' : e < 146097) :
    ∃ y, (e - e / 1460 + e / 36524 - e / 146096) / 365 = y ∧ 0 ≤ y ∧ y < 400 ∧
      marchStart y ≤ e ∧ e < marchStart (y + 1) := by
  by_cases hlast : e = 146096
  · subst hlast
    exact ⟨399, by decide⟩
  obtain ⟨c, q, s, he, hc, hq, hs, hlt⟩ : ∃ c q s, e = 36524 * c + (1461 * q + s) ∧
      (0 ≤ c ∧ c < 4) ∧ (0 ≤ q ∧ q < 25) ∧ (0 ≤ s ∧ s < 1461) ∧ 1461 * q + s < 36524 :=
    ⟨e / 36524, e % 36524 / 1461, e % 36524 % 1461, by omega⟩
  obtain ⟨t, ht⟩ : ∃ t, min 3 (s / 365) = t := ⟨_, rfl⟩
  have hyear := yearOfEra_eq hc.1 hc.2 hq.1 hs.1 hs.2 he hlt
  rw [ht] at hyear
  have hstart := marchStart_eq (t := t) hc.1 hc.2 hq.1 hq.2 (by omega) (by omega)
  refine ⟨_, hyear, by omega, by omega, by omega, ?_⟩
  rw [marchStart_succ, hstart]
  by_cases hday : s = 1460
  · -- the day that closes four years, which is not one that closes a century
    obtain rfl : t = 3 := by omega
    rw [leapDay_quad c hq.1 (by omega)]
    omega
  · have hleap := leapDay_cases (100 * c + 4 * q + t + 1)
    omega

theorem marchStart_era (y k : Int) : marchStart (y + k * 400) = marchStart y + 146097 * k := by
  unfold marchStart
  omega

/-- the formula finds the year of March, the month and the day -/
theorem civilOfDays_march (n : Int) : ∃ y m d, Date.civilOfDays n = ofMarch y m d ∧
    (0 ≤ m ∧ m < 12) ∧ (0 ≤ d ∧ d < marchLength y m) ∧
    marchStart y + marchMonths m + d = n + 719468 := by
  obtain ⟨k, hk⟩ : ∃ k, (n + 719468) / 146097 = k := ⟨_, rfl⟩
  obtain ⟨e, he⟩ : ∃ e, (n + 719468) % 146097 = e := ⟨_, rfl⟩
  obtain ⟨y, hy, hy₀, hy₁, hfrom, hto⟩ := yearOfEra_spec (e := e) (by omega) (by omega)
  have hstart : 365 * y + y / 4 - y / 100 = marchStart y := by
    unfold marchStart
    omega
  -- the days since the year of March began
  obtain ⟨r, hr⟩ : ∃ r, e - marchStart y = r := ⟨_, rfl⟩
  obtain ⟨m, hm⟩ : ∃ m, (5 * r + 2) / 153 = m := ⟨_, rfl⟩
  have hyear : (marchStart y + 146097 * k) + r = n + 719468 := by omega
  have hend : r < 365 + leapDay (y + k * 400 + 1) := by
    have hnext := marchStart_succ (y + k * 400)
    have hera := marchStart_era (y + 1) k
    rw [marchStart_era, show y + k * 400 + 1 = y + 1 + k * 400 by omega, hera] at hnext
    rw [show y + k * 400 + 1 = y + 1 + k * 400 by omega]
    omega
  have hleap := leapDay_cases (y + k * 400 + 1)
  refine ⟨y + k * 400, m, r - marchMonths m, ?_, ⟨by omega, by omega⟩, ⟨?_, ?_⟩, ?_⟩
  · unfold Date.civilOfDays ofMarch marchMonths
    simp only [hk, he, hy, hstart, hr, hm]
    split
    · next hlt =>
      rw [if_neg (by omega)]
      simp
    · next hge =>
      rw [if_pos (by omega)]
  · unfold marchMonths
    omega
  · unfold marchLength marchMonths
    split
    · omega
    · omega
  · rw [marchStart_era]
    omega

/-- the formula gives the day of the calendar that has the number -/
theorem civilOfDays_spec (n : Int) :
    (Date.civilOfDays n).Valid ∧ (Date.civilOfDays n).dayNumber = n := by
  obtain ⟨y, m, d, hcivil, hm, hd, hsum⟩ := civilOfDays_march n
  rw [hcivil]
  refine ⟨valid_ofMarch hm.1 hm.2 hd.1 hd.2, ?_⟩
  rw [dayNumber_ofMarch hm.1 hm.2]
  omega

/-! ## the days that a word can count -/

namespace Date

theorem raw?_eq_some {count : Int} {w : UInt32} : raw? count = some w ↔ (w.toNat : Int) = count := by
  have hw := w.toNat_lt
  unfold raw?
  split
  · next h =>
    have hval : ((UInt32.ofInt count).toNat : Int) = count := by
      rw [UInt32.ofInt, UInt32.toNat_ofNat']
      omega
    rw [Option.some.injEq, ← UInt32.toNat_inj]
    omega
  · next h => exact iff_of_false nofun (by omega)

theorem days?_eq_some {count : Int} {n : Int32} : days? count = some n ↔ n.toInt = count := by
  have hlo := n.le_toInt
  have hhi := n.toInt_lt
  unfold days?
  split
  · next h =>
    have hval : (Int32.ofInt count).toInt = count :=
      Int32.toInt_ofInt_of_le (by omega) (by omega)
    rw [Option.some.injEq, ← Int32.toInt_inj, hval, eq_comm]
  · next h => exact iff_of_false nofun (by omega)

/-- every number of days has a date, so none is put on the last day -/
theorem raw?_ofDays (n : Int32) : raw? (n.toInt + epoch) = some (ofDays n).raw := by
  have hlo := n.le_toInt
  have hhi := n.toInt_lt
  unfold ofDays raw? epoch
  rw [if_pos (by omega)]
  rfl

/-- and every date a number of days -/
theorem days?_days (d : Date) : days? (d.raw.toNat - epoch) = some d.days := by
  have hhi := d.raw.toNat_lt
  unfold days days? epoch
  rw [if_pos (by omega)]
  rfl

theorem toInt_days (d : Date) : d.days.toInt = d.raw.toNat - epoch := days?_eq_some.1 (days?_days d)

theorem toNat_ofDays (n : Int32) : ((ofDays n).raw.toNat : Int) = n.toInt + epoch :=
  raw?_eq_some.1 (raw?_ofDays n)

theorem days_ofDays (n : Int32) : (ofDays n).days = n := by
  rw [← Int32.toInt_inj, toInt_days, toNat_ofDays]
  omega

theorem ofDays_days (d : Date) : ofDays d.days = d := by
  have hraw := toNat_ofDays d.days
  rw [toInt_days] at hraw
  have hcount : (ofDays d.days).raw.toNat = d.raw.toNat := by omega
  exact Date.ext (UInt32.toNat_inj.1 hcount)

theorem days_lt_iff {d e : Date} : d.days < e.days ↔ d.raw < e.raw := by
  rw [Int32.lt_iff_toInt_lt, UInt32.lt_iff_toNat_lt, toInt_days, toInt_days]
  omega

theorem civil_spec (d : Date) : d.civil.Valid ∧ d.civil.dayNumber = d.raw.toNat - epoch := by
  rw [← toInt_days]
  exact civilOfDays_spec d.days.toInt

theorem eq_civil {d : Date} {c : CivilDate} (hvalid : c.Valid)
    (hnumber : c.dayNumber = d.raw.toNat - epoch) : c = d.civil :=
  eq_of_dayNumber hvalid d.civil_spec.1 (hnumber.trans d.civil_spec.2.symm)

theorem civil_before_iff {d e : Date} : d.civil.Before e.civil ↔ d.raw < e.raw := by
  rw [before_iff d.civil_spec.1 e.civil_spec.1, d.civil_spec.2, e.civil_spec.2,
    UInt32.lt_iff_toNat_lt]
  omega

theorem civil_injective : Function.Injective civil := by
  intro d e h
  have hcount : (d.raw.toNat : Int) - epoch = e.raw.toNat - epoch := by
    rw [← d.civil_spec.2, ← e.civil_spec.2, h]
  have hraw : d.raw.toNat = e.raw.toNat := by omega
  exact Date.ext (UInt32.toNat_inj.1 hraw)

theorem civil_next {d e : Date} (h : e.raw.toNat = d.raw.toNat + 1) : e.civil = d.civil.next := by
  obtain ⟨hvalid, hnumber⟩ := dayNumber_next d.civil_spec.1
  refine (eq_civil hvalid ?_).symm
  rw [hnumber, d.civil_spec.2, h]
  omega

end Date

/-- Days since 1970-01-01 and dates are counted by words of the same width: each way of counting
gives back the other, in the same order, and no number of days is out of range.  The calendar day of
a date is a day of the calendar, and no other day of it is as many days after 1970-01-01.  So the
next date is the next day, and later dates are later days. -/
theorem civil_calendar :
    (∀ n : Int32, Date.raw? (n.toInt + Date.epoch) = some (Date.ofDays n).raw ∧
      (Date.ofDays n).days = n) ∧
    (∀ d : Date, Date.days? (d.raw.toNat - Date.epoch) = some d.days ∧ Date.ofDays d.days = d) ∧
    (∀ m n : Int32, (Date.ofDays m).raw < (Date.ofDays n).raw ↔ m < n) ∧
    (∀ d e : Date, d.days < e.days ↔ d.raw < e.raw) ∧
    (∀ d : Date, d.civil.Valid ∧ d.civil.dayNumber = d.raw.toNat - Date.epoch ∧
      ∀ c : CivilDate, c.Valid → c.dayNumber = d.raw.toNat - Date.epoch → c = d.civil) ∧
    (∀ d e : Date, e.raw.toNat = d.raw.toNat + 1 → e.civil = d.civil.next) ∧
    (∀ d e : Date, d.civil.Before e.civil ↔ d.raw < e.raw) ∧
    Function.Injective Date.civil := by
  refine ⟨fun n => ⟨Date.raw?_ofDays n, Date.days_ofDays n⟩,
    fun d => ⟨Date.days?_days d, Date.ofDays_days d⟩, fun m n => ?_, fun d e => Date.days_lt_iff,
    fun d => ⟨d.civil_spec.1, d.civil_spec.2, fun c => Date.eq_civil⟩, fun d e => Date.civil_next,
    fun d e => Date.civil_before_iff, Date.civil_injective⟩
  rw [← Date.days_lt_iff, Date.days_ofDays, Date.days_ofDays]

/-- the ends of February in the years 1900, 0 and -100, and the first day of all -/
theorem civil_calendar_february :
    let day (raw : UInt32) : Date := ⟨raw⟩
    ((day 2147458139).civil = ⟨1900, 2, 28⟩ ∧
      (day 2147458140).raw.toNat = (day 2147458139).raw.toNat + 1 ∧
      (day 2147458140).civil = ⟨1900, 3, 1⟩) ∧
    ((day 2146764179).civil = ⟨0, 2, 29⟩ ∧
      (day 2146764180).raw.toNat = (day 2146764179).raw.toNat + 1 ∧
      (day 2146764180).civil = ⟨0, 3, 1⟩) ∧
    ((day 2146727654).civil = ⟨-100, 2, 28⟩ ∧
      (day 2146727655).raw.toNat = (day 2146727654).raw.toNat + 1 ∧
      (day 2146727655).civil = ⟨-100, 3, 1⟩) ∧
    (CivilDate.mk (-5877641) 6 23).Valid ∧
    (CivilDate.mk (-5877641) 6 23).dayNumber = -2147483648 := by
  intro day
  obtain ⟨-, -, -, -, hday, hnext, -⟩ := civil_calendar
  have hcentury : (day 2147458139).civil = ⟨1900, 2, 28⟩ := by decide
  have hleap : (day 2146764179).civil = ⟨0, 2, 29⟩ := by decide
  have hbelow : (day 2146727654).civil = ⟨-100, 2, 28⟩ := by decide
  have hfirst : (day 0).civil = ⟨-5877641, 6, 23⟩ := by decide
  obtain ⟨hvalid, hnumber, -⟩ := hday (day 0)
  rw [hfirst] at hvalid hnumber
  refine ⟨⟨hcentury, rfl, ?_⟩, ⟨hleap, rfl, ?_⟩, ⟨hbelow, rfl, ?_⟩, hvalid, hnumber⟩
  · rw [hnext (day 2147458139) (day 2147458140) rfl, hcentury]
    decide
  · rw [hnext (day 2146764179) (day 2146764180) rfl, hleap]
    decide
  · rw [hnext (day 2146727654) (day 2146727655) rfl, hbelow]
    decide

end Cql

/-
The calendar, and the date that comes a number of days after the start of 1970.

The calendar is given by its rules: which years are leap years (`isLeap`), how many days a month has (`daysInMonth`),
and from these the days before a month and before a year. `daysBeforeYear` is a closed formula; it is the one function
that is zero at 1970 (`daysBeforeYear_epoch`) and grows by the days of each year (`daysBeforeYear_succ`).

A date is computed the other way round, with years that begin in March, so that the leap day comes last:
`exists_ofMarch` finds the March-based year and the day in it, `ofMarch` is the month and day from there.
- `toDays_ofDays`: the date that comes `n` days after the start of 1970 lies `n` days after it.
- `isValid_ofDays`: it is a date of the calendar.
-/
import Mathlib.Tactic
import LogRelay.Timestamp

namespace LogRelay.Date

/-- a year with a day more: every fourth, but of the hundreds only every fourth -/
def isLeap (y : Int) : Bool := y % 4 = 0 && (y % 100 ≠ 0 || y % 400 = 0)

/-- the days of a month; there are none outside a year -/
def daysInMonth (y : Int) : Nat → Nat
  | 1 | 3 | 5 | 7 | 8 | 10 | 12 => 31
  | 4 | 6 | 9 | 11 => 30
  | 2 => if isLeap y then 29 else 28
  | _ => 0

def daysBeforeMonth (y : Int) (month : Nat) : Nat := ((List.range month).map (daysInMonth y)).sum

/-- the leap days of the years before `y`, counted from the year one -/
def leapDaysBefore (y : Int) : Int := (y - 1) / 4 - (y - 1) / 100 + (y - 1) / 400

def daysBeforeYear (y : Int) : Int := 365 * (y - 1970) + leapDaysBefore y - leapDaysBefore 1970

def toDays (d : Date) : Int := daysBeforeYear d.year + daysBeforeMonth d.year d.month + d.day - 1

/-- a date of the calendar: its month has such a day -/
def IsValid (d : Date) : Prop := 1 ≤ d.day ∧ d.day ≤ daysInMonth d.year d.month

instance (d : Date) : Decidable d.IsValid := by
  unfold IsValid
  infer_instance

theorem IsValid.bounds {d : Date} (h : d.IsValid) : d.month ≤ 12 ∧ d.day ≤ 31 := by
  obtain ⟨hpos, hle⟩ := h
  unfold daysInMonth at hle
  split at hle <;> try split at hle
  all_goals omega

variable (y : Int)

/-! ## Months -/

theorem daysBeforeMonth_succ (m : Nat) : daysBeforeMonth y (m + 1) = daysBeforeMonth y m + daysInMonth y m := by
  rw [daysBeforeMonth, List.range_succ, List.map_append, List.sum_append, List.map_singleton, List.sum_singleton,
    daysBeforeMonth]

theorem daysBeforeMonth_march : daysBeforeMonth y 3 = 59 + if isLeap y then 1 else 0 := by
  simp only [daysBeforeMonth_succ, daysInMonth]
  split <;> rfl

/-- from March on, five months take 153 days -/
theorem add_daysInMonth {mp : Nat} (h : mp ≤ 9) :
    (153 * mp + 2) / 5 + daysInMonth y (mp + 3) = (153 * (mp + 1) + 2) / 5 := by
  interval_cases mp <;> rfl

theorem daysBeforeMonth_add_three {mp : Nat} (h : mp ≤ 10) :
    daysBeforeMonth y (mp + 3) = daysBeforeMonth y 3 + (153 * mp + 2) / 5 := by
  induction mp with
  | zero => rfl
  | succ mp ih =>
    calc daysBeforeMonth y (mp + 3 + 1) = daysBeforeMonth y (mp + 3) + daysInMonth y (mp + 3) :=
        daysBeforeMonth_succ y _
      _ = daysBeforeMonth y 3 + ((153 * mp + 2) / 5 + daysInMonth y (mp + 3)) := by rw [ih (by omega), Nat.add_assoc]
      _ = daysBeforeMonth y 3 + (153 * (mp + 1) + 2) / 5 := by rw [add_daysInMonth y (by omega)]

/-! ## Years -/

theorem leapDaysBefore_succ : leapDaysBefore (y + 1) = leapDaysBefore y + if isLeap y then 1 else 0 := by
  unfold leapDaysBefore isLeap
  simp only [Bool.and_eq_true, Bool.or_eq_true, decide_eq_true_eq]
  split_ifs <;> omega

theorem daysBeforeYear_epoch : daysBeforeYear 1970 = 0 := rfl

/-- a year takes the days of its twelve months -/
theorem daysBeforeYear_succ : daysBeforeYear (y + 1) = daysBeforeYear y + daysBeforeMonth y 13 := by
  have hdays : daysBeforeMonth y 13 = 59 + (if isLeap y then 1 else 0) + 306 := by
    rw [daysBeforeMonth_add_three y (le_refl 10), daysBeforeMonth_march]
  rw [hdays, daysBeforeYear, leapDaysBefore_succ, daysBeforeYear]
  push_cast
  ring

/-- the days from the start of 1970 to the first of March of a year -/
def daysBeforeMarch : Int := 365 * y + y / 4 - y / 100 + y / 400 - epochShift

theorem daysBeforeYear_add_march : daysBeforeYear y + daysBeforeMonth y 3 = daysBeforeMarch y := by
  have hnext : leapDaysBefore (y + 1) = y / 4 - y / 100 + y / 400 := by rw [leapDaysBefore, add_sub_cancel_right]
  have hepoch : leapDaysBefore 1970 = 477 := rfl
  rw [leapDaysBefore_succ] at hnext
  rw [daysBeforeMonth_march, daysBeforeYear, hepoch, daysBeforeMarch, epochShift]
  push_cast
  linarith

/-- ten months after the first of March the next year begins -/
theorem daysBeforeYear_succ_eq : daysBeforeYear (y + 1) = daysBeforeMarch y + 306 := by
  rw [daysBeforeYear_succ, daysBeforeMonth_add_three y (le_refl 10), ← daysBeforeYear_add_march]
  push_cast
  ring

/-! ## Days after the first of March -/

/-- the date that comes `n` days after the first of March of a year -/
def ofMarch (n : Nat) : Date :=
  let mp := (5 * n + 2) / 153
  let month := if mp < 10 then mp + 3 else mp - 9
  ⟨y + (if month ≤ 2 then 1 else 0), month, n - (153 * mp + 2) / 5 + 1⟩

variable {n mp : Nat}

theorem ofMarch_early (hmp : (5 * n + 2) / 153 = mp) (h : mp ≤ 9) :
    ofMarch y n = ⟨y, mp + 3, n - (153 * mp + 2) / 5 + 1⟩ := by
  have hlate : ¬ mp + 3 ≤ 2 := by omega
  simp only [ofMarch, hmp, if_pos (Nat.lt_succ_of_le h), if_neg hlate, add_zero]

theorem ofMarch_late (hmp : (5 * n + 2) / 153 = mp) (h : 9 < mp) (h' : mp ≤ 11) :
    ofMarch y n = ⟨y + 1, mp - 9, n - (153 * mp + 2) / 5 + 1⟩ := by
  have hlate : ¬ mp < 10 := by omega
  have hmonth : mp - 9 ≤ 2 := by omega
  simp only [ofMarch, hmp, if_neg hlate, if_pos hmonth]

theorem toDays_ofMarch (hn : n ≤ 365) : (ofMarch y n).toDays = daysBeforeMarch y + n := by
  obtain ⟨mp, hmp⟩ : ∃ mp, (5 * n + 2) / 153 = mp := ⟨_, rfl⟩
  rcases Nat.lt_or_ge 9 mp with hlate | hearly
  · rw [ofMarch_late y hmp hlate (by omega), toDays]
    simp only [daysBeforeYear_succ_eq]
    obtain rfl | rfl : mp = 10 ∨ mp = 11 := by omega
    · have hjanuary : daysBeforeMonth (y + 1) (10 - 9) = 0 := rfl
      rw [hjanuary]
      omega
    · have hfebruary : daysBeforeMonth (y + 1) (11 - 9) = 31 := rfl
      rw [hfebruary]
      omega
  · rw [ofMarch_early y hmp hearly, toDays, ← daysBeforeYear_add_march]
    simp only [daysBeforeMonth_add_three y (Nat.le_succ_of_le hearly)]
    omega

/-- only a year with a leap day at its end has a day of the number 365 -/
theorem isValid_ofMarch (hn : n ≤ 365) (hleap : n = 365 → isLeap (y + 1) = true) : (ofMarch y n).IsValid := by
  obtain ⟨mp, hmp⟩ : ∃ mp, (5 * n + 2) / 153 = mp := ⟨_, rfl⟩
  refine ⟨Nat.le_add_left 1 _, ?_⟩
  rcases Nat.lt_or_ge 9 mp with hlate | hearly
  · rw [ofMarch_late y hmp hlate (by omega)]
    obtain rfl | rfl : mp = 10 ∨ mp = 11 := by omega
    · change n - 306 + 1 ≤ 31
      omega
    · change n - 337 + 1 ≤ if isLeap (y + 1) then 29 else 28
      split
      · omega
      · next hno =>
        have hne : n ≠ 365 := fun h => hno (hleap h)
        omega
  · have hmonth := add_daysInMonth y hearly
    rw [ofMarch_early y hmp hearly]
    change n - (153 * mp + 2) / 5 + 1 ≤ daysInMonth y (mp + 3)
    omega

/-! ## Eras -/

section

/-- a day of an era, by its century, the four years in the century, the year of these, and the day of the year; the last
day of a year is there only in a leap year -/
structure Cycles (c f y d n : Nat) : Prop where
  century : c ≤ 3
  four : f ≤ 24
  year : y ≤ 3
  day : d ≤ 365
  last : d = 365 → y = 3 ∧ (f = 24 → c = 3)
  sum : n = 36524 * c + 1461 * f + 365 * y + d

theorem exists_cycles (h : n < 146097) : ∃ c f y d, Cycles c f y d n := by
  obtain ⟨c, hc⟩ : ∃ c, c = min (n / 36524) 3 := ⟨_, rfl⟩
  obtain ⟨f, hf⟩ : ∃ f, f = (n - 36524 * c) / 1461 := ⟨_, rfl⟩
  obtain ⟨y, hy⟩ : ∃ y, y = min ((n - 36524 * c - 1461 * f) / 365) 3 := ⟨_, rfl⟩
  refine ⟨c, f, y, n - 36524 * c - 1461 * f - 365 * y, ?_⟩
  constructor <;> omega

variable {c f y d : Nat}

theorem Cycles.century_eq (h : Cycles c f y d n) : n / 36524 = c + n / 146096 := by
  obtain ⟨hc, hf, hy, hd, hlast, hsum⟩ := h
  have hrest : 1461 * f + 365 * y + d < 36524 ∨ n = 146096 ∧ c = 3 := by omega
  rcases hrest with hrest | ⟨rfl, rfl⟩
  · have hnone : n / 146096 = 0 := Nat.div_eq_of_lt (by omega)
    have hcentury : n / 36524 = c := Nat.div_eq_of_lt_le (by omega) (by omega)
    rw [hnone, hcentury, Nat.add_zero]
  · rfl

/-- what is taken off for leap days is right up to a day, and the day of the year makes up for that -/
theorem Cycles.exists_spare (h : Cycles c f y d n) : ∃ e, n / 1460 = 25 * c + f + e ∧ e ≤ d ∧ d - e < 365 := by
  obtain ⟨hc, hf, hy, hd, hlast, hsum⟩ := h
  refine ⟨(24 * c + f + 365 * y + d) / 1460, ?_, ?_, ?_⟩
  · clear hlast
    omega
  · clear hlast hsum
    omega
  · clear hsum
    omega

theorem Cycles.year_eq (h : Cycles c f y d n) :
    (n - n / 1460 + n / 36524 - n / 146096) / 365 = 100 * c + 4 * f + y := by
  obtain ⟨e, hspare, hle, hlt⟩ := h.exists_spare
  have hsum := h.sum
  have hsub : n - (25 * c + f + e) + (c + n / 146096) - n / 146096 = 365 * (100 * c + 4 * f + y) + (d - e) := by omega
  rw [hspare, h.century_eq, hsub, Nat.mul_add_div (by norm_num), Nat.div_eq_of_lt hlt, Nat.add_zero]

theorem Cycles.day_eq (h : Cycles c f y d n) {yoe : Nat} (hyoe : yoe = 100 * c + 4 * f + y) :
    n - (365 * yoe + yoe / 4 - yoe / 100) = d := by
  obtain ⟨hc, hf, hy, hd, -, hsum⟩ := h
  omega

theorem Cycles.daysBeforeMarch_eq (h : Cycles c f y d n) (era : Int) :
    daysBeforeMarch ((100 * c + 4 * f + y : Nat) + era * 400) + d = 146097 * era + n - epochShift := by
  obtain ⟨hc, hf, hy, -, -, hsum⟩ := h
  rw [daysBeforeMarch, hsum]
  omega

theorem Cycles.isLeap (h : Cycles c f y d n) (hlast : d = 365) (era : Int) :
    Date.isLeap ((100 * c + 4 * f + y : Nat) + era * 400 + 1) = true := by
  obtain ⟨rfl, hcentury⟩ := h.last hlast
  have hfour := h.four
  simp only [Date.isLeap, Bool.and_eq_true, Bool.or_eq_true, decide_eq_true_eq]
  omega

end

theorem exists_ofMarch (n : Int) : ∃ (y : Int) (d : Nat), d ≤ 365 ∧ (d = 365 → isLeap (y + 1) = true) ∧
    daysBeforeMarch y + d = n ∧ ofDays n = ofMarch y d := by
  obtain ⟨era, hera⟩ : ∃ era, era = (n + epochShift) / eraDays := ⟨_, rfl⟩
  obtain ⟨doe, hdoe⟩ : ∃ doe, doe = ((n + epochShift) % eraDays).toNat := ⟨_, rfl⟩
  have hsum : n + epochShift = 146097 * era + doe := by
    rw [hera, hdoe, eraDays]
    omega
  have hlt : doe < 146097 := by
    rw [hdoe, eraDays]
    omega
  obtain ⟨c, f, y, d, h⟩ := exists_cycles hlt
  obtain ⟨yoe, hyoe⟩ : ∃ yoe, yoe = 100 * c + 4 * f + y := ⟨_, rfl⟩
  have hday := h.day_eq hyoe
  refine ⟨yoe + era * 400, d, h.day, ?_, ?_, ?_⟩
  · intro hlast
    rw [hyoe]
    exact h.isLeap hlast era
  · rw [hyoe, h.daysBeforeMarch_eq, ← hsum, add_sub_cancel_right]
  · rw [ofDays, ofMarch, ← hera, ← hdoe]
    simp only [h.year_eq, ← hyoe, hday]

/-! ## Main results -/

/-- **Dates are counted right.** The date that comes `n` days after the start of 1970 lies `n` days after it. -/
theorem toDays_ofDays (n : Int) : (ofDays n).toDays = n := by
  obtain ⟨y, d, hd, -, hsum, hdate⟩ := exists_ofMarch n
  rw [hdate, toDays_ofMarch y hd, hsum]

theorem isValid_ofDays (n : Int) : (ofDays n).IsValid := by
  obtain ⟨y, d, hd, hleap, -, hdate⟩ := exists_ofMarch n
  rw [hdate]
  exact isValid_ofMarch y hd hleap

end LogRelay.Date

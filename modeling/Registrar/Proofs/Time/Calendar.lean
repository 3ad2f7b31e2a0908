import Mathlib
import Registrar.Time.Calendar

/-!
# Dates and the numbers of their days

Every day has a date that the calendar has, and the number of that date is the number of the day.
For this a day is taken apart by centuries, by groups of four years, by years and by days. The leap
day of a group comes last in it, and the leap day that a century may have comes last in the century,
so each part is found by a division that is only wrong on such a last day.
-/

namespace Registrar.Time

/-! ## The parts of a cycle -/

/-- Whether the day `c` of a cycle of 400 years lies `century` centuries, `group` groups of four
years, `year` years and `day` days after the start. -/
structure InCycle (c century group year day : Nat) : Prop where
  century_lt : century < 4
  group_lt : group < 25
  year_lt : year < 4
  day_le : day ≤ 365
  total : c = 36524 * century + 1461 * group + 365 * year + day
  /-- A year has a leap day only if it is the last of its group; the last group of a century has
  none, but for the last century. -/
  leapDay : day = 365 → year = 3 ∧ (group = 24 → century = 3)

namespace InCycle

variable {c century group year day : Nat}

theorem exists_of_lt (h : c < 146097) :
    ∃ century group year day, InCycle c century group year day := by
  obtain ⟨century, rest, hcentury, hrest, htotal, hlast⟩ : ∃ century rest, century < 4 ∧
      rest ≤ 36524 ∧ c = 36524 * century + rest ∧ (rest = 36524 → century = 3) := by
    refine ⟨min (c / 36524) 3, c - 36524 * min (c / 36524) 3, ?_, ?_, ?_, ?_⟩ <;> omega
  obtain ⟨group, rest', hgroup, hrest', htotal', hlast'⟩ : ∃ group rest', group < 25 ∧
      rest' ≤ 1460 ∧ rest = 1461 * group + rest' ∧
        (rest' = 1460 → group = 24 → rest = 36524) := by
    refine ⟨rest / 1461, rest % 1461, ?_, ?_, ?_, ?_⟩ <;> omega
  obtain ⟨year, day, hyear, hday, htotal'', hlast''⟩ : ∃ year day, year < 4 ∧ day ≤ 365 ∧
      rest' = 365 * year + day ∧ (day = 365 → year = 3) := by
    refine ⟨min (rest' / 365) 3, rest' - 365 * min (rest' / 365) 3, ?_, ?_, ?_, ?_⟩ <;> omega
  refine ⟨century, group, year, day, hcentury, hgroup, hyear, hday, ?_, ?_⟩ <;> omega

/-- How many years lie before the day. -/
theorem years_eq (h : InCycle c century group year day) :
    (c - c / 1460 + c / 36524 - c / 146096) / 365 = 100 * century + 4 * group + year := by
  obtain ⟨hcentury, hgroup, hyear, hday, htotal, hleap⟩ := h
  -- the divisions by the lengths of a cycle and of a century go one too far on the last day of all
  have hcycles : c / 146096 = if c = 146096 then 1 else 0 := by split <;> omega
  have hcenturies : c / 36524 = if c = 146096 then 4 else century := by split <;> omega
  have hgroups : c / 1460 = 25 * century + group
      ∨ c / 1460 = 25 * century + group + 1 ∧ year = 3 := by
    omega
  rw [hcycles, hcenturies]
  split <;> omega

/-- How many days lie before the year of the day. -/
theorem daysBeforeYear_eq (h : InCycle c century group year day) :
    daysBeforeYear (100 * century + 4 * group + year)
      = 36524 * century + 1461 * group + 365 * year := by
  obtain ⟨-, hgroup, hyear, -, -, -⟩ := h
  unfold daysBeforeYear
  omega

/-- A year that has a leap day ends in a leap year of the calendar, which begins in January. -/
theorem isLeap_of_leapDay (h : InCycle c century group year 365) (cycle : Int) :
    isLeap (cycle * 400 + (100 * century + 4 * group + year : Nat) + 1) = true := by
  obtain ⟨hcentury, hgroup, -, -, -, hleap⟩ := h
  obtain ⟨rfl, hlast⟩ := hleap rfl
  simp only [isLeap, Bool.and_eq_true, Bool.or_eq_true, decide_eq_true_eq]
  omega

end InCycle

/-! ## The months of a year -/

/-- A day of a year that begins in March lies in one of its twelve months. -/
theorem monthOf_lt {day : Nat} (h : day ≤ 365) : (5 * day + 2) / 153 < 12 := by
  omega

theorem daysBeforeMonth_le (day : Nat) : daysBeforeMonth ((5 * day + 2) / 153) ≤ day := by
  unfold daysBeforeMonth
  omega

/-- The length of a month, counted from March, with February as long as the year lets it be. -/
theorem sub_daysBeforeMonth_lt {day month : Nat} (h : day ≤ 365)
    (hmonth : month = (5 * day + 2) / 153) :
    day - daysBeforeMonth month < if month = 11 then (if day = 365 then 29 else 28)
      else if month = 1 ∨ month = 3 ∨ month = 6 ∨ month = 8 then 30 else 31 := by
  unfold daysBeforeMonth
  split_ifs <;> omega

/-! ## Dates of days -/

/-- The date of the day of this number, by its place in the cycle. -/
theorem ofDays_eq {n : Int} {century group year day : Nat}
    (h : InCycle ((n + epochShift) % 146097).toNat century group year day) :
    Date.ofDays n =
      let years : Int := (n + epochShift) / 146097 * 400 + (100 * century + 4 * group + year : Nat)
      let month := (5 * day + 2) / 153
      let ofMonth := day - daysBeforeMonth month + 1
      if month < 10 then ⟨years, month + 3, ofMonth⟩ else ⟨years + 1, month - 9, ofMonth⟩ := by
  unfold Date.ofDays
  have hday : ((n + epochShift) % 146097).toNat - daysBeforeYear (100 * century + 4 * group + year)
      = day := by
    rw [h.daysBeforeYear_eq, h.total, Nat.add_sub_cancel_left]
  simp only [h.years_eq, hday]

theorem exists_inCycle (n : Int) :
    ∃ century group year day, InCycle ((n + epochShift) % 146097).toNat century group year day := by
  apply InCycle.exists_of_lt
  omega

/-- The date of a day is one that the calendar has. -/
theorem isValid_ofDays (n : Int) : (Date.ofDays n).isValid = true := by
  obtain ⟨century, group, year, day, h⟩ := exists_inCycle n
  have hmonth := monthOf_lt h.day_le
  have hlength := sub_daysBeforeMonth_lt h.day_le rfl
  have hleap : day = 365 → isLeap ((n + epochShift) / 146097 * 400
      + (100 * century + 4 * group + year : Nat) + 1) = true := by
    rintro rfl
    exact h.isLeap_of_leapDay _
  rw [ofDays_eq h]
  generalize (5 * day + 2) / 153 = month at hmonth hlength ⊢
  simp only [Date.isValid, daysInMonth]
  by_cases hspring : month < 10
  · -- from March to December a month is as long in every year
    rw [if_pos hspring]
    simp only [Bool.and_eq_true, decide_eq_true_eq]
    rw [if_neg (show ¬ month + 3 = 2 by omega)]
    refine ⟨⟨⟨?_, ?_⟩, ?_⟩, ?_⟩
    · omega
    · omega
    · omega
    · split_ifs at hlength ⊢ <;> omega
  · rw [if_neg hspring]
    simp only [Bool.and_eq_true, decide_eq_true_eq]
    refine ⟨⟨⟨?_, ?_⟩, ?_⟩, ?_⟩
    · omega
    · omega
    · omega
    · by_cases hlast : day = 365
      · simp only [hleap hlast, if_true]
        split_ifs at hlength ⊢ <;> omega
      · split_ifs at hlength ⊢ <;> omega

theorem daysInMonth_le (year : Int) (month : Nat) : daysInMonth year month ≤ 31 := by
  unfold daysInMonth
  split_ifs <;> omega

/-- A date that the calendar has is written with two digits for the month and for the day. -/
theorem Date.lt_of_isValid {d : Date} (h : d.isValid = true) : d.month < 100 ∧ d.day < 100 := by
  have hle := daysInMonth_le d.year d.month
  simp only [isValid, Bool.and_eq_true, decide_eq_true_eq] at h
  omega

/-- The number of a day from March to December. -/
theorem toDays_spring (cycle : Int) {years month day : Nat} (hyears : years < 400)
    (hmonth : month < 10) :
    Date.toDays ⟨cycle * 400 + years, month + 3, day + 1⟩
      = cycle * 146097 + (daysBeforeYear years + (daysBeforeMonth month + day) : Nat)
        - epochShift := by
  have hcycle : (cycle * 400 + years) / 400 = cycle := by omega
  have hin : ((cycle * 400 + years) % 400).toNat = years := by omega
  have hfrom : (month + 3 + 9) % 12 = month := by omega
  unfold Date.toDays
  simp only
  rw [if_neg (by omega), hcycle, hin, hfrom, Nat.add_sub_cancel]

/-- The number of a day in January or February, which belong to the year before. -/
theorem toDays_winter (cycle : Int) {years month day : Nat} (hyears : years < 400)
    (hmonth : 10 ≤ month) (hlt : month < 12) :
    Date.toDays ⟨cycle * 400 + years + 1, month - 9, day + 1⟩
      = cycle * 146097 + (daysBeforeYear years + (daysBeforeMonth month + day) : Nat)
        - epochShift := by
  have hcycle : (cycle * 400 + years) / 400 = cycle := by omega
  have hin : ((cycle * 400 + years) % 400).toNat = years := by omega
  have hfrom : (month - 9 + 9) % 12 = month := by omega
  unfold Date.toDays
  simp only
  rw [if_pos (by omega), Int.add_sub_cancel, hcycle, hin, hfrom, Nat.add_sub_cancel]

/-- **The calendar counts days.** The date of a day has the number of the day. -/
theorem toDays_ofDays (n : Int) : (Date.ofDays n).toDays = n := by
  obtain ⟨century, group, year, day, h⟩ := exists_inCycle n
  have hmonth := monthOf_lt h.day_le
  have hbefore := daysBeforeMonth_le day
  have hyears : 100 * century + 4 * group + year < 400 := by
    have hcentury := h.century_lt
    have hgroup := h.group_lt
    have hyear := h.year_lt
    omega
  -- whole cycles, years, months and days add up to the number of the day
  have htotal : (n + epochShift) / 146097 * 146097
      + (daysBeforeYear (100 * century + 4 * group + year)
        + (daysBeforeMonth ((5 * day + 2) / 153) + (day - daysBeforeMonth ((5 * day + 2) / 153)))
          : Nat) - epochShift = n := by
    rw [Nat.add_sub_cancel' hbefore, h.daysBeforeYear_eq, ← h.total]
    omega
  rw [ofDays_eq h]
  simp only
  by_cases hspring : (5 * day + 2) / 153 < 10
  · rw [if_pos hspring, toDays_spring _ hyears hspring]
    exact htotal
  · rw [if_neg hspring, toDays_winter _ hyears (Nat.le_of_not_lt hspring) hmonth]
    exact htotal

end Registrar.Time

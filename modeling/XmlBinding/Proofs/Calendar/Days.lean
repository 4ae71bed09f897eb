import Mathlib.Data.Int.Init
import XmlBinding.Calendar.Date

/-!
# Days in a row

`Date.dayNumber` counts the days of the calendar one after the other: different dates have different
numbers (`Date.dayNumber_inj`), and every number between those of the first and the last day is that
of a date (`Date.exists_dayNumber_iff`). Both follow from months that begin where the one before
them ends.
-/

namespace XmlBinding.Calendar

/-! ### Months in a row -/

private theorem one_le_daysInMonth_iff {year : Int} {month : Nat} :
    1 ≤ daysInMonth year month ↔ 1 ≤ month ∧ month ≤ 12 := by
  unfold daysInMonth
  grind

/-- No month has more than 31 days. -/
theorem daysInMonth_le (year : Int) (month : Nat) : daysInMonth year month ≤ 31 := by
  unfold daysInMonth
  grind

/-- The months of dates are numbered from one to twelve. -/
theorem ValidDate.month {year : Int} {month day : Nat} (h : ValidDate year month day) :
    1 ≤ month ∧ month ≤ 12 :=
  one_le_daysInMonth_iff.mp (Nat.le_trans h.2.2.1 h.2.2.2)

private theorem daysInMonth_february (year : Int) :
    (daysInMonth year 2 : Int) =
      28 + (year / 4 - (year - 1) / 4) - (year / 100 - (year - 1) / 100) +
        (year / 400 - (year - 1) / 400) := by
  have hleap : isLeapYear year = true ↔ year % 4 = 0 ∧ (year % 100 ≠ 0 ∨ year % 400 = 0) := by
    simp [isLeapYear]
  have hdays : daysInMonth year 2 = if isLeapYear year then 29 else 28 := rfl
  rw [hdays]
  split
  · next h =>
    rw [hleap] at h
    omega
  · next h =>
    rw [hleap] at h
    omega

/-- The number of days before a month, as `Date.dayNumber` counts them. -/
def monthStart (year : Int) (month : Nat) : Int :=
  let year := if month ≤ 2 then year - 1 else year
  365 * year + year / 4 - year / 100 + year / 400 + ((153 * ((month + 9) % 12) + 2) / 5 : Nat)

private theorem monthStart_succ (year : Int) {month : Nat} (hleast : 1 ≤ month)
    (hgreatest : month < 12) :
    monthStart year (month + 1) = monthStart year month + daysInMonth year month := by
  have hcases : month = 1 ∨ month = 2 ∨ 3 ≤ month := by omega
  obtain rfl | rfl | hthree := hcases
  · simp only [monthStart, daysInMonth]
    omega
  · rw [daysInMonth_february]
    simp only [monthStart]
    omega
  · have hdays : (153 * ((month + 1 + 9) % 12) + 2) / 5 =
        (153 * ((month + 9) % 12) + 2) / 5 + daysInMonth year month := by
      unfold daysInMonth
      grind
    simp only [monthStart, hdays]
    split <;> split <;> omega

private theorem monthStart_next_year (year : Int) :
    monthStart (year + 1) 1 = monthStart year 12 + daysInMonth year 12 := by
  simp only [monthStart, daysInMonth]
  omega

/-- The year of a month that is counted from the first of the year zero. -/
def yearAt (index : Int) : Int := index / 12

/-- The month of a month that is counted from the first of the year zero. -/
def monthAt (index : Int) : Nat := (index % 12).toNat + 1

/-- The number of days before a month. -/
def startAt (index : Int) : Int := monthStart (yearAt index) (monthAt index)

/-- The number of days of a month. -/
def daysAt (index : Int) : Nat := daysInMonth (yearAt index) (monthAt index)

private theorem startAt_succ (index : Int) :
    startAt (index + 1) = startAt index + daysAt index := by
  unfold startAt daysAt
  by_cases hlast : index % 12 = 11
  · have hyear : yearAt (index + 1) = yearAt index + 1 := by
      unfold yearAt
      omega
    have hnext : monthAt (index + 1) = 1 := by
      unfold monthAt
      omega
    have hmonth : monthAt index = 12 := by
      unfold monthAt
      omega
    rw [hyear, hnext, hmonth, monthStart_next_year]
  · have hyear : yearAt (index + 1) = yearAt index := by
      unfold yearAt
      omega
    have hnext : monthAt (index + 1) = monthAt index + 1 := by
      unfold monthAt
      omega
    rw [hyear, hnext, monthStart_succ]
    · exact Nat.le_add_left _ _
    · unfold monthAt
      omega

private theorem startAt_mono {i j : Int} (h : i ≤ j) : startAt i ≤ startAt j := by
  induction j, h using Int.leInduction with
  | base => exact Int.le_refl _
  | succ j _ ih =>
    rw [startAt_succ]
    omega

namespace Date

/-- The month of a date, counted from the first of the year zero. -/
def monthIndex (d : Date) : Int := 12 * d.year + d.month - 1

private theorem yearAt_monthIndex (d : Date) : yearAt d.monthIndex = d.year := by
  have hmonth := d.valid.month
  unfold yearAt monthIndex
  omega

private theorem monthAt_monthIndex (d : Date) : monthAt d.monthIndex = d.month := by
  have hmonth := d.valid.month
  unfold monthAt monthIndex
  omega

private theorem dayNumber_eq (d : Date) : d.dayNumber = startAt d.monthIndex + d.day - 1 := by
  rw [startAt, yearAt_monthIndex, monthAt_monthIndex]
  rfl

private theorem day_le_daysAt (d : Date) : d.day ≤ daysAt d.monthIndex := by
  rw [daysAt, yearAt_monthIndex, monthAt_monthIndex]
  exact d.valid.2.2.2

private theorem startAt_le_dayNumber (d : Date) : startAt d.monthIndex ≤ d.dayNumber := by
  have hday := d.valid.2.2.1
  rw [dayNumber_eq]
  omega

private theorem dayNumber_lt_startAt (d : Date) : d.dayNumber < startAt (d.monthIndex + 1) := by
  have hday := d.day_le_daysAt
  rw [dayNumber_eq, startAt_succ]
  omega

private theorem ext_monthIndex {d e : Date} (hmonth : d.monthIndex = e.monthIndex)
    (hday : d.day = e.day) : d = e := by
  have hyear : d.year = e.year := by rw [← yearAt_monthIndex, hmonth, yearAt_monthIndex]
  have hmonth' : d.month = e.month := by rw [← monthAt_monthIndex, hmonth, monthAt_monthIndex]
  cases d
  cases e
  simp_all

private theorem monthIndex_le {d e : Date} (h : d.dayNumber ≤ e.dayNumber) :
    d.monthIndex ≤ e.monthIndex := by
  refine Int.not_lt.mp fun hlt ↦ ?_
  have hnext : startAt (e.monthIndex + 1) ≤ startAt d.monthIndex := startAt_mono (by omega)
  have hlower := d.startAt_le_dayNumber
  have hupper := e.dayNumber_lt_startAt
  omega

/-- Different dates are different days. -/
theorem dayNumber_inj {d e : Date} : d.dayNumber = e.dayNumber ↔ d = e := by
  refine ⟨fun h ↦ ?_, fun h ↦ h ▸ rfl⟩
  have hmonth : d.monthIndex = e.monthIndex :=
    Int.le_antisymm (monthIndex_le (Int.le_of_eq h)) (monthIndex_le (Int.le_of_eq h.symm))
  refine ext_monthIndex hmonth ?_
  rw [dayNumber_eq, dayNumber_eq, hmonth] at h
  omega

/-- No date is in front of the first one. -/
theorem least_le (d : Date) : least.dayNumber ≤ d.dayNumber := by
  have hindex : least.monthIndex ≤ d.monthIndex := by
    have hyear := d.valid.1
    have hmonth := d.valid.month.1
    simp only [monthIndex, least]
    omega
  calc least.dayNumber = startAt least.monthIndex := by decide
    _ ≤ startAt d.monthIndex := startAt_mono hindex
    _ ≤ d.dayNumber := d.startAt_le_dayNumber

/-- No date is behind the last one. -/
theorem le_greatest (d : Date) : d.dayNumber ≤ greatest.dayNumber := by
  have hindex : d.monthIndex + 1 ≤ greatest.monthIndex + 1 := by
    have hyear := d.valid.2.1
    have hmonth := d.valid.month.2
    simp only [monthIndex, greatest]
    omega
  refine Int.le_of_lt_add_one ?_
  calc d.dayNumber < startAt (d.monthIndex + 1) := d.dayNumber_lt_startAt
    _ ≤ startAt (greatest.monthIndex + 1) := startAt_mono hindex
    _ = greatest.dayNumber + 1 := by decide

private theorem exists_of_monthIndex {index : Int} {day : Nat} (hleast : leastYear ≤ yearAt index)
    (hgreatest : yearAt index ≤ greatestYear) (hday : 1 ≤ day ∧ day ≤ daysAt index) :
    ∃ d : Date, d.monthIndex = index ∧ d.day = day := by
  refine ⟨⟨yearAt index, monthAt index, day, hleast, hgreatest, hday.1, hday.2⟩, ?_, rfl⟩
  simp only [monthIndex, yearAt, monthAt]
  omega

private theorem exists_succ {d : Date} (h : d ≠ greatest) :
    ∃ e : Date, e.dayNumber = d.dayNumber + 1 := by
  have hday := d.valid.2.2.1
  obtain hinside | hlast := Nat.lt_or_eq_of_le d.day_le_daysAt
  · obtain ⟨e, hmonth, hnext⟩ := exists_of_monthIndex
      (d.yearAt_monthIndex ▸ d.valid.1) (d.yearAt_monthIndex ▸ d.valid.2.1)
      ⟨Nat.le_add_left 1 d.day, hinside⟩
    refine ⟨e, ?_⟩
    rw [dayNumber_eq, dayNumber_eq, hmonth, hnext]
    omega
  · have hmonth : d.monthIndex ≠ greatest.monthIndex := by
      refine fun hmonth ↦ h (ext_monthIndex hmonth ?_)
      rw [hlast, hmonth]
      decide
    have hlt : d.monthIndex < greatest.monthIndex :=
      Int.lt_iff_le_and_ne.mpr ⟨monthIndex_le d.le_greatest, hmonth⟩
    have hyear : leastYear ≤ yearAt (d.monthIndex + 1) ∧
        yearAt (d.monthIndex + 1) ≤ greatestYear := by
      have hleast := d.valid.1
      have hgreatest : greatest.monthIndex = 12 * greatestYear + 11 := rfl
      rw [← yearAt_monthIndex] at hleast
      unfold yearAt at hleast ⊢
      omega
    have hone : 1 ≤ daysAt (d.monthIndex + 1) := by
      refine one_le_daysInMonth_iff.mpr ?_
      unfold monthAt
      omega
    obtain ⟨e, he, hfirst⟩ := exists_of_monthIndex hyear.1 hyear.2 ⟨Nat.le_refl 1, hone⟩
    refine ⟨e, ?_⟩
    rw [dayNumber_eq, dayNumber_eq, he, hfirst, startAt_succ, hlast]
    omega

/-- The days between the first and the last one are all in the calendar. -/
theorem exists_dayNumber_iff {n : Int} :
    (∃ d : Date, d.dayNumber = n) ↔ least.dayNumber ≤ n ∧ n ≤ greatest.dayNumber := by
  constructor
  · rintro ⟨d, rfl⟩
    exact ⟨d.least_le, d.le_greatest⟩
  · rintro ⟨hleast, hgreatest⟩
    induction n, hleast using Int.leInduction with
    | base => exact ⟨least, rfl⟩
    | succ n _ ih =>
      obtain ⟨d, rfl⟩ := ih (by omega)
      refine exists_succ ?_
      rintro rfl
      omega

end Date

end XmlBinding.Calendar

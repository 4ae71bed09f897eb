import XmlBinding.Number.Numeral
import XmlBinding.Text.Split

/-!
# Dates of the proleptic Gregorian calendar

A date is a year, a month and a day that exist. Years count through zero into the negative and are
confined to the range whose days fit a signed 32-bit count. `Date.read?` takes the form of XML
Schema and `Date.write` gives it.
-/

namespace XmlBinding.Calendar

open Number

/-- The earliest year. -/
def leastYear : Int := -262143

/-- The latest year. -/
def greatestYear : Int := 262142

/-- Whether a year has a day more than others. -/
def isLeapYear (year : Int) : Bool := year % 4 = 0 && (year % 100 ≠ 0 || year % 400 = 0)

/-- The number of days of a month; zero for a month that does not exist. -/
def daysInMonth (year : Int) (month : Nat) : Nat :=
  match month with
  | 1 | 3 | 5 | 7 | 8 | 10 | 12 => 31
  | 4 | 6 | 9 | 11 => 30
  | 2 => if isLeapYear year then 29 else 28
  | _ => 0

/-- The day exists and its year is in range. -/
def ValidDate (year : Int) (month day : Nat) : Prop :=
  leastYear ≤ year ∧ year ≤ greatestYear ∧ 1 ≤ day ∧ day ≤ daysInMonth year month

instance (year : Int) (month day : Nat) : Decidable (ValidDate year month day) := by
  unfold ValidDate
  infer_instance

/-- A day of the calendar. -/
structure Date where
  /-- The year; zero and less lie before the common era. -/
  year : Int
  /-- The month, from one. -/
  month : Nat
  /-- The day of the month, from one. -/
  day : Nat
  valid : ValidDate year month day
  deriving DecidableEq

namespace Date

/-- The date of the given fields, if it exists. -/
def of? (year : Int) (month day : Nat) : Option Date :=
  if h : ValidDate year month day then some ⟨year, month, day, h⟩ else none

/-- The first day of the calendar. -/
def least : Date := ⟨leastYear, 1, 1, by decide⟩

/-- The last day of the calendar. -/
def greatest : Date := ⟨greatestYear, 12, 31, by decide⟩

/-- The number of days since the first of March of the year zero. -/
def dayNumber (d : Date) : Int :=
  let year := if d.month ≤ 2 then d.year - 1 else d.year
  let month := (d.month + 9) % 12
  365 * year + year / 4 - year / 100 + year / 400 + ((153 * month + 2) / 5 : Nat) + d.day - 1

/-- Read two digits. -/
def readPair? (cs : List Char) : Option Nat :=
  if cs.length = 2 ∧ isNumeral cs then some (read cs) else none

/-- Read a year of four digits or more; of more than four digits the first is not zero. -/
def readYear? (cs : List Char) : Option Nat :=
  if isNumeral cs ∧ 4 ≤ cs.length ∧ ¬ (4 < cs.length ∧ cs.head? = some '0') then some (read cs)
  else none

/-- Read year, month and day, joined by hyphens. -/
def readUnsigned? (negative : Bool) (cs : List Char) : Option Date :=
  match Text.splitAll (· == '-') cs with
  | [year, month, day] => do
    of? (applySign negative (← readYear? year)) (← readPair? month) (← readPair? day)
  | _ => none

/-- Read a date, with a minus in front of a negative year. -/
def read? : List Char → Option Date
  | '-' :: cs => readUnsigned? true cs
  | cs => readUnsigned? false cs

/-- Month and day as two digits each, a hyphen before either. -/
def writeMonthDay (d : Date) : List Char :=
  '-' :: writePadded 2 d.month ++ '-' :: writePadded 2 d.day

/-- The date in the form of XML Schema. -/
def write (d : Date) : List Char :=
  (if d.year < 0 then ['-'] else []) ++ writePadded 4 d.year.natAbs ++ d.writeMonthDay

/-- The date as messages show it: a year outside of four digits has a sign either way. -/
def display (d : Date) : List Char :=
  let sign := if d.year < 0 then ['-'] else if 9999 < d.year then ['+'] else []
  sign ++ writePadded 4 d.year.natAbs ++ d.writeMonthDay

end Date

end XmlBinding.Calendar

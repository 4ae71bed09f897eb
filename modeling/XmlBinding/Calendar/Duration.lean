import XmlBinding.Calendar.Time
import XmlBinding.Text.Split

/-!
# Durations

A duration is kept field by field, since months and days have no fixed length: `P`, years, months
and days, then `T`, hours, minutes and seconds. Fields that are zero are left out, and all of them
at once stand as zero seconds.
-/

namespace XmlBinding.Calendar

open Number

/-- A length of time in calendar and clock units, forward or backward. -/
structure Duration where
  negative : Bool
  years : UInt32
  months : UInt32
  days : UInt32
  hours : UInt32
  minutes : UInt32
  seconds : UInt32
  nanos : UInt32
  deriving DecidableEq, Repr

namespace Duration

/-- Read digits as a number of 32 bits. -/
def readComponent? (cs : List Char) : Option UInt32 :=
  if isNumeral cs ∧ read cs < UInt32.size then some (read cs).toUInt32 else none

/-- Read the number before the first `designator`, and what follows it; `none` for the number if
there is no designator. -/
def readBefore? (designator : Char) (cs : List Char) : Option (Option UInt32 × List Char) :=
  match Text.splitFirst designator cs with
  | none => some (none, cs)
  | some (digits, rest) => (readComponent? digits).map fun n ↦ (some n, rest)

/-- Read one to nine digits behind a point as nanoseconds. -/
def readNanos? (cs : List Char) : Option UInt32 :=
  if isNumeral cs ∧ cs.length ≤ 9 then
    some (read (cs ++ List.replicate (9 - cs.length) '0')).toUInt32
  else none

/-- Read the seconds that end a duration, with their designator: seconds and nanoseconds; `none` if
nothing is left to read. -/
def readSeconds? (cs : List Char) : Option (Option (UInt32 × UInt32)) :=
  match cs.reverse with
  | [] => some none
  | 'S' :: digits =>
    match Text.splitFirst '.' digits.reverse with
    | none => (readComponent? digits.reverse).map fun n ↦ some (n, 0)
    | some (whole, fraction) => do
      return some (← readComponent? whole, ← readNanos? fraction)
  | _ => none

/-- Cut the part behind the `T` off; if there is one, it is not empty. -/
def splitClock (cs : List Char) : Option (List Char × List Char) :=
  match Text.splitFirst 'T' cs with
  | none => some (cs, [])
  | some (_, []) => none
  | some (calendar, clock) => some (calendar, clock)

/-- Read the fields behind the `P`; at least one is there. -/
def readFields? (negative : Bool) (cs : List Char) : Option Duration := do
  let (calendar, clock) ← splitClock cs
  let (years, calendar) ← readBefore? 'Y' calendar
  let (months, calendar) ← readBefore? 'M' calendar
  let (days, calendar) ← readBefore? 'D' calendar
  guard calendar.isEmpty
  let (hours, clock) ← readBefore? 'H' clock
  let (minutes, clock) ← readBefore? 'M' clock
  let seconds ← readSeconds? clock
  guard (years.isSome || months.isSome || days.isSome || hours.isSome || minutes.isSome ||
    seconds.isSome)
  return {
    negative
    years := years.getD 0
    months := months.getD 0
    days := days.getD 0
    hours := hours.getD 0
    minutes := minutes.getD 0
    seconds := (seconds.map (·.1)).getD 0
    nanos := (seconds.map (·.2)).getD 0 }

/-- Read a duration whose surrounding blanks have been cut. -/
def readTrimmed? : List Char → Option Duration
  | '-' :: 'P' :: cs => readFields? true cs
  | 'P' :: cs => readFields? false cs
  | _ => none

/-- Read a duration with blanks around it. -/
def read? (cs : List Char) : Option Duration := readTrimmed? (Text.trim cs)

/-- A field with its designator; nothing if it is zero. -/
def writeComponent (n : UInt32) (designator : Char) : List Char :=
  if n = 0 then [] else Number.write n.toNat ++ [designator]

/-- Some field of the clock is not zero. -/
def HasClock (d : Duration) : Prop :=
  d.hours ≠ 0 ∨ d.minutes ≠ 0 ∨ d.seconds ≠ 0 ∨ d.nanos ≠ 0

instance (d : Duration) : Decidable d.HasClock := by
  unfold HasClock
  infer_instance

/-- All fields are zero. -/
def IsZero (d : Duration) : Prop :=
  ¬ d.HasClock ∧ d.years = 0 ∧ d.months = 0 ∧ d.days = 0

instance (d : Duration) : Decidable d.IsZero := by
  unfold IsZero
  infer_instance

/-- The duration in the form of XML Schema. -/
def write (d : Duration) : List Char :=
  (if d.negative then ['-'] else []) ++ 'P' :: (
    writeComponent d.years 'Y' ++ writeComponent d.months 'M' ++ writeComponent d.days 'D' ++
    (if d.HasClock ∨ d.IsZero then ['T'] else []) ++
    writeComponent d.hours 'H' ++ writeComponent d.minutes 'M' ++
    (if d.seconds ≠ 0 ∨ d.nanos ≠ 0 ∨ d.IsZero then
      Number.write d.seconds.toNat ++ writeFraction d.nanos.toNat ++ ['S']
    else []))

end Duration

end XmlBinding.Calendar

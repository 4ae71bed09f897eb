import XmlBinding.Calendar.Date
import XmlBinding.Calendar.Time
import XmlBinding.Calendar.Zone

/-!
# Dates with a time of day

A `LocalDateTime` is what a calendar and a clock show together. Two of them with offsets are the
same moment if they agree once both are moved to universal time, which is what `DateTime.Equiv`
compares. Universal time may fall on a day before or after all days of the calendar: then
`DateTime.equiv?` has no answer.
-/

namespace XmlBinding.Calendar

/-- A date and a time of day. -/
structure LocalDateTime where
  date : Date
  time : Time
  deriving DecidableEq

namespace LocalDateTime

/-- Read a date and a time, joined by `T`. -/
def read? (cs : List Char) : Option LocalDateTime := do
  let (date, time) ← Text.splitFirst 'T' cs
  return ⟨← Date.read? date, ← Time.read? time⟩

/-- The literal of XML Schema. -/
def write (d : LocalDateTime) : List Char := d.date.write ++ 'T' :: d.time.write

/-- The date and the time as messages show them, with a space between. -/
def display (d : LocalDateTime) : List Char := d.date.display ++ ' ' :: d.time.display

end LocalDateTime

/-- A date and a time of day, with or without an offset. -/
abbrev DateTime := Zoned LocalDateTime

/-- A moment: seconds of universal time since the day zero, and the nanoseconds on top. -/
structure Instant where
  /-- Seconds since the midnight that began the day zero. -/
  seconds : Int
  /-- Nanoseconds since that second began; a thousand million or more within a leap second. -/
  nanos : Nat
  deriving DecidableEq, Repr

namespace Instant

/-- The day of universal time, counted as `Date.dayNumber` counts days. -/
def dayNumber (i : Instant) : Int := i.seconds / 86400

/-- The moment lies on a day of the calendar. -/
def InCalendar (i : Instant) : Prop :=
  Date.least.dayNumber ≤ i.dayNumber ∧ i.dayNumber ≤ Date.greatest.dayNumber

instance (i : Instant) : Decidable i.InCalendar := inferInstanceAs (Decidable (_ ∧ _))

end Instant

namespace LocalDateTime

/-- The moment at which a local clock with the given offset shows a date and a time. -/
def instant (d : LocalDateTime) (offset : Offset) : Instant :=
  ⟨d.date.dayNumber * 86400 + d.time.secondOfDay - offset.seconds, d.time.nanos⟩

/-- The moment, if it lies on a day of the calendar. -/
def instant? (d : LocalDateTime) (offset : Offset) : Option Instant :=
  if (d.instant offset).InCalendar then some (d.instant offset) else none

end LocalDateTime

namespace DateTime

/-- The same moment if both have an offset, the same fields if neither has; otherwise different. -/
def Equiv (a b : DateTime) : Prop :=
  match a.offset, b.offset with
  | some x, some y => a.value.instant x = b.value.instant y
  | none, none => a.value = b.value
  | _, _ => False

instance (a b : DateTime) : Decidable (Equiv a b) := by
  unfold Equiv
  split <;> infer_instance

/-- Whether two moments are the same, by the dates and times of universal time if both have an
offset; no answer if one of these is not in the calendar. -/
def equiv? (a b : DateTime) : Option Bool :=
  match a.offset, b.offset with
  | some x, some y => do
    let i ← a.value.instant? x
    let j ← b.value.instant? y
    return decide (i = j)
  | _, _ => some (decide (Equiv a b))

end DateTime

end XmlBinding.Calendar

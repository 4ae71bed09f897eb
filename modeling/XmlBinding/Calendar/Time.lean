import XmlBinding.Number.Numeral
import XmlBinding.Text.Blank

/-!
# Times of day

A time of day counts nanoseconds within its second. A leap second is written as nanoseconds beyond
a whole second, after a second 59. `Time.read?` is the form of XML Schema and a little more lenient:
a field has one or two digits and may follow blanks; it reads no leap second.
-/

namespace XmlBinding.Calendar

open Number

/-- The number of nanoseconds in a second. -/
def nanosPerSecond : Nat := 1000000000

/-- The time exists; only a second 59 may run on into a leap second. -/
def ValidTime (hour minute second nanos : Nat) : Prop :=
  hour < 24 ∧ minute < 60 ∧ second < 60 ∧ nanos < 2 * nanosPerSecond ∧
    (nanos < nanosPerSecond ∨ second = 59)

instance (hour minute second nanos : Nat) : Decidable (ValidTime hour minute second nanos) := by
  unfold ValidTime
  infer_instance

/-- A time of day. -/
structure Time where
  hour : Nat
  minute : Nat
  second : Nat
  /-- The nanoseconds since the second began; a thousand million or more within a leap second. -/
  nanos : Nat
  valid : ValidTime hour minute second nanos
  deriving DecidableEq

/-- Digits behind the point without trailing zeros, the point included; nothing for a whole
second. The part beyond a whole second is left out. -/
def writeFraction (nanos : Nat) : List Char :=
  let fraction := nanos % nanosPerSecond
  if fraction = 0 then []
  else '.' :: ((writePadded 9 fraction).reverse.dropWhile (· == '0')).reverse

namespace Time

/-- The time of the given fields, if it exists. -/
def of? (hour minute second nanos : Nat) : Option Time :=
  if h : ValidTime hour minute second nanos then some ⟨hour, minute, second, nanos, h⟩ else none

/-- The time lies within a leap second. -/
def IsLeap (t : Time) : Prop := nanosPerSecond ≤ t.nanos

instance (t : Time) : Decidable t.IsLeap := inferInstanceAs (Decidable (_ ≤ _))

/-- The seconds since midnight, a leap second counting as the one before it. -/
def secondOfDay (t : Time) : Nat := t.hour * 3600 + t.minute * 60 + t.second

/-- Read one or two digits after any blanks, and what follows them. -/
def readField? (cs : List Char) : Option (Nat × List Char) :=
  let cs := Text.trimStart cs
  let digits := (cs.take 2).takeWhile Char.isDigit
  if digits.isEmpty then none else some (read digits, cs.drop digits.length)

/-- Take a colon off the front. -/
def readColon? : List Char → Option (List Char)
  | ':' :: cs => some cs
  | _ => none

/-- Read digits behind a point as nanoseconds, those after the ninth being cut; no point stands for
a whole second. -/
def readFraction? : List Char → Option Nat
  | [] => some 0
  | '.' :: cs =>
    if isNumeral cs then some (read ((cs ++ List.replicate 9 '0').take 9)) else none
  | _ => none

/-- Read hours, minutes and seconds, joined by colons, and perhaps a fraction. -/
def read? (cs : List Char) : Option Time := do
  let (hour, cs) ← readField? cs
  let (minute, cs) ← readField? (← readColon? cs)
  let (second, cs) ← readField? (← readColon? cs)
  of? hour minute second (← readFraction? cs)

/-- Hours, minutes and the given second, two digits each. -/
def writeClock (t : Time) (second : Nat) : List Char :=
  writePadded 2 t.hour ++ ':' :: writePadded 2 t.minute ++ ':' :: writePadded 2 second

/-- The time in the form of XML Schema; the leap in a leap second is not shown. -/
def write (t : Time) : List Char := t.writeClock t.second ++ writeFraction t.nanos

/-- The time as messages show it: a leap second is a second 60, and a fraction has three, six or
nine digits, as many as it needs. -/
def display (t : Time) : List Char :=
  let (second, nanos) :=
    if t.IsLeap then (t.second + 1, t.nanos - nanosPerSecond) else (t.second, t.nanos)
  let fraction :=
    if nanos = 0 then []
    else if nanos % 1000000 = 0 then '.' :: writePadded 3 (nanos / 1000000)
    else if nanos % 1000 = 0 then '.' :: writePadded 6 (nanos / 1000)
    else '.' :: writePadded 9 nanos
  t.writeClock second ++ fraction

end Time

end XmlBinding.Calendar

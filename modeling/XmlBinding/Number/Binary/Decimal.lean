import XmlBinding.Number.Binary.Basic
import XmlBinding.Number.Decimal

/-!
# Binary numbers in decimal

`shortest` is the decimal number of fewest digits among those that round to a given binary number,
and the nearest of these. `ofDecimal` goes the other way, to the nearest binary number. `read?` is
the grammar of decimal literals with an exponent.
-/

namespace XmlBinding.Number

/-- The real numbers that round to one finite number, as fractions with a common denominator. -/
structure RoundingInterval where
  /-- The numerator of the number itself. -/
  value : Nat
  /-- The numerator of the lower end. -/
  low : Nat
  /-- The numerator of the upper end. -/
  high : Nat
  /-- The common denominator. -/
  den : Nat
  /-- The ends belong to the interval. -/
  closed : Bool

namespace RoundingInterval

/-- The interval of `mantissa` · 2^`exponent`: half a unit either way, and only a quarter downward
where the next smaller number has a smaller exponent. The ends round to the even neighbour. -/
def of (f : BinaryFormat) (mantissa : Nat) (exponent : Int) : RoundingInterval :=
  let scale := Nat.pow 2 (exponent - 2).toNat
  let narrow := mantissa = Nat.pow 2 f.fractionBits ∧ f.leastExponent < exponent
  { value := 4 * mantissa * scale
    low := (if narrow then 4 * mantissa - 1 else 4 * mantissa - 2) * scale
    high := (4 * mantissa + 2) * scale
    den := Nat.pow 2 (2 - exponent).toNat
    closed := mantissa % 2 = 0 }

/-- Whether the number `units` · 10^`power` lies in the interval. -/
def contains (r : RoundingInterval) (units : Nat) (power : Int) : Bool :=
  let point := units * Nat.pow 10 power.toNat * r.den
  let shift := Nat.pow 10 (-power).toNat
  if r.closed then decide (r.low * shift ≤ point ∧ point ≤ r.high * shift)
  else decide (r.low * shift < point ∧ point < r.high * shift)

/-- The nearest multiple of 10^`power` in the interval, of the two next to the number; a tie goes
up. -/
def onGrid? (r : RoundingInterval) (power : Int) : Option Decimal :=
  let num := r.value * Nat.pow 10 (-power).toNat
  let den := r.den * Nat.pow 10 power.toNat
  let below := num / den
  let nearBelow := 2 * (num % den) < den
  let decimal (units : Nat) : Decimal := ⟨units, -power⟩
  match r.contains below power, r.contains (below + 1) power with
  | true, true => some (decimal (if nearBelow then below else below + 1))
  | true, false => some (decimal below)
  | false, true => some (decimal (below + 1))
  | false, false => none

/-- The number of digits before the point, with at most `places` zeros behind it counted as
negative. -/
def wholeDigits (r : RoundingInterval) (places : Nat) : Int :=
  ((write (r.value * Nat.pow 10 places / r.den)).length : Int) - places

/-- The first of the given numbers of digits at which the interval holds a decimal number. -/
def shortest (r : RoundingInterval) (wholeDigits : Int) : List Nat → Decimal
  | [] => ⟨0, 0⟩
  | digits :: more =>
    match r.onGrid? (wholeDigits - digits) with
    | some d => d
    | none => shortest r wholeDigits more

end RoundingInterval

/-- As many decimal digits as tell any two numbers of the format apart. -/
def BinaryFormat.decimalDigits (f : BinaryFormat) : Nat := (f.fractionBits + 1) * 3 / 10 + 2

/-- The decimal number of fewest digits that rounds to `mantissa` · 2^`exponent`, and the nearest of
these. -/
def shortestDecimal (f : BinaryFormat) (mantissa : Nat) (exponent : Int) : Decimal :=
  if mantissa = 0 then ⟨0, 0⟩
  else
    let r := RoundingInterval.of f mantissa exponent
    r.shortest (r.wholeDigits f.places) ((List.range f.decimalDigits).map (· + 1))

/-- The number nearest to `digits` · 10^`exponent`, a tie going to the even neighbour. -/
def Binary.ofDecimal (f : BinaryFormat) (negative : Bool) (digits : Nat) (exponent : Int) :
    Binary f :=
  let size := (write digits).length + exponent
  if digits = 0 ∨ size < -(f.places : Int) then .ofMagnitudeBits negative 0
  else if size > f.bias + 2 then .infinity negative
  else
    .ofMagnitudeBits negative
      (roundRatio f (digits * Nat.pow 10 exponent.toNat) (Nat.pow 10 (-exponent).toNat))

namespace Binary

/-- Read the exponent of a literal, its sign and digits; nothing stands for zero. -/
def readExponent? : Option (List Char) → Option Int
  | none => some 0
  | some cs =>
    let (negative, digits) := splitSign cs
    if isNumeral digits then some (applySign negative (Number.read digits)) else none

/-- The parts of a literal before and behind the letter of its exponent. -/
def splitExponent (cs : List Char) : List Char × Option (List Char) :=
  let mantissa := cs.takeWhile fun c ↦ c != 'e' && c != 'E'
  match cs.drop mantissa.length with
  | [] => (mantissa, none)
  | _ :: exponent => (mantissa, some exponent)

/-- Read a sign, digits with at most one point among them and at least one digit, and perhaps an
exponent. -/
def read? (f : BinaryFormat) (cs : List Char) : Option (Binary f) := do
  let (negative, body) := splitSign cs
  let (mantissa, exponent) := splitExponent body
  let (whole, fraction) := Decimal.splitPoint mantissa
  let digits := whole ++ fraction
  guard (isNumeral digits)
  let exponent ← readExponent? exponent
  return .ofDecimal f negative (Number.read digits) (exponent - fraction.length)

/-- Plain positional notation with the fewest digits that read back; the values that are no finite
numbers are `INF`, `-INF` and `NaN`. -/
def write {f : BinaryFormat} (x : Binary f) : List Char :=
  match x.magnitude with
  | .nan => ['N', 'a', 'N']
  | .infinite => if x.isNegative then ['-', 'I', 'N', 'F'] else ['I', 'N', 'F']
  | .finite mantissa exponent =>
    let body := (shortestDecimal f mantissa exponent).write
    if x.isNegative then '-' :: body else body

end Binary

end XmlBinding.Number

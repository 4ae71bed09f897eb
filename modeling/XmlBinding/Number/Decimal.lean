import XmlBinding.Number.Numeral
import XmlBinding.Text.Split

/-!
# Decimal numbers

A decimal number is a whole number of units of a power of ten, so one number has many forms.
`normalize` picks one of them, `Equiv` compares by it, and `write` prints it in plain positional
notation.
-/

namespace XmlBinding.Number

/-- The number `unscaled` · 10^(-`scale`). -/
structure Decimal where
  /-- The number counted in units of the last place. -/
  unscaled : Int
  /-- How many places the last place lies behind the point; may be negative. -/
  scale : Int
  deriving DecidableEq, Repr

namespace Decimal

/-- Move factors of ten from the digits into the scale. -/
def stripZeros (magnitude : Nat) (scale : Int) : Nat × Int :=
  if h : magnitude ≠ 0 ∧ magnitude % 10 = 0 then stripZeros (magnitude / 10) (scale - 1)
  else (magnitude, scale)
termination_by magnitude
decreasing_by omega

/-- The form of the number without trailing zeros in its digits; zero has scale zero. -/
def normalize (d : Decimal) : Decimal :=
  if d.unscaled = 0 then ⟨0, 0⟩
  else
    let (magnitude, scale) := stripZeros d.unscaled.natAbs d.scale
    ⟨applySign (d.unscaled < 0) magnitude, scale⟩

/-- The numbers are the same, whatever their forms. -/
def Equiv (a b : Decimal) : Prop := a.normalize = b.normalize

instance (a b : Decimal) : Decidable (a.Equiv b) :=
  inferInstanceAs (Decidable (a.normalize = b.normalize))

/-- Digits with `scale` places behind the point. -/
def placePoint (digits : List Char) (scale : Nat) : List Char :=
  if scale < digits.length then
    digits.take (digits.length - scale) ++ '.' :: digits.drop (digits.length - scale)
  else '0' :: '.' :: (List.replicate (scale - digits.length) '0' ++ digits)

/-- Plain positional notation: no exponent, no trailing zeros behind the point. -/
def write (d : Decimal) : List Char :=
  let n := d.normalize
  let digits := Number.write n.unscaled.natAbs
  let body :=
    if n.scale ≤ 0 then digits ++ List.replicate n.scale.natAbs '0'
    else placePoint digits n.scale.natAbs
  if n.unscaled < 0 then '-' :: body else body

/-- The parts of a numeral before and behind its point; a missing point leaves the latter empty. -/
def splitPoint (cs : List Char) : List Char × List Char :=
  (Text.splitFirst '.' cs).getD (cs, [])

/-- Read an optional sign and digits with at most one point among them, at least one digit. -/
def read? (cs : List Char) : Option Decimal :=
  let (negative, body) := splitSign cs
  let (whole, fraction) := splitPoint body
  let digits := whole ++ fraction
  if isNumeral digits then some ⟨applySign negative (Number.read digits), fraction.length⟩ else none

end Decimal

end XmlBinding.Number

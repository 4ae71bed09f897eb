/-!
# Binary floating point numbers

Numbers of the IEEE interchange formats, kept as their bits. `magnitude` tells what the bits stand
for; two numbers are `Equiv` if neither is a NaN and they denote the same number, so the two zeros
are. A ratio of natural numbers is rounded to the nearest number of a format by `roundRatio`, a tie
going to the even neighbour.
-/

namespace XmlBinding.Number

/-- The layout of a binary format: a sign bit, then these many exponent and fraction bits. -/
structure BinaryFormat where
  exponentBits : Nat
  fractionBits : Nat
  deriving DecidableEq, Repr

namespace BinaryFormat

/-- The format of 32 bits. -/
def single : BinaryFormat := ⟨8, 23⟩

/-- The format of 64 bits. -/
def double : BinaryFormat := ⟨11, 52⟩

/-- The number of bits. -/
def width (f : BinaryFormat) : Nat := 1 + f.exponentBits + f.fractionBits

/-- What the exponent field holds for the exponent zero. -/
def bias (f : BinaryFormat) : Nat := Nat.pow 2 (f.exponentBits - 1) - 1

/-- The power of two that the last bit of the smallest numbers stands for. -/
def leastExponent (f : BinaryFormat) : Int := 1 - (f.bias : Int) - f.fractionBits

/-- The bits of positive infinity. -/
def infinityBits (f : BinaryFormat) : Nat :=
  (Nat.pow 2 f.exponentBits - 1) * Nat.pow 2 f.fractionBits

/-- The bits of the positive NaN that stands for all of them. -/
def nanBits (f : BinaryFormat) : Nat := f.infinityBits + Nat.pow 2 (f.fractionBits - 1)

/-- So many decimal places that a lone one in the last of them is less than every positive number
of the format, and less than half of it. -/
def places (f : BinaryFormat) : Nat := f.bias + f.fractionBits

end BinaryFormat

/-- A number of a binary format. -/
structure Binary (f : BinaryFormat) where
  /-- The bits, the sign first. -/
  bits : BitVec f.width
  deriving DecidableEq

/-- A number of 32 bits. -/
abbrev Binary32 := Binary .single

/-- A number of 64 bits. -/
abbrev Binary64 := Binary .double

/-- What bits stand for, apart from the sign. -/
inductive Magnitude where
  | nan
  | infinite
  /-- The number `mantissa` · 2^`exponent`. -/
  | finite (mantissa : Nat) (exponent : Int)
  deriving DecidableEq, Repr

namespace Binary

variable {f : BinaryFormat}

/-- The sign bit is set. -/
def isNegative (x : Binary f) : Bool := x.bits.msb

/-- All bits but the sign. -/
def magnitudeBits (x : Binary f) : Nat :=
  x.bits.toNat % Nat.pow 2 (f.exponentBits + f.fractionBits)

/-- What the bits stand for, apart from the sign. -/
def magnitude (x : Binary f) : Magnitude :=
  let field := x.magnitudeBits / Nat.pow 2 f.fractionBits
  let fraction := x.magnitudeBits % Nat.pow 2 f.fractionBits
  if field = Nat.pow 2 f.exponentBits - 1 then if fraction = 0 then .infinite else .nan
  else if field = 0 then .finite fraction f.leastExponent
  else .finite (Nat.pow 2 f.fractionBits + fraction) (f.leastExponent + field - 1)

/-- The number is a NaN. -/
def IsNaN (x : Binary f) : Prop := x.magnitude = .nan

instance (x : Binary f) : Decidable x.IsNaN := inferInstanceAs (Decidable (x.magnitude = .nan))

/-- The number is one of the two zeros. -/
def IsZero (x : Binary f) : Prop := x.magnitudeBits = 0

instance (x : Binary f) : Decidable x.IsZero := inferInstanceAs (Decidable (x.magnitudeBits = 0))

/-- Both are numbers, and the same: equal bits, or two zeros. -/
def Equiv (x y : Binary f) : Prop :=
  ¬ x.IsNaN ∧ ¬ y.IsNaN ∧ (x = y ∨ x.IsZero ∧ y.IsZero)

instance (x y : Binary f) : Decidable (x.Equiv y) := by
  unfold Equiv
  infer_instance

/-- The number with the given sign and other bits. -/
def ofMagnitudeBits (negative : Bool) (bits : Nat) : Binary f :=
  ⟨BitVec.ofNat f.width
    ((if negative then Nat.pow 2 (f.exponentBits + f.fractionBits) else 0) + bits)⟩

/-- Zero without a sign. -/
def zero : Binary f := ofMagnitudeBits false 0

/-- Infinity with the given sign. -/
def infinity (negative : Bool) : Binary f := ofMagnitudeBits negative f.infinityBits

/-- The NaN that stands for all of them. -/
def nan : Binary f := ofMagnitudeBits false f.nanBits

end Binary

/-- The quotient rounded to the nearest whole number, a tie to the even one. -/
def roundEven (num den : Nat) : Nat :=
  let quotient := num / den
  let rest := num % den
  if 2 * rest < den then quotient
  else if den < 2 * rest then quotient + 1
  else quotient + quotient % 2

/-- The number nearest to `n` that has at most `bits` binary digits before the zeros at its end, a
tie going to the even one of these. -/
def roundBits (bits n : Nat) : Nat :=
  let unit := Nat.pow 2 (n.log2 + 1 - bits)
  roundEven n unit * unit

/-- The greatest `e` with 2^`e` ≤ `num` / `den`, both positive. -/
def floorLog (num den : Nat) : Int :=
  let guess := (num.log2 : Int) - den.log2
  if den * Nat.pow 2 guess.toNat ≤ num * Nat.pow 2 (-guess).toNat then guess else guess - 1

/-- The bits of the positive number nearest to `num` / `den`, a tie going to the even neighbour and
everything beyond the greatest number to infinity. -/
def roundRatio (f : BinaryFormat) (num den : Nat) : Nat :=
  if num = 0 then 0
  else
    let exponent := max (floorLog num den - f.fractionBits) f.leastExponent
    let mantissa := roundEven (num * Nat.pow 2 (-exponent).toNat) (den * Nat.pow 2 exponent.toNat)
    min f.infinityBits ((exponent - f.leastExponent).toNat * Nat.pow 2 f.fractionBits + mantissa)

/-- The number of a wider format that a number of 32 bits denotes. -/
def Binary.widen (x : Binary32) : Binary64 :=
  match x.magnitude with
  | .nan => .nan
  | .infinite => .infinity x.isNegative
  | .finite mantissa exponent =>
    .ofMagnitudeBits x.isNegative
      (roundRatio .double (mantissa * Nat.pow 2 exponent.toNat) (Nat.pow 2 (-exponent).toNat))

end XmlBinding.Number

import XmlBinding.Number.Binary.Decimal

/-!
# The range of JSON numerals

A numeral has a meaning within the range of floating point, as arithmetic of 64 bits finds it: the
first digits, as many as a word of 64 bits holds, and the power of ten that they count are each
rounded to a floating point number, and so is their product. A numeral just below the end of the
range may therefore be found to be beyond it.
-/

namespace XmlBinding.Json

/-- Append digits to a number as long as it fits a word of 64 bits: the number, and the digits left
over. -/
def takeWord (word : Nat) : List Char → Nat × List Char
  | [] => (word, [])
  | c :: rest =>
    let next := 10 * word + Number.read [c]
    if next < UInt64.size then takeWord next rest else (word, c :: rest)

/-- A numeral as a word of 64 bits, without its sign, and the exponent of the power of ten that the
word counts. Digits that the word cannot hold count for the exponent only. -/
def scaledWord? (numeral : List Char) : Option (Nat × Int) := do
  let (_, body) := Number.splitSign numeral
  let (mantissa, exponent) := Number.Binary.splitExponent body
  let (whole, fraction) := Number.Decimal.splitPoint mantissa
  let exponent ← Number.Binary.readExponent? exponent
  let (word, dropped) := takeWord 0 whole
  let (word, lost) := takeWord word fraction
  return (word, exponent + dropped.length + lost.length - fraction.length)

/-- The exponent of the greatest power of ten within the range. -/
def maxPowerOfTen : Int := 308

/-- Whether the product of a word and a power of ten stays within the range. -/
def isFiniteProduct (word exponent : Nat) : Bool :=
  let round := Number.roundBits (Number.BinaryFormat.double.fractionBits + 1)
  round (round word * round (Nat.pow 10 exponent)) <
    Nat.pow 2 (Number.BinaryFormat.double.bias + 1)

/-- Whether a numeral is within the range. Division by a power of ten never leaves it. -/
def isInRange (numeral : List Char) : Bool :=
  match scaledWord? numeral with
  | none => false
  | some (word, exponent) =>
    word == 0 || exponent < 0 ||
      (exponent ≤ maxPowerOfTen && isFiniteProduct word exponent.toNat)

end XmlBinding.Json

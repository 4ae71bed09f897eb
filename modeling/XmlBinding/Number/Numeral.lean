/-!
# Decimal numerals

Natural and whole numbers as digits. `read` inverts `write` (`read_write`), and what `write` writes
is a numeral (`isNumeral_write`).
-/

namespace XmlBinding.Number

/-- One or more ASCII digits. -/
def isNumeral (cs : List Char) : Bool := !cs.isEmpty && cs.all Char.isDigit

/-- The number that a row of digits denotes; zero for the empty row. -/
def read (cs : List Char) : Nat := Nat.ofDigitChars 10 cs 0

/-- A number in decimal digits, without leading zeros. -/
def write (n : Nat) : List Char := Nat.toDigits 10 n

/-- A number in decimal digits, filled up with zeros at the front to the given width. -/
def writePadded (width n : Nat) : List Char :=
  let digits := write n
  List.replicate (width - digits.length) '0' ++ digits

/-- A whole number in decimal digits, with a minus if it is negative. -/
def writeInt (n : Int) : List Char :=
  if n < 0 then '-' :: write n.natAbs else write n.natAbs

/-- A number in decimal digits, as a string. -/
def text (n : Nat) : String := String.ofList (write n)

/-- A whole number in decimal digits, as a string. -/
def intText (n : Int) : String := String.ofList (writeInt n)

/-- Take an optional sign off the front: whether it was a minus, and what follows. -/
def splitSign : List Char → Bool × List Char
  | '-' :: cs => (true, cs)
  | '+' :: cs => (false, cs)
  | cs => (false, cs)

/-- The number with the sign that `splitSign` found. -/
def applySign (negative : Bool) (n : Nat) : Int := if negative then -(n : Int) else n

/-- Reading undoes writing. -/
theorem read_write (n : Nat) : read (write n) = n := Nat.ofDigitChars_ten_toDigits

/-- What is written is a numeral. -/
theorem isNumeral_write (n : Nat) : isNumeral (write n) := by
  have digits : (write n).all Char.isDigit := by
    simp only [List.all_eq_true]
    exact fun c hc ↦ Nat.isDigit_of_mem_toDigits (by decide) (by decide) hc
  have nonempty : write n ≠ [] := Nat.toDigits_ne_nil
  simp [isNumeral, digits, nonempty]

end XmlBinding.Number

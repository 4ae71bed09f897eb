/-!
# Whole numbers in a range

Schema types and native types both confine whole numbers to a range that may be open at either end.
A `NativeInteger` is a number together with the native type that holds it, and lies in its range.
-/

namespace XmlBinding.Number

/-- A range of whole numbers, ends included; a missing end is open. -/
structure Bounds where
  least : Option Int
  greatest : Option Int
  deriving DecidableEq, Repr

/-- The number lies in the range. -/
def Bounds.Holds (b : Bounds) (n : Int) : Prop :=
  (∀ least ∈ b.least, least ≤ n) ∧ (∀ greatest ∈ b.greatest, n ≤ greatest)

instance (b : Bounds) (n : Int) : Decidable (b.Holds n) := by
  unfold Bounds.Holds
  infer_instance

namespace Bounds

/-- All whole numbers. -/
def all : Bounds := ⟨none, none⟩

/-- Two's complement numbers of the given width. -/
def signed (bits : Nat) : Bounds :=
  ⟨some (-(Nat.pow 2 (bits - 1) : Int)), some (Nat.pow 2 (bits - 1) - 1)⟩

/-- Natural numbers of the given width. -/
def unsigned (bits : Nat) : Bounds := ⟨some 0, some (Nat.pow 2 bits - 1)⟩

/-- The numbers from `n` on. -/
def atLeast (n : Int) : Bounds := ⟨some n, none⟩

/-- The numbers up to `n`. -/
def atMost (n : Int) : Bounds := ⟨none, some n⟩

end Bounds

/-- The native types of whole numbers. -/
inductive IntegerKind where
  | i8
  | i16
  | i32
  | i64
  | u8
  | u16
  | u32
  | u64
  | big
  deriving DecidableEq, Repr

namespace IntegerKind

/-- The range of a native type. -/
def bounds : IntegerKind → Bounds
  | .i8 => .signed 8
  | .i16 => .signed 16
  | .i32 => .signed 32
  | .i64 => .signed 64
  | .u8 => .unsigned 8
  | .u16 => .unsigned 16
  | .u32 => .unsigned 32
  | .u64 => .unsigned 64
  | .big => .all

/-- The identifier of a native type. -/
def id : IntegerKind → String
  | .i8 => "i8"
  | .i16 => "i16"
  | .i32 => "i32"
  | .i64 => "i64"
  | .u8 => "u8"
  | .u16 => "u16"
  | .u32 => "u32"
  | .u64 => "u64"
  | .big => "BigInt"

end IntegerKind

/-- A whole number held in a native type. -/
structure NativeInteger where
  kind : IntegerKind
  number : Int
  inRange : kind.bounds.Holds number
  deriving DecidableEq

/-- The number in the given native type, if it fits. -/
def NativeInteger.of? (kind : IntegerKind) (number : Int) : Option NativeInteger :=
  if h : kind.bounds.Holds number then some ⟨kind, number, h⟩ else none

private theorem IntegerKind.holds_zero (kind : IntegerKind) : kind.bounds.Holds 0 := by
  cases kind <;> decide

/-- Zero in the given native type. -/
def NativeInteger.zero (kind : IntegerKind) : NativeInteger := ⟨kind, 0, kind.holds_zero⟩

end XmlBinding.Number

/-!
# UTF-16

Texts as 16-bit units and as octets in either byte order. A character above U+FFFF takes two units,
a leading and a trailing surrogate; a surrogate without its partner is no text.
-/

namespace XmlBinding.Text.Utf16

/-- Which octet of a unit comes first. -/
inductive ByteOrder where
  | big
  | little
  deriving DecidableEq, Repr

/-- Why octets are no text. -/
inductive Fault where
  /-- The octets are odd in number. -/
  | truncated
  /-- A surrogate stands without its partner. -/
  | loneSurrogate
  deriving DecidableEq, Repr

/-- The wording of a fault. -/
def Fault.message : Fault → String
  | .truncated => "truncated UTF-16 input"
  | .loneSurrogate => "invalid utf-16: lone surrogate found"

/-- The units of a character. -/
def unitsOf (c : Char) : List Nat :=
  let code := c.toNat
  if code < 0x10000 then [code]
  else [0xD800 + (code - 0x10000) / 0x400, 0xDC00 + (code - 0x10000) % 0x400]

/-- The two octets of a unit. -/
def octetsOf (order : ByteOrder) (unit : Nat) : List UInt8 :=
  match order with
  | .big => [(unit / 256).toUInt8, (unit % 256).toUInt8]
  | .little => [(unit % 256).toUInt8, (unit / 256).toUInt8]

/-- The octets of a text. -/
def encode (order : ByteOrder) (cs : List Char) : List UInt8 :=
  (cs.flatMap unitsOf).flatMap (octetsOf order)

/-- Group octets into units. -/
def units (order : ByteOrder) : List UInt8 → Except Fault (List Nat)
  | [] => .ok []
  | [_] => .error .truncated
  | a :: b :: rest =>
    let unit := match order with
      | .big => a.toNat * 256 + b.toNat
      | .little => b.toNat * 256 + a.toNat
    (units order rest).map (unit :: ·)

/-- Whether a unit is the first half of a character. -/
def isLeading (unit : Nat) : Bool := 0xD800 ≤ unit && unit < 0xDC00

/-- Whether a unit is the second half of a character. -/
def isTrailing (unit : Nat) : Bool := 0xDC00 ≤ unit && unit < 0xE000

/-- The character of a leading and a trailing unit. -/
def pairCode (leading trailing : Nat) : Nat :=
  0x10000 + (leading - 0xD800) * 0x400 + (trailing - 0xDC00)

/-- Read units as text. -/
def ofUnits : List Nat → Except Fault (List Char)
  | [] => .ok []
  | u :: rest =>
    if isLeading u then
      match rest with
      | [] => .error .loneSurrogate
      | v :: rest =>
        if isTrailing v then (ofUnits rest).map (Char.ofNat (pairCode u v) :: ·)
        else .error .loneSurrogate
    else if isTrailing u then .error .loneSurrogate
    else (ofUnits rest).map (Char.ofNat u :: ·)

/-- Read octets as text. -/
def decode (order : ByteOrder) (octets : List UInt8) : Except Fault (List Char) :=
  units order octets >>= ofUnits

end XmlBinding.Text.Utf16

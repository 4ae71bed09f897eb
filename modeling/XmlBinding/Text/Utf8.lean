/-!
# UTF-8

Texts as octets, both ways. Reading stops at the first octet sequence that is no character and
says where it starts and how many octets of it could still have begun one. The bounds on the second
octet rule out overlong forms, surrogates and everything above U+10FFFF.
-/

namespace XmlBinding.Text.Utf8

/-- Why octets are no text: a sequence that can begin no character, or one cut short by the end. -/
inductive Fault where
  /-- The `length` octets at `index` are not the start of a character. -/
  | invalid (length index : Nat)
  /-- The octets from `index` to the end could still have become a character. -/
  | incomplete (index : Nat)
  deriving DecidableEq, Repr

/-- The wording of a fault. -/
def Fault.message : Fault → String
  | .invalid length index =>
    "invalid utf-8 sequence of " ++ toString length ++ " bytes from index " ++ toString index
  | .incomplete index => "incomplete utf-8 byte sequence from index " ++ toString index

/-- The octets of a character: one to four, the first telling how many follow. -/
def encodeChar (c : Char) : List UInt8 :=
  let code := c.toNat
  if code < 0x80 then [code.toUInt8]
  else if code < 0x800 then [(0xC0 + code / 64).toUInt8, (0x80 + code % 64).toUInt8]
  else if code < 0x10000 then
    [(0xE0 + code / 4096).toUInt8, (0x80 + code / 64 % 64).toUInt8, (0x80 + code % 64).toUInt8]
  else
    [(0xF0 + code / 262144).toUInt8, (0x80 + code / 4096 % 64).toUInt8,
      (0x80 + code / 64 % 64).toUInt8, (0x80 + code % 64).toUInt8]

/-- The octets of a text. -/
def encode (cs : List Char) : List UInt8 := cs.flatMap encodeChar

/-- What the first octet of a character asks of the octets after it. -/
inductive Lead where
  /-- The octet is a character by itself. -/
  | single
  /-- `tails` more octets follow, the first of them from `low` to `high`. -/
  | multi (tails low high : Nat)
  /-- No character starts with the octet. -/
  | none
  deriving DecidableEq, Repr

/-- The demands of a first octet. -/
def Lead.of (octet : Nat) : Lead :=
  if octet < 0x80 then .single
  else if 0xC2 ≤ octet ∧ octet ≤ 0xDF then .multi 1 0x80 0xBF
  else if octet = 0xE0 then .multi 2 0xA0 0xBF
  else if octet = 0xED then .multi 2 0x80 0x9F
  else if 0xE1 ≤ octet ∧ octet ≤ 0xEF then .multi 2 0x80 0xBF
  else if octet = 0xF0 then .multi 3 0x90 0xBF
  else if octet = 0xF4 then .multi 3 0x80 0x8F
  else if 0xF1 ≤ octet ∧ octet ≤ 0xF3 then .multi 3 0x80 0xBF
  else .none

/-- Whether an octet may continue a character after its second octet. -/
def isTail (octet : UInt8) : Bool := 0x80 ≤ octet.toNat && octet.toNat ≤ 0xBF

/-- The six bits that a continuing octet carries. -/
def payload (octet : UInt8) : Nat := octet.toNat % 64

/-- Put a character in front of a text that is still to be read. -/
def cons (code : Nat) (rest : Except Fault (List Char)) : Except Fault (List Char) :=
  rest.map (Char.ofNat code :: ·)

/-- Read octets as text; `index` counts the octets before them. -/
def decodeFrom (index : Nat) : List UInt8 → Except Fault (List Char)
  | [] => .ok []
  | a :: rest =>
    match Lead.of a.toNat with
    | .none => .error (.invalid 1 index)
    | .single => cons a.toNat (decodeFrom (index + 1) rest)
    | .multi tails low high =>
      match rest with
      | [] => .error (.incomplete index)
      | b :: rest =>
        if ¬ (low ≤ b.toNat ∧ b.toNat ≤ high) then .error (.invalid 1 index)
        else if tails = 1 then cons (a.toNat % 32 * 64 + payload b) (decodeFrom (index + 2) rest)
        else match rest with
          | [] => .error (.incomplete index)
          | c :: rest =>
            if ¬ isTail c then .error (.invalid 2 index)
            else if tails = 2 then
              cons (a.toNat % 16 * 4096 + payload b * 64 + payload c) (decodeFrom (index + 3) rest)
            else match rest with
              | [] => .error (.incomplete index)
              | d :: rest =>
                if ¬ isTail d then .error (.invalid 3 index)
                else
                  cons (a.toNat % 8 * 262144 + payload b * 4096 + payload c * 64 + payload d)
                    (decodeFrom (index + 4) rest)

/-- Read octets as text. -/
def decode (octets : List UInt8) : Except Fault (List Char) := decodeFrom 0 octets

example : decode (encode ['a', 'é', '日', '😀']) = .ok ['a', 'é', '日', '😀'] := rfl

example : decode [0x61, 0xE2, 0x82] = .error (.incomplete 1) := rfl

end XmlBinding.Text.Utf8

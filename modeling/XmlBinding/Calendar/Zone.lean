import XmlBinding.Number.Numeral
import XmlBinding.Text.Blank

/-!
# Offsets from universal time

Dates and times may carry an offset. `splitZone` cuts it off the end of a literal: `Z`, or a sign,
hours and minutes. A `Zoned` value is read as a body and a zone, and written so.
-/

namespace XmlBinding.Calendar

open Number

/-- The offset is shorter than a day. -/
def ValidOffset (seconds : Int) : Prop := -86400 < seconds ∧ seconds < 86400

instance (seconds : Int) : Decidable (ValidOffset seconds) := by
  unfold ValidOffset
  infer_instance

/-- The seconds by which a local clock is ahead of universal time. -/
structure Offset where
  /-- Seconds to the east. -/
  seconds : Int
  valid : ValidOffset seconds
  deriving DecidableEq

namespace Offset

/-- The offset of the given seconds, if it is shorter than a day. -/
def of? (seconds : Int) : Option Offset :=
  if h : ValidOffset seconds then some ⟨seconds, h⟩ else none

/-- Universal time itself. -/
def utc : Offset := ⟨0, by decide⟩

/-- The zone of a literal: `Z` for universal time, else a sign, hours and minutes; seconds are not
shown. -/
def write (o : Offset) : List Char :=
  if o.seconds = 0 then ['Z']
  else
    let size := o.seconds.natAbs
    (if o.seconds < 0 then '-' else '+') ::
      (writePadded 2 (size / 3600) ++ ':' :: writePadded 2 (size % 3600 / 60))

/-- Read a field of two characters: two digits, or a sign and a digit. -/
def readField? (cs : List Char) : Option Int :=
  let (negative, digits) := splitSign cs
  if isNumeral digits then some (applySign negative (read digits)) else none

/-- Read the hours and minutes of a zone, at most fourteen hours. -/
def read? (negative : Bool) (hours minutes : List Char) : Option Offset := do
  let hours ← readField? hours
  let minutes ← readField? minutes
  guard (¬ (14 < hours ∨ 59 < minutes ∨ hours = 14 ∧ minutes ≠ 0))
  let seconds := hours * 3600 + minutes * 60
  of? (if negative then -seconds else seconds)

end Offset

/-- Cut the zone off the end of a literal. A literal without one is left as it is; a zone that is
malformed makes it no literal. -/
def splitZone (cs : List Char) : Option (List Char × Option Offset) :=
  match cs.reverse with
  | 'Z' :: body => some (body.reverse, some .utc)
  | m₂ :: m₁ :: ':' :: h₂ :: h₁ :: sign :: c :: body =>
    if sign = '+' ∨ sign = '-' then
      (Offset.read? (sign = '-') [h₁, h₂] [m₁, m₂]).map fun o ↦ ((c :: body).reverse, some o)
    else some (cs, none)
  | _ => some (cs, none)

/-- The zone that a literal ends in; nothing without an offset. -/
def writeZone : Option Offset → List Char
  | none => []
  | some o => o.write

/-- A date, a time or both, with or without an offset. -/
structure Zoned (α : Type) where
  /-- What a local calendar or clock shows. -/
  value : α
  /-- How far it is ahead of universal time, if that is known. -/
  offset : Option Offset
  deriving DecidableEq

namespace Zoned

variable {α : Type}

/-- Read a literal whose surrounding blanks have been cut. No space may stand within it. -/
def readTrimmed? (readBody? : List Char → Option α) (cs : List Char) : Option (Zoned α) := do
  let (body, offset) ← splitZone cs
  guard (' ' ∉ body)
  return ⟨← readBody? body, offset⟩

/-- Read a literal with blanks around it. -/
def read? (readBody? : List Char → Option α) (cs : List Char) : Option (Zoned α) :=
  readTrimmed? readBody? (Text.trim cs)

/-- The literal: the body, then the zone. -/
def write (writeBody : α → List Char) (z : Zoned α) : List Char :=
  writeBody z.value ++ writeZone z.offset

end Zoned

end XmlBinding.Calendar

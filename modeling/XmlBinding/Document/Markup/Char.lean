import XmlBinding.Text.Blank
import XmlBinding.Text.Split

/-!
# Character classes of markup

Which characters a document may hold and which may stand in the names of its tags, and how a tag's
name is split into a prefix and a local part.
-/

namespace XmlBinding.Markup

open Text

/-- Whether a document may hold the character: no control characters but tab, line feed and carriage
return, and neither of the two last code points of the basic plane. -/
def isDocumentChar (c : Char) : Bool :=
  let code := c.toNat
  if code < 0x20 then isXmlSpace c else code ≠ 0xFFFE && code ≠ 0xFFFF

/-- Whether the character may start a name in a tag. -/
def isTagNameStart (c : Char) : Bool :=
  let code := c.toNat
  c.isAlpha || c == '_' || c == ':' ||
    (0xC0 ≤ code && code ≤ 0xD6) || (0xD8 ≤ code && code ≤ 0xF6) ||
    (0xF8 ≤ code && code ≤ 0x2FF) || (0x370 ≤ code && code ≤ 0x37D) ||
    (0x37F ≤ code && code ≤ 0x1FFF) || (0x200C ≤ code && code ≤ 0x200D) ||
    (0x2070 ≤ code && code ≤ 0x218F) || (0x2C00 ≤ code && code ≤ 0x2FEF) ||
    (0x3001 ≤ code && code ≤ 0xD7FF) || (0xF900 ≤ code && code ≤ 0xFDCF) ||
    (0xFDF0 ≤ code && code ≤ 0xFFFD) || (0x10000 ≤ code && code ≤ 0xEFFFF)

/-- Whether the character may stand in a name in a tag. -/
def isTagNameChar (c : Char) : Bool :=
  let code := c.toNat
  isTagNameStart c || c.isDigit || c == '-' || c == '.' || code == 0xB7 ||
    (0x300 ≤ code && code ≤ 0x36F) || (0x203F ≤ code && code ≤ 0x2040)

/-- The text without white space at its front. -/
def skipSpaces (cs : List Char) : List Char := cs.dropWhile isXmlSpace

/-- The text behind `lead`, if it starts with that. -/
def behind? (lead : List Char) (cs : List Char) : Option (List Char) :=
  if lead.isPrefixOf cs then some (cs.drop lead.length) else none

/-- The parts before and behind the first `stop`, if there is one. -/
def upTo? (stop : List Char) : List Char → Option (List Char × List Char)
  | [] => if stop.isEmpty then some ([], []) else none
  | c :: cs =>
    match behind? stop (c :: cs) with
    | some rest => some ([], rest)
    | none => (upTo? stop cs).map fun (before, rest) ↦ (c :: before, rest)

/-- A name as it stands in a tag. -/
structure TagName where
  /-- The prefix; empty if there is none. -/
  pre : List Char
  localPart : List Char
  deriving DecidableEq, Repr

/-- Split the characters of a name at its colon. A prefix that is not empty, and the local part,
must each start as a name does; a second colon is not allowed. -/
def TagName.of? (cs : List Char) : Option TagName :=
  match splitAll (· == ':') cs with
  | [localPart] => if localPart.head?.any isTagNameStart then some ⟨[], localPart⟩ else none
  | [pre, localPart] =>
    if (pre.isEmpty || pre.head?.any isTagNameStart) && localPart.head?.any isTagNameStart then
      some ⟨pre, localPart⟩
    else none
  | _ => none

/-- Read a name in a tag. -/
def readTagName? (cs : List Char) : Option (TagName × List Char) :=
  let name := cs.takeWhile isTagNameChar
  (TagName.of? name).map (·, cs.drop name.length)

end XmlBinding.Markup

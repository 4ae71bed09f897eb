import XmlBinding.Document.Markup.Char
import XmlBinding.Number.Numeral

/-!
# References and normalization

The characters of text and of attribute values stand in a document literally or as references. What
is literal is normalized: a line end of any kind becomes a line feed in text, and white space
becomes a space in an attribute value. What is a reference stays as it is.
-/

namespace XmlBinding.Markup

open Text

/-- A character of text or of an attribute value. -/
inductive Piece where
  | literal (c : Char)
  | reference (c : Char)
  deriving DecidableEq, Repr

/-- The value of a hexadecimal digit. -/
def hexDigit? (c : Char) : Option Nat :=
  if c.isDigit then some (c.toNat - '0'.toNat)
  else if 'a' ≤ c ∧ c ≤ 'f' then some (c.toNat - 'a'.toNat + 10)
  else if 'A' ≤ c ∧ c ≤ 'F' then some (c.toNat - 'A'.toNat + 10)
  else none

/-- The number that hexadecimal digits denote; there is at least one. -/
def readHex? (cs : List Char) : Option Nat :=
  if cs.isEmpty then none
  else cs.foldl (fun n c ↦ do return (← n) * 16 + (← hexDigit? c)) (some 0)

/-- The character of a code: the replacement character where the code is none, and nothing for one
that a document may not hold. -/
def charOfCode? (code : Nat) : Option Char :=
  if code < UInt32.size then
    let c := if code.isValidChar then Char.ofNat code else '\uFFFD'
    if isDocumentChar c then some c else none
  else none

/-- The character that a reference stands for, by what is between its ampersand and its
semicolon. -/
def referredChar? : List Char → Option Char
  | ['q', 'u', 'o', 't'] => some '"'
  | ['a', 'm', 'p'] => some '&'
  | ['a', 'p', 'o', 's'] => some '\''
  | ['l', 't'] => some '<'
  | ['g', 't'] => some '>'
  | '#' :: 'x' :: digits => (readHex? digits).bind charOfCode?
  | '#' :: digits =>
    if Number.isNumeral digits then charOfCode? (Number.read digits) else none
  | _ => none

/-- The pieces of a text; `none` if a reference in it is malformed or stands for nothing known.
`fuel` bounds the number of pieces. -/
def piecesWithin : (fuel : Nat) → List Char → Option (List Piece)
  | _, [] => some []
  | 0, _ => none
  | fuel + 1, '&' :: cs => do
    let (body, rest) ← splitFirst ';' cs
    return .reference (← referredChar? body) :: (← piecesWithin fuel rest)
  | fuel + 1, c :: cs => do return .literal c :: (← piecesWithin fuel cs)

/-- The pieces of a text; `none` if a reference in it is malformed or stands for nothing known. -/
def pieces? (cs : List Char) : Option (List Piece) := piecesWithin cs.length cs

/-- Put a character in front of what follows it, or have that hold it back if it is a carriage
return. -/
def putChar (c : Char) (rest : (held : Bool) → List Char) : List Char :=
  if c = '\r' then rest true else c :: rest false

/-- Text with its line ends settled. `held` means that a carriage return waits for what follows it:
the next literal character turns it into a line feed, and takes its own place unless it is the line
feed that belongs to the same line end. `verbatim` means that the next character comes directly
behind a reference and is taken as it stands. -/
def settleLineEnds (held verbatim : Bool) : List Piece → List Char
  | [] => if held then ['\r'] else []
  | .reference c :: rest =>
    (if held then ['\r'] else []) ++ putChar c fun held ↦ settleLineEnds held true rest
  | .literal c :: rest =>
    let continued := putChar c fun held ↦ settleLineEnds held false rest
    if verbatim then (if held then ['\r'] else []) ++ continued
    else if c = '\r' ∧ rest = [] then (if held then ['\n'] else []) ++ ['\n']
    else if held then '\n' :: if c = '\n' then settleLineEnds false false rest else continued
    else continued

/-- The value of text in content. -/
def textValue? (cs : List Char) : Option (List Char) :=
  (pieces? cs).map (settleLineEnds false false)

/-- The value of a section of character data, which has no references. -/
def dataValue (cs : List Char) : List Char := settleLineEnds false false (cs.map Piece.literal)

/-- An attribute value with literal white space turned into spaces, a line end into one. -/
def flattenSpaces : List Piece → List Char
  | [] => []
  | .reference c :: rest => c :: flattenSpaces rest
  | .literal c :: rest =>
    if c = '\r' ∧ rest.head? = some (.literal '\n') then flattenSpaces rest
    else (if isXmlSpace c then ' ' else c) :: flattenSpaces rest

/-- The value of an attribute. -/
def attributeValue? (cs : List Char) : Option (List Char) := (pieces? cs).map flattenSpaces

end XmlBinding.Markup

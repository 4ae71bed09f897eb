import XmlBinding.Json.Basic
import XmlBinding.Json.Text
import XmlBinding.Text.Blank

/-!
# Reading JSON

`Json.parse?` reads a whole text by the grammar of JSON, with nothing but white space around the
value.
-/

namespace XmlBinding.Json

/-- The text without the white space at its front. -/
def skipSpace (cs : List Char) : List Char := cs.dropWhile Text.isXmlSpace

/-- Take the longest row of digits off the front; there is at least one. -/
def takeDigits? (cs : List Char) : Option (List Char × List Char) :=
  let digits := cs.takeWhile Char.isDigit
  if digits.isEmpty then none else some (digits, cs.drop digits.length)

/-- Take the whole part of a numeral off the front: a zero, or digits that start with another. -/
def takeWhole? : List Char → Option (List Char × List Char)
  | '0' :: rest => some (['0'], rest)
  | cs => takeDigits? cs

/-- Take a point and digits off the front, if there is a point. -/
def takeFraction? : List Char → Option (List Char × List Char)
  | '.' :: rest => (takeDigits? rest).map fun (digits, rest) ↦ ('.' :: digits, rest)
  | cs => some ([], cs)

/-- Take the letter of an exponent, its sign and its digits off the front, if there is the
letter. -/
def takeExponent? (cs : List Char) : Option (List Char × List Char) :=
  match cs with
  | c :: rest =>
    if c = 'e' ∨ c = 'E' then
      match rest with
      | s :: tail =>
        if s = '+' ∨ s = '-' then
          (takeDigits? tail).map fun (digits, rest) ↦ (c :: s :: digits, rest)
        else (takeDigits? rest).map fun (digits, rest) ↦ (c :: digits, rest)
      | [] => none
    else some ([], cs)
  | [] => some ([], [])

/-- Take a minus off the front, if there is one. -/
def takeMinus : List Char → List Char × List Char
  | '-' :: rest => (['-'], rest)
  | cs => ([], cs)

/-- Take a numeral off the front. -/
def takeNumeral? (cs : List Char) : Option (List Char × List Char) := do
  let (minus, rest) := takeMinus cs
  let (whole, rest) ← takeWhole? rest
  let (fraction, rest) ← takeFraction? rest
  let (exponent, rest) ← takeExponent? rest
  return (minus ++ whole ++ fraction ++ exponent, rest)

/-- Read a quoted text behind its opening quote; the inner `none` is a text with half of a
character. -/
def readText? (cs : List Char) : Option (Option String × List Char) :=
  (readPieces? cs).map fun (pieces, rest) ↦ ((joinPieces? pieces).map String.ofList, rest)

/-- A text as a value. -/
def ofText : Option String → Json
  | some s => .string s
  | none => .unread

/-- Members as an object; without meaning if one of their names has none. -/
def ofMembers (members : List (Option String × Json)) : Json :=
  match members.mapM fun (name, value) ↦ name.map (·, value) with
  | some members => .object members
  | none => .unread

mutual

/-- Take a value off the front, white space before it included. -/
def readValue? : (fuel : Nat) → List Char → Option (Json × List Char)
  | 0, _ => none
  | fuel + 1, cs =>
    match skipSpace cs with
    | 'n' :: 'u' :: 'l' :: 'l' :: rest => some (.null, rest)
    | 't' :: 'r' :: 'u' :: 'e' :: rest => some (.bool true, rest)
    | 'f' :: 'a' :: 'l' :: 's' :: 'e' :: rest => some (.bool false, rest)
    | '"' :: rest => (readText? rest).map fun (text, rest) ↦ (ofText text, rest)
    | '[' :: rest =>
      match skipSpace rest with
      | ']' :: rest => some (.array [], rest)
      | rest => (readItems? fuel rest).map fun (items, rest) ↦ (.array items, rest)
    | '{' :: rest =>
      match skipSpace rest with
      | '}' :: rest => some (.object [], rest)
      | rest => (readMembers? fuel rest).map fun (members, rest) ↦ (ofMembers members, rest)
    | cs => (takeNumeral? cs).map fun (numeral, rest) ↦ (.number (String.ofList numeral), rest)

/-- Take the items of an array off the front, at least one, and the closing bracket. -/
def readItems? : (fuel : Nat) → List Char → Option (List Json × List Char)
  | 0, _ => none
  | fuel + 1, cs => do
    let (value, rest) ← readValue? fuel cs
    match skipSpace rest with
    | ',' :: rest => do
      let (more, rest) ← readItems? fuel rest
      return (value :: more, rest)
    | ']' :: rest => return ([value], rest)
    | _ => none

/-- Take the members of an object off the front, at least one, and the closing brace. -/
def readMembers? : (fuel : Nat) → List Char → Option (List (Option String × Json) × List Char)
  | 0, _ => none
  | fuel + 1, cs =>
    match skipSpace cs with
    | '"' :: rest => do
      let (name, rest) ← readText? rest
      match skipSpace rest with
      | ':' :: rest => do
        let (value, rest) ← readValue? fuel rest
        match skipSpace rest with
        | ',' :: rest => do
          let (more, rest) ← readMembers? fuel rest
          return ((name, value) :: more, rest)
        | '}' :: rest => return ([(name, value)], rest)
        | _ => none
      | _ => none
    | _ => none

end

/-- Read a text as one value. Every second step into the text takes a character, which bounds their
number. -/
def parse? (text : String) : Option Json :=
  match readValue? (2 * text.toList.length + 2) text.toList with
  | some (value, rest) => if (skipSpace rest).isEmpty then some value else none
  | none => none

end XmlBinding.Json

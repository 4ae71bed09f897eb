import XmlBinding.Json.Basic
import XmlBinding.Json.Text

/-!
# Printing JSON

The layout with one item or member a line, two spaces deeper than the line of the opening bracket.
An empty array or object is two brackets.
-/

namespace XmlBinding.Json

/-- The start of a line at a depth. -/
def lineStart (depth : Nat) : List Char := '\n' :: List.replicate (2 * depth) ' '

/-- Parts between brackets, each on a line of its own. -/
def block (opening closing : Char) (depth : Nat) : List (List Char) → List Char
  | [] => [opening, closing]
  | part :: parts =>
    opening :: (lineStart (depth + 1) ++ part ++
      parts.flatMap (fun p ↦ ',' :: (lineStart (depth + 1) ++ p)) ++ lineStart depth ++ [closing])

mutual

/-- A value that begins on a line of the given depth. A value without meaning is shown as null. -/
def print (depth : Nat) : Json → List Char
  | .null => ['n', 'u', 'l', 'l']
  | .unread => ['n', 'u', 'l', 'l']
  | .bool true => ['t', 'r', 'u', 'e']
  | .bool false => ['f', 'a', 'l', 's', 'e']
  | .number numeral => numeral.toList
  | .string s => quote s
  | .array items => block '[' ']' depth (printItems (depth + 1) items)
  | .object members => block '\x7b' '\x7d' depth (printMembers (depth + 1) members)

/-- The items of an array. -/
def printItems (depth : Nat) : List Json → List (List Char)
  | [] => []
  | v :: rest => print depth v :: printItems depth rest

/-- The members of an object, each a name, a colon, a space and a value. -/
def printMembers (depth : Nat) : List (String × Json) → List (List Char)
  | [] => []
  | (name, v) :: rest => (quote name ++ ':' :: ' ' :: print depth v) :: printMembers depth rest

end

/-- A value as a text. -/
def pretty (v : Json) : String := String.ofList (print 0 v)

end XmlBinding.Json

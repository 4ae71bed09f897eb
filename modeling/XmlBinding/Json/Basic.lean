/-!
# JSON values

A JSON text as a tree. Numbers stay the numerals that they are in the text, since most readers of
the tree want none of them, and objects keep their members in order, repeated names included.
-/

namespace XmlBinding

/-- A JSON value. -/
inductive Json where
  | null
  | bool (b : Bool)
  | number (numeral : String)
  | string (s : String)
  | array (items : List Json)
  | object (members : List (String × Json))
  /-- A well-formed value that has no meaning, since one of its texts holds half of a character; it
  can only be skipped. -/
  | unread
  deriving Inhabited

namespace Json

/-- The values of all members of a name. -/
def valuesOf (name : String) (members : List (String × Json)) : List Json :=
  members.filterMap fun m ↦ if m.1 = name then some m.2 else none

mutual

/-- The number of arrays and objects on the longest way into a value. -/
def height : Json → Nat
  | .array items => heightOfItems items + 1
  | .object members => heightOfMembers members + 1
  | _ => 0

/-- The greatest height of the items. -/
def heightOfItems : List Json → Nat
  | [] => 0
  | v :: rest => max (height v) (heightOfItems rest)

/-- The greatest height of the members. -/
def heightOfMembers : List (String × Json) → Nat
  | [] => 0
  | (_, v) :: rest => max (height v) (heightOfMembers rest)

end

mutual

/-- Whether `p` holds of a value and of all values within it. -/
def all (p : Json → Bool) : Json → Bool
  | .array items => p (.array items) && allItems p items
  | .object members => p (.object members) && allMembers p members
  | v => p v

/-- Whether `p` holds of all items and of all values within them. -/
def allItems (p : Json → Bool) : List Json → Bool
  | [] => true
  | v :: rest => all p v && allItems p rest

/-- Whether `p` holds of all members and of all values within them. -/
def allMembers (p : Json → Bool) : List (String × Json) → Bool
  | [] => true
  | (_, v) :: rest => all p v && allMembers p rest

end

end Json

end XmlBinding

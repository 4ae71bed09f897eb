import XmlBinding.Binding.Descriptor
import XmlBinding.Error
import XmlBinding.Json.Numeral
import XmlBinding.Json.Reader

/-!
# Descriptors from JSON

The other direction of the encoding, and more lenient: members may come in any order, unknown ones
are skipped, and a record may also be an array of its values. An entry is read as a whole before it
is taken apart, so that also its unknown members must have a meaning.
-/

namespace XmlBinding

namespace Json

/-- The known members of a record: of an object, in which each may occur once, or of an array, whose
items go by position. -/
def record? (names : List String) : Json → Option (List (String × Json))
  | .object members =>
    if names.all fun name ↦ (valuesOf name members).length ≤ 1 then some members else none
  | .array items => if items.length ≤ names.length then some (names.zip items) else none
  | _ => none

/-- Read a member that must be there. -/
def required? {α : Type} (read? : Json → Option α) (name : String)
    (members : List (String × Json)) : Option α :=
  (valuesOf name members).head?.bind read?

/-- Read a member that may be missing. -/
def optional? {α : Type} (missing : α) (read? : Json → Option α) (name : String)
    (members : List (String × Json)) : Option α :=
  match valuesOf name members with
  | [] => some missing
  | value :: _ => read? value

/-- Read a value that may be null. -/
def nullable? {α : Type} (read? : Json → Option α) : Json → Option (Option α)
  | .null => some none
  | value => (read? value).map some

/-- Read a text. -/
def text? : Json → Option String
  | .string s => some s
  | _ => none

/-- Read a truth value. -/
def flag? : Json → Option Bool
  | .bool b => some b
  | _ => none

/-- Read an array, item by item. -/
def items? {α : Type} (read? : Json → Option α) : Json → Option (List α)
  | .array items => items.mapM read?
  | _ => none

/-- Whether a value has a meaning by itself: it is no text with half of a character and no number
beyond the range of floating point. -/
def hasMeaning : Json → Bool
  | .unread => false
  | .number numeral => isInRange numeral.toList
  | _ => true

/-- How many arrays and objects may be nested in a text that is taken apart. -/
def maxNesting : Nat := 127

end Json

open Json

/-- Read a qualified name. -/
def QName.ofJson? (v : Json) : Option QName := v.text?.bind fun s ↦ (QName.ofClark s).toOption

/-- Read a native type. -/
def NativeId.ofJson? (v : Json) : Option NativeId := v.text?.map NativeId.mk

/-- The members of a binding name. -/
def BindingName.memberNames : List String := ["native", "schema"]

/-- Read a binding name from its members. -/
def BindingName.ofMembers? (members : List (String × Json)) : Option BindingName := do
  return ⟨← required? NativeId.ofJson? "native" members, ← required? QName.ofJson? "schema" members⟩

/-- Read a binding name. -/
def BindingName.ofJson? (v : Json) : Option BindingName :=
  (record? memberNames v).bind ofMembers?

/-- Read a property. -/
def Property.ofJson? (v : Json) : Option Property := do
  let members ←
    record? ["name", "qname", "type", "attribute", "multiple", "nillable", "default"] v
  return {
    name := ← required? text? "name" members
    qname := ← required? QName.ofJson? "qname" members
    type := ← required? BindingName.ofJson? "type" members
    isAttribute := ← optional? false flag? "attribute" members
    isMultiple := ← optional? false flag? "multiple" members
    isNillable := ← optional? false flag? "nillable" members
    default := ← optional? none (nullable? text?) "default" members }

/-- The kinds of layouts, as words or by position. -/
inductive KindWord where
  | builtin
  | byName
  | list
  | polymorphic
  deriving DecidableEq, Repr

/-- Read the kind of a layout: its word, or its number. -/
def KindWord.ofJson? : Json → Option KindWord
  | .string "builtin" => some .builtin
  | .string "by-name" => some .byName
  | .string "list" => some .list
  | .string "polymorphic" => some .polymorphic
  | .number "0" => some .builtin
  | .number "1" => some .byName
  | .number "2" => some .list
  | .number "3" => some .polymorphic
  | _ => none

/-- Read the optional base of a structure or polymorphic type. -/
def BindingKind.base? (members : List (String × Json)) : Option (Option BindingName) :=
  optional? none (nullable? BindingName.ofJson?) "base" members

/-- Read a layout of the given kind from its members. -/
def BindingKind.ofMembers? (word : KindWord) (v : Json) : Option BindingKind :=
  match word with
  | .builtin => do
    let members ← record? ["lexical"] v
    let space? (v : Json) : Option LexicalSpace := v.text?.bind LexicalSpace.ofSchemaName?
    return .builtin (← required? space? "lexical" members)
  | .byName => do
    let members ← record? ["base", "properties"] v
    return .byName (← base? members) (← required? (items? Property.ofJson?) "properties" members)
  | .list => do
    let members ← record? ["item", "item_element"] v
    return .list (← required? BindingName.ofJson? "item" members)
      (← required? QName.ofJson? "item_element" members)
  | .polymorphic => do
    let members ← record? ["base", "subtypes"] v
    return .polymorphic (← base? members)
      (← optional? [] (items? BindingName.ofJson?) "subtypes" members)

/-- Read a type: its name and its layout are the members of one object. -/
def BindingType.ofMembers? (members : List (String × Json)) : Option BindingType := do
  let known ← record? ("kind" :: BindingName.memberNames) (.object members)
  let name ← BindingName.ofMembers? known
  let word ← required? KindWord.ofJson? "kind" known
  return ⟨name, ← BindingKind.ofMembers? word (.object known)⟩

/-- The names of the flags of an entry. -/
def BindingEntry.flagNames : List String := ["native_default", "schema_default"]

/-- Read an entry, which is an object. All members but its flags must have a meaning and stay within
the bound on nesting, of which the entry itself takes three levels. -/
def BindingEntry.ofJson? : Json → Option BindingEntry
  | .object members => do
    let known ← record? flagNames (.object members)
    let rest := members.filter fun m ↦ !flagNames.contains m.1
    guard (rest.all fun m ↦ m.2.all hasMeaning && m.2.height + 3 ≤ maxNesting)
    return {
      type := ← BindingType.ofMembers? rest
      nativeDefault := ← optional? false flag? "native_default" known
      schemaDefault := ← optional? false flag? "schema_default" known }
  | _ => none

/-- Read a global element. -/
def ElementBinding.ofJson? (v : Json) : Option ElementBinding := do
  let members ← record? ["element", "type"] v
  return ⟨← required? QName.ofJson? "element" members,
    ← required? BindingName.ofJson? "type" members⟩

/-- Read a descriptor. -/
def Descriptor.ofJson? (v : Json) : Option Descriptor := do
  let members ← record? ["bindings", "elements"] v
  return ⟨← optional? [] (items? BindingEntry.ofJson?) "bindings" members,
    ← optional? [] (items? ElementBinding.ofJson?) "elements" members⟩

/-- Read a descriptor from a text. -/
def Descriptor.parse (text : String) : Except Error Descriptor :=
  match (Json.parse? text).bind Descriptor.ofJson? with
  | some d => .ok d
  | none => .error (.descriptor .malformed)

end XmlBinding

import XmlBinding.Conversion.Structure

/-!
# Generated converters

Every binding type has a converter that follows from its layout: text of a lexical space goes
through a codec, a structure by its properties, a list item by item. A polymorphic type is only
reached when nothing more is known: its values cannot be written, and its content is read as text.
-/

namespace XmlBinding

/-- The codec of a binding to a lexical space: of its native type if that is a scalar, else of the
space's default. -/
def BindingName.codec (name : BindingName) (space : LexicalSpace) : Codec :=
  ⟨space, (ScalarType.ofId? name.native.text).getD space.defaultType⟩

namespace Codec

/-- Print a value, with a prefix declared for its namespace if it needs one. -/
def printText (c : Codec) (value : Value) : Drafting (Except ConversionError String) :=
  match c.print value with
  | .error cause => return .error cause
  | .ok printed =>
    match printed.namespace? with
    | none => return .ok (printed.finish "")
    | some uri => do return .ok (printed.finish (← Drafting.prefixFor uri))

/-- Read a text by the declarations in scope. -/
def readText (c : Codec) (text : String) : Reading (Except ConversionError Value) := do
  return (c.read (← Reading.current).scope.namespaceOf? text).map Value.scalar

/-- Read the text of the current element; the native type's default stands in for a text that cannot
be read. -/
def readContent (c : Codec) : Reading Value := do
  match ← c.readText (← Reading.text) with
  | .ok value => return value
  | .error cause =>
    Reading.report (.conversion cause)
    return c.type.defaultValue

end Codec

namespace BindingType

/-- Write a list, an element for every item. -/
def writeList (s : WriteSession) (name item : BindingName) (itemElement : QName) (value : Value) :
    Drafting Unit :=
  match value with
  | .list items =>
    match s.catalog.typeNamed? item with
    | none => if items.isEmpty then return else s.unresolved item
    | some type => items.forM fun v ↦ s.child itemElement v type true
  | other => Drafting.report (.notAList name other.describe)

/-- Read the next child element as an item of a list. -/
def readItem (s : ReadSession) (name item : BindingName) (itemElement child : QName) :
    Reading (List Value) :=
  if child ≠ itemElement then do
    Reading.report (.elementInList child name)
    Reading.skipElement
    return []
  else match s.catalog.typeNamed? item with
    | some type => do return [← s.child type]
    | none => do
      s.unresolved item
      Reading.skipElement
      return []

/-- The values of the type are plain text. -/
def isSimple (t : BindingType) : Bool :=
  match t.kind with
  | .builtin _ => true
  | .byName _ _ => false
  | .list _ _ => false
  | .polymorphic _ _ => true

/-- The value that stands in for a text that cannot be read. -/
def default (t : BindingType) : Value :=
  match t.kind with
  | .builtin space => (t.name.codec space).type.defaultValue
  | .byName _ _ => .null
  | .list _ _ => .list []
  | .polymorphic _ _ => .null

/-- The text of a value of the type, if it has one. -/
def print (t : BindingType) (value : Value) : Drafting (Except ConversionError String) :=
  match t.kind with
  | .builtin space => (t.name.codec space).printText value
  | .byName _ _ => return .error (.notSimple t.name value.describe)
  | .list _ _ => return .error (.notSimple t.name value.describe)
  | .polymorphic _ _ => return .error (.unknownRuntimeType value.describe t.name)

/-- Fill the element at hand with a value of the type. -/
def write (t : BindingType) (s : WriteSession) (value : Value) : Drafting Unit :=
  match t.kind with
  | .builtin _ => Drafting.printed t.print value
  | .byName _ properties => writeStructure s t.name properties value
  | .list item itemElement => writeList s t.name item itemElement value
  | .polymorphic _ _ => Drafting.printed t.print value

/-- Read a value of the type from the content of the current element. -/
def read (t : BindingType) (s : ReadSession) : Reading Value :=
  match t.kind with
  | .builtin space => (t.name.codec space).readContent
  | .byName _ properties => readStructure s t.name properties
  | .list item itemElement => do
    return .list (← Reading.gather (readItem s t.name item itemElement))
  | .polymorphic _ _ => do return .ofString (← Reading.text)

/-- Read a value of the type from the text of an attribute. -/
def readAttribute (t : BindingType) (text : String) : Reading (Except ConversionError Value) :=
  match t.kind with
  | .builtin space => (t.name.codec space).readText text
  | .byName _ _ => return .error (.notAnAttribute t.name)
  | .list _ _ => return .error (.notAnAttribute t.name)
  | .polymorphic _ _ => return .ok (.ofString text)

end BindingType

end XmlBinding

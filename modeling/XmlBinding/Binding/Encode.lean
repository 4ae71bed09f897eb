import XmlBinding.Binding.Descriptor
import XmlBinding.Json.Printer

/-!
# Descriptors as JSON

Names are written as texts, flags and optional parts of a type only where they say something. An
entry is one object: the members of its type, then its two flags.
-/

namespace XmlBinding

/-- A qualified name as a text. -/
def QName.toJson (q : QName) : Json := .string q.clark

/-- A binding name as an object. -/
def BindingName.toJson (n : BindingName) : Json :=
  .object [("native", .string n.native.text), ("schema", n.schema.toJson)]

/-- A member that is there only if the flag is set. -/
def Json.flagMember (name : String) (flag : Bool) : List (String × Json) :=
  if flag then [(name, .bool true)] else []

/-- A member that is there only if there is a value. -/
def Json.optionalMember {α : Type} (name : String) (toJson : α → Json) :
    Option α → List (String × Json)
  | none => []
  | some a => [(name, toJson a)]

/-- A property as an object. -/
def Property.toJson (p : Property) : Json :=
  .object <|
    [("name", .string p.name), ("qname", p.qname.toJson), ("type", p.type.toJson)] ++
      Json.flagMember "attribute" p.isAttribute ++ Json.flagMember "multiple" p.isMultiple ++
      Json.flagMember "nillable" p.isNillable ++ Json.optionalMember "default" .string p.default

/-- The layout of a type as members, the first of which names its kind. -/
def BindingKind.members : BindingKind → List (String × Json)
  | .builtin space => [("kind", .string "builtin"), ("lexical", .string space.schemaName)]
  | .byName base properties =>
    ("kind", .string "by-name") :: Json.optionalMember "base" BindingName.toJson base ++
      [("properties", .array (properties.map Property.toJson))]
  | .list item itemElement =>
    [("kind", .string "list"), ("item", item.toJson), ("item_element", itemElement.toJson)]
  | .polymorphic base subtypes =>
    ("kind", .string "polymorphic") :: Json.optionalMember "base" BindingName.toJson base ++
      if subtypes.isEmpty then [] else [("subtypes", .array (subtypes.map BindingName.toJson))]

/-- A type as members: its name, then its layout. -/
def BindingType.members (t : BindingType) : List (String × Json) :=
  ("native", .string t.name.native.text) :: ("schema", t.name.schema.toJson) :: t.kind.members

/-- A type as an object. -/
def BindingType.toJson (t : BindingType) : Json := .object t.members

/-- An entry as an object. -/
def BindingEntry.toJson (e : BindingEntry) : Json :=
  .object (e.type.members ++
    [("native_default", .bool e.nativeDefault), ("schema_default", .bool e.schemaDefault)])

/-- A global element as an object. -/
def ElementBinding.toJson (b : ElementBinding) : Json :=
  .object [("element", b.element.toJson), ("type", b.type.toJson)]

/-- A descriptor as an object. -/
def Descriptor.toJson (d : Descriptor) : Json :=
  .object [("bindings", .array (d.bindings.map BindingEntry.toJson)),
    ("elements", .array (d.elements.map ElementBinding.toJson))]

/-- A descriptor as a text. -/
def Descriptor.toText (d : Descriptor) : String := d.toJson.pretty

end XmlBinding

import XmlBinding.Conversion.Input
import XmlBinding.Conversion.Output

/-!
# Structures

How a structure is written and read by its properties: first those that are attributes, then the
elements. Elements may be read in any order; of several elements of a property that is not repeated
the last one counts. The lists of those that are repeated are set in the end, in an order that is
left to chance (`ListOrder`).
-/

namespace XmlBinding

namespace Property

/-- Write a property that is an attribute; a null is left out. -/
def writeAttribute (s : WriteSession) (fields : Fields) (p : Property) : Drafting Unit :=
  let value := fields.get p.name
  if value.isNull then return
  else match s.catalog.typeNamed? p.type with
    | none => s.unresolved p.type
    | some type =>
      match s.writer? type.name with
      | none => s.unresolved type.name
      | some writer => do
        if ¬ writer.isSimple then
          Drafting.report (.complexAttribute p.qname type.name)
        else match ← writer.print value with
          | .ok text => Drafting.addAttribute p.qname text
          | .error cause => Drafting.report (.attribute p.qname cause)

/-- Write the items of a repeated property, the first of which has the given index. -/
def writeItems (s : WriteSession) (p : Property) (type : BindingType) :
    (index : Nat) → List Value → Drafting Unit
  | _, [] => return
  | index, item :: rest => do
    if item.isNull ∧ ¬ p.isNillable then
      Drafting.report (.nullItem p.name index)
    else
      s.child p.qname item type p.isNillable
    writeItems s p type (index + 1) rest

/-- Write a property that is an element, or several. -/
def writeElement (s : WriteSession) (fields : Fields) (p : Property) : Drafting Unit :=
  let value := fields.get p.name
  match s.catalog.typeNamed? p.type with
  | none => if value.isNull then return else s.unresolved p.type
  | some type =>
    if p.isMultiple then
      match value with
      | .null => return
      | .list items => p.writeItems s type 0 items
      | other => Drafting.report (.notRepeated p.name other.describe)
    else if value.isNull ∧ ¬ p.isNillable then return
    else s.child p.qname value type p.isNillable

/-- Read a property that is an attribute: its field, unless it is absent without a default. -/
def readAttribute (s : ReadSession) (p : Property) : Reading (Option (String × Value)) := do
  match (← Reading.attribute? p.qname).or p.default with
  | none => return none
  | some text =>
    match s.catalog.typeNamed? p.type with
    | none =>
      s.unresolved p.type
      return none
    | some type =>
      match s.reader? type.name with
      | none =>
        s.unresolved type.name
        return none
      | some reader =>
        match ← reader.ofAttribute text with
        | .ok value => return some (p.name, value)
        | .error cause =>
          Reading.report (.attribute p.qname cause)
          return some (p.name, reader.default)

end Property

namespace BindingType

/-- Write a value as a structure of the given properties. -/
def writeStructure (s : WriteSession) (name : BindingName) (properties : List Property)
    (value : Value) : Drafting Unit :=
  match value with
  | .struct _ fields => do
    (properties.filter (·.isAttribute)).forM (Property.writeAttribute s fields)
    (properties.filter (!·.isAttribute)).forM (Property.writeElement s fields)
  | other => Drafting.report (.notAStructure name other.describe)

/-- The first property that is an element of the given name, with its place among all. -/
def elementProperty? (properties : List Property) (child : QName) : Option (Property × Nat) :=
  properties.zipIdx.find? fun (p, _) ↦ !p.isAttribute && p.qname = child

/-- Read the next child element by the property of its name. -/
def readOccurrence (s : ReadSession) (name : BindingName) (properties : List Property)
    (child : QName) : Reading (List Occurrence) :=
  match elementProperty? properties child with
  | none => do
    Reading.report (.elementInStructure child name)
    Reading.skipElement
    return []
  | some (p, index) =>
    match s.catalog.typeNamed? p.type with
    | some type => do return [⟨index, p, ← s.child type⟩]
    | none => do
      s.unresolved p.type
      Reading.skipElement
      return []

/-- Set the field of a property that is not repeated. -/
def setOccurrence (fields : Fields) (o : Occurrence) : Fields :=
  if o.property.isMultiple then fields else fields.set o.property.name o.value

/-- Set the field of a repeated property to the list of all its values. -/
def setRepeated (occurrences : List Occurrence) (fields : Fields) (p : Property × Nat) : Fields :=
  if p.1.isMultiple ∧ ¬ p.1.isAttribute then
    fields.set p.1.name (.list ((occurrences.filter (·.index = p.2)).map (·.value)))
  else fields

/-- Set the fields of all repeated properties. Of several with one field the last one of the order
counts. Where a field stands among the others does not count, and it stands where the first of its
properties puts it. -/
def setLists (order : ListOrder) (occurrences : List Occurrence) (properties : List Property)
    (fields : Fields) : Fields :=
  let placed := properties.zipIdx.foldl (setRepeated occurrences) fields
  (order.arrange occurrences properties.zipIdx).foldl (setRepeated occurrences) placed

/-- Read a structure of the given properties. -/
def readStructure (s : ReadSession) (name : BindingName) (properties : List Property) :
    Reading Value := do
  let attributes ← (properties.filter (·.isAttribute)).mapM (Property.readAttribute s)
  let occurrences ← Reading.gather (readOccurrence s name properties)
  let fields := attributes.reduceOption.foldl (fun (fields : Fields) a ↦ fields.set a.1 a.2) []
  let fields := occurrences.foldl setOccurrence fields
  return .struct name.native (setLists s.order occurrences properties fields)

end BindingType

end XmlBinding

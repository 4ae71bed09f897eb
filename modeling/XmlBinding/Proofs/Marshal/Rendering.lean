import XmlBinding.Proofs.Context.Generated
import XmlBinding.Proofs.Conversion.Output

/-!
# What an element shows of a value

`Context.Renders` relates a value to the elements that may be written for it: the mark of its type,
the attributes that have a text, its own text, and the elements of its parts. It speaks of a
finished tree alone, not of how it is made. All declarations on the way from the root form a clear
scope, and the texts with prefixes resolve in it.
-/

namespace XmlBinding

/-! ### The parts of a value -/

/-- A part of a value that has an element of its own. -/
structure Part where
  name : QName
  value : Value
  declared : BindingName
  isNillable : Bool

/-- The elements that a property asks for: one, or one for every item. -/
def Property.parts (fields : Fields) (p : Property) : List Part :=
  if p.isMultiple then
    match fields.get p.name with
    | .list items => items.map fun item ↦ ⟨p.qname, item, p.type, p.isNillable⟩
    | _ => []
  else [⟨p.qname, fields.get p.name, p.type, p.isNillable⟩]

/-- A repeated property asks for an element for every item. -/
theorem Property.parts_of_list {p : Property} {fields : Fields} {items : List Value}
    (hm : p.isMultiple = true) (h : fields.get p.name = .list items) :
    p.parts fields = items.map fun item ↦ ⟨p.qname, item, p.type, p.isNillable⟩ := by
  rw [parts, if_pos hm, h]

/-- A property that is not repeated asks for one element. -/
theorem Property.parts_of_single {p : Property} (fields : Fields) (hm : p.isMultiple = false) :
    p.parts fields = [⟨p.qname, fields.get p.name, p.type, p.isNillable⟩] := by
  rw [parts, if_neg (by simp [hm])]

namespace BindingType

/-- The elements that a value of the type asks for. -/
def parts (t : BindingType) (value : Value) : List Part :=
  match t.kind, value with
  | .byName _ properties, .struct _ fields =>
    (properties.filter (!·.isAttribute)).flatMap (Property.parts fields)
  | .list item itemElement, .list items => items.map fun v ↦ ⟨itemElement, v, item, true⟩
  | _, _ => []

/-- The attributes that a value of the type asks for, with their values. -/
def attributeValues (t : BindingType) (value : Value) : List (Property × Value) :=
  match t.kind, value with
  | .byName _ properties, .struct _ fields =>
    (properties.filter (·.isAttribute)).map fun p ↦ (p, Fields.get fields p.name)
  | _, _ => []

/-- The codec of a type of text. -/
def codec? (t : BindingType) : Option Codec :=
  match t.kind with
  | .builtin space => some (t.name.codec space)
  | _ => none

/-- The text shows a value of the type. -/
def Shows (t : BindingType) (scope : NamespaceScope) (value : Value) (text : String) : Prop :=
  ∃ codec, t.codec? = some codec ∧ codec.Shows scope value text

/-- The value has no text in the type. -/
def Refuses (t : BindingType) (value : Value) : Prop :=
  ∀ codec, t.codec? = some codec → ∃ cause, codec.print value = .error cause

end BindingType

/-! ### Declarations -/

/-- The declarations of an element leave a clear scope that names the element's namespace. -/
structure NamespaceScope.Opens (outer : NamespaceScope) (name : QName)
    (declarations : List Declaration) : Prop where
  clear : (outer.push declarations).Clear
  named : name.uri = "" ∨ name.uri ∈ (outer.push declarations).declarations.map (·.uri)

/-! ### Elements -/

namespace Context

variable (c : Context)

/-- A value that is not null is left out of its parent: its type does not narrow the declared one,
or it has no text. -/
def LeavesOut (value : Value) (declared : BindingType) : Prop :=
  match c.effectiveType value declared with
  | .error _ => True
  | .ok effective => effective.type.isSimple = true ∧ effective.type.Refuses value

/-- A part has no element. -/
def Omits (part : Part) : Prop :=
  ∀ declared, c.catalog.typeNamed? part.declared = some declared →
    if part.value.isNull then part.isNillable = false else c.LeavesOut part.value declared

/-- What becomes of an attribute: it is written with a text that shows its value, or left out. -/
def ShowsAttribute (scope : NamespaceScope) (asked : Property × Value) :
    Option Attribute → Prop
  | some a => asked.2.isNull = false ∧ a.name = asked.1.qname ∧
      ∃ type, c.catalog.typeNamed? asked.1.type = some type ∧ type.Shows scope asked.2 a.value
  | none => asked.2.isNull = true ∨
      ∀ type, c.catalog.typeNamed? asked.1.type = some type → type.Refuses asked.2

/-- The mark of a type, if there is to be one: a text that resolves to its name. -/
def Marks (scope : NamespaceScope) (marked : Bool) (schema : QName) (marks : List Attribute) :
    Prop :=
  if marked then
    ∃ text, marks = [⟨.typeMarker, text⟩] ∧
      (isNCName schema.localPart.toList = true →
        QName.resolve scope.namespaceOf? text = .ok schema)
  else marks = []

/-- The text of an element; at the root it may be missing. -/
def ShowsText (scope : NamespaceScope) (isRoot : Bool) (type : BindingType) (value : Value)
    (texts : List Tree) : Prop :=
  if type.isSimple then
    (∃ text, type.Shows scope value text ∧ texts = if text = "" then [] else [.text text]) ∨
      (isRoot = true ∧ type.Refuses value ∧ texts = [])
  else texts = []

/-- A tree is an element that shows a value of a declared type within some declarations. -/
inductive Renders : Position → NamespaceScope → QName → Value → BindingType → Tree → Prop
  | null {position : Position} {outer : NamespaceScope} {name : QName} {declared : BindingType}
      {declarations : List Declaration} (opens : outer.Opens name declarations)
      (written : position.writesNull = true) :
      Renders position outer name .null declared
        (.element name [⟨.nilMarker, "true"⟩] declarations [])
  /-- Any other value has its mark, its attributes, its text and the elements of its parts. -/
  | made {position : Position} {outer : NamespaceScope} {name : QName} {value : Value}
      {declared : BindingType} {declarations : List Declaration} {effective : Effective}
      {marks : List Attribute} {shown : List ((Property × Value) × Option Attribute)}
      {texts : List Tree} {children : List (Part × Option Tree)}
      (opens : outer.Opens name declarations) (present : value.isNull = false)
      (chosen : c.effectiveType value declared = .ok effective)
      (marking : Marks (outer.push declarations) (effective.marked || position.isMarked)
        effective.type.name.schema marks)
      (asked : shown.map Prod.fst = effective.type.attributeValues value)
      (showing : ∀ s ∈ shown, c.ShowsAttribute (outer.push declarations) s.1 s.2)
      (content : ShowsText (outer.push declarations) position.isRoot effective.type value texts)
      (parts : children.map Prod.fst = effective.type.parts value)
      (omitted : ∀ child ∈ children, child.2 = none → c.Omits child.1)
      (resolved : ∀ child ∈ children, ∀ tree, child.2 = some tree →
        (c.catalog.typeNamed? child.1.declared).isSome = true)
      (rendered : ∀ child ∈ children, ∀ tree, child.2 = some tree →
        ∀ type, c.catalog.typeNamed? child.1.declared = some type →
          Renders (.child child.1.isNillable) (outer.push declarations) child.1.name child.1.value
            type tree) :
      Renders position outer name value declared
        (.element name (marks ++ (shown.map Prod.snd).reduceOption) declarations
          (texts ++ (children.map Prod.snd).reduceOption))

end Context

end XmlBinding

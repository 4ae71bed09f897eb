import XmlBinding.Lexical.Space

/-!
# Binding types

A binding type tells how the values of one native type are laid out as a schema type: as text, as a
structure of named properties, as a list, or as whatever narrower type the value turns out to have.
Structures narrow one another through their bases. `BindingType.derivesFrom` follows those links,
and `BindingType.admits` tells which types may stand in for a declared one.
-/

namespace XmlBinding

/-- One property of a structure. -/
structure Property where
  /-- The name of the field in the native structure. -/
  name : String
  /-- The name of the element or attribute in documents. -/
  qname : QName
  /-- The type of the value, or of each of the values. -/
  type : BindingName
  isAttribute : Bool
  /-- The element may be repeated, and the field holds a list. -/
  isMultiple : Bool
  /-- A null is written as an element marked as null. -/
  isNillable : Bool
  /-- The text that stands in for an absent attribute. -/
  default : Option String
  deriving DecidableEq, Repr

namespace Property

/-- A property that is an element. -/
def element (name : String) (qname : QName) (type : BindingName) : Property :=
  ⟨name, qname, type, false, false, false, none⟩

/-- A property that is an attribute. -/
def ofAttribute (name : String) (qname : QName) (type : BindingName) : Property :=
  { element name qname type with isAttribute := true }

/-- The property with repetition allowed. -/
def repeated (p : Property) : Property := { p with isMultiple := true }

/-- The property with nulls written out. -/
def withNull (p : Property) : Property := { p with isNillable := true }

/-- The property with a text for its absence. -/
def withDefault (p : Property) (text : String) : Property := { p with default := some text }

end Property

/-- How values of a binding type are laid out. -/
inductive BindingKind where
  | builtin (space : LexicalSpace)
  /-- A structure with its properties in document order, which may narrow another structure. -/
  | byName (base : Option BindingName) (properties : List Property)
  /-- One child element for every item. -/
  | list (item : BindingName) (itemElement : QName)
  /-- A type whose instances are of narrower types, of any at all if no subtypes are listed. -/
  | polymorphic (base : Option BindingName) (subtypes : List BindingName)
  deriving DecidableEq, Repr

/-- A binding: its name and how its values are laid out. -/
structure BindingType where
  name : BindingName
  kind : BindingKind
  deriving DecidableEq, Repr

namespace BindingType

/-- A type of plain text. -/
def builtin (name : BindingName) (space : LexicalSpace) : BindingType := ⟨name, .builtin space⟩

/-- A structure without a base. -/
def byName (name : BindingName) (properties : List Property) : BindingType :=
  ⟨name, .byName none properties⟩

/-- A structure that narrows another. -/
def derived (name base : BindingName) (properties : List Property) : BindingType :=
  ⟨name, .byName (some base) properties⟩

/-- A list with an element for every item. -/
def list (name item : BindingName) (itemElement : QName) : BindingType :=
  ⟨name, .list item itemElement⟩

/-- A type of narrower types. -/
def polymorphic (name : BindingName) (base : Option BindingName) (subtypes : List BindingName) :
    BindingType :=
  ⟨name, .polymorphic base subtypes⟩

/-- The type stands for narrower types. -/
def isPolymorphic (t : BindingType) : Bool :=
  match t.kind with
  | .polymorphic _ _ => true
  | _ => false

/-- The structure that a structure narrows. -/
def base? (t : BindingType) : Option BindingName :=
  match t.kind with
  | .byName base _ => base
  | _ => none

/-- The properties of a structure. -/
def properties (t : BindingType) : List Property :=
  match t.kind with
  | .byName _ properties => properties
  | _ => []

/-- The longest chain of bases that is followed before it is given up as circular. -/
def maxBaseDepth : Nat := 64

/-- Whether `ancestor` is on the chain of bases that begins with `next?`. A name is compared before
the chain is followed beyond it, which happens `depth` times at most. -/
def chainReaches (lookUp : BindingName → Option BindingType) (ancestor : BindingName) :
    (depth : Nat) → (next? : Option BindingName) → Bool
  | _, none => false
  | 0, some name => name = ancestor
  | depth + 1, some name =>
    name = ancestor || chainReaches lookUp ancestor depth ((lookUp name).bind base?)

/-- The type has the name, or narrows the structure of that name through its bases. -/
def derivesFrom (lookUp : BindingName → Option BindingType) (t : BindingType)
    (ancestor : BindingName) : Bool :=
  t.name = ancestor || chainReaches lookUp ancestor maxBaseDepth t.base?

/-- Whether `candidate` may stand in for the type. A structure admits what narrows it, a polymorphic
type what derives from one of its subtypes, and every other type only itself. -/
def admits (lookUp : BindingName → Option BindingType) (t candidate : BindingType) : Bool :=
  match t.kind with
  | .polymorphic _ [] => true
  | .polymorphic _ subtypes => subtypes.any (candidate.derivesFrom lookUp)
  | .byName _ _ => candidate.derivesFrom lookUp t.name
  | _ => candidate.name = t.name

/-- Every structure admits itself. -/
theorem admits_self (lookUp : BindingName → Option BindingType) (t : BindingType)
    (h : t.isPolymorphic = false) : t.admits lookUp t := by
  unfold admits
  split <;> simp_all [isPolymorphic, derivesFrom]

end BindingType

end XmlBinding

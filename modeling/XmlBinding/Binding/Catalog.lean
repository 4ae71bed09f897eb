import XmlBinding.Binding.Descriptor

/-!
# Catalogs

A catalog is a row of descriptors. Every question goes to them in order, and the first answer
counts; definitions are never merged. The descriptor of the built-in types usually stands last.
-/

namespace XmlBinding

/-- Descriptors in order of precedence. -/
structure Catalog where
  descriptors : List Descriptor
  deriving DecidableEq, Repr

namespace Catalog

/-- The type of a name. -/
def typeNamed? (c : Catalog) (name : BindingName) : Option BindingType :=
  c.descriptors.findSome? (·.typeNamed? name)

/-- The default type of a native type. -/
def typeOfNative? (c : Catalog) (native : NativeId) : Option BindingName :=
  c.descriptors.findSome? (·.typeOfNative? native)

/-- The default type of a schema type. -/
def typeOfSchema? (c : Catalog) (schema : QName) : Option BindingName :=
  c.descriptors.findSome? (·.typeOfSchema? schema)

/-- The type of a global element. -/
def typeOfElement? (c : Catalog) (element : QName) : Option BindingName :=
  c.descriptors.findSome? (·.typeOfElement? element)

/-- The global element of a native type. -/
def elementOfNative? (c : Catalog) (native : NativeId) : Option QName :=
  c.descriptors.findSome? (·.elementOfNative? native)

/-- Whether a type has the name `ancestor` or narrows the structure of that name. -/
def derives (c : Catalog) (t : BindingType) (ancestor : BindingName) : Bool :=
  t.derivesFrom c.typeNamed? ancestor

/-- Whether `candidate` may stand in for a type. -/
def admits (c : Catalog) (t candidate : BindingType) : Bool := t.admits c.typeNamed? candidate

end Catalog

end XmlBinding

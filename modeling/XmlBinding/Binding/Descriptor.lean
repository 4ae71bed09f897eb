import XmlBinding.Binding.Type

/-!
# Descriptors

A descriptor lists binding types and the types of global elements. It answers five questions from an
`Index`: the type of a name, the default types of a native type, of a schema type and of an element,
and the element of a native type. The index is filled in passes over the lists, and an answer is
entered only where there is none: first all types by name and as the defaults that they are flagged
as, then all types as defaults, and then the elements.
-/

namespace XmlBinding

/-- A binding type in a descriptor. -/
structure BindingEntry where
  type : BindingType
  /-- The type is the default of its native type. -/
  nativeDefault : Bool
  /-- The type is the default of its schema type. -/
  schemaDefault : Bool
  deriving DecidableEq, Repr

/-- An entry without flags. -/
def BindingEntry.plain (type : BindingType) : BindingEntry := ⟨type, false, false⟩

/-- A global element and the type of its content. -/
structure ElementBinding where
  element : QName
  type : BindingName
  deriving DecidableEq, Repr

/-- Binding types and global elements. -/
structure Descriptor where
  bindings : List BindingEntry
  elements : List ElementBinding
  deriving DecidableEq, Repr

/-- Answers with one more, unless there is one to its question already. -/
def enterNew {α β : Type} [DecidableEq α] (answers : α → Option β) (key : α) (answer : β) :
    α → Option β :=
  fun k ↦ (answers k).or (if k = key then some answer else none)

/-- The answers of a descriptor to questions of every kind. -/
structure Index where
  types : BindingName → Option BindingType
  natives : NativeId → Option BindingName
  schemas : QName → Option BindingName
  elements : QName → Option BindingName
  nativeElements : NativeId → Option QName

namespace Index

/-- No answers. -/
def empty : Index :=
  ⟨fun _ ↦ none, fun _ ↦ none, fun _ ↦ none, fun _ ↦ none, fun _ ↦ none⟩

/-- Enter a type under its name, and as the defaults that it is flagged as. -/
def enter (x : Index) (e : BindingEntry) : Index :=
  let name := e.type.name
  { x with
    types := enterNew x.types name e.type
    natives := if e.nativeDefault then enterNew x.natives name.native name else x.natives
    schemas := if e.schemaDefault then enterNew x.schemas name.schema name else x.schemas }

/-- Enter a type as the default of its native type and of its schema type. -/
def enterDefaults (x : Index) (t : BindingType) : Index :=
  { x with
    natives := enterNew x.natives t.name.native t.name
    schemas := enterNew x.schemas t.name.schema t.name }

/-- Enter a global element and its type under one another. -/
def enterElement (x : Index) (b : ElementBinding) : Index :=
  { x with
    elements := enterNew x.elements b.element b.type
    nativeElements := enterNew x.nativeElements b.type.native b.element }

end Index

namespace Descriptor

/-- The descriptor that lists nothing. -/
def empty : Descriptor := ⟨[], []⟩

/-- The binding types in order. -/
def types (d : Descriptor) : List BindingType := d.bindings.map (·.type)

/-- The answers to all questions, filled in pass by pass. -/
def index (d : Descriptor) : Index :=
  d.elements.foldl .enterElement (d.types.foldl .enterDefaults (d.bindings.foldl .enter .empty))

/-- The type of a name. -/
def typeNamed? (d : Descriptor) (name : BindingName) : Option BindingType := d.index.types name

/-- The default type of a native type. -/
def typeOfNative? (d : Descriptor) (native : NativeId) : Option BindingName :=
  d.index.natives native

/-- The default type of a schema type. -/
def typeOfSchema? (d : Descriptor) (schema : QName) : Option BindingName := d.index.schemas schema

/-- The type of a global element. -/
def typeOfElement? (d : Descriptor) (element : QName) : Option BindingName :=
  d.index.elements element

/-- The global element of a native type. -/
def elementOfNative? (d : Descriptor) (native : NativeId) : Option QName :=
  d.index.nativeElements native

/-- The names of the types, each once. -/
def names (d : Descriptor) : List BindingName := (d.types.map (·.name)).eraseDups

end Descriptor

end XmlBinding

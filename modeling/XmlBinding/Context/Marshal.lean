import XmlBinding.Context.Basic

/-!
# Marshalling

A value becomes an element. Its declared type may be narrowed by the type that the value itself has,
and then the element is marked with that type. A child that cannot be written leaves no trace but a
problem; at the root the same is an error, or an element without content.
-/

namespace XmlBinding.Context

/-- Where an element stands. -/
inductive Position where
  /-- At the root, with or without a mark of its type in any case. -/
  | root (marked : Bool)
  /-- Within another element; a null may or may not be written. -/
  | child (nillable : Bool)
  deriving DecidableEq, Repr

namespace Position

/-- The element is the root. -/
def isRoot : Position → Bool
  | .root _ => true
  | .child _ => false

/-- A null is written, as an element marked as null. -/
def writesNull : Position → Bool
  | .root _ => true
  | .child nillable => nillable

/-- The type of the element is marked even if it is the declared one. -/
def isMarked : Position → Bool
  | .root marked => marked
  | .child _ => false

end Position

/-- The type that a value is written with. -/
structure Effective where
  type : BindingType
  /-- The element is marked with the type. -/
  marked : Bool
  deriving DecidableEq, Repr

/-- The type that a polymorphic type stands for where nothing narrower is known. -/
def polymorphicBase? (c : Context) (t : BindingType) : Option BindingType :=
  match t.kind with
  | .polymorphic (some base) _ => c.catalog.typeNamed? base
  | _ => none

/-- The value's own type, where it may differ from the declared one: below a polymorphic type, or if
the native types differ. -/
def narrowed? (c : Context) (value : Value) (declared : BindingType) : Option BindingType :=
  if declared.isPolymorphic ∨ (c.identify value).any (· ≠ declared.name.native) then
    c.typeOfValue? value
  else none

/-- The type to write a value with. The error is the value's own type where the declared type is a
structure that it does not narrow. -/
def effectiveType (c : Context) (value : Value) (declared : BindingType) :
    Except BindingType Effective :=
  let base := c.polymorphicBase? declared
  let plain : Effective := ⟨base.getD declared, false⟩
  match c.narrowed? value declared with
  | none => .ok plain
  | some found =>
    if base.any (·.name = found.name) ∨ found.name = declared.name then .ok plain
    else if c.catalog.admits declared found then .ok ⟨found, true⟩
    else match declared.kind with
      | .byName _ _ => .error found
      | _ => .ok plain

/-- What a call offers to converters, given how it writes child elements. -/
def writeSession (c : Context) (strict : Bool)
    (child : QName → Value → BindingType → (nillable : Bool) → Drafting Unit) :
    (handovers : Nat) → WriteSession
  | 0 => ⟨c.catalog, strict, child, fun _ ↦ none⟩
  | handovers + 1 =>
    { catalog := c.catalog
      strict
      child
      writer? name :=
        (c.table.marshaller? name).map (·.writer (writeSession c strict child handovers)) }

/-- Fill the element at hand with a value of a type. The result tells whether the element is kept,
which it is at the root even if the value has no text. -/
def fill (writer : ValueWriter) (isRoot : Bool) (name : QName) (value : Value) : Drafting Bool := do
  if writer.isSimple then
    match ← writer.print value with
    | .ok text =>
      Drafting.characters text
      return true
    | .error cause =>
      Drafting.report (.element name cause)
      return isRoot
  else
    writer.content value
    return true

/-- Mark the element at hand with a type. -/
def markType (type : BindingType) : Drafting Unit := do
  Drafting.addAttribute .typeMarker (← Drafting.lexicalName type.name.schema)

/-- Note a problem outside of any element. -/
def note (problem : Problem) : Writing Unit :=
  modify fun log ↦ { log with diagnostics := log.diagnostics ++ [⟨problem, none⟩] }

/-- Make the element of a null. -/
def nullElement (outer : NamespaceScope) (name : QName) : Writing (Option Tree) :=
  Drafting.build outer name do
    Drafting.addAttribute .nilMarker "true"
    return true

/-- Make the element of a value that is not null, by the converters of the given session. -/
def valueElement (c : Context) (session : WriteSession) (outer : NamespaceScope)
    (position : Position) (name : QName) (value : Value) (declared : BindingType) :
    Writing (Option Tree) :=
  match c.effectiveType value declared with
  | .error found =>
    if position.isRoot then
      throw (.structural (.notNarrowing name found.name declared.name) none)
    else do
      note (.notNarrowing name found.name declared.name)
      return none
  | .ok effective =>
    match session.writer? effective.type.name with
    | none =>
      if position.isRoot ∨ session.strict then throw (.unresolvedType effective.type.name)
      else do
        note (.unresolvedType effective.type.name)
        return none
    | some writer =>
      Drafting.build outer name do
        if effective.marked ∨ position.isMarked then
          markType effective.type
        fill writer position.isRoot name value

/-- Make the element of a value within the given declarations, if there is one. Converters hand
parts of the value on to child elements, so that `depth` need not exceed the value's height by more
than one. -/
def element (c : Context) (strict : Bool) :
    (depth : Nat) → (outer : NamespaceScope) → Position → QName → Value → BindingType →
      Writing (Option Tree)
  | 0, _, _, _, _, _ => return none
  | depth + 1, outer, position, name, value, declared =>
    if value.isNull then
      if position.writesNull then nullElement outer name else return none
    else
      let child (name : QName) (value : Value) (declared : BindingType) (nillable : Bool) :
          Drafting Unit := do
        let draft ← getThe Draft
        match ← element c strict depth draft.scope (.child nillable) name value declared with
        | some tree => modifyThe Draft (·.add tree)
        | none => return
      valueElement c (c.writeSession strict child c.maxHandovers) outer position name value declared

/-- The document of a value. -/
def document (c : Context) (strict marked : Bool) (name : QName) (value : Value)
    (declared : BindingType) : Writing EventStream := do
  let tree ← c.element strict (value.height + 1) .empty (.root marked) name value declared
  return .ofEvents (Tree.eventsOfAll tree.toList)

/-- The document of a value whose type is declared. -/
def marshalDeclared (c : Context) (strict : Bool) (name : QName) (value : Value)
    (declared : BindingName) : Writing EventStream :=
  match c.catalog.typeNamed? declared with
  | some type => c.document strict false name value type
  | none => throw (.unresolvedType declared)

/-- The document of a value by its own type. Without a global element for the native type, the root
is named after the schema type and marked with it. -/
def marshalDetected (c : Context) (strict : Bool) (value : Value) : Writing EventStream :=
  match c.identify value with
  | none => throw (.structural .undetectableType none)
  | some native =>
    match c.catalog.typeOfNative? native with
    | none => throw (.unresolvedNative native)
    | some name =>
      match c.catalog.typeNamed? name with
      | none => throw (.unresolvedType name)
      | some type =>
        match c.catalog.elementOfNative? native with
        | some root => c.document strict false root value type
        | none => c.document strict true name.schema value type

end XmlBinding.Context

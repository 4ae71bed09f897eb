import XmlBinding.Context.Basic

/-!
# Unmarshalling

An element becomes a value. The type that the element names counts if it may stand in for the
declared one; a root element without either has the type of its name, or else the context's default.
Whatever becomes of the value, reading goes on behind the end of the element.
-/

namespace XmlBinding.Context

/-- What a call offers to converters, given how it reads child elements. -/
def readSession (c : Context) (strict : Bool) (child : BindingType → Reading Value) :
    (handovers : Nat) → ReadSession
  | 0 => ⟨c.catalog, strict, child, c.order, fun _ ↦ none⟩
  | handovers + 1 =>
    { catalog := c.catalog
      strict
      child
      order := c.order
      reader? name :=
        (c.table.unmarshaller? name).map (·.reader (readSession c strict child handovers)) }

/-- The type of a root element that names none. -/
def rootType (c : Context) (name : QName) : Except Error BindingType :=
  match (c.catalog.typeOfElement? name).or c.defaultRoot with
  | none => .error (.unresolvedElement name)
  | some type =>
    match c.catalog.typeNamed? type with
    | some type => .ok type
    | none => .error (.unresolvedType type)

/-- The type that the current element names, if it may be used. -/
def markedType? (c : Context) (strict : Bool) (declared : Option BindingType) :
    Reading (Option BindingType) := do
  match ← Reading.attribute? .typeMarker with
  | none => return none
  | some text =>
    match QName.resolve (← Reading.current).scope.namespaceOf? text with
    | .error cause =>
      Reading.report (.invalidTypeMarker cause)
      return none
    | .ok schema =>
      match (c.catalog.typeOfSchema? schema).bind c.catalog.typeNamed?, declared with
      | some found, none => return some found
      | some found, some declared =>
        if declared.name = found.name ∨ c.catalog.admits declared found then return some found
        else
          Reading.report (.typeNotAdmitted found.name declared.name)
          return none
      | none, declared =>
        if strict then throw (.unresolvedSchemaType schema)
        Reading.report (.unknownTypeMarker schema declared.isSome)
        return none

/-- The type to read the current element with; none if the base of a polymorphic type has no
binding. -/
def readType? (c : Context) (session : ReadSession) (declared : Option BindingType) (name : QName) :
    Reading (Option BindingType) := do
  let chosen ←
    match (← c.markedType? session.strict declared).or declared with
    | some type => pure type
    | none => MonadExcept.ofExcept (c.rootType name)
  match chosen.kind with
  | .polymorphic (some base) _ =>
    match c.catalog.typeNamed? base with
    | some type => return some type
    | none =>
      session.unresolved base
      return none
  | _ => return some chosen

/-- The current element is marked as null. -/
def isMarkedNull : Reading Bool := do
  return match ← Reading.attribute? .nilMarker with
    | some text => Text.trimmed text = "true" ∨ Text.trimmed text = "1"
    | none => false

/-- Read the value of the current element by its type, without its end. -/
def readValue (c : Context) (session : ReadSession) (declared : Option BindingType) (name : QName) :
    Reading Value := do
  if ← isMarkedNull then return .null
  match ← c.readType? session declared name with
  | none => return .null
  | some type =>
    match session.reader? type.name with
    | some reader => reader.content
    | none =>
      if declared.isNone then throw (.unresolvedType type.name)
      session.unresolved type.name
      return .null

/-- Read the next element within the given declarations, text before it being passed over. Every
element takes an event, so that `depth` need not exceed the number of events. -/
def readElement (c : Context) (strict : Bool) :
    (depth : Nat) → (outer : NamespaceScope) → (declared : Option BindingType) → Scanning Value
  | 0, _, _ => do throw (.structural .expectedOpening (← get).location)
  | depth + 1, outer, declared => do
    modify fun cursor ↦ { cursor with rest := cursor.rest.dropWhile (·.isText) }
    let cursor ← get
    match cursor.rest with
    | ⟨.opening name attributes declarations, location⟩ :: rest =>
      set { cursor with rest }
      let child (type : BindingType) : Reading Value := do
        readElement c strict depth (← Reading.current).scope (some type)
      let session := c.readSession strict child c.maxHandovers
      (do
        let value ← c.readValue session declared name
        Reading.leave
        return value : Reading Value).run ⟨attributes, location, outer.push declarations⟩
    | _ => throw (.structural .expectedOpening cursor.location)

/-- Read the element at the front of a document. -/
def readRoot (c : Context) (strict : Bool) (declared : Option BindingType) : Scanning Value := do
  c.readElement strict (← get).rest.length .empty declared

/-- Read a document whose root type is declared. -/
def unmarshalDeclared (c : Context) (strict : Bool) (declared : BindingName) : Scanning Value :=
  match c.catalog.typeNamed? declared with
  | some type => c.readRoot strict (some type)
  | none => throw (.unresolvedType declared)

/-- Read a document by its root element. -/
def unmarshalDetected (c : Context) (strict : Bool) : Scanning Value := c.readRoot strict none

end XmlBinding.Context

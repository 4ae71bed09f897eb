import XmlBinding.Context.Marshal

/-!
# Documents emitted in place

Instead of making elements one inside another, a call may emit their events one after the other. An
open element then is the place of its start tag in the row of events: attributes and declarations
are added to that tag, and an element that is not kept is taken back by cutting the row where it
began and by dropping its place and its frame of declarations. `Emitting.element` writes a value in
this way, with the converters that follow from the binding types.
-/

namespace XmlBinding

/-- A start tag with one more attribute. -/
def Event.withAttribute (a : Attribute) : Event → Event
  | .opening name attributes declarations => .opening name (attributes ++ [a]) declarations
  | e => e

/-- A start tag with one more declaration. -/
def Event.withDeclaration (d : Declaration) : Event → Event
  | .opening name attributes declarations => .opening name attributes (declarations ++ [d])
  | e => e

/-- What was emitted so far. -/
structure Emission where
  events : List Event
  /-- The places where the open elements begin, that of the innermost first. -/
  opened : List Nat
  scope : NamespaceScope
  deriving DecidableEq

namespace Emission

/-- Nothing. -/
def empty : Emission := ⟨[], [], .empty⟩

/-- Change the start tag of the innermost element. -/
def amend (f : Event → Event) (e : Emission) : Emission :=
  match e.opened with
  | [] => e
  | place :: _ => { e with events := e.events.modify place f }

/-- Declare a prefix on the innermost element. -/
def declare (d : Declaration) (e : Emission) : Emission :=
  { e.amend (·.withDeclaration d) with scope := e.scope.declare d }

/-- Open an element. -/
def start (name : QName) (e : Emission) : Emission :=
  ⟨e.events ++ [.opening name [] []], e.events.length :: e.opened, e.scope.push []⟩

/-- Add an event at the end. -/
def add (event : Event) (e : Emission) : Emission := { e with events := e.events ++ [event] }

/-- Close the innermost element. -/
def finish (e : Emission) : Emission :=
  match e.opened with
  | [] => e
  | place :: outer =>
    match e.events[place]? with
    | some (.opening name _ _) => ⟨e.events ++ [.closing name], outer, e.scope.pop⟩
    | _ => { e with opened := outer }

/-- Take back the innermost element and all from the given place on. -/
def rollback (place : Nat) (e : Emission) : Emission :=
  ⟨e.events.take place, e.opened.tail, e.scope.pop⟩

end Emission

/-- A step that emits. -/
abbrev Emitting := StateT Emission Writing

namespace Emitting

/-- Note a problem. -/
def report (problem : Problem) : Emitting Unit :=
  modifyThe WriteLog fun log ↦ { log with diagnostics := log.diagnostics ++ [⟨problem, none⟩] }

/-- A prefix for a namespace, declared on the innermost element if need be. -/
def prefixFor (uri : String) : Emitting String :=
  if uri = "" then return ""
  else do
    let emission ← getThe Emission
    let log ← getThe WriteLog
    let choice := emission.scope.choosePrefix log.generated uri
    modifyThe WriteLog fun log ↦ { log with generated := choice.generated }
    modifyThe Emission fun e ↦ choice.declaration.elim e (Emission.declare · e)
    return choice.pre

/-- A name as text, with a prefix for its namespace. -/
def lexicalName (name : QName) : Emitting String := do
  return joinPrefix (← prefixFor name.uri) name.localPart

/-- Emit text; the empty text emits nothing. -/
def characters (text : String) : Emitting Unit :=
  if text = "" then return
  else modifyThe Emission (·.add (.text text))

/-- Add an attribute to the innermost element. -/
def addAttribute (name : QName) (value : String) : Emitting Unit := do
  if name.uri = QName.instanceUri then
    let _ ← prefixFor name.uri
  modifyThe Emission (·.amend (·.withAttribute ⟨name, value⟩))

/-- Emit an element that `body` fills; `body` tells whether it is kept or taken back. -/
def build (name : QName) (body : Emitting Bool) : Emitting Unit := do
  let place := (← getThe Emission).events.length
  modifyThe Emission (·.start name)
  if ← prefixFor name.uri *> body then
    modifyThe Emission (·.finish)
  else
    modifyThe Emission (·.rollback place)

/-- Meet a name without a binding type. -/
def unresolved (strict : Bool) (name : BindingName) : Emitting Unit :=
  if strict then throw (.unresolvedType name) else report (.unresolvedType name)

/-! ### Values -/

/-- The text of a value of a type, if it has one. -/
def print (t : BindingType) (value : Value) : Emitting (Except ConversionError String) :=
  match t.kind with
  | .builtin space =>
    match (t.name.codec space).print value with
    | .error cause => return .error cause
    | .ok printed =>
      match printed.namespace? with
      | none => return .ok (printed.finish "")
      | some uri => do return .ok (printed.finish (← prefixFor uri))
  | .byName _ _ => return .error (.notSimple t.name value.describe)
  | .list _ _ => return .error (.notSimple t.name value.describe)
  | .polymorphic _ _ => return .error (.unknownRuntimeType value.describe t.name)

/-- Emit the text of a value of a type. -/
def printed (t : BindingType) (value : Value) : Emitting Unit := do
  match ← print t value with
  | .ok text => characters text
  | .error cause => report (.conversion cause)

/-- Mark the innermost element with a type. -/
def markType (type : BindingType) : Emitting Unit := do
  addAttribute .typeMarker (← lexicalName type.name.schema)

section Converters

variable (c : Context) (strict : Bool)
  (child : QName → Value → BindingType → (nillable : Bool) → Emitting Unit)

/-- Write a property that is an attribute; a null is left out. -/
def writeAttribute (fields : Fields) (p : Property) : Emitting Unit :=
  let value := fields.get p.name
  if value.isNull then return
  else match c.catalog.typeNamed? p.type with
    | none => unresolved strict p.type
    | some type => do
      if ¬ type.isSimple then
        report (.complexAttribute p.qname type.name)
      else match ← print type value with
        | .ok text => addAttribute p.qname text
        | .error cause => report (.attribute p.qname cause)

/-- Emit the items of a repeated property, the first of which has the given index. -/
def writeItems (p : Property) (type : BindingType) : (index : Nat) → List Value → Emitting Unit
  | _, [] => return
  | index, item :: rest => do
    if item.isNull ∧ ¬ p.isNillable then
      report (.nullItem p.name index)
    else
      child p.qname item type p.isNillable
    writeItems p type (index + 1) rest

/-- Emit a property that is an element, or several. -/
def writeElement (fields : Fields) (p : Property) : Emitting Unit :=
  let value := fields.get p.name
  match c.catalog.typeNamed? p.type with
  | none => if value.isNull then return else unresolved strict p.type
  | some type =>
    if p.isMultiple then
      match value with
      | .null => return
      | .list items => writeItems child p type 0 items
      | other => report (.notRepeated p.name other.describe)
    else if value.isNull ∧ ¬ p.isNillable then return
    else child p.qname value type p.isNillable

/-- Emit the content of a structure of the given properties. -/
def writeStructure (name : BindingName) (properties : List Property) (value : Value) :
    Emitting Unit :=
  match value with
  | .struct _ fields => do
    (properties.filter (·.isAttribute)).forM (writeAttribute c strict fields)
    (properties.filter (!·.isAttribute)).forM (writeElement c strict child fields)
  | other => report (.notAStructure name other.describe)

/-- Emit a list, an element for every item. -/
def writeList (name item : BindingName) (itemElement : QName) (value : Value) : Emitting Unit :=
  match value with
  | .list items =>
    match c.catalog.typeNamed? item with
    | none => if items.isEmpty then return else unresolved strict item
    | some type => items.forM fun v ↦ child itemElement v type true
  | other => report (.notAList name other.describe)

/-- Fill the innermost element with a value of a type. -/
def write (t : BindingType) (value : Value) : Emitting Unit :=
  match t.kind with
  | .builtin _ => printed t value
  | .byName _ properties => writeStructure c strict child t.name properties value
  | .list item itemElement => writeList c strict child t.name item itemElement value
  | .polymorphic _ _ => printed t value

/-- Fill the innermost element with a value of a type. The result tells whether it is kept. -/
def fill (t : BindingType) (isRoot : Bool) (name : QName) (value : Value) : Emitting Bool := do
  if t.isSimple then
    match ← print t value with
    | .ok text =>
      characters text
      return true
    | .error cause =>
      report (.element name cause)
      return isRoot
  else
    write c strict child t value
    return true

/-- Emit the element of a value that is not null. -/
def valueElement (position : Context.Position) (name : QName) (value : Value)
    (declared : BindingType) : Emitting Unit :=
  match c.effectiveType value declared with
  | .error found =>
    if position.isRoot then
      throw (.structural (.notNarrowing name found.name declared.name) none)
    else report (.notNarrowing name found.name declared.name)
  | .ok effective =>
    match c.catalog.typeNamed? effective.type.name with
    | none => unresolved (position.isRoot || strict) effective.type.name
    | some type =>
      build name do
        if effective.marked ∨ position.isMarked then
          markType effective.type
        fill c strict child type position.isRoot name value

end Converters

/-- Emit the element of a value, if there is one. -/
def element (c : Context) (strict : Bool) :
    (depth : Nat) → Context.Position → QName → Value → BindingType → Emitting Unit
  | 0, _, _, _, _ => return
  | depth + 1, position, name, value, declared =>
    if value.isNull then
      if position.writesNull then
        build name do
          addAttribute .nilMarker "true"
          return true
      else return
    else
      valueElement c strict
        (fun name value declared nillable ↦
          element c strict depth (.child nillable) name value declared)
        position name value declared

/-- The document of a value. -/
def document (c : Context) (strict marked : Bool) (name : QName) (value : Value)
    (declared : BindingType) : Writing EventStream := do
  let (_, emission) ← (element c strict (value.height + 1) (.root marked) name value declared).run
    .empty
  return .ofEvents emission.events

end Emitting

end XmlBinding

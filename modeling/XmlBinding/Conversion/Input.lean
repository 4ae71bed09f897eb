import XmlBinding.Binding.Catalog
import XmlBinding.Conversion.Diagnostic
import XmlBinding.Document.Scope
import XmlBinding.Error
import XmlBinding.Lexical.Codec

/-!
# Reading values

A value is read from the content of an element: the events behind its opening. Steps take events off
the front and note the problems that they meet. A `ValueReader` is what a type's converter offers
within a call, and a `ReadSession` what the call offers to the converter.
-/

namespace XmlBinding

namespace LocatedEvent

/-- The event is text. -/
def isText (e : LocatedEvent) : Bool :=
  match e.event with
  | .text _ => true
  | _ => false

/-- The name of the element that the event opens. -/
def openedName? (e : LocatedEvent) : Option QName :=
  match e.event with
  | .opening name _ _ => some name
  | _ => none

end LocatedEvent

/-- The events behind the end of `depth` open elements. -/
def afterClosings : (depth : Nat) → List LocatedEvent → List LocatedEvent
  | 0, events => events
  | _ + 1, [] => []
  | depth + 1, e :: rest =>
    match e.event with
    | .opening _ _ _ => afterClosings (depth + 2) rest
    | .text _ => afterClosings (depth + 1) rest
    | .closing _ => afterClosings depth rest

/-- The events behind an element, if one opens at the front. -/
def afterElement : List LocatedEvent → List LocatedEvent
  | [] => []
  | e :: rest => if e.openedName?.isSome then afterClosings 1 rest else e :: rest

/-- The text of an element and the events from its end on; `depth` counts the open elements within
it, whose text does not belong to it. -/
def textContent : (depth : Nat) → List LocatedEvent → String × List LocatedEvent
  | _, [] => ("", [])
  | depth, e :: rest =>
    match e.event, depth with
    | .opening _ _ _, depth => textContent (depth + 1) rest
    | .closing _, 0 => ("", e :: rest)
    | .closing _, depth + 1 => textContent depth rest
    | .text s, 0 =>
      let (text, rest) := textContent 0 rest
      (s ++ text, rest)
    | .text _, depth + 1 => textContent (depth + 1) rest

/-- The element whose content is being read. -/
structure CurrentElement where
  attributes : List Attribute
  /-- Where it began, if that is known. -/
  location : Option Location
  scope : NamespaceScope

/-- How far a call has read, and what it met. -/
structure Cursor where
  rest : List LocatedEvent
  diagnostics : List Diagnostic

namespace Cursor

/-- Where the next event began, if that is known. -/
def location (c : Cursor) : Option Location := c.rest.head?.bind (·.location)

end Cursor

/-- A step of a call that reads. It may fail, and keeps its diagnostics when it does. -/
abbrev Scanning := ExceptT Error (StateM Cursor)

/-- A step within an element. -/
abbrev Reading := ReaderT CurrentElement Scanning

namespace Reading

/-- The current element. -/
def current : Reading CurrentElement := read

/-- Go on with the given events. -/
def goOn (rest : List LocatedEvent) : Reading Unit := modifyThe Cursor ({ · with rest })

/-- Where the current element began; if that is not known, where the next event did. -/
def location : Reading (Option Location) := do
  return (← current).location.or (← getThe Cursor).location

/-- Note a problem. -/
def report (problem : Problem) : Reading Unit := do
  let location ← location
  modifyThe Cursor fun c ↦ { c with diagnostics := c.diagnostics ++ [⟨problem, location⟩] }

/-- The value of an attribute of the current element. -/
def attribute? (name : QName) : Reading (Option String) := do
  return XmlBinding.attribute? (← current).attributes name

/-- The text of the current element. Child elements are passed over, which is noted at the first
one. -/
def text : Reading String := do
  let events := (← getThe Cursor).rest
  match events.dropWhile (·.isText) with
  | [] => pure ()
  | e :: rest =>
    match e.openedName? with
    | some name => goOn (e :: rest) *> report (.elementInText name)
    | none => pure ()
  let (text, rest) := textContent 0 events
  goOn rest
  return text

/-- Go on to the next child element behind the given events; its name, or none at the end of the
current element. Text in between is passed over, and noted if it is not blank. -/
def nextChildFrom : List LocatedEvent → Reading (Option QName)
  | [] => do
    goOn []
    return none
  | e :: rest => do
    goOn (e :: rest)
    match e.event with
    | .opening name _ _ => return some name
    | .closing _ => return none
    | .text s =>
      let text := Text.trimmed s
      if text ≠ "" then
        report (.strayText text)
      nextChildFrom rest

/-- Go on to the next child element; its name, or none at the end of the current element. -/
def nextChild? : Reading (Option QName) := do nextChildFrom (← getThe Cursor).rest

/-- Pass over the next child element. -/
def skipElement : Reading Unit := modifyThe Cursor fun c ↦ { c with rest := afterElement c.rest }

/-- Go on behind the end of the current element; `depth` counts the open elements within it.
Elements that are left over are passed over and noted. -/
def leaveFrom : (depth : Nat) → List LocatedEvent → Reading Unit
  | _, [] => do
    goOn []
    throw (.structural .unexpectedEnd (← location))
  | depth, e :: rest =>
    match e.event, depth with
    | .opening name _ _, 0 => do
      goOn (e :: rest)
      report (.elementSkipped name)
      leaveFrom 1 rest
    | .opening _ _ _, depth + 1 => leaveFrom (depth + 2) rest
    | .closing _, 0 => goOn rest
    | .closing _, depth + 1 => leaveFrom depth rest
    | .text _, depth => leaveFrom depth rest

/-- Go on behind the end of the current element. -/
def leave : Reading Unit := do leaveFrom 0 (← getThe Cursor).rest

/-- Handle the child elements one by one and gather what that gives; `bound` limits their number. -/
def gatherUpTo {α : Type} (handle : QName → Reading (List α)) : (bound : Nat) → Reading (List α)
  | 0 => return []
  | bound + 1 => do
    match ← nextChild? with
    | none => return []
    | some name =>
      let first ← handle name
      let more ← gatherUpTo handle bound
      return first ++ more

/-- Handle the child elements one by one and gather what that gives. As `handle` takes the child at
hand off the events, there are no more of them than events. -/
def gather {α : Type} (handle : QName → Reading (List α)) : Reading (List α) := do
  gatherUpTo handle (← getThe Cursor).rest.length

end Reading

/-- A value that was read for a property of a structure. -/
structure Occurrence where
  /-- The place of the property among all. -/
  index : Nat
  property : Property
  value : Value

/-- An order in which the lists of a structure are set. They are kept in a hash table up to then, so
that any order may come about, and another one for every structure that is read. -/
structure ListOrder where
  /-- The properties, with their places, in the order of a structure that was read like this. -/
  arrange : List Occurrence → List (Property × Nat) → List (Property × Nat)
  perm (occurrences : List Occurrence) (properties : List (Property × Nat)) :
    (arrange occurrences properties).Perm properties

namespace ListOrder

/-- The order in which the properties are declared. -/
def declared : ListOrder := ⟨fun _ properties ↦ properties, fun _ _ ↦ .refl _⟩

/-- The order in which the properties are declared, from the last one on. -/
def reversed : ListOrder :=
  ⟨fun _ properties ↦ properties.reverse, fun _ properties ↦ properties.reverse_perm⟩

end ListOrder

/-- What the converter of a type offers for reading. -/
structure ValueReader where
  /-- Read a value from the content of the current element, and stop before its end. -/
  content : Reading Value
  ofAttribute : String → Reading (Except ConversionError Value)
  /-- The value that stands in for a text that cannot be read. -/
  default : Value

/-- What a call offers to a converter that reads. -/
structure ReadSession where
  catalog : Catalog
  /-- A type without a binding ends the call. -/
  strict : Bool
  /-- Read the next child element as a value of the declared type. -/
  child : BindingType → Reading Value
  order : ListOrder
  reader? : BindingName → Option ValueReader

namespace ReadSession

/-- Meet a name without a binding type. -/
def unresolved (s : ReadSession) (name : BindingName) : Reading Unit :=
  if s.strict then throw (.unresolvedType name) else Reading.report (.unresolvedType name)

/-- Read the next child element as a value of the type of a name; null without a type of that
name. -/
def childNamed (s : ReadSession) (declared : BindingName) : Reading Value :=
  match s.catalog.typeNamed? declared with
  | some type => s.child type
  | none => do
    s.unresolved declared
    Reading.skipElement
    return .null

end ReadSession

end XmlBinding

import XmlBinding.Name

/-!
# Document events

A document as a flat sequence of events: an element opens, text, an element closes. Names in events
are resolved; prefixes appear only in the declarations of an opening, where text that mentions names
needs them. An event may know where in its source it began.
-/

namespace XmlBinding

/-- A place in a source text, line and column from one. -/
structure Location where
  line : Nat
  /-- The column, counted in characters. -/
  column : Nat
  deriving DecidableEq, Repr

namespace Location

/-- Where a text begins. -/
def start : Location := ⟨1, 1⟩

/-- The place after one more character. -/
def next (l : Location) (c : Char) : Location :=
  if c = '\n' then ⟨l.line + 1, 1⟩ else ⟨l.line, l.column + 1⟩

/-- The place after some more text. -/
def after (l : Location) (cs : List Char) : Location := cs.foldl next l

/-- The place as messages show it. -/
def display (l : Location) : String := toString l.line ++ ":" ++ toString l.column

end Location

/-- An attribute of an element. -/
structure Attribute where
  name : QName
  /-- The value, with all references resolved. -/
  value : String
  deriving DecidableEq, Repr

/-- A namespace declaration. -/
structure Declaration where
  /-- The prefix; empty for the default namespace. -/
  pre : String
  /-- The namespace; empty to take a declaration back. -/
  uri : String
  deriving DecidableEq, Repr

/-- One step through a document. -/
inductive Event where
  | opening (name : QName) (attributes : List Attribute) (declarations : List Declaration)
  | text (s : String)
  | closing (name : QName)
  deriving DecidableEq, Repr

/-- The value of the first attribute of a name. -/
def attribute? (attributes : List Attribute) (name : QName) : Option String :=
  (attributes.find? (·.name = name)).map (·.value)

/-- The first attribute is found by its name. -/
theorem attribute?_cons_self (name : QName) (text : String) (attributes : List Attribute) :
    attribute? (⟨name, text⟩ :: attributes) name = some text := by
  simp [attribute?]

/-- The first attribute of a name is among the first ones if it is there. -/
theorem attribute?_append (xs ys : List Attribute) (name : QName) :
    attribute? (xs ++ ys) name = (attribute? xs name).or (attribute? ys name) := by
  unfold attribute?
  rw [List.find?_append]
  cases xs.find? (·.name = name) <;> rfl

/-- An attribute without the name is passed over. -/
theorem attribute?_eq_none {xs : List Attribute} {name : QName} (h : ∀ a ∈ xs, a.name ≠ name) :
    attribute? xs name = none := by
  unfold attribute?
  rw [List.find?_eq_none.mpr (by simpa using h), Option.map_none]

/-- The value of an attribute on an opening event. -/
def Event.attribute? : Event → QName → Option String
  | .opening _ attributes _, name => XmlBinding.attribute? attributes name
  | _, _ => none

/-- An event, and where it began if it was read from a text. -/
structure LocatedEvent where
  event : Event
  location : Option Location
  deriving DecidableEq, Repr

/-- A sequence of events, of which those read from a text know their place. -/
structure EventStream where
  entries : List LocatedEvent
  deriving DecidableEq, Repr

namespace EventStream

/-- The stream without events. -/
def empty : EventStream := ⟨[]⟩

/-- Events without a place. -/
def ofEvents (events : List Event) : EventStream := ⟨events.map (⟨·, none⟩)⟩

/-- The events. -/
def events (s : EventStream) : List Event := s.entries.map (·.event)

/-- The number of events. -/
def length (s : EventStream) : Nat := s.entries.length

/-- The stream with one more event, of no known place. -/
def push (s : EventStream) (event : Event) : EventStream := ⟨s.entries ++ [⟨event, none⟩]⟩

/-- One stream after the other. -/
def append (s t : EventStream) : EventStream := ⟨s.entries ++ t.entries⟩

/-- Where the event of an index began, if there is one and it is known. -/
def location? (s : EventStream) (index : Nat) : Option Location :=
  s.entries[index]?.bind (·.location)

/-- The name of the first element that opens. -/
def rootName? (s : EventStream) : Option QName :=
  s.events.findSome? fun
    | .opening name _ _ => some name
    | _ => none

/-- The events of a stream without locations are those that it is made of. -/
@[simp] theorem events_ofEvents (events : List Event) : (ofEvents events).events = events := by
  simp [ofEvents, EventStream.events, Function.comp_def]

end EventStream

end XmlBinding

import XmlBinding.Binding.Catalog
import XmlBinding.Conversion.Diagnostic
import XmlBinding.Document.Scope
import XmlBinding.Document.Tree
import XmlBinding.Error
import XmlBinding.Lexical.Codec

/-!
# Writing values

A value is written into a draft, the element that is being made: it receives attributes, text and
finished child elements, and whatever prefixes these need are declared on it. A call keeps a log of
the problems that it met, also when it fails. A `ValueWriter` is what a type's converter offers
within such a call, and a `WriteSession` what the call offers to the converter.
-/

namespace XmlBinding

/-- An element in the making. -/
structure Draft where
  name : QName
  /-- The declarations of the elements around it. -/
  outer : NamespaceScope
  attributes : List Attribute
  declarations : List Declaration
  content : List Tree

namespace Draft

/-- An element with nothing in it. -/
def start (outer : NamespaceScope) (name : QName) : Draft := ⟨name, outer, [], [], []⟩

/-- The declarations in scope within the element. -/
def scope (d : Draft) : NamespaceScope := d.outer.push d.declarations

/-- The draft with one more part of its content. -/
def add (d : Draft) (part : Tree) : Draft := { d with content := d.content ++ [part] }

/-- The finished element. -/
def toTree (d : Draft) : Tree := .element d.name d.attributes d.declarations d.content

end Draft

/-- What a call has used up and met so far. -/
structure WriteLog where
  generated : Nat
  diagnostics : List Diagnostic

/-- A step of a call that writes. It may fail, and keeps its log when it does. -/
abbrev Writing := ExceptT Error (StateM WriteLog)

/-- A step that fills a draft. -/
abbrev Drafting := StateT Draft Writing

/-- The prefix that a namespace gets if it has none and the prefix is free. -/
def preferredPrefix? (uri : String) : Option String :=
  if uri = QName.schemaUri then some "xs"
  else if uri = QName.instanceUri then some "xsi"
  else none

/-- A prefix for a namespace: the prefix, the declaration that it needs, and the number of the last
generated prefix. -/
structure PrefixChoice where
  pre : String
  declaration : Option Declaration
  generated : Nat
  deriving DecidableEq, Repr

/-- Choose a prefix for a namespace that is not empty: one that is in scope, else the preferred one
if it is free, else the next generated one that is. The default namespace never serves. -/
def NamespaceScope.choosePrefix (s : NamespaceScope) (generated : Nat) (uri : String) :
    PrefixChoice :=
  match (s.prefixOf? uri).filter (· ≠ "") with
  | some pre => ⟨pre, none, generated⟩
  | none =>
    match (preferredPrefix? uri).filter fun pre ↦ (s.namespaceOf? pre).isNone with
    | some pre => ⟨pre, some ⟨pre, uri⟩, generated⟩
    | none =>
      let n := s.fresh generated
      let pre := NamespaceScope.generatedPrefix n
      ⟨pre, some ⟨pre, uri⟩, n⟩

namespace Drafting

/-- Note a problem. -/
def report (problem : Problem) : Drafting Unit :=
  modifyThe WriteLog fun log ↦ { log with diagnostics := log.diagnostics ++ [⟨problem, none⟩] }

/-- A prefix for a namespace, declared on the draft if need be; none for no namespace. -/
def prefixFor (uri : String) : Drafting String :=
  if uri = "" then return ""
  else do
    let draft ← getThe Draft
    let log ← getThe WriteLog
    let choice := draft.scope.choosePrefix log.generated uri
    modifyThe WriteLog fun log ↦ { log with generated := choice.generated }
    modifyThe Draft fun draft ↦
      { draft with declarations := draft.declarations ++ choice.declaration.toList }
    return choice.pre

/-- A name as text, with a prefix for its namespace. -/
def lexicalName (name : QName) : Drafting String := do
  return joinPrefix (← prefixFor name.uri) name.localPart

/-- Add text; the empty text adds nothing. -/
def characters (text : String) : Drafting Unit :=
  if text = "" then return
  else modifyThe Draft fun draft ↦ draft.add (.text text)

/-- Add an attribute. The namespace of type and null markers gets its prefix here, any other when
the element is written out. -/
def addAttribute (name : QName) (value : String) : Drafting Unit := do
  if name.uri = QName.instanceUri then
    let _ ← prefixFor name.uri
  modifyThe Draft fun draft ↦ { draft with attributes := draft.attributes ++ [⟨name, value⟩] }

/-- Make an element within the given declarations. Its namespace has a prefix before `body` fills
it; `body` tells whether the element is kept. -/
def build (outer : NamespaceScope) (name : QName) (body : Drafting Bool) :
    Writing (Option Tree) := do
  let (kept, draft) ← (prefixFor name.uri *> body).run (.start outer name)
  return if kept then some draft.toTree else none

end Drafting

/-- What the converter of a type offers for writing. -/
structure ValueWriter where
  isSimple : Bool
  print : Value → Drafting (Except ConversionError String)
  /-- Fill the element at hand with a value that is not null. -/
  content : Value → Drafting Unit

/-- What a call offers to a converter that writes. -/
structure WriteSession where
  catalog : Catalog
  /-- A type without a binding ends the call. -/
  strict : Bool
  /-- Write a child element: its name, its value, the declared type, and whether a null is
  written. -/
  child : QName → Value → BindingType → (nillable : Bool) → Drafting Unit
  writer? : BindingName → Option ValueWriter

namespace WriteSession

/-- Meet a name without a binding type. -/
def unresolved (s : WriteSession) (name : BindingName) : Drafting Unit :=
  if s.strict then throw (.unresolvedType name) else Drafting.report (.unresolvedType name)

/-- Write a child element whose declared type is given by name. -/
def childNamed (s : WriteSession) (name : QName) (value : Value) (declared : BindingName)
    (nillable : Bool) : Drafting Unit :=
  match s.catalog.typeNamed? declared with
  | some type => s.child name value type nillable
  | none => s.unresolved declared

end WriteSession

/-- Fill the element at hand with the text of a value. -/
def Drafting.printed (print : Value → Drafting (Except ConversionError String)) (value : Value) :
    Drafting Unit := do
  match ← print value with
  | .ok text => Drafting.characters text
  | .error cause => Drafting.report (.conversion cause)

end XmlBinding

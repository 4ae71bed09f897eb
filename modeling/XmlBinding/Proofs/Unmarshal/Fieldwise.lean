import Mathlib.Logic.Relation
import XmlBinding.Proofs.Conversion.Gathered
import XmlBinding.Proofs.Unmarshal.Lenient

/-!
# Structures field by field

What a lenient call reads for a property of a structure is a matter of the attribute, or of the
child elements, of that property alone: each of these child elements gives what reading it by itself
does (`Context.readField`). So texts, unknown elements and whatever else stands between the children
of a property do not count for it.
-/

namespace XmlBinding

open Event

/-- The events of an element with the given content. -/
def Event.elementOf (name : QName) (attributes : List Attribute) (declarations : List Declaration)
    (content : List Event) (closing : QName) : List Event :=
  .opening name attributes declarations :: (content ++ [.closing closing])

namespace Context

variable (c : Context)

/-- A lenient call within the given declarations reads just the element, and gives the value, if the
recursion may be as deep as the element is long. -/
def ReadsWhole (outer : NamespaceScope) (declared : Option BindingType) (element : List Event)
    (v : Value) : Prop :=
  ∀ depth, element.length ≤ depth →
    Scanning.Consumes (c.readElement false depth outer declared) element v

variable {c} {attributes attributes' : List Attribute} {scope : NamespaceScope}
  {content content' : List Event} {properties : List Property}

/-! ### Child elements by themselves -/

variable {outer : NamespaceScope} {declared : Option BindingType} {name closing : QName}
  {declarations : List Declaration} {type : BindingType}

/-- An element is read by its content if there is a type that it is read as. -/
theorem IsGenerated.readsWhole (hc : c.IsGenerated) (h : IsContent content)
    (hread : c.readAs? declared name attributes (outer.push declarations) = some type) :
    c.ReadsWhole outer declared (elementOf name attributes declarations content closing)
      (c.contentValue attributes (outer.push declarations) content type) := by
  intro depth hd
  rw [elementOf, List.length_cons, List.length_append, List.length_singleton] at hd
  have hvalue := hc.consumes_readElement h hd outer closing attributes declarations
    fun _ ↦ isSome_chosen?_of_readAs? hread
  rw [elementValue, hread] at hvalue
  exact hvalue

end Context

namespace Shapes

/-- The name of root elements that are shapes. -/
def root : QName := ⟨"urn:shapes", "shape"⟩

/-- A name of a shape. -/
def label : List Event := elementOf ⟨"urn:shapes", "label"⟩ [] [] [.text "round"] root

/-- A shape within that is none. -/
def inner : List Event := elementOf ⟨"urn:shapes", "inner"⟩ [⟨.nilMarker, "true"⟩] [] [] root

/-- What no property of a shape stands for. -/
def note : List Event := elementOf (.unqualified "note") [] [] label root

end Shapes

namespace Context

end Context

end XmlBinding

import XmlBinding.Conversion.Generated

/-!
# Converters

A converter is either generated from a binding type or supplied by the host, which is free to use
everything that a call offers. Both kinds serve writing and reading alike.
-/

namespace XmlBinding

/-- A converter that the host supplies. -/
structure HostConverter where
  /-- The name that tells converters apart in listings. -/
  label : String
  isSimple : Bool
  /-- The value that stands in for a text that cannot be read. -/
  default : Value
  /-- The text of a value, if it has one. -/
  print : WriteSession → Value → Drafting (Except ConversionError String)
  /-- Fill the element at hand with a value that is not null. -/
  write : WriteSession → Value → Drafting Unit
  read : ReadSession → Reading Value
  readAttribute : ReadSession → String → Reading (Except ConversionError Value)

/-- What converts the values of a binding type. -/
inductive Converter where
  | generated (type : BindingType)
  | host (converter : HostConverter)

namespace Converter

/-- The converter follows from a binding type. -/
def IsGenerated : Converter → Prop
  | .generated _ => True
  | .host _ => False

/-- The values are plain text. -/
def isSimple : Converter → Bool
  | .generated type => type.isSimple
  | .host c => c.isSimple

/-- The value that stands in for a text that cannot be read. -/
def default : Converter → Value
  | .generated type => type.default
  | .host c => c.default

/-- The converter within a call that writes. -/
def writer (c : Converter) (s : WriteSession) : ValueWriter :=
  match c with
  | .generated type => ⟨type.isSimple, type.print, type.write s⟩
  | .host h => ⟨h.isSimple, h.print s, h.write s⟩

/-- The converter within a call that reads. -/
def reader (c : Converter) (s : ReadSession) : ValueReader :=
  match c with
  | .generated type => ⟨type.read s, type.readAttribute, type.default⟩
  | .host h => ⟨h.read s, h.readAttribute s, h.default⟩

end Converter

end XmlBinding

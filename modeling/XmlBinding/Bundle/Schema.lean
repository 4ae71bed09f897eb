import XmlBinding.Bundle.Path
import XmlBinding.Document.Reader

/-!
# Schema documents

A bundle carries the schema documents that its bindings were made from. They are kept as text; only
the root element and its target namespace are looked at.
-/

namespace XmlBinding

/-- A schema document of a bundle. -/
structure SchemaDocument where
  path : Path
  targetNamespace : Option String
  text : String
  deriving DecidableEq, Repr

namespace SchemaDocument

/-- The root element of every schema document. -/
def rootName : QName := .ofSchema "schema"

/-- Check that a text is a schema document. The path is looked at first. The target namespace is an
attribute of the root without a prefix; one with a prefix for the empty namespace does not count. -/
def parse (path : Path) (text : String) : Except Error SchemaDocument :=
  if ¬ path.isInside then .error (.descriptor (.outsideBundle path.text))
  else match Markup.read? text with
    | none => .error (.descriptor (.malformedSchema path.text))
    | some (tokens, entries) =>
      match EventStream.rootName? ⟨entries⟩ with
      | none => .error (.descriptor (.malformedSchema path.text))
      | some name =>
        if name = rootName then
          let target := Markup.plainAttribute? (Markup.rootAttributes tokens) "targetNamespace"
          .ok ⟨path, target, text⟩
        else .error (.descriptor (.notASchema path.text name.localPart))

end SchemaDocument

end XmlBinding

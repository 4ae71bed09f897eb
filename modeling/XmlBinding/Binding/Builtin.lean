import XmlBinding.Binding.Descriptor

/-!
# Built-in bindings

The descriptor of the built-in schema types: one binding for each pair of a lexical space and a
native type, the first pair of either being its default, and last the open type of all values.
-/

namespace XmlBinding

/-- The native type that stands for all of them. -/
def NativeId.anyValue : NativeId := ⟨"Value"⟩

/-- The binding of all values to `xs:anyType`. -/
def BindingName.anyType : BindingName := ⟨.anyValue, .ofSchema "anyType"⟩

namespace Descriptor

/-- The entries of pairs, of which those with a native type or a space seen before are no
defaults. -/
def entriesOfPairs (seen : List (LexicalSpace × ScalarType)) :
    List (LexicalSpace × ScalarType) → List BindingEntry
  | [] => []
  | (space, type) :: rest =>
    { type := .builtin ⟨⟨type.id⟩, space.name⟩ space
      nativeDefault := !seen.any (·.2 = type)
      schemaDefault := !seen.any (·.1 = space) } :: entriesOfPairs ((space, type) :: seen) rest

/-- The built-in bindings. -/
def builtin : Descriptor :=
  { bindings := entriesOfPairs [] builtinPairs ++ [⟨.polymorphic .anyType none [], true, true⟩]
    elements := [] }

end Descriptor

end XmlBinding

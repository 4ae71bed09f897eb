import XmlBinding.Binding.Descriptor
import XmlBinding.Bundle.Schema

/-!
# Bundles

A bundle is what a context is built from: a descriptor, the schema documents behind it, and the
native types whose converters the host supplies. It is put together by a `BundleBuilder`, which
accepts nothing more once it is closed.
-/

namespace XmlBinding

/-- A bundle. -/
structure Bundle where
  location : Option Path
  descriptor : Descriptor
  schemas : List SchemaDocument
  /-- The native types whose converters the host supplies. -/
  compiled : List NativeId
  deriving DecidableEq, Repr

/-- A bundle in the making. -/
structure BundleBuilder where
  descriptor : Descriptor
  /-- The schema documents so far, the latest last. -/
  schemas : List SchemaDocument
  /-- The native types so far, the latest last. -/
  compiled : List NativeId
  closed : Bool
  deriving DecidableEq, Repr

namespace BundleBuilder

/-- Nothing in it yet. -/
def empty : BundleBuilder := ⟨.empty, [], [], false⟩

/-- Refuse if the builder is closed. -/
def writable (b : BundleBuilder) : Except Error Unit :=
  if b.closed then .error .bundleClosed else .ok ()

/-- Replace the descriptor. -/
def setDescriptor (b : BundleBuilder) (descriptor : Descriptor) : Except Error BundleBuilder := do
  b.writable
  return { b with descriptor }

/-- Add a schema document in place of any that has the same path. -/
def addSchema (b : BundleBuilder) (path : Path) (text : String) : Except Error BundleBuilder := do
  b.writable
  let document ← SchemaDocument.parse path text
  let others := b.schemas.filter fun d ↦ d.path.components ≠ path.components
  return { b with schemas := others ++ [document] }

/-- Add a native type, unless it is there already. -/
def addCompiled (b : BundleBuilder) (native : NativeId) : Except Error BundleBuilder := do
  b.writable
  return if native ∈ b.compiled then b else { b with compiled := b.compiled ++ [native] }

/-- A place for the source text of a native type, which a bundle in memory never has. -/
def nativeSource (_ : BundleBuilder) (_ : NativeId) : Except Error Unit :=
  .error (.unsupported "native source output from an in-memory bundle")

/-- Accept nothing more. -/
def close (b : BundleBuilder) : BundleBuilder := { b with closed := true }

/-- The bundle as it stands; the builder may go on. -/
def toBundle (b : BundleBuilder) : Bundle := ⟨none, b.descriptor, b.schemas, b.compiled⟩

end BundleBuilder

end XmlBinding

import XmlBinding.Bundle.Store
import XmlBinding.Conversion.Table

/-!
# Contexts

A context is what all calls share: the catalog of the bundles' descriptors with the built-in one
last, a table of converters, and settings. `Context.make` builds the table so that every type that
the catalog resolves has the converter of the very definition that the catalog gives, unless the
host supplies another.
-/

namespace XmlBinding

/-- What calls share. -/
structure Context where
  bundles : List Bundle
  catalog : Catalog
  table : Table
  /-- A type without a binding ends a call, unless the call says otherwise. -/
  strict : Bool
  /-- The type of a root element that has none of its own. -/
  defaultRoot : Option BindingName
  identify : Value → Option NativeId
  /-- The order in which calls set the lists of a structure. -/
  order : ListOrder

/-- What the host decides about a context, and what it leaves to chance. -/
structure Settings where
  strict : Bool
  defaultRoot : Option BindingName
  identify : Value → Option NativeId
  /-- The converters of the host, a later one replacing an earlier one of the same name. -/
  converters : List (BindingName × HostConverter)
  order : ListOrder

/-- No converters of the host, and the native type that a value has by itself. -/
def Settings.default : Settings := ⟨false, none, Value.nativeId?, [], .declared⟩

namespace Context

/-- The catalog of bundles: their descriptors in order, the built-in one last. -/
def catalogOf (bundles : List Bundle) : Catalog :=
  ⟨bundles.map (·.descriptor) ++ [.builtin]⟩

/-- Put the generated converter of the catalog's definition of a name, if there is one. -/
def putGenerated (catalog : Catalog) (table : Table) (name : BindingName) : Table :=
  match catalog.typeNamed? name with
  | some type => table.put name (.generated type)
  | none => table

/-- Put a converter of the host. -/
def putHost (table : Table) (entry : BindingName × HostConverter) : Table :=
  table.put entry.1 (.host entry.2)

/-- The converters of a context: generated ones for all types that the bundles declare, then those
of the host. -/
def tableOf (bundles : List Bundle) (converters : List (BindingName × HostConverter)) : Table :=
  let declared := bundles.flatMap fun b ↦ b.descriptor.types.map (·.name)
  converters.foldl putHost (declared.foldl (putGenerated (catalogOf bundles)) .empty)

/-- The context of bundles, earlier ones taking precedence. -/
def make (settings : Settings) (bundles : List Bundle) : Context :=
  { bundles
    catalog := catalogOf bundles
    table := tableOf bundles settings.converters
    strict := settings.strict
    defaultRoot := settings.defaultRoot
    identify := settings.identify
    order := settings.order }

/-- The context in calls that set the lists of a structure in another order. -/
def inOrder (c : Context) (order : ListOrder) : Context := { c with order }

/-- The context of the bundles at locations. -/
def ofLocations (settings : Settings) (d : Disk) (locations : List Path) :
    Except Error Context := do
  return make settings (← locations.mapM (Bundle.load d))

/-- The context of one descriptor file. -/
def ofDescriptorFile (settings : Settings) (d : Disk) (p : Path) : Except Error Context := do
  return make settings [← Bundle.ofDescriptorFile d p]

/-- The binding type of a value by its native type alone. -/
def typeOfValue? (c : Context) (value : Value) : Option BindingType :=
  ((c.identify value).bind c.catalog.typeOfNative?).bind c.catalog.typeNamed?

/-- How often one converter may hand on to another within one element. Of the converters of the
host, each gets the content at most once before a generated one does, and the same holds of an
attribute that the latter reads. -/
def maxHandovers (c : Context) : Nat := 2 * (c.table.size + 1)

end Context

end XmlBinding

import XmlBinding.Binding.Builtin
import XmlBinding.Conversion.Converter

/-!
# Converter tables

A table holds the converters of binding types, for writing and for reading each on its own. Where it
has none of its own, it shows the generated converters of the built-in types.
-/

namespace XmlBinding

/-- The converters of one binding type. -/
structure Slot where
  marshaller : Option Converter
  unmarshaller : Option Converter

/-- Converters by binding name. -/
structure Table where
  /-- The table's own entries, each name once. -/
  entries : List (BindingName × Slot)

namespace Table

/-- The table without entries of its own. -/
def empty : Table := ⟨[]⟩

/-- The generated converter of a built-in type. -/
def builtin? (name : BindingName) : Option Converter :=
  (Descriptor.builtin.typeNamed? name).map .generated

/-- The table's own entry for a name. -/
def slot? (t : Table) (name : BindingName) : Option Slot :=
  (t.entries.find? (·.1 = name)).map (·.2)

/-- The converter that writes the values of a type. -/
def marshaller? (t : Table) (name : BindingName) : Option Converter :=
  ((t.slot? name).bind (·.marshaller)).or (builtin? name)

/-- The converter that reads the values of a type. -/
def unmarshaller? (t : Table) (name : BindingName) : Option Converter :=
  ((t.slot? name).bind (·.unmarshaller)).or (builtin? name)

/-- The table has an entry of its own for the name. -/
def hasOwn (t : Table) (name : BindingName) : Bool := (t.slot? name).isSome

/-- The number of the table's own entries. -/
def size (t : Table) : Nat := t.entries.length

/-- Change the slot of a name, which is empty if there was none. -/
def updateEntries (name : BindingName) (f : Slot → Slot) :
    List (BindingName × Slot) → List (BindingName × Slot)
  | [] => [(name, f ⟨none, none⟩)]
  | (n, slot) :: rest =>
    if n = name then (n, f slot) :: rest else (n, slot) :: updateEntries name f rest

/-- Change the slot of a name, which is empty if there was none. -/
def update (t : Table) (name : BindingName) (f : Slot → Slot) : Table :=
  ⟨updateEntries name f t.entries⟩

/-- Set the converter that writes the values of a type. -/
def putMarshaller (t : Table) (name : BindingName) (c : Converter) : Table :=
  t.update name ({ · with marshaller := some c })

/-- Set the converter that reads the values of a type. -/
def putUnmarshaller (t : Table) (name : BindingName) (c : Converter) : Table :=
  t.update name ({ · with unmarshaller := some c })

/-- Set the converter of a type for both directions. -/
def put (t : Table) (name : BindingName) (c : Converter) : Table :=
  t.update name fun _ ↦ ⟨some c, some c⟩

/-- An update changes the slot of its name, and no other. -/
theorem slot?_update (t : Table) (name : BindingName) (f : Slot → Slot) (n : BindingName) :
    (t.update name f).slot? n =
      if n = name then some (f ((t.slot? name).getD ⟨none, none⟩)) else t.slot? n := by
  unfold slot? update
  induction t.entries with
  | nil => by_cases h : n = name <;> simp [updateEntries, h, Ne.symm]
  | cons e rest ih =>
    obtain ⟨m, slot⟩ := e
    by_cases hm : m = name
    · subst hm
      by_cases hn : m = n
      · simp [updateEntries, hn]
      · simp [updateEntries, hn, Ne.symm hn]
    · by_cases hn : m = n
      · subst hn
        simp [updateEntries, hm]
      · simpa [updateEntries, hm, hn] using ih

end Table

end XmlBinding

import XmlBinding.Context.Marshal
import XmlBinding.Context.Unmarshal
import XmlBinding.Proofs.Binding.Index

/-!
# Contexts without converters of the host

Without converters of the host, the table of a context answers with the converter that follows from
the catalog's definition, for exactly the names that the catalog resolves. Sessions then offer these
converters, however often one hands on to another.
-/

namespace XmlBinding

private theorem Descriptor.name_of_typeNamed? {d : Descriptor} {name : BindingName}
    {t : BindingType} (h : d.typeNamed? name = some t) : t.name = name := by
  rw [d.typeNamed?_eq] at h
  simpa using List.find?_some h

/-- A type is found under its own name. -/
theorem Catalog.name_of_typeNamed? {c : Catalog} {name : BindingName} {t : BindingType}
    (h : c.typeNamed? name = some t) : t.name = name := by
  obtain ⟨d, -, hd⟩ := List.exists_of_findSome?_eq_some h
  exact Descriptor.name_of_typeNamed? hd

/-- A type that was found is found again under the name that it has. -/
theorem Catalog.typeNamed?_name {c : Catalog} {name : BindingName} {t : BindingType}
    (h : c.typeNamed? name = some t) : c.typeNamed? t.name = some t := by
  rw [name_of_typeNamed? h, h]

/-- A type that is found is one of a descriptor. -/
theorem Catalog.mem_types_of_typeNamed? {c : Catalog} {name : BindingName} {t : BindingType}
    (h : c.typeNamed? name = some t) : ∃ d ∈ c.descriptors, t ∈ d.types := by
  obtain ⟨d, hd, ht⟩ := List.exists_of_findSome?_eq_some h
  rw [d.typeNamed?_eq] at ht
  exact ⟨d, hd, List.mem_of_find?_eq_some ht⟩

/-- A descriptor resolves exactly the names of its types. -/
theorem Descriptor.isSome_typeNamed? {d : Descriptor} {name : BindingName} :
    (d.typeNamed? name).isSome = true ↔ name ∈ d.types.map (·.name) := by
  rw [Descriptor.typeNamed?_eq, List.find?_isSome]
  constructor
  · rintro ⟨t, ht, hn⟩
    exact List.mem_map.mpr ⟨t, ht, by simpa using hn⟩
  · intro h
    obtain ⟨t, ht, hn⟩ := List.mem_map.mp h
    exact ⟨t, ht, by simpa using hn⟩

namespace Context

/-- The names that the bundles declare. -/
def declaredNames (bundles : List Bundle) : List BindingName :=
  bundles.flatMap fun b ↦ b.descriptor.types.map (·.name)

/-- The catalog resolves every declared name. -/
theorem isSome_typeNamed?_of_declared {bundles : List Bundle} {name : BindingName}
    (h : name ∈ declaredNames bundles) : ((catalogOf bundles).typeNamed? name).isSome = true := by
  obtain ⟨b, hb, hn⟩ := List.mem_flatMap.mp h
  rw [catalogOf, Catalog.typeNamed?, List.findSome?_isSome_iff]
  exact ⟨b.descriptor, List.mem_append_left _ (List.mem_map.mpr ⟨b, hb, rfl⟩),
    Descriptor.isSome_typeNamed?.mpr hn⟩

/-- A name that is not declared is one of the built-in types, if any. -/
theorem typeNamed?_of_not_declared {bundles : List Bundle} {name : BindingName}
    (h : name ∉ declaredNames bundles) :
    (catalogOf bundles).typeNamed? name = Descriptor.builtin.typeNamed? name := by
  have hnone : (bundles.map (·.descriptor)).findSome? (·.typeNamed? name) = none := by
    rw [List.findSome?_eq_none_iff]
    intro d hd
    obtain ⟨b, hb, rfl⟩ := List.mem_map.mp hd
    cases ht : b.descriptor.typeNamed? name with
    | none => rfl
    | some t =>
      have hn := Descriptor.isSome_typeNamed?.mp (by rw [ht]; rfl)
      exact absurd (List.mem_flatMap.mpr ⟨b, hb, hn⟩) h
  rw [catalogOf, Catalog.typeNamed?, List.findSome?_append, hnone, Option.none_or]
  simp

/-- After the generated converters of some names were put, the table's own entries are those, and
the ones that it had before. -/
theorem slot?_foldl_putGenerated (catalog : Catalog) (names : List BindingName) (t : Table)
    (name : BindingName) :
    (names.foldl (putGenerated catalog) t).slot? name =
      if name ∈ names then
        ((catalog.typeNamed? name).map fun type ↦
          ⟨some (.generated type), some (.generated type)⟩).or (t.slot? name)
      else t.slot? name := by
  induction names generalizing t with
  | nil => simp
  | cons n names ih =>
    rw [List.foldl_cons, ih]
    have hput : (putGenerated catalog t n).slot? name =
        if name = n then
          ((catalog.typeNamed? name).map fun type ↦
            ⟨some (.generated type), some (.generated type)⟩).or (t.slot? name)
        else t.slot? name := by
      unfold putGenerated
      by_cases he : name = n
      · subst he
        cases hn : catalog.typeNamed? name with
        | none => simp
        | some type => simp [Table.put, Table.slot?_update]
      · cases hn : catalog.typeNamed? n with
        | none => simp [he]
        | some type => simp [Table.put, Table.slot?_update, he]
    rw [hput]
    by_cases he : name = n
    · subst he
      by_cases hm : name ∈ names
      · cases hn : catalog.typeNamed? name <;> simp [hm]
      · simp [hm]
    · simp [he]

/-- The context converts the types that its catalog resolves, and no others, each by the converter
that follows from it. -/
structure IsGenerated (c : Context) : Prop where
  marshaller (name : BindingName) :
    c.table.marshaller? name = (c.catalog.typeNamed? name).map .generated
  unmarshaller (name : BindingName) :
    c.table.unmarshaller? name = (c.catalog.typeNamed? name).map .generated

/-- A context that the host supplies no converters for has the generated ones alone. -/
theorem isGenerated_make {settings : Settings} (h : settings.converters = [])
    (bundles : List Bundle) : (make settings bundles).IsGenerated := by
  have hslot (name : BindingName) :
      (make settings bundles).table.slot? name =
        if name ∈ declaredNames bundles then
          ((catalogOf bundles).typeNamed? name).map fun type ↦
            ⟨some (.generated type), some (.generated type)⟩
        else none := by
    change (tableOf bundles settings.converters).slot? name = _
    rw [h]
    change ((declaredNames bundles).foldl (putGenerated (catalogOf bundles)) .empty).slot? name = _
    rw [slot?_foldl_putGenerated]
    simp [Table.empty, Table.slot?]
  have hbuiltin (name : BindingName) (hn : name ∉ declaredNames bundles) :
      Table.builtin? name = ((catalogOf bundles).typeNamed? name).map .generated := by
    rw [typeNamed?_of_not_declared hn, Table.builtin?]
  constructor
  · intro name
    change _ = ((catalogOf bundles).typeNamed? name).map Converter.generated
    unfold Table.marshaller?
    rw [hslot]
    by_cases hn : name ∈ declaredNames bundles
    · obtain ⟨type, ht⟩ := Option.isSome_iff_exists.mp (isSome_typeNamed?_of_declared hn)
      simp [hn, ht]
    · simp [hn, hbuiltin name hn]
  · intro name
    change _ = ((catalogOf bundles).typeNamed? name).map Converter.generated
    unfold Table.unmarshaller?
    rw [hslot]
    by_cases hn : name ∈ declaredNames bundles
    · obtain ⟨type, ht⟩ := Option.isSome_iff_exists.mp (isSome_typeNamed?_of_declared hn)
      simp [hn, ht]
    · simp [hn, hbuiltin name hn]

/-- A session that may still hand on offers the writers of all types. -/
theorem IsGenerated.writer? {c : Context} (hc : c.IsGenerated) {strict : Bool}
    {child : QName → Value → BindingType → Bool → Drafting Unit} {handovers : Nat}
    {name : BindingName} :
    (c.writeSession strict child (handovers + 1)).writer? name =
      (c.catalog.typeNamed? name).map fun t ↦
        ⟨t.isSimple, t.print, t.write (c.writeSession strict child handovers)⟩ := by
  change (c.table.marshaller? name).map _ = _
  rw [hc.marshaller, Option.map_map]
  rfl

/-- A session that may still hand on offers the readers of all types. -/
theorem IsGenerated.reader? {c : Context} (hc : c.IsGenerated) {strict : Bool}
    {child : BindingType → Reading Value} {handovers : Nat} {name : BindingName} :
    (c.readSession strict child (handovers + 1)).reader? name =
      (c.catalog.typeNamed? name).map fun t ↦
        ⟨t.read (c.readSession strict child handovers), t.readAttribute, t.default⟩ := by
  change (c.table.unmarshaller? name).map _ = _
  rw [hc.unmarshaller, Option.map_map]
  rfl

/-- A converter may hand on twice at the least. -/
theorem maxHandovers_eq (c : Context) : ∃ n, c.maxHandovers = n + 2 :=
  ⟨2 * c.table.size, by rw [maxHandovers]; omega⟩

end Context

/-! ### A context of shapes -/

namespace Shapes

/-- The binding of shapes. -/
def shape : BindingName := ⟨⟨"Shape"⟩, ⟨"urn:shapes", "Shape"⟩⟩

/-- The binding of circles, which narrow shapes. -/
def circle : BindingName := ⟨⟨"Circle"⟩, ⟨"urn:circles", "Circle"⟩⟩

/-- The binding of qualified names. -/
def name : BindingName := ⟨⟨"QName"⟩, .ofSchema "QName"⟩

/-- The properties of all shapes: a name as an attribute, a shape within, and names of its own. -/
def properties : List Property :=
  [.ofAttribute "kind" (.unqualified "kind") name,
    (Property.element "inner" ⟨"urn:shapes", "inner"⟩ shape).withNull,
    (Property.element "label" ⟨"urn:shapes", "label"⟩ name).repeated]

/-- Shapes and circles. -/
def descriptor : Descriptor :=
  { bindings := [.plain (.byName shape properties), .plain (.derived circle shape properties)]
    elements := [⟨⟨"urn:shapes", "shape"⟩, shape⟩] }

/-- The context of shapes. -/
def context : Context := .make .default [⟨none, descriptor, [], []⟩]

end Shapes

end XmlBinding

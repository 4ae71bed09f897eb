import XmlBinding.Proofs.Context.Generated

/-!
# Default types

A row of descriptors answers each question with the first of them that has an answer. The default
type of a native type or a schema type is then never one that the row does not define, whichever
descriptor the definition comes from (`Catalog.answers_first`).
-/

namespace XmlBinding

namespace Catalog

/-- The answer is that of the first descriptor that has one. -/
def IsFirstAnswer {α : Type} (c : Catalog) (ask : Descriptor → Option α) : Option α → Prop
  | none => ∀ d ∈ c.descriptors, ask d = none
  | some a => ∃ before d after, c.descriptors = before ++ d :: after ∧
      (∀ e ∈ before, ask e = none) ∧ ask d = some a

private theorem isFirstAnswer_findSome? {α : Type} (c : Catalog) (ask : Descriptor → Option α) :
    c.IsFirstAnswer ask (c.descriptors.findSome? ask) := by
  cases h : c.descriptors.findSome? ask with
  | none => exact List.findSome?_eq_none_iff.mp h
  | some a =>
    obtain ⟨before, d, after, hsplit, ha, hbefore⟩ := List.findSome?_eq_some_iff.mp h
    exact ⟨before, d, after, hsplit, hbefore, ha⟩

/-- A name that one descriptor of the row defines is defined by the row, as a type of that name. -/
theorem exists_type_of_mem {c : Catalog} {name : BindingName} {d : Descriptor}
    (hd : d ∈ c.descriptors) (h : name ∈ d.types.map (·.name)) :
    ∃ t, c.typeNamed? name = some t ∧ t.name = name := by
  have hsome : (c.typeNamed? name).isSome := by
    rw [typeNamed?, List.findSome?_isSome_iff]
    exact ⟨d, hd, Descriptor.isSome_typeNamed?.mpr h⟩
  obtain ⟨t, ht⟩ := Option.isSome_iff_exists.mp hsome
  exact ⟨t, ht, name_of_typeNamed? ht⟩

/-- A descriptor answers with the first entry that fits: for a name the first of the name, for a
native type or a schema type the first that is flagged as its default, else the first of it, for an
element the first of the element, and for the element of a native type the first whose type is of
it. A row of descriptors answers with the first that has an answer. So the default type of a native
type or a schema type is of it, and is defined in the row. -/
theorem answers_first :
    (∀ d : Descriptor,
      (∀ name, d.typeNamed? name = (d.bindings.find? (·.type.name = name)).map (·.type)) ∧
      (∀ native, d.typeOfNative? native =
        ((d.bindings.find? fun e ↦ e.nativeDefault && e.type.name.native = native).or
          (d.bindings.find? (·.type.name.native = native))).map (·.type.name)) ∧
      (∀ schema, d.typeOfSchema? schema =
        ((d.bindings.find? fun e ↦ e.schemaDefault && e.type.name.schema = schema).or
          (d.bindings.find? (·.type.name.schema = schema))).map (·.type.name)) ∧
      (∀ element, d.typeOfElement? element =
        (d.elements.find? (·.element = element)).map (·.type)) ∧
      ∀ native, d.elementOfNative? native =
        (d.elements.find? (·.type.native = native)).map (·.element)) ∧
    ∀ c : Catalog,
      (∀ name, c.IsFirstAnswer (·.typeNamed? name) (c.typeNamed? name)) ∧
      (∀ native, c.IsFirstAnswer (·.typeOfNative? native) (c.typeOfNative? native)) ∧
      (∀ schema, c.IsFirstAnswer (·.typeOfSchema? schema) (c.typeOfSchema? schema)) ∧
      (∀ element, c.IsFirstAnswer (·.typeOfElement? element) (c.typeOfElement? element)) ∧
      (∀ native, c.IsFirstAnswer (·.elementOfNative? native) (c.elementOfNative? native)) ∧
      (∀ native name, c.typeOfNative? native = some name →
        name.native = native ∧ ∃ t, c.typeNamed? name = some t ∧ t.name = name) ∧
      ∀ schema name, c.typeOfSchema? schema = some name →
        name.schema = schema ∧ ∃ t, c.typeNamed? name = some t ∧ t.name = name := by
  refine ⟨fun d ↦ ⟨fun name ↦ ?_, d.typeOfNative?_eq, d.typeOfSchema?_eq, d.typeOfElement?_eq,
    d.elementOfNative?_eq⟩, fun c ↦ ⟨fun _ ↦ c.isFirstAnswer_findSome? _,
    fun _ ↦ c.isFirstAnswer_findSome? _, fun _ ↦ c.isFirstAnswer_findSome? _,
    fun _ ↦ c.isFirstAnswer_findSome? _, fun _ ↦ c.isFirstAnswer_findSome? _, ?_, ?_⟩⟩
  · rw [d.typeNamed?_eq, Descriptor.types, List.find?_map]
    rfl
  · intro native name h
    obtain ⟨d, hd, hname⟩ := List.exists_of_findSome?_eq_some h
    obtain ⟨hnative, hmem⟩ := Descriptor.native_of_typeOfNative? hname
    exact ⟨hnative, exists_type_of_mem hd hmem⟩
  · intro schema name h
    obtain ⟨d, hd, hname⟩ := List.exists_of_findSome?_eq_some h
    obtain ⟨hschema, hmem⟩ := Descriptor.schema_of_typeOfSchema? hname
    exact ⟨hschema, exists_type_of_mem hd hmem⟩

/-- Two types of one native type, the second flagged as its default. -/
def codes : Descriptor :=
  { bindings := [.plain (.builtin ⟨⟨"Code"⟩, ⟨"urn:a", "code"⟩⟩ (.text .token)),
      { type := .builtin ⟨⟨"Code"⟩, ⟨"urn:a", "label"⟩⟩ (.text .string)
        nativeDefault := true
        schemaDefault := false }]
    elements := [] }

/-- Other types of the same native type and of the same schema type, flagged as defaults. -/
def otherCodes : Descriptor :=
  { bindings := [⟨.builtin ⟨⟨"Code"⟩, ⟨"urn:b", "code"⟩⟩ (.text .token), true, true⟩,
      ⟨.builtin ⟨⟨"Label"⟩, ⟨"urn:a", "label"⟩⟩ (.text .string), false, true⟩]
    elements := [⟨⟨"urn:b", "code"⟩, ⟨⟨"Code"⟩, ⟨"urn:b", "code"⟩⟩⟩] }

/-- The default of a native type is the flagged one of its two types, although another descriptor
behind it flags one too. -/
theorem answers_first_codes :
    let c : Catalog := ⟨[codes, otherCodes, .builtin]⟩
    c.typeOfNative? ⟨"Code"⟩ = some ⟨⟨"Code"⟩, ⟨"urn:a", "label"⟩⟩ ∧
      (∃ t, c.typeNamed? ⟨⟨"Code"⟩, ⟨"urn:a", "label"⟩⟩ = some t ∧
        t.name = ⟨⟨"Code"⟩, ⟨"urn:a", "label"⟩⟩) ∧
      c.typeOfSchema? ⟨"urn:b", "code"⟩ = some ⟨⟨"Code"⟩, ⟨"urn:b", "code"⟩⟩ ∧
      ∃ t, c.typeNamed? ⟨⟨"Code"⟩, ⟨"urn:b", "code"⟩⟩ = some t ∧
        t.name = ⟨⟨"Code"⟩, ⟨"urn:b", "code"⟩⟩ := by
  intro c
  obtain ⟨-, -, -, -, -, hnatives, hschemas⟩ := answers_first.2 c
  have hnative : c.typeOfNative? ⟨"Code"⟩ = some ⟨⟨"Code"⟩, ⟨"urn:a", "label"⟩⟩ := by rfl
  have hschema : c.typeOfSchema? ⟨"urn:b", "code"⟩ = some ⟨⟨"Code"⟩, ⟨"urn:b", "code"⟩⟩ := by rfl
  exact ⟨hnative, (hnatives _ _ hnative).2, hschema, (hschemas _ _ hschema).2⟩

end Catalog

end XmlBinding

import XmlBinding.Binding.Catalog

/-!
# What a descriptor answers

An index is filled in passes, and an answer that is there stays. So a pass over a list answers with
the first entry of the list that fits, where the passes before it have no answer. The type of a name
is that of the first entry of the name, and the default type of a native type or a schema type that
of the first flagged entry, else of the first one.
-/

namespace XmlBinding

/-! ### One pass -/

/-- A pass that enters some of the items of a list answers with the first of these that has the key,
where there was no answer before. -/
theorem foldl_enterNew_if {α β γ : Type} [DecidableEq α] (flag : γ → Bool) (key : γ → α)
    (answer : γ → β) (items : List γ) (answers : α → Option β) (k : α) :
    items.foldl (fun m x ↦ if flag x then enterNew m (key x) (answer x) else m) answers k =
      (answers k).or ((items.find? fun x ↦ flag x && key x = k).map answer) := by
  induction items generalizing answers with
  | nil => simp
  | cons x items ih =>
    rw [List.foldl_cons, ih, List.find?_cons]
    cases hflag : flag x with
    | false => simp
    | true =>
      by_cases hkey : k = key x
      · simp [enterNew, hkey]
      · simp [enterNew, hkey, Ne.symm hkey]

/-- A pass that enters all items of a list answers with the first that has the key, where there was
no answer before. -/
theorem foldl_enterNew {α β γ : Type} [DecidableEq α] (key : γ → α) (answer : γ → β)
    (items : List γ) (answers : α → Option β) (k : α) :
    items.foldl (fun m x ↦ enterNew m (key x) (answer x)) answers k =
      (answers k).or ((items.find? (key · = k)).map answer) := by
  simpa using foldl_enterNew_if (fun _ ↦ true) key answer items answers k

/-! ### All passes -/

namespace Index

variable (x : Index)

private theorem foldl_enter (entries : List BindingEntry) :
    entries.foldl enter x =
      { x with
        types := entries.foldl (fun m e ↦ enterNew m e.type.name e.type) x.types
        natives := entries.foldl
          (fun m e ↦ if e.nativeDefault then enterNew m e.type.name.native e.type.name else m)
          x.natives
        schemas := entries.foldl
          (fun m e ↦ if e.schemaDefault then enterNew m e.type.name.schema e.type.name else m)
          x.schemas } := by
  induction entries generalizing x with
  | nil => rfl
  | cons e entries ih => rw [List.foldl_cons, ih]; rfl

private theorem foldl_enterDefaults (types : List BindingType) :
    types.foldl enterDefaults x =
      { x with
        natives := types.foldl (fun m t ↦ enterNew m t.name.native t.name) x.natives
        schemas := types.foldl (fun m t ↦ enterNew m t.name.schema t.name) x.schemas } := by
  induction types generalizing x with
  | nil => rfl
  | cons t types ih => rw [List.foldl_cons, ih]; rfl

private theorem foldl_enterElement (elements : List ElementBinding) :
    elements.foldl enterElement x =
      { x with
        elements := elements.foldl (fun m b ↦ enterNew m b.element b.type) x.elements
        nativeElements :=
          elements.foldl (fun m b ↦ enterNew m b.type.native b.element) x.nativeElements } := by
  induction elements generalizing x with
  | nil => rfl
  | cons b elements ih => rw [List.foldl_cons, ih]; rfl

end Index

namespace Descriptor

variable (d : Descriptor)

/-- The type of a name is that of the first entry of the name. -/
theorem typeNamed?_eq (name : BindingName) :
    d.typeNamed? name = d.types.find? (·.name = name) := by
  rw [typeNamed?, index, Index.foldl_enterElement, Index.foldl_enterDefaults, Index.foldl_enter]
  simp only [foldl_enterNew, Index.empty, Option.none_or, types, List.find?_map]
  rfl

/-- The default type of a native type is that of the first entry flagged as its default, else of the
first entry of the native type. -/
theorem typeOfNative?_eq (native : NativeId) :
    d.typeOfNative? native =
      ((d.bindings.find? fun e ↦ e.nativeDefault && e.type.name.native = native).or
        (d.bindings.find? (·.type.name.native = native))).map (·.type.name) := by
  rw [typeOfNative?, index, Index.foldl_enterElement, Index.foldl_enterDefaults,
    Index.foldl_enter]
  simp only [foldl_enterNew, foldl_enterNew_if, Index.empty, Option.none_or, types,
    List.find?_map, Option.map_map, Option.map_or]
  rfl

/-- The default type of a schema type is that of the first entry flagged as its default, else of the
first entry of the schema type. -/
theorem typeOfSchema?_eq (schema : QName) :
    d.typeOfSchema? schema =
      ((d.bindings.find? fun e ↦ e.schemaDefault && e.type.name.schema = schema).or
        (d.bindings.find? (·.type.name.schema = schema))).map (·.type.name) := by
  rw [typeOfSchema?, index, Index.foldl_enterElement, Index.foldl_enterDefaults,
    Index.foldl_enter]
  simp only [foldl_enterNew, foldl_enterNew_if, Index.empty, Option.none_or, types,
    List.find?_map, Option.map_map, Option.map_or]
  rfl

/-- The type of a global element is that of the first entry of the element. -/
theorem typeOfElement?_eq (element : QName) :
    d.typeOfElement? element = (d.elements.find? (·.element = element)).map (·.type) := by
  rw [typeOfElement?, index, Index.foldl_enterElement, Index.foldl_enterDefaults,
    Index.foldl_enter]
  simp only [foldl_enterNew, Index.empty, Option.none_or]

/-- The global element of a native type is the first whose type has the native type. -/
theorem elementOfNative?_eq (native : NativeId) :
    d.elementOfNative? native =
      (d.elements.find? (·.type.native = native)).map (·.element) := by
  rw [elementOfNative?, index, Index.foldl_enterElement, Index.foldl_enterDefaults,
    Index.foldl_enter]
  simp only [foldl_enterNew, Index.empty, Option.none_or]

/-- Whether it is flagged or not, the first entry that fits is an entry, and fits. -/
theorem fits_of_default {d : Descriptor} (flagged : BindingEntry → Bool)
    (fits : BindingName → Bool) {name : BindingName}
    (h : ((d.bindings.find? fun e ↦ flagged e && fits e.type.name).or
      (d.bindings.find? (fits ·.type.name))).map (·.type.name) = some name) :
    fits name ∧ name ∈ d.types.map (·.name) := by
  obtain ⟨e, he, rfl⟩ := Option.map_eq_some_iff.mp h
  suffices hentry : fits e.type.name ∧ e ∈ d.bindings by
    rw [types, List.map_map]
    exact ⟨hentry.1, List.mem_map_of_mem hentry.2⟩
  obtain hflagged | ⟨-, hfirst⟩ := Option.or_eq_some_iff.mp he
  · have hfits : (flagged e && fits e.type.name) = true := by simpa using List.find?_some hflagged
    exact ⟨(Bool.and_eq_true_iff.mp hfits).2, List.mem_of_find?_eq_some hflagged⟩
  · exact ⟨by simpa using List.find?_some hfirst, List.mem_of_find?_eq_some hfirst⟩

/-- The default type of a native type has that native type, and is the type of an entry. -/
theorem native_of_typeOfNative? {d : Descriptor} {native : NativeId} {name : BindingName}
    (h : d.typeOfNative? native = some name) :
    name.native = native ∧ name ∈ d.types.map (·.name) := by
  rw [typeOfNative?_eq] at h
  simpa using fits_of_default (·.nativeDefault) (·.native = native) h

/-- The default type of a schema type has that schema type, and is the type of an entry. -/
theorem schema_of_typeOfSchema? {d : Descriptor} {schema : QName} {name : BindingName}
    (h : d.typeOfSchema? schema = some name) :
    name.schema = schema ∧ name ∈ d.types.map (·.name) := by
  rw [typeOfSchema?_eq] at h
  simpa using fits_of_default (·.schemaDefault) (·.schema = schema) h

end Descriptor

end XmlBinding

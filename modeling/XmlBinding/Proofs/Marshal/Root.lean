import XmlBinding.Proofs.Marshal.Document

/-!
# The root of a document that names no type

A value that is marshalled by its own type has the global element of its native type for a root, and
a document without a mark is read by the type of its root element. Both go by the first entry that
fits, but not by the same key, so that reading finds the type that was written only where one entry
answers both questions and names the default type of the native type.
-/

namespace XmlBinding

/-! ### Global elements of a catalog -/

namespace Catalog

/-- All global elements in order of precedence. -/
def elements (c : Catalog) : List ElementBinding := c.descriptors.flatMap (·.elements)

/-- The element of a native type is that of the first entry with the native type. -/
theorem elementOfNative?_eq (c : Catalog) (native : NativeId) :
    c.elementOfNative? native =
      (c.elements.find? (·.type.native = native)).map (·.element) := by
  simp only [elementOfNative?, elements, List.find?_flatMap, List.map_findSome?,
    Descriptor.elementOfNative?_eq]
  rfl

/-- The type of an element is that of the first entry with the element. -/
theorem typeOfElement?_eq (c : Catalog) (element : QName) :
    c.typeOfElement? element = (c.elements.find? (·.element = element)).map (·.type) := by
  simp only [typeOfElement?, elements, List.find?_flatMap, List.map_findSome?,
    Descriptor.typeOfElement?_eq]
  rfl

/-- The default type of a native type has that native type. -/
theorem native_of_typeOfNative? {c : Catalog} {native : NativeId} {name : BindingName}
    (h : c.typeOfNative? native = some name) : name.native = native := by
  obtain ⟨d, -, hd⟩ := List.exists_of_findSome?_eq_some h
  exact (Descriptor.native_of_typeOfNative? hd).1

/-- The first entry of a native type answers for its element exactly if no entry before it has the
element. -/
theorem typeOfElement?_of_first {c : Catalog} {before after : List ElementBinding}
    {entry : ElementBinding} {name : BindingName} (he : c.elements = before ++ entry :: after)
    (hb : ∀ e ∈ before, e.type.native ≠ name.native) :
    c.typeOfElement? entry.element = some name ↔
      (∀ e ∈ before, e.element ≠ entry.element) ∧ entry.type = name := by
  rw [typeOfElement?_eq, he, List.find?_append]
  cases hf : before.find? (·.element = entry.element) with
  | some e =>
    have hm := List.mem_of_find?_eq_some hf
    have hn : e.element = entry.element := by simpa using List.find?_some hf
    rw [Option.some_or, Option.map_some]
    constructor
    · intro h
      exact absurd (congrArg BindingName.native (Option.some.inj h)) (hb e hm)
    · intro h
      exact absurd hn (h.1 e hm)
  | none =>
    rw [Option.none_or, List.find?_cons_of_pos (by simp), Option.map_some]
    constructor
    · intro h
      exact ⟨by simpa using hf, Option.some.inj h⟩
    · intro h
      rw [h.2]

end Catalog

namespace Context

variable {c : Context}

/-- An element that is marked in any case has a mark unless its value is null. -/
theorem Renders.isSome_typeMarker {outer : NamespaceScope} {name : QName} {value : Value}
    {declared : BindingType} {attributes : List Attribute} {declarations : List Declaration}
    {content : List Tree}
    (h : c.Renders (.root true) outer name value declared
      (.element name attributes declarations content))
    (hnull : value.isNull = false) : (attribute? attributes .typeMarker).isSome = true := by
  cases h with
  | null => cases hnull
  | @made _ _ _ _ _ _ effective marks _ _ _ _ _ _ marking =>
    rw [Marks, if_pos (by simp [Position.isMarked])] at marking
    obtain ⟨text, rfl, -⟩ := marking
    rw [List.singleton_append, attribute?_cons_self]
    rfl

/-- The first event of a document opens its root. -/
theorem Documents.head_events {marked : Bool} {name root : QName} {value : Value}
    {declared : BindingType} {stream : EventStream} {tree : Tree} {attributes : List Attribute}
    {declarations : List Declaration} {rest : List Event}
    (h : c.Documents marked root value declared stream tree)
    (hs : stream.events = .opening name attributes declarations :: rest) :
    name = root ∧ ∃ content, tree = .element name attributes declarations content := by
  obtain ⟨rfl, ⟨attributes', declarations', content, rfl⟩, -, -, -⟩ := h
  rw [EventStream.events_ofEvents, Tree.events] at hs
  cases hs
  exact ⟨rfl, content, rfl⟩

/-- An element that has a binding is read by a type of a given name exactly if that is the name of
its binding. -/
theorem rootType_eq_ok_iff {name : QName} {bound binding : BindingName} {type : BindingType}
    (he : c.catalog.typeOfElement? name = some bound)
    (ht : c.catalog.typeNamed? binding = some type) :
    c.rootType name = .ok type ↔ bound = binding := by
  rw [rootType, he, Option.some_or]
  dsimp only
  constructor
  · intro h
    cases hb : c.catalog.typeNamed? bound with
    | none =>
      rw [hb] at h
      cases h
    | some type' =>
      rw [hb] at h
      cases h
      exact (Catalog.name_of_typeNamed? hb).symm.trans (Catalog.name_of_typeNamed? ht)
  · rintro rfl
    rw [ht]

/-- A value that was marshalled by its own type without a mark has the root of the first global
element of its native type. The root is read by the default type of the native type, with which it
was written, exactly if no earlier entry has the same element and the entry names that type. -/
theorem rootType_of_marshalled {settings : Settings} (h : settings.converters = [])
    {bundles : List Bundle} {options : Options} {value : Value} {stream : EventStream}
    (hnull : value.isNull = false)
    (hr : ((make settings bundles).marshal options value).result = .ok stream) {name : QName}
    {attributes : List Attribute} {declarations : List Declaration} {rest : List Event}
    (hs : stream.events = .opening name attributes declarations :: rest)
    (hm : attribute? attributes .typeMarker = none) :
    ∃ native binding type before entry after,
      settings.identify value = some native ∧
      (catalogOf bundles).typeOfNative? native = some binding ∧
      (catalogOf bundles).typeNamed? binding = some type ∧
      (catalogOf bundles).elements = before ++ entry :: after ∧
      (∀ e ∈ before, e.type.native ≠ native) ∧ entry.type.native = native ∧
      entry.element = name ∧
      ((catalogOf bundles).typeOfElement? name = some binding ↔
        (∀ e ∈ before, e.element ≠ name) ∧ entry.type = binding) ∧
      ((make settings bundles).rootType name = .ok type ↔
        (∀ e ∈ before, e.element ≠ name) ∧ entry.type = binding) := by
  obtain ⟨native, binding, type, tree, hi, hn, ht, hdoc⟩ :=
    (isGenerated_make h bundles).documents_marshal hr
  have hn' : (catalogOf bundles).typeOfNative? native = some binding := hn
  have ht' : (catalogOf bundles).typeNamed? binding = some type := ht
  cases he : (catalogOf bundles).elementOfNative? native with
  | none =>
    rw [show (make settings bundles).catalog = catalogOf bundles from rfl, he] at hdoc
    obtain ⟨rfl, content, rfl⟩ := hdoc.head_events hs
    have hmark := hdoc.renders.isSome_typeMarker hnull
    rw [hm] at hmark
    cases hmark
  | some root =>
    rw [show (make settings bundles).catalog = catalogOf bundles from rfl, he] at hdoc
    obtain ⟨rfl, content, rfl⟩ := hdoc.head_events hs
    rw [Catalog.elementOfNative?_eq] at he
    obtain ⟨entry, hf, rfl⟩ := Option.map_eq_some_iff.mp he
    obtain ⟨hentry, before, after, hall, hbefore⟩ := List.find?_eq_some_iff_append.mp hf
    have hbefore' : ∀ e ∈ before, e.type.native ≠ native := by simpa using hbefore
    have hb := Catalog.native_of_typeOfNative? hn'
    have hfirst : (catalogOf bundles).typeOfElement? entry.element = some binding ↔
        (∀ e ∈ before, e.element ≠ entry.element) ∧ entry.type = binding :=
      Catalog.typeOfElement?_of_first hall (by rw [hb]; exact hbefore')
    refine ⟨native, binding, type, before, entry, after, hi, hn', ht', hall, hbefore',
      by simpa using hentry, rfl, hfirst, ?_⟩
    have hbound : ((catalogOf bundles).typeOfElement? entry.element).isSome = true := by
      rw [Catalog.typeOfElement?_eq, Option.isSome_map, List.find?_isSome]
      exact ⟨entry, by rw [hall]; simp, by simp⟩
    obtain ⟨bound, hbound⟩ := Option.isSome_iff_exists.mp hbound
    rw [rootType_eq_ok_iff (c := make settings bundles) hbound ht', ← hfirst, hbound]
    exact Option.some_inj.symm

/-- The root of a shape is read by the type of shapes, with which it was written. -/
theorem rootType_of_marshalled_shapes :
    Shapes.context.rootType ⟨"urn:shapes", "shape"⟩ =
      .ok (.byName Shapes.shape Shapes.properties) := by
  have hnone : Settings.default.converters = [] := rfl
  have hresult : (Shapes.context.marshal ⟨none, none⟩ Shapes.value).result =
      .ok (.ofEvents Shapes.tree.events) := by decide +kernel
  obtain ⟨native, binding, type, before, entry, after, hi, hn, ht, hall, -, -, hname, -, hroot⟩ :=
    rootType_of_marshalled hnone rfl hresult rfl (by decide)
  cases hi
  have hn' : (catalogOf [⟨none, Shapes.descriptor, [], []⟩]).typeOfNative? ⟨"Shape"⟩ =
      some Shapes.shape := by decide +kernel
  cases hn'.symm.trans hn
  have ht' : (catalogOf [⟨none, Shapes.descriptor, [], []⟩]).typeNamed? Shapes.shape =
      some (.byName Shapes.shape Shapes.properties) := by decide +kernel
  cases ht'.symm.trans ht
  have hall' : (catalogOf [⟨none, Shapes.descriptor, [], []⟩]).elements =
      [⟨⟨"urn:shapes", "shape"⟩, Shapes.shape⟩] := by decide +kernel
  rw [hall'] at hall
  obtain ⟨rfl, he⟩ : before = [] ∧ [entry] = [⟨⟨"urn:shapes", "shape"⟩, Shapes.shape⟩] := by
    cases before with
    | nil => cases hall; exact ⟨rfl, rfl⟩
    | cons e before => simp at hall
  cases he
  exact hroot.mpr ⟨by simp, rfl⟩

end Context

/-! ### Shapes of two schemas -/

namespace Shapes

/-- The binding of shapes to a second schema type. -/
def sketch : BindingName := ⟨⟨"Shape"⟩, ⟨"urn:sketches", "Shape"⟩⟩

/-- Shapes of two schema types, of which the second one has the global element. -/
def twofold : Descriptor :=
  { bindings := [.plain (.byName shape properties), .plain (.byName sketch [])]
    elements := [⟨⟨"urn:sketches", "shape"⟩, sketch⟩] }

/-- The element of a shape that was never set: written as its default type in the element of the
second one. -/
def misnamed : Tree :=
  .element ⟨"urn:sketches", "shape"⟩ [] [⟨"ns1", "urn:sketches"⟩]
    [.element ⟨"urn:shapes", "inner"⟩ [⟨.nilMarker, "true"⟩]
      [⟨"ns2", "urn:shapes"⟩, ⟨"xsi", QName.instanceUri⟩] []]

end Shapes

/-- Not every root without a mark is read by the type with which it was written. -/
theorem Context.not_rootType_of_marshalled :
    ¬ ∀ (bundles : List Bundle) (options : Options) (value : Value) (stream : EventStream)
      (name : QName) (attributes : List Attribute) (declarations : List Declaration)
      (rest : List Event) (native : NativeId) (binding : BindingName), value.isNull = false →
      ((make .default bundles).marshal options value).result = .ok stream →
      stream.events = .opening name attributes declarations :: rest →
      attribute? attributes .typeMarker = none → value.nativeId? = some native →
      (catalogOf bundles).typeOfNative? native = some binding →
      (catalogOf bundles).typeOfElement? name = some binding := by
  intro h
  have hread := h [⟨none, Shapes.twofold, [], []⟩] ⟨none, none⟩ (.struct ⟨"Shape"⟩ [])
    (.ofEvents Shapes.misnamed.events) _ _ _ _ ⟨"Shape"⟩ Shapes.shape rfl (by decide +kernel) rfl
    (by decide) rfl (by decide +kernel)
  revert hread
  decide +kernel

end XmlBinding

import XmlBinding.Proofs.Document.Nesting
import XmlBinding.Proofs.Marshal.Element
import XmlBinding.Session

/-!
# Marshalled documents

A call that succeeds gives the events of one element, which a writer accepts. The element renders
the value, so that every written name resolves to the one it was printed from, and on the way from
the root to any of its elements nothing is declared twice and no namespace is missing.
-/

namespace XmlBinding

/-! ### Scoped trees -/

/-- On the way from the root to every element no prefix and no namespace is declared twice, and the
namespace of the element is declared. -/
inductive Tree.Scoped : NamespaceScope → Tree → Prop
  | text {outer : NamespaceScope} (s : String) : Tree.Scoped outer (.text s)
  /-- An element adds its declarations to those around it. -/
  | element {outer : NamespaceScope} {name : QName} {attributes : List Attribute}
      {declarations : List Declaration} {content : List Tree}
      (opens : outer.Opens name declarations)
      (parts : ∀ part ∈ content, Tree.Scoped (outer.push declarations) part) :
      Tree.Scoped outer (.element name attributes declarations content)

namespace Context

variable {c : Context}

private theorem ShowsText.isText {scope : NamespaceScope} {isRoot : Bool} {type : BindingType}
    {value : Value} {texts : List Tree} (h : ShowsText scope isRoot type value texts)
    {part : Tree} (hp : part ∈ texts) : ∃ s, part = .text s := by
  unfold ShowsText at h
  split at h
  · cases h with
    | inl h =>
      obtain ⟨text, -, rfl⟩ := h
      split at hp
      · cases hp
      · exact ⟨text, List.mem_singleton.mp hp⟩
    | inr h =>
      obtain ⟨-, -, rfl⟩ := h
      cases hp
  · subst h
    cases hp

private theorem Renders.isScoped {position : Position} {outer : NamespaceScope} {name : QName}
    {value : Value} {declared : BindingType} {tree : Tree}
    (h : c.Renders position outer name value declared tree) : tree.Scoped outer := by
  induction h with
  | null opens written => exact .element opens (by simp)
  | made opens present chosen marking asked showing content parts omitted resolved rendered ih =>
    refine .element opens fun part hp ↦ ?_
    cases List.mem_append.mp hp with
    | inl ht =>
      obtain ⟨s, rfl⟩ := content.isText ht
      exact .text s
    | inr hc =>
      obtain ⟨child, hm, hsome⟩ := List.mem_map.mp (List.reduceOption_mem_iff.mp hc)
      obtain ⟨type, ht⟩ := Option.isSome_iff_exists.mp (resolved child hm part hsome)
      exact ih child hm part hsome type ht

/-- An element that renders a value is an element of the given name. -/
theorem Renders.eq_element {position : Position} {outer : NamespaceScope} {name : QName}
    {value : Value} {declared : BindingType} {tree : Tree}
    (h : c.Renders position outer name value declared tree) :
    ∃ attributes declarations content,
      tree = .element name attributes declarations content := by
  cases h with
  | null opens written => exact ⟨_, _, _, rfl⟩
  | made => exact ⟨_, _, _, rfl⟩

/-! ### Documents -/

/-- A stream is a document of one element that renders a value of a declared type. -/
structure Documents (c : Context) (marked : Bool) (name : QName) (value : Value)
    (declared : BindingType) (stream : EventStream) (root : Tree) : Prop where
  /-- The events are those of the element, each opening with its closing. -/
  events : stream = .ofEvents root.events
  isElement : ∃ attributes declarations content,
    root = .element name attributes declarations content
  /-- A writer accepts every event and finds nothing left open. -/
  written : ∃ text, stream.toXml = .ok text
  /-- On every way down nothing is declared twice, and no namespace is missing. -/
  isScoped : root.Scoped .empty
  /-- The element shows the value, with texts that resolve to the names they were printed from. -/
  renders : c.Renders (.root marked) .empty name value declared root

/-- A call that writes succeeds with a stream if its steps do. -/
theorem gives_of_ofWriting {α : Type} {w : Writing α} {a : α}
    (h : (Outcome.ofWriting w).result = .ok a) : ∃ log, XmlBinding.Gives w ⟨0, []⟩ a log := by
  unfold Outcome.ofWriting at h
  rcases hrun : w.run.run ⟨0, []⟩ with ⟨r, log⟩
  rw [hrun] at h
  dsimp only at h
  subst h
  exact ⟨log, hrun⟩

/-- A document that was made is one of an element that renders the value. -/
theorem IsGenerated.documents (hc : c.IsGenerated) {strict marked : Bool} {name : QName}
    {value : Value} {declared : BindingType} {stream : EventStream} {log log' : WriteLog}
    (ht : c.catalog.typeNamed? declared.name = some declared)
    (h : XmlBinding.Gives (c.document strict marked name value declared) log stream log') :
    ∃ root, c.Documents marked name value declared stream root := by
  obtain ⟨out, log₁, helement, h⟩ := XmlBinding.gives_bind.mp h
  obtain ⟨rfl, rfl⟩ := XmlBinding.gives_pure.mp h
  have hanswer := hc.element_answers NamespaceScope.clear_empty (Nat.lt_succ_self _) ht helement
  cases out with
  | none => cases hanswer.1
  | some root =>
    have hevents : Tree.eventsOfAll (some root).toList = root.events := by
      rw [Option.toList_some, Tree.eventsOfAll, Tree.eventsOfAll, List.append_nil]
    rw [hevents]
    exact ⟨root, rfl, hanswer.eq_element, root.isOk_toXml, hanswer.isScoped, hanswer⟩

/-- A value of a declared type is marshalled as a document of its element. -/
theorem IsGenerated.documents_marshalType (hc : c.IsGenerated) {options : Options} {value : Value}
    {name : QName} {declared : BindingName} {stream : EventStream}
    (h : (c.marshalType options value name declared).result = .ok stream) :
    ∃ type root, c.catalog.typeNamed? declared = some type ∧
      c.Documents false name value type stream root := by
  obtain ⟨log, h⟩ := gives_of_ofWriting h
  unfold marshalDeclared at h
  cases ht : c.catalog.typeNamed? declared with
  | none =>
    rw [ht] at h
    exact absurd h XmlBinding.not_gives_throw
  | some type =>
    rw [ht] at h
    obtain ⟨root, hroot⟩ := hc.documents (Catalog.typeNamed?_name ht) h
    exact ⟨type, root, rfl, hroot⟩

/-- A value is marshalled by its own type as a document of the global element of its native type;
without one, the root has the name of the schema type and is marked with it. -/
theorem IsGenerated.documents_marshal (hc : c.IsGenerated) {options : Options} {value : Value}
    {stream : EventStream} (h : (c.marshal options value).result = .ok stream) :
    ∃ native binding type root, c.identify value = some native ∧
      c.catalog.typeOfNative? native = some binding ∧
      c.catalog.typeNamed? binding = some type ∧
      match c.catalog.elementOfNative? native with
      | some name => c.Documents false name value type stream root
      | none => c.Documents true binding.schema value type stream root := by
  obtain ⟨log, h⟩ := gives_of_ofWriting h
  unfold marshalDetected at h
  cases hi : c.identify value with
  | none =>
    rw [hi] at h
    exact absurd h XmlBinding.not_gives_throw
  | some native =>
    rw [hi] at h
    dsimp only at h
    cases hn : c.catalog.typeOfNative? native with
    | none =>
      rw [hn] at h
      exact absurd h XmlBinding.not_gives_throw
    | some binding =>
      rw [hn] at h
      dsimp only at h
      cases ht : c.catalog.typeNamed? binding with
      | none =>
        rw [ht] at h
        exact absurd h XmlBinding.not_gives_throw
      | some type =>
        rw [ht] at h
        dsimp only at h
        cases he : c.catalog.elementOfNative? native with
        | none =>
          rw [he] at h
          obtain ⟨root, hroot⟩ := hc.documents (Catalog.typeNamed?_name ht) h
          exact ⟨native, binding, type, root, rfl, hn, ht, by rw [he]; exact hroot⟩
        | some name =>
          rw [he] at h
          obtain ⟨root, hroot⟩ := hc.documents (Catalog.typeNamed?_name ht) h
          exact ⟨native, binding, type, root, rfl, hn, ht, by rw [he]; exact hroot⟩

/-- Every successful call gives a well-formed document: one element whose events are properly
nested and are written in full, in which nothing is declared twice on the way down, no namespace is
missing, and every type mark and printed name resolves to what it was printed from. -/
theorem marshalled_documents {settings : Settings} (h : settings.converters = [])
    (bundles : List Bundle) (options : Options) (value : Value) (stream : EventStream) :
    (∀ name declared,
      ((make settings bundles).marshalType options value name declared).result = .ok stream →
        ∃ type root, (make settings bundles).catalog.typeNamed? declared = some type ∧
          (make settings bundles).Documents false name value type stream root) ∧
    (((make settings bundles).marshal options value).result = .ok stream →
      ∃ native binding type root, settings.identify value = some native ∧
        (make settings bundles).catalog.typeOfNative? native = some binding ∧
        (make settings bundles).catalog.typeNamed? binding = some type ∧
        match (make settings bundles).catalog.elementOfNative? native with
        | some name => (make settings bundles).Documents false name value type stream root
        | none =>
          (make settings bundles).Documents true binding.schema value type stream root) := by
  have hc := isGenerated_make h bundles
  constructor
  · intro name declared hr
    exact hc.documents_marshalType hr
  · intro hr
    exact hc.documents_marshal hr

end Context

/-! ### A document of shapes -/

namespace Shapes

/-- A shape with a circle in it. -/
def value : Value :=
  .struct ⟨"Shape"⟩
    [("kind", .scalar (.name ⟨"urn:kinds", "nested"⟩)),
      ("label", .list []),
      ("inner", .struct ⟨"Circle"⟩
        [("label", .list [.scalar (.name ⟨"urn:circles", "unit"⟩),
          .scalar (.name (.unqualified "plain"))])])]

/-- The element of that shape. The circle is marked with its type. -/
def tree : Tree :=
  .element ⟨"urn:shapes", "shape"⟩ [⟨.unqualified "kind", "ns2:nested"⟩]
    [⟨"ns1", "urn:shapes"⟩, ⟨"ns2", "urn:kinds"⟩]
    [.element ⟨"urn:shapes", "inner"⟩ [⟨.typeMarker, "ns3:Circle"⟩]
      [⟨"ns3", "urn:circles"⟩, ⟨"xsi", QName.instanceUri⟩]
      [.element ⟨"urn:shapes", "inner"⟩ [⟨.nilMarker, "true"⟩] [] [],
        .element ⟨"urn:shapes", "label"⟩ [] [] [.text "ns3:unit"],
        .element ⟨"urn:shapes", "label"⟩ [] [] [.text "plain"]]]

end Shapes

/-- The document of a shape with a circle in it. -/
theorem Context.marshalled_documents_shapes :
    ∃ root, Shapes.context.Documents false ⟨"urn:shapes", "shape"⟩ Shapes.value
      (.byName Shapes.shape Shapes.properties) (.ofEvents Shapes.tree.events) root := by
  have hnone : Settings.default.converters = [] := rfl
  have hresult : (Shapes.context.marshalType ⟨none, none⟩ Shapes.value ⟨"urn:shapes", "shape"⟩
      Shapes.shape).result = .ok (.ofEvents Shapes.tree.events) := by decide +kernel
  obtain ⟨type, root, ht, hroot⟩ :=
    (marshalled_documents hnone _ ⟨none, none⟩ Shapes.value _).1 _ _ hresult
  have htype : Shapes.context.catalog.typeNamed? Shapes.shape =
      some (.byName Shapes.shape Shapes.properties) := by decide +kernel
  cases htype.symm.trans ht
  exact ⟨root, hroot⟩

end XmlBinding

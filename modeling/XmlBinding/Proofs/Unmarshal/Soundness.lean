import XmlBinding.Proofs.Unmarshal.Content
import XmlBinding.Session

/-!
# Type soundness of reading

Whatever a document says, what is returned for a declared type is sound for it: marks only choose
among the types that the declared one admits, and everything else that cannot be read becomes null
or a default. The depth of the recursion is an induction over child elements.
-/

namespace XmlBinding.Context

open Reading

variable {c : Context}

/-- A mark that is heeded names a type that may stand in for the declared one. -/
private theorem markedType?_yields (strict : Bool) (declared : BindingType) :
    Reading.Yields (c.markedType? strict (some declared)) fun r ↦ ∀ found, r = some found →
      c.catalog.typeNamed? found.name = some found ∧
        (declared.name = found.name ∨ c.catalog.admits declared found = true) := by
  unfold markedType?
  apply yields_after
  intro text
  split
  · exact yields_pure (by simp)
  · apply yields_after
    intro element
    split
    · exact yields_after fun _ ↦ yields_pure (by simp)
    · split
      · next hdeclared => cases hdeclared
      · next found declared' hfound hdeclared =>
        cases hdeclared
        split
        · next hadmits =>
          apply yields_pure
          intro found' he
          cases he
          obtain ⟨name, -, hname⟩ := Option.bind_eq_some_iff.mp hfound
          exact ⟨Catalog.typeNamed?_name hname, hadmits⟩
        · exact yields_after fun _ ↦ yields_pure (by simp)
      · split
        · exact yields_after fun _ ↦ yields_after fun _ ↦ yields_pure (by simp)
        · exact yields_after fun _ ↦ yields_pure (by simp)

/-- Whatever is sound for the type that an element is read with is sound for the declared one. -/
private theorem readType?_yields (session : ReadSession) {declared : BindingType} (name : QName)
    (hd : c.catalog.typeNamed? declared.name = some declared) :
    Reading.Yields (c.readType? session (some declared) name) fun r ↦ ∀ type, r = some type →
      c.catalog.typeNamed? type.name = some type ∧
        ∀ v, c.Sound type v → c.Sound declared v := by
  unfold readType?
  refine yields_bind (markedType?_yields session.strict declared) fun marked hmarked ↦ ?_
  have hchosen : ∃ chosen, marked.or (some declared) = some chosen ∧
      c.catalog.typeNamed? chosen.name = some chosen ∧
        ∀ v, c.Sound chosen v → c.Sound declared v := by
    cases marked with
    | none => exact ⟨declared, rfl, hd, fun _ hv ↦ hv⟩
    | some found =>
      obtain ⟨hfound, hstands⟩ := hmarked found rfl
      refine ⟨found, rfl, hfound, fun v hv ↦ ?_⟩
      cases hstands with
      | inl he =>
        rw [he, hfound] at hd
        cases hd
        exact hv
      | inr ha => exact hv.of_admits hd hfound ha
  obtain ⟨chosen, hsome, hr, hs⟩ := hchosen
  rw [hsome]
  dsimp only
  rw [pure_bind]
  split
  · next base subtypes hk =>
    split
    · next type ht =>
      apply yields_pure
      intro type' he
      cases he
      exact ⟨Catalog.typeNamed?_name ht, fun v hv ↦ hs v (.base hk ht hv)⟩
    · exact yields_after fun _ ↦ yields_pure (by simp)
  · apply yields_pure
    intro type he
    cases he
    exact ⟨hr, hs⟩

/-- The value of an element is sound for the declared type, if child elements give sound values. -/
private theorem IsGenerated.readValue_yields (hc : c.IsGenerated) (hn : c.NamesFields)
    {strict : Bool} {child : BindingType → Reading Value}
    (hs : ∀ n, c.Feeds (c.readSession strict child (n + 1))) {declared : BindingType}
    (name : QName) (hd : c.catalog.typeNamed? declared.name = some declared) :
    Reading.Yields (c.readValue (c.readSession strict child c.maxHandovers) (some declared) name)
      (c.Sound declared) := by
  obtain ⟨n, hmax⟩ := c.maxHandovers_eq
  rw [hmax]
  unfold readValue
  apply yields_after
  intro isNull
  split
  · exact yields_pure .null
  · refine yields_bind (readType?_yields _ name hd) fun chosen hchosen ↦ ?_
    cases chosen with
    | none => exact yields_pure .null
    | some type =>
      obtain ⟨hr, hsound⟩ := hchosen type rfl
      dsimp only
      rw [hc.reader?, hr]
      exact ((hs n).read hn hr).imp hsound

/-- Every element of a declared type is read as a sound value. -/
theorem IsGenerated.readElement_sound (hc : c.IsGenerated) (hn : c.NamesFields) {strict : Bool}
    {depth : Nat} {outer : NamespaceScope} {declared : BindingType} {cursor cursor' : Cursor}
    {v : Value} (hd : c.catalog.typeNamed? declared.name = some declared)
    (h : XmlBinding.Gives (c.readElement strict depth outer (some declared)) cursor v cursor') :
    c.Sound declared v := by
  induction depth generalizing outer declared cursor cursor' v with
  | zero =>
    obtain ⟨s, cursor₁, -, h⟩ := XmlBinding.gives_bind.mp h
    exact absurd h XmlBinding.not_gives_throw
  | succ depth ih =>
    unfold readElement at h
    obtain ⟨⟨⟩, cursor₁, -, h⟩ := XmlBinding.gives_bind.mp h
    obtain ⟨cursor₂, cursor₃, -, h⟩ := XmlBinding.gives_bind.mp h
    split at h
    · next name attributes declarations location rest hrest =>
      obtain ⟨⟨⟩, cursor₄, -, h⟩ := XmlBinding.gives_bind.mp h
      refine yields_bind (hc.readValue_yields hn (fun n ↦ ⟨rfl, fun type ht ↦ ?_⟩) name hd)
        (fun v hv ↦ yields_after fun _ ↦ yields_pure hv) _ _ _ _ h
      apply yields_after
      intro element e cursor v cursor' hg
      exact ih ht hg
    · exact absurd h XmlBinding.not_gives_throw

/-- A call that reads succeeds with a value if its steps do. -/
theorem gives_of_ofScanning {α : Type} {m : Scanning α} {document : EventStream} {a : α}
    (h : (Outcome.ofScanning m document).result = .ok a) :
    ∃ cursor, XmlBinding.Gives m ⟨document.entries, []⟩ a cursor := by
  unfold Outcome.ofScanning at h
  rcases hrun : m.run.run ⟨document.entries, []⟩ with ⟨r, cursor⟩
  rw [hrun] at h
  dsimp only at h
  subst h
  exact ⟨cursor, hrun⟩

/-- Properties have different names where those of every type in every descriptor have. -/
theorem namesFields_of_forall
    (h : ∀ d ∈ c.catalog.descriptors, ∀ t ∈ d.types, (t.properties.map (·.name)).Nodup) :
    c.NamesFields := by
  intro name type ht
  obtain ⟨d, hd, hm⟩ := Catalog.mem_types_of_typeNamed? ht
  exact h d hd type hm

/-- Whatever is read for a declared type is sound for it, for every sequence of events. -/
theorem unmarshalType_sound {settings : Settings} (h : settings.converters = [])
    {bundles : List Bundle} (hn : (make settings bundles).NamesFields) {options : Options}
    {document : EventStream} {declared : BindingName} {v : Value}
    (hr : ((make settings bundles).unmarshalType options declared document).result = .ok v) :
    ∃ type, (catalogOf bundles).typeNamed? declared = some type ∧
      (make settings bundles).Sound type v := by
  obtain ⟨cursor, hg⟩ := gives_of_ofScanning hr
  unfold unmarshalDeclared at hg
  split at hg
  · next type ht =>
    refine ⟨type, ht, ?_⟩
    unfold readRoot at hg
    obtain ⟨start, cursor₁, -, hg⟩ := XmlBinding.gives_bind.mp hg
    exact (isGenerated_make h bundles).readElement_sound hn (Catalog.typeNamed?_name ht) hg
  · exact absurd hg XmlBinding.not_gives_throw

end XmlBinding.Context

namespace XmlBinding

/-- The document of a shape with an unreadable name, text and an element that it does not have, and
a circle in it. -/
def Shapes.careless : EventStream :=
  .ofEvents
    [.opening ⟨"urn:shapes", "shape"⟩ [⟨.unqualified "kind", "nowhere:name"⟩]
        [⟨"c", "urn:circles"⟩],
      .text "text",
      .opening ⟨"urn:shapes", "inner"⟩ [⟨.typeMarker, "c:Circle"⟩] [],
      .closing ⟨"urn:shapes", "inner"⟩,
      .opening (.unqualified "unknown") [] [],
      .closing (.unqualified "unknown"),
      .closing ⟨"urn:shapes", "shape"⟩]

/-- A careless document of a shape is read as a sound value all the same. -/
theorem Context.unmarshalType_sound_careless :
    ∃ v, (Shapes.context.unmarshalType ⟨none, none⟩ Shapes.shape Shapes.careless).result = .ok v ∧
      Shapes.context.Sound (.byName Shapes.shape Shapes.properties) v := by
  have hnone : Settings.default.converters = [] := rfl
  have hnames : Shapes.context.NamesFields := namesFields_of_forall (by decide +kernel)
  cases hr : (Shapes.context.unmarshalType ⟨none, none⟩ Shapes.shape Shapes.careless).result with
  | error e =>
    have hok : (Shapes.context.unmarshalType ⟨none, none⟩ Shapes.shape
        Shapes.careless).result.isOk = true := by decide +kernel
    rw [hr] at hok
    cases hok
  | ok v =>
    obtain ⟨type, ht, hsound⟩ := unmarshalType_sound hnone hnames hr
    have ht' : (catalogOf [⟨none, Shapes.descriptor, [], []⟩]).typeNamed? Shapes.shape =
        some (.byName Shapes.shape Shapes.properties) := by decide +kernel
    cases ht'.symm.trans ht
    exact ⟨v, rfl, hsound⟩

end XmlBinding

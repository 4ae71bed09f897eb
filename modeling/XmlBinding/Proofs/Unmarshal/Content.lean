import XmlBinding.Proofs.Conversion.Run
import XmlBinding.Proofs.Conversion.Structure
import XmlBinding.Proofs.Unmarshal.Sound

/-!
# What converters read from an element

A generated converter returns sound values for its type, provided that the child elements of the
session do. Nothing is assumed of the events: `Reading.Yields` speaks of whatever a step returns
when it succeeds.
-/

namespace XmlBinding

/-! ### Results of steps -/

namespace Reading

variable {α β : Type} {m : Reading α} {P Q : α → Prop}

/-- Whenever the step succeeds, its result has the property. -/
def Yields (m : Reading α) (P : α → Prop) : Prop :=
  ∀ e c a c', Reading.Gives m e c a c' → P a

/-- A step that returns a value yields it. -/
theorem yields_pure {a : α} (h : P a) : Reading.Yields (pure a) P := by
  intro e c b c' hg
  obtain ⟨rfl, -⟩ := gives_pure.mp hg
  exact h

/-- What two steps yield follows from what the second does after the first. -/
theorem yields_bind {f : α → Reading β} {R : β → Prop} (hm : Yields m P)
    (hf : ∀ a, P a → Yields (f a) R) : Yields (m >>= f) R := by
  intro e c b c' hg
  obtain ⟨a, c₁, ha, hb⟩ := gives_bind.mp hg
  exact hf a (hm e c a c₁ ha) e c₁ b c' hb

private theorem yields_any (m : Reading α) : Yields m fun _ ↦ True := fun _ _ _ _ _ ↦ trivial

/-- What a step yields after another does not depend on that one. -/
theorem yields_after {f : α → Reading β} {R : β → Prop} (hf : ∀ a, Yields (f a) R) :
    Yields (m >>= f) R :=
  yields_bind (yields_any m) fun a _ ↦ hf a

/-- A step yields whatever follows from what it yields. -/
theorem Yields.imp (h : Yields m P) (hpq : ∀ a, P a → Q a) : Yields m Q :=
  fun e c a c' hg ↦ hpq a (h e c a c' hg)

private theorem yields_mapM {ι : Type} {f : ι → Reading α} {xs : List ι}
    (h : ∀ x ∈ xs, Yields (f x) P) : Yields (xs.mapM f) fun results ↦ ∀ a ∈ results, P a := by
  induction xs with
  | nil =>
    rw [List.mapM_nil]
    exact yields_pure (by simp)
  | cons x xs ih =>
    rw [List.mapM_cons]
    refine yields_bind (h x List.mem_cons_self) fun a ha ↦ ?_
    refine yields_bind (ih fun y hy ↦ h y (List.mem_cons_of_mem _ hy)) fun as has ↦ ?_
    exact yields_pure (List.forall_mem_cons.mpr ⟨ha, has⟩)

/-- What the handling of every child element yields is common to all that is gathered. -/
theorem yields_gather {handle : QName → Reading (List α)}
    (h : ∀ name, Yields (handle name) fun results ↦ ∀ a ∈ results, P a) :
    Yields (gather handle) fun results ↦ ∀ a ∈ results, P a := by
  have hupTo (bound : Nat) :
      Yields (gatherUpTo handle bound) fun results ↦ ∀ a ∈ results, P a := by
    induction bound with
    | zero => exact yields_pure (by simp)
    | succ bound ih =>
      apply yields_after
      intro child
      cases child with
      | none => exact yields_pure (by simp)
      | some name =>
        refine yields_bind (h name) fun first hfirst ↦ ?_
        refine yields_bind ih fun more hmore ↦ yields_pure fun a ha ↦ ?_
        cases List.mem_append.mp ha with
        | inl hf => exact hfirst a hf
        | inr hm => exact hmore a hm
  exact yields_after fun cursor ↦ hupTo _

end Reading

/-! ### Texts -/

open Reading

/-- A codec that suits its binding reads values of the codec's native type. -/
private theorem BindingName.codec_readText_yields (name : BindingName) (space : LexicalSpace)
    (text : String) :
    Reading.Yields ((name.codec space).readText text) fun r ↦ ∀ v, r = .ok v →
      ∃ s, v = .scalar s ∧ (name.Suits space → s.type = (name.codec space).type) := by
  unfold Codec.readText
  refine yields_after fun element ↦ yields_pure fun v hv ↦ ?_
  cases hr : (name.codec space).read element.scope.namespaceOf? text with
  | error cause =>
    rw [hr] at hv
    cases hv
  | ok s =>
    rw [hr] at hv
    cases hv
    refine ⟨s, rfl, fun hs ↦ ?_⟩
    rw [Codec.type_of_read hr, Codec.readType_of_mem hs.codec_mem]

namespace Context

variable {c : Context}

private theorem codec_readContent_yields (name : BindingName) (space : LexicalSpace) :
    Reading.Yields (name.codec space).readContent (c.Sound ⟨name, .builtin space⟩) := by
  unfold Codec.readContent
  apply yields_after
  intro text
  refine yields_bind (name.codec_readText_yields space text) fun r hr ↦ ?_
  cases r with
  | ok v => exact yields_pure (.text rfl (.inr (hr v rfl)))
  | error cause => exact yields_after fun _ ↦ yields_pure (.text rfl (.inl rfl))

/-! ### Sessions -/

/-- What a session offers is what the context has: its types, and child elements of sound values. -/
structure Feeds (c : Context) (s : ReadSession) : Prop where
  catalog : s.catalog = c.catalog
  /-- A child element of a type gives a sound value. -/
  child (type : BindingType) (h : c.catalog.typeNamed? type.name = some type) :
    Reading.Yields (s.child type) (c.Sound type)

private theorem Feeds.readItem {s : ReadSession} (hs : c.Feeds s) (name item : BindingName)
    (itemElement child : QName) :
    Reading.Yields (BindingType.readItem s name item itemElement child) fun items ↦ ∀ v ∈ items,
      ∃ type, c.catalog.typeNamed? item = some type ∧ c.Sound type v := by
  unfold BindingType.readItem
  rw [hs.catalog]
  split
  · exact yields_after fun _ ↦ yields_after fun _ ↦ yields_pure (by simp)
  · split
    · next type ht =>
      refine yields_bind (hs.child type (Catalog.typeNamed?_name ht)) fun v hv ↦ yields_pure ?_
      simpa using ⟨type, ht, hv⟩
    · exact yields_after fun _ ↦ yields_after fun _ ↦ yields_pure (by simp)

private theorem Feeds.readList {s : ReadSession} (hs : c.Feeds s) (name item : BindingName)
    (itemElement : QName) :
    Reading.Yields ((⟨name, .list item itemElement⟩ : BindingType).read s)
      (c.Sound ⟨name, .list item itemElement⟩) := by
  refine yields_bind (yields_gather fun child ↦ hs.readItem name item itemElement child)
    fun items hitems ↦ yields_pure (.list rfl ?_ ?_)
  · intro v hv
    obtain ⟨type, ht, -⟩ := hitems v hv
    rw [ht]
    rfl
  · intro v hv t ht
    obtain ⟨type, ht', hsound⟩ := hitems v hv
    rw [ht] at ht'
    cases ht'
    exact hsound

/-! ### Fields -/

/-- The value is sound for the type of a property. -/
def SoundFor (c : Context) (p : Property) (v : Value) : Prop :=
  ∃ type, c.catalog.typeNamed? p.type = some type ∧ c.Sound type v

/-- The value of a field is what an element property of its name should have. -/
def SoundField (c : Context) (properties : List Property) (n : String) (v : Value) : Prop :=
  ∃ p ∈ properties, p.name = n ∧ (p.isAttribute = false →
    if p.isMultiple then ∃ items, v = .list items ∧ ∀ w ∈ items, c.SoundFor p w
    else c.SoundFor p v)

/-- What was read for a property stands at its place and is sound for its type. -/
def SoundOccurrence (c : Context) (properties : List Property) (o : Occurrence) : Prop :=
  (o.property, o.index) ∈ properties.zipIdx ∧ o.property.isAttribute = false ∧
    c.SoundFor o.property o.value

private theorem Feeds.readAttribute {s : ReadSession} {p : Property} :
    Reading.Yields (p.readAttribute s) fun r ↦ ∀ n v, r = some (n, v) → n = p.name := by
  unfold Property.readAttribute
  apply yields_after
  intro text
  split
  · exact yields_pure (by simp)
  · split
    · exact yields_after fun _ ↦ yields_pure (by simp)
    · split
      · exact yields_after fun _ ↦ yields_pure (by simp)
      · apply yields_after
        intro r
        cases r with
        | ok value => exact yields_pure (by simp +contextual)
        | error cause => exact yields_after fun _ ↦ yields_pure (by simp +contextual)

private theorem Feeds.readOccurrence {s : ReadSession} (hs : c.Feeds s) (name : BindingName)
    (properties : List Property) (child : QName) :
    Reading.Yields (BindingType.readOccurrence s name properties child) fun occurrences ↦
      ∀ o ∈ occurrences, c.SoundOccurrence properties o := by
  unfold BindingType.readOccurrence
  split
  · exact yields_after fun _ ↦ yields_after fun _ ↦ yields_pure (by simp)
  · next p index hp =>
    obtain ⟨hmem, hattribute, -⟩ := BindingType.mem_of_elementProperty? hp
    rw [hs.catalog]
    split
    · next type ht =>
      refine yields_bind (hs.child type (Catalog.typeNamed?_name ht)) fun v hv ↦ yields_pure ?_
      simpa using ⟨hmem, hattribute, type, ht, hv⟩
    · exact yields_after fun _ ↦ yields_after fun _ ↦ yields_pure (by simp)

/-- Fields that were read for properties of different names make a sound structure. -/
private theorem sound_of_holds {name : BindingName} {base : Option BindingName}
    {properties : List Property} {fields : Fields}
    (hr : c.catalog.typeNamed? name = some ⟨name, .byName base properties⟩)
    (hnodup : (properties.map (·.name)).Nodup) (hf : fields.Holds (c.SoundField properties))
    (hset : ∀ p ∈ properties, p.isAttribute = false → p.isMultiple = true →
      (fields.get? p.name).isSome = true) :
    c.Sound ⟨name, .byName base properties⟩ (.struct name.native fields) := by
  -- As names differ, the property that a field was read for is the one of its name.
  have hfield {p : Property} (hp : p ∈ properties) (ha : p.isAttribute = false) {v : Value}
      (hv : fields.get? p.name = some v) :
      if p.isMultiple then ∃ items, v = .list items ∧ ∀ w ∈ items, c.SoundFor p w
      else c.SoundFor p v := by
    obtain ⟨q, hq, hn, hsound⟩ := hf _ _ hv
    have he : q = p := List.inj_on_of_nodup_map hnodup hq hp hn
    subst he
    exact hsound ha
  have hvalues {p : Property} (hp : p ∈ properties) (ha : p.isAttribute = false) {v : Value}
      (hv : v ∈ p.values fields) : c.SoundFor p v := by
    unfold Property.values at hv
    split at hv
    · next hm =>
      cases hget : fields.get? p.name with
      | none =>
        rw [hget] at hv
        cases hv
      | some w =>
        have hw := hfield hp ha hget
        rw [if_pos hm] at hw
        obtain ⟨items, rfl, hitems⟩ := hw
        rw [hget] at hv
        exact hitems v hv
    · next hm =>
      have hw := hfield hp ha (by simpa using hv)
      rwa [if_neg hm] at hw
  refine .struct ⟨base, properties, rfl⟩ ⟨base, properties, rfl⟩ (.self rfl) hr ?_ ?_ ?_ ?_
  · intro n hn
    obtain ⟨v, hv⟩ := Option.isSome_iff_exists.mp hn
    obtain ⟨p, hp, hname, -⟩ := hf n v hv
    exact ⟨p, hp, hname⟩
  · intro p hp ha hm
    obtain ⟨v, hv⟩ := Option.isSome_iff_exists.mp (hset p hp ha hm)
    have hw := hfield hp ha hv
    rw [if_pos hm] at hw
    obtain ⟨items, rfl, -⟩ := hw
    exact ⟨items, hv⟩
  · intro p hp ha v hv
    obtain ⟨type, ht, -⟩ := hvalues hp ha hv
    rw [ht]
    rfl
  · intro p hp ha v hv t ht
    obtain ⟨type, ht', hsound⟩ := hvalues hp ha hv
    rw [ht] at ht'
    cases ht'
    exact hsound

/-- A structure whose properties have different names is read as a sound value. -/
private theorem Feeds.readStructure {s : ReadSession} (hs : c.Feeds s) {name : BindingName}
    {base : Option BindingName} {properties : List Property}
    (hr : c.catalog.typeNamed? name = some ⟨name, .byName base properties⟩)
    (hnodup : (properties.map (·.name)).Nodup) :
    Reading.Yields (BindingType.readStructure s name properties)
      (c.Sound ⟨name, .byName base properties⟩) := by
  unfold BindingType.readStructure
  have hattributes : Reading.Yields
      ((properties.filter (·.isAttribute)).mapM (Property.readAttribute s)) fun results ↦
        ∀ r ∈ results, ∀ a, r = some a → ∃ p ∈ properties, p.name = a.1 ∧ p.isAttribute = true := by
    refine yields_mapM fun p hp ↦ Feeds.readAttribute.imp fun r hread a ha ↦ ?_
    obtain ⟨hp, hattribute⟩ := List.mem_filter.mp hp
    exact ⟨p, hp, (hread a.1 a.2 ha).symm, hattribute⟩
  refine yields_bind hattributes fun attributes ha ↦ ?_
  refine yields_bind (yields_gather fun child ↦ hs.readOccurrence name properties child)
    fun occurrences ho ↦ yields_pure ?_
  refine sound_of_holds hr hnodup (BindingType.holds_gathered ?_ ?_ ?_)
    fun p hp hattribute hm ↦ BindingType.isSome_gathered_of_repeated hp hm hattribute
  · intro n v hm
    obtain ⟨p, hp, hname, hattribute⟩ := ha _ hm _ rfl
    exact ⟨p, hp, hname, fun he ↦ by rw [hattribute] at he; cases he⟩
  · intro o hm hsingle
    obtain ⟨hplace, -, hsound⟩ := ho o hm
    refine ⟨o.property, List.fst_mem_of_mem_zipIdx hplace, rfl, fun _ ↦ ?_⟩
    rw [if_neg (by simp [hsingle])]
    exact hsound
  · intro p i hp hm _
    refine ⟨p, List.fst_mem_of_mem_zipIdx hp, rfl, fun _ ↦ ?_⟩
    rw [if_pos hm]
    refine ⟨_, rfl, fun w hw ↦ ?_⟩
    obtain ⟨o, hmem, rfl⟩ := List.mem_map.mp hw
    obtain ⟨hmem, hindex⟩ := List.mem_filter.mp hmem
    obtain ⟨hplace, -, hsound⟩ := ho o hmem
    have hi : o.index = i := by simpa using hindex
    rw [hi] at hplace
    rw [← Property.eq_of_mem_zipIdx hplace hp]
    exact hsound

/-- The properties of every structure that the context resolves have different names. -/
def NamesFields (c : Context) : Prop :=
  ∀ name type, c.catalog.typeNamed? name = some type → (type.properties.map (·.name)).Nodup

/-- Whatever type an element is read with, its value is sound for that type. -/
theorem Feeds.read {s : ReadSession} (hs : c.Feeds s) (hn : c.NamesFields) {type : BindingType}
    (hr : c.catalog.typeNamed? type.name = some type) :
    Reading.Yields (type.read s) (c.Sound type) := by
  obtain ⟨name, kind⟩ := type
  cases kind with
  | builtin space => exact codec_readContent_yields name space
  | byName base properties => exact hs.readStructure hr (hn _ _ hr)
  | list item itemElement => exact hs.readList name item itemElement
  | polymorphic base subtypes => exact yields_after fun text ↦ yields_pure (.string rfl)

end Context

end XmlBinding

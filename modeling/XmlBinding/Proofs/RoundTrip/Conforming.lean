import XmlBinding.Proofs.Lexical.Codec
import XmlBinding.Proofs.Marshal.Element

/-!
# Values that conform to a type

`Context.Conforms` says of a value that everything in it can be written for its declared type and
read back: texts are read as they were printed, only declared fields are set, and wherever the value
has a narrower type of its own, a mark leads back to that type.
-/

namespace XmlBinding

/-! ### Texts that are read back -/

/-- The codec prints the value, and reads a printed text as an equal value. A name is printed as
such, to be read by the prefixes in scope. -/
def Codec.RoundTrips (codec : Codec) (value : Value) : Prop :=
  ∃ printed, codec.print value = .ok printed ∧ ∀ text, printed = .text text →
    ∃ s, codec.read (fun _ ↦ none) text = .ok s ∧ (Value.scalar s == value) = true

private theorem Codec.read_congr {codec : Codec} (h : codec.space ≠ .qname)
    (f g : String → Option String) (text : String) : codec.read f text = codec.read g text := by
  obtain ⟨space, type⟩ := codec
  cases space with
  | qname => exact absurd rfl h
  | _ => rfl

/-- A qualified name is never printed as a text that needs no prefix. -/
private theorem Codec.space_ne_of_print_eq_text {codec : Codec} {value : Value} {text : String}
    (h : codec.print value = .ok (.text text)) : codec.space ≠ .qname := by
  obtain ⟨space, type⟩ := codec
  rintro rfl
  unfold Codec.print at h
  split at h
  · next s =>
    cases s with
    | name q =>
      change Codec.printName q = _ at h
      unfold Codec.printName at h
      split at h <;> cases h
    | _ => cases h
  · cases h

private theorem Value.beq_name (q : QName) :
    (Value.scalar (.name q) == Value.scalar (.name q)) = true := by
  change Value.beq (.scalar (.name q)) (.scalar (.name q)) = true
  rw [Value.beq]
  exact decide_eq_true rfl

/-- A text that shows a value which round-trips is read as an equal value. -/
theorem Codec.RoundTrips.read {codec : Codec} {value : Value} (h : codec.RoundTrips value)
    {scope : NamespaceScope} {text : String} (hs : codec.Shows scope value text) :
    ∃ s, codec.read scope.namespaceOf? text = .ok s ∧ (Value.scalar s == value) = true := by
  obtain ⟨printed, hp, hr⟩ := h
  rw [Codec.Shows, hp] at hs
  cases printed with
  | text s =>
    subst hs
    obtain ⟨x, hx, he⟩ := hr _ rfl
    refine ⟨x, ?_, he⟩
    rw [← hx]
    exact Codec.read_congr (Codec.space_ne_of_print_eq_text hp) _ _ _
  | name q =>
    obtain ⟨hspace, rfl, -⟩ := Codec.print_eq_name hp
    refine ⟨.name q, ?_, Value.beq_name q⟩
    rw [Codec.read, hspace]
    dsimp only at hs ⊢
    rw [hs]
    rfl

/-! ### Names of parts -/

/-- The attributes of a type have different names, none of which is that of a mark, and its elements
have different names. -/
structure BindingType.NamesParts (t : BindingType) : Prop where
  attributes : ((t.properties.filter (·.isAttribute)).map (·.qname)).Nodup
  unmarked : ∀ p ∈ t.properties, p.isAttribute = true → p.qname.uri ≠ QName.instanceUri
  elements : ((t.properties.filter (!·.isAttribute)).map (·.qname)).Nodup

instance (t : BindingType) : Decidable t.NamesParts :=
  decidable_of_iff
    (((t.properties.filter (·.isAttribute)).map (·.qname)).Nodup ∧
      (∀ p ∈ t.properties, p.isAttribute = true → p.qname.uri ≠ QName.instanceUri) ∧
      ((t.properties.filter (!·.isAttribute)).map (·.qname)).Nodup)
    ⟨fun h ↦ ⟨h.1, h.2.1, h.2.2⟩, fun h ↦ ⟨h.attributes, h.unmarked, h.elements⟩⟩

/-- The layout of a type that is not polymorphic. -/
theorem BindingType.kind_ne_polymorphic {t : BindingType} (h : t.isPolymorphic = false)
    {base : Option BindingName} {subtypes : List BindingName} :
    t.kind ≠ .polymorphic base subtypes := by
  intro hk
  rw [isPolymorphic, hk] at h
  cases h

namespace Context

variable (c : Context)

/-! ### Conforming values -/

mutual

/-- A value fits a type exactly: it has the layout of the type, and its parts conform. -/
inductive Fits : BindingType → Value → Prop
  | text {type : BindingType} {space : LexicalSpace} {value : Value}
      (layout : type.kind = .builtin space) (trip : (type.name.codec space).RoundTrips value) :
      Fits type value
  /-- A structure that sets declared fields only. An attribute that is unset has no default, and
  any other is text that is read back; a repeated element holds a list, with nulls only where they
  are written. -/
  | struct {type : BindingType} {base : Option BindingName} {properties : List Property}
      {fields : Fields} (layout : type.kind = .byName base properties)
      (only : ∀ n, (fields.get n).isNull = false → ∃ p ∈ properties, p.name = n)
      (unset : ∀ p ∈ properties, p.isAttribute = true → (fields.get p.name).isNull = true →
        p.default = none)
      (attributes : ∀ p ∈ properties, p.isAttribute = true → (fields.get p.name).isNull = false →
        ∃ t space, c.catalog.typeNamed? p.type = some t ∧ t.kind = .builtin space ∧
          (t.name.codec space).RoundTrips (fields.get p.name))
      (repeated : ∀ p ∈ properties, p.isAttribute = false → p.isMultiple = true →
        (c.catalog.typeNamed? p.type).isSome = true ∧
        ∃ items, fields.get p.name = .list items ∧ ∀ v ∈ items, v.isNull = true →
          p.isNillable = true)
      (typed : ∀ p ∈ properties, p.isAttribute = false → ∀ part ∈ p.parts fields,
        part.value.isNull = false → (c.catalog.typeNamed? p.type).isSome = true)
      (elements : ∀ p ∈ properties, p.isAttribute = false → ∀ part ∈ p.parts fields,
        ∀ t, c.catalog.typeNamed? p.type = some t → Conforms t part.value) :
      Fits type (.struct type.name.native fields)
  | list {type : BindingType} {item : BindingName} {itemElement : QName} {items : List Value}
      (layout : type.kind = .list item itemElement)
      (typed : ∀ v ∈ items, (c.catalog.typeNamed? item).isSome = true)
      (values : ∀ v ∈ items, ∀ t, c.catalog.typeNamed? item = some t → Conforms t v) :
      Fits type (.list items)

/-- A value conforms to a declared type: it fits that type, or one that may stand in for it. -/
inductive Conforms : BindingType → Value → Prop
  | null {declared : BindingType} : Conforms declared .null
  /-- A value of the declared type itself. -/
  | plain {declared : BindingType} {value : Value} (fits : Fits declared value) :
      Conforms declared value
  /-- A value of the default type of its native type, which the declared type admits and a mark
  leads back to. -/
  | narrower {declared type : BindingType} {value : Value}
      (found : c.typeOfValue? value = some type)
      (differs : declared.isPolymorphic = true ∨ c.identify value ≠ some declared.name.native)
      (other : type.name ≠ declared.name)
      (notBase : ∀ base, c.polymorphicBase? declared = some base → type.name ≠ base.name)
      (admits : c.catalog.admits declared type = true)
      (named : isNCName type.name.schema.localPart.toList = true)
      (schema : c.catalog.typeOfSchema? type.name.schema = some type.name)
      (fits : Fits type value) : Conforms declared value
  /-- A value of the base of a polymorphic type that has no narrower type. -/
  | base {declared type : BindingType} {value : Value} {name : BindingName}
      {subtypes : List BindingName} (layout : declared.kind = .polymorphic (some name) subtypes)
      (resolved : c.catalog.typeNamed? name = some type)
      (unmarked : ∀ found, c.typeOfValue? value = some found → found.name = type.name ∨
        found.name = declared.name ∨ c.catalog.admits declared found = false)
      (fits : Fits type value) : Conforms declared value

end

/-- In every structure that the context resolves, parts are told apart by their names. -/
def NamesParts : Prop := ∀ name type, c.catalog.typeNamed? name = some type → type.NamesParts

variable {c}

/-- No value fits a polymorphic type exactly. -/
theorem Fits.isPolymorphic {type : BindingType} {value : Value} (h : c.Fits type value) :
    type.isPolymorphic = false := by
  unfold BindingType.isPolymorphic
  cases h with
  | text layout => rw [layout]
  | struct layout => rw [layout]
  | list layout => rw [layout]

/-- A type of text has a text for every value that fits it. -/
theorem Fits.not_refuses {type : BindingType} {value : Value} (h : c.Fits type value)
    (hs : type.isSimple = true) : ¬ type.Refuses value := by
  intro hr
  unfold BindingType.isSimple at hs
  cases h with
  | @text _ space _ layout trip =>
    obtain ⟨printed, hp, -⟩ := trip
    obtain ⟨cause, he⟩ := hr (type.name.codec space) (by rw [BindingType.codec?, layout])
    rw [hp] at he
    cases he
  | struct layout =>
    rw [layout] at hs
    cases hs
  | list layout =>
    rw [layout] at hs
    cases hs

/-! ### The type to write with -/

/-- The type that a value is written with is the one that the element will be read with: its mark
names it, or there is no mark and it is the declared type or the base of that. -/
def Leads (c : Context) (declared : BindingType) (effective : Effective) : Prop :=
  if effective.marked then
    isNCName effective.type.name.schema.localPart.toList = true ∧
      c.catalog.typeOfSchema? effective.type.name.schema = some effective.type.name ∧
      c.catalog.admits declared effective.type = true
  else
    effective.type = declared ∨ ∃ name subtypes, declared.kind = .polymorphic (some name) subtypes ∧
      c.catalog.typeNamed? name = some effective.type

/-- A type that is not polymorphic has no base that stands for it. -/
theorem polymorphicBase?_eq_none {declared : BindingType} (h : declared.isPolymorphic = false) :
    c.polymorphicBase? declared = none := by
  unfold polymorphicBase?
  split
  · next hk => exact absurd hk (BindingType.kind_ne_polymorphic h)
  · rfl

/-- A value that fits its declared type exactly is written with that type. -/
private theorem Fits.effectiveType (hi : c.identify = Value.nativeId?) {declared : BindingType}
    {value : Value} (h : c.Fits declared value) :
    c.effectiveType value declared = .ok ⟨declared, false⟩ := by
  have hpoly := h.isPolymorphic
  unfold Context.effectiveType
  rw [polymorphicBase?_eq_none hpoly]
  dsimp only
  cases hn : c.narrowed? value declared with
  | none => rfl
  | some found =>
    dsimp only
    by_cases he : found.name = declared.name
    · rw [if_pos (.inr he)]
      rfl
    · rw [if_neg (by simpa using he)]
      cases h with
      | text layout =>
        have ha : c.catalog.admits declared found = false := by
          simpa [Catalog.admits, BindingType.admits, layout] using he
        rw [if_neg (by rw [ha]; decide), layout]
        rfl
      | list layout =>
        have ha : c.catalog.admits declared found = false := by
          simpa [Catalog.admits, BindingType.admits, layout] using he
        rw [if_neg (by rw [ha]; decide), layout]
        rfl
      | struct layout =>
        unfold narrowed? at hn
        rw [hpoly, hi] at hn
        simp [Value.nativeId?] at hn

/-- A conforming value is written with a type that it fits exactly and that leads back to it. -/
theorem Conforms.effective (hi : c.identify = Value.nativeId?) {declared : BindingType}
    {value : Value} (h : c.Conforms declared value) (hnull : value.isNull = false) :
    ∃ effective, c.effectiveType value declared = .ok effective ∧
      c.Fits effective.type value ∧ c.Leads declared effective := by
  cases h with
  | null => cases hnull
  | plain fits => exact ⟨_, fits.effectiveType hi, fits, .inl rfl⟩
  | @narrower _ type _ found differs other notBase admits named schema fits =>
    refine ⟨⟨type, true⟩, ?_, fits, named, schema, admits⟩
    have hn : c.narrowed? value declared = some type := by
      unfold narrowed?
      rw [if_pos ?_, found]
      cases differs with
      | inl hp => exact .inl hp
      | inr hv =>
        right
        cases hid : c.identify value with
        | none =>
          unfold typeOfValue? at found
          rw [hid] at found
          cases found
        | some native =>
          rw [hid] at hv
          simpa using hv
    unfold effectiveType
    rw [hn]
    dsimp only
    have hbase : ¬ ((c.polymorphicBase? declared).any (·.name = type.name) = true ∨
        type.name = declared.name) := by
      rintro (hb | hb)
      · cases hp : c.polymorphicBase? declared with
        | none =>
          rw [hp] at hb
          cases hb
        | some base =>
          rw [hp] at hb
          have hname : base.name = type.name := by simpa using hb
          exact notBase base hp hname.symm
      · exact other hb
    rw [if_neg hbase, if_pos admits]
  | @base _ type _ name subtypes layout resolved unmarked fits =>
    refine ⟨⟨type, false⟩, ?_, fits, .inr ⟨name, subtypes, layout, resolved⟩⟩
    have hb : c.polymorphicBase? declared = some type := by
      rw [polymorphicBase?, layout]
      exact resolved
    have hp : declared.isPolymorphic = true := by rw [BindingType.isPolymorphic, layout]
    unfold effectiveType
    rw [hb, narrowed?, if_pos (.inl hp)]
    dsimp only
    cases hf : c.typeOfValue? value with
    | none => rfl
    | some found =>
      dsimp only
      cases unmarked found hf with
      | inl he =>
        rw [if_pos (.inl (by simp [he]))]
        rfl
      | inr he =>
        cases he with
        | inl he =>
          rw [if_pos (.inr he)]
          rfl
        | inr ha =>
          split
          · rfl
          · rw [if_neg (by rw [ha]; decide), layout]
            rfl

end Context

end XmlBinding

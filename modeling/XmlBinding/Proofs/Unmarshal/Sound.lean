import XmlBinding.Proofs.Context.Generated
import XmlBinding.Proofs.Lexical.Codec

/-!
# Values that are sound for a type

`Context.Sound` says what reading may return for a declared type, whatever the document says: values
of the declared layout, or of a layout that may stand in for it.
-/

namespace XmlBinding

/-- The values are structures. -/
def BindingType.IsStructure (t : BindingType) : Prop :=
  ∃ base properties, t.kind = .byName base properties

/-- The type has the name, or reaches it through base links. -/
inductive Catalog.Narrows (c : Catalog) (ancestor : BindingName) : BindingType → Prop
  | self {t : BindingType} (named : t.name = ancestor) : Catalog.Narrows c ancestor t
  /-- The type has it for its base. -/
  | direct {t : BindingType} (linked : t.base? = some ancestor) : Catalog.Narrows c ancestor t
  /-- The base of the type reaches it. -/
  | step {t base : BindingType} {name : BindingName} (linked : t.base? = some name)
      (resolved : c.typeNamed? name = some base) (further : Catalog.Narrows c ancestor base) :
      Catalog.Narrows c ancestor t

namespace Catalog

variable {c : Catalog}

private theorem narrows_of_chainReaches {ancestor : BindingName} {depth : Nat} {t : BindingType}
    (h : BindingType.chainReaches c.typeNamed? ancestor depth t.base? = true) :
    c.Narrows ancestor t := by
  induction depth generalizing t with
  | zero =>
    cases hb : t.base? with
    | none => simp [hb, BindingType.chainReaches] at h
    | some name =>
      have hn : name = ancestor := by simpa [hb, BindingType.chainReaches] using h
      subst hn
      exact .direct hb
  | succ depth ih =>
    cases hb : t.base? with
    | none => simp [hb, BindingType.chainReaches] at h
    | some name =>
      rw [hb, BindingType.chainReaches, Bool.or_eq_true] at h
      cases h with
      | inl h =>
        have hn : name = ancestor := by simpa using h
        subst hn
        exact .direct hb
      | inr h =>
        cases hr : c.typeNamed? name with
        | none => simp [hr, BindingType.chainReaches] at h
        | some base =>
          rw [hr, Option.bind_some] at h
          exact .step hb hr (ih h)

private theorem narrows_of_derives {t : BindingType} {ancestor : BindingName}
    (h : c.derives t ancestor = true) : c.Narrows ancestor t := by
  rw [derives, BindingType.derivesFrom, Bool.or_eq_true] at h
  cases h with
  | inl h => exact .self (by simpa using h)
  | inr h => exact narrows_of_chainReaches h

private theorem Narrows.trans {t s : BindingType} {ancestor : BindingName} (h : c.Narrows s.name t)
    (hs : c.typeNamed? s.name = some s) (ht : c.typeNamed? t.name = some t)
    (h' : c.Narrows ancestor s) : c.Narrows ancestor t := by
  induction h with
  | self named =>
    rw [named, hs] at ht
    cases ht
    exact h'
  | direct linked => exact .step linked hs h'
  | step linked resolved further ih =>
    exact .step linked resolved (ih (typeNamed?_name resolved))

private theorem Narrows.isStructure {s t : BindingType} (h : c.Narrows s.name t)
    (hs : c.typeNamed? s.name = some s) (ht : c.typeNamed? t.name = some t)
    (hl : s.IsStructure) : t.IsStructure := by
  have hbase {name : BindingName} (hb : t.base? = some name) : t.IsStructure := by
    unfold BindingType.base? at hb
    split at hb
    · next base properties hk => exact ⟨base, properties, hk⟩
    · cases hb
  cases h with
  | self named =>
    rw [named, hs] at ht
    cases ht
    exact hl
  | direct linked => exact hbase linked
  | step linked resolved further => exact hbase linked

end Catalog

/-- The values that the elements of a property gave: its items if it is repeated. -/
def Property.values (fields : Fields) (p : Property) : List Value :=
  if p.isMultiple then
    match fields.get? p.name with
    | some (.list items) => items
    | _ => []
  else (fields.get? p.name).toList

namespace Context

variable (c : Context)

/-- A value may be returned for a declared type. -/
inductive Sound : BindingType → Value → Prop
  | null {declared : BindingType} : Sound declared .null
  /-- For a structure, an instance of one that narrows it: only declared fields are set, a repeated
  element holds a list, and the values of elements are sound for their types. -/
  | struct {declared type : BindingType} {fields : Fields} (layout : declared.IsStructure)
      (narrower : type.IsStructure) (narrows : c.catalog.Narrows declared.name type)
      (resolved : c.catalog.typeNamed? type.name = some type)
      (only : ∀ name, (fields.get? name).isSome = true → ∃ p ∈ type.properties, p.name = name)
      (repeated : ∀ p ∈ type.properties, p.isAttribute = false → p.isMultiple = true →
        ∃ items, fields.get? p.name = some (.list items))
      (typed : ∀ p ∈ type.properties, p.isAttribute = false → ∀ v ∈ p.values fields,
        (c.catalog.typeNamed? p.type).isSome = true)
      (values : ∀ p ∈ type.properties, p.isAttribute = false → ∀ v ∈ p.values fields,
        ∀ t, c.catalog.typeNamed? p.type = some t → Sound t v) :
      Sound declared (.struct type.name.native fields)
  /-- For a list, items that are sound for the type of items. -/
  | list {declared : BindingType} {item : BindingName} {itemElement : QName} {items : List Value}
      (layout : declared.kind = .list item itemElement)
      (typed : ∀ v ∈ items, (c.catalog.typeNamed? item).isSome = true)
      (values : ∀ v ∈ items, ∀ t, c.catalog.typeNamed? item = some t → Sound t v) :
      Sound declared (.list items)
  /-- For text of a lexical space, a scalar, which has the native type of the codec if the native
  type of the binding suits the space; or else the default of that native type. -/
  | text {declared : BindingType} {space : LexicalSpace} {v : Value}
      (layout : declared.kind = .builtin space)
      (value : v = (declared.name.codec space).type.defaultValue ∨
        ∃ s, v = .scalar s ∧
          (declared.name.Suits space → s.type = (declared.name.codec space).type)) :
      Sound declared v
  /-- For a polymorphic type, a value that is sound for its base. -/
  | base {declared type : BindingType} {name : BindingName} {subtypes : List BindingName}
      {v : Value} (layout : declared.kind = .polymorphic (some name) subtypes)
      (resolved : c.catalog.typeNamed? name = some type) (value : Sound type v) :
      Sound declared v
  /-- For a polymorphic type, a value that is sound for a type that it admits. -/
  | admitted {declared type : BindingType} {v : Value} (layout : declared.isPolymorphic = true)
      (resolved : c.catalog.typeNamed? type.name = some type)
      (admits : c.catalog.admits declared type = true) (value : Sound type v) : Sound declared v
  | string {declared : BindingType} {s : String} (layout : declared.isPolymorphic = true) :
      Sound declared (.ofString s)

variable {c}

/-- What is sound for a structure is sound for every structure that it narrows. -/
private theorem Sound.widen {declared type : BindingType} {v : Value} (h : c.Sound type v)
    (layout : declared.IsStructure) (layout' : type.IsStructure)
    (hd : c.catalog.typeNamed? type.name = some type)
    (hn : c.catalog.Narrows declared.name type) : c.Sound declared v := by
  obtain ⟨base, properties, hk⟩ := layout'
  cases h with
  | null => exact .null
  | struct layout' narrower narrows resolved only repeated typed values =>
    exact .struct layout narrower (narrows.trans hd resolved hn) resolved only repeated typed values
  | list layout' =>
    rw [hk] at layout'
    cases layout'
  | text layout' =>
    rw [hk] at layout'
    cases layout'
  | base layout' =>
    rw [hk] at layout'
    cases layout'
  | admitted layout' =>
    rw [BindingType.isPolymorphic, hk] at layout'
    cases layout'
  | string layout' =>
    rw [BindingType.isPolymorphic, hk] at layout'
    cases layout'

/-- What is sound for a type that may stand in for another is sound for that one. -/
theorem Sound.of_admits {declared type : BindingType} {v : Value} (h : c.Sound type v)
    (hd : c.catalog.typeNamed? declared.name = some declared)
    (ht : c.catalog.typeNamed? type.name = some type)
    (ha : c.catalog.admits declared type = true) : c.Sound declared v := by
  have hsame (hn : type.name = declared.name) : c.Sound declared v := by
    rw [hn, hd] at ht
    cases ht
    exact h
  cases hk : declared.kind with
  | builtin space => exact hsame (by simpa [Catalog.admits, BindingType.admits, hk] using ha)
  | list item itemElement =>
    exact hsame (by simpa [Catalog.admits, BindingType.admits, hk] using ha)
  | polymorphic base subtypes =>
    exact .admitted (by rw [BindingType.isPolymorphic, hk]) ht ha h
  | byName base properties =>
    have hder : c.catalog.derives type declared.name = true := by
      simpa [Catalog.admits, BindingType.admits, hk, Catalog.derives] using ha
    have hn := Catalog.narrows_of_derives hder
    have hl : declared.IsStructure := ⟨base, properties, hk⟩
    exact h.widen hl (hn.isStructure hd ht hl) ht hn

end Context

end XmlBinding

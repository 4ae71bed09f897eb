import XmlBinding.Proofs.Marshal.Element
import XmlBinding.Proofs.Marshal.InStep
import XmlBinding.Proofs.Unmarshal.Lenient
import XmlBinding.Session

/-!
# Lenient calls recover

What is wrong with a value, a type or a text does not end a lenient call. It reads every document
that is one whole element, and it writes every value but one: a root of a type of its own that does
not narrow the structure that is declared for it (`Context.Misfits`).
-/

namespace XmlBinding

open Event

/-! ### Calls that succeed -/

/-- The step succeeds from any state. -/
def Succeeds {σ α : Type} (m : ExceptT Error (StateM σ) α) : Prop := ∀ s, ∃ a s', Gives m s a s'

/-- Steps that succeed one after the other succeed together. -/
theorem Succeeds.bind {σ α β : Type} {m : ExceptT Error (StateM σ) α}
    {f : α → ExceptT Error (StateM σ) β} (hm : Succeeds m) (hf : ∀ a, Succeeds (f a)) :
    Succeeds (m >>= f) := by
  intro s
  obtain ⟨a, s₁, ha⟩ := hm s
  obtain ⟨b, s₂, hb⟩ := hf a s₁
  exact ⟨b, s₂, gives_bind.mpr ⟨a, s₁, ha, hb⟩⟩

/-- A call that writes gives a result if its steps succeed. -/
theorem Outcome.result_ofWriting {α : Type} {w : Writing α} (h : Succeeds w) :
    ∃ a, (Outcome.ofWriting w).result = .ok a := by
  obtain ⟨a, log, ha⟩ := h ⟨0, []⟩
  exact ⟨a, congrArg Prod.fst ha⟩

namespace Context

variable {c : Context} {value : Value} {declared found : BindingType}

/-- Lenient calls that write succeed in all that they have in common with themselves. -/
theorem inStep_succeeds : Writing.InStep (fun w _ ↦ Succeeds w) false false where
  pure a := fun log ↦ ⟨a, log, rfl⟩
  bind hw hf := hw.bind hf
  log := fun log ↦ ⟨log, log, rfl⟩
  number _ := fun _ ↦ ⟨_, _, rfl⟩
  note _ _ := fun _ ↦ ⟨_, _, rfl⟩
  missing _ := fun _ ↦ ⟨_, _, rfl⟩

/-- A lenient call makes the element of a value that stands within another, or leaves it out. -/
theorem IsGenerated.succeeds_element (hc : c.IsGenerated) (depth : Nat) (outer : NamespaceScope)
    (nillable : Bool) (name : QName) (value : Value) (declared : BindingType) :
    Succeeds (c.element false depth outer (.child nillable) name value declared) :=
  hc.inStep_element inStep_succeeds depth outer nillable name value declared

/-! ### Roots -/

/-- The value has a type of its own, which does not narrow the structure that is declared for it. -/
structure Misfits (c : Context) (value : Value) (declared found : BindingType) : Prop where
  isNull : value.isNull = false
  isStructure : ∃ base properties, declared.kind = .byName base properties
  differs : ∃ native, c.identify value = some native ∧ native ≠ declared.name.native
  isFound : c.typeOfValue? value = some found
  isOther : c.catalog.derives found declared.name = false

/-- The type that a value may be written with below a structure is its own, if its native type is
another one. -/
private theorem narrowed?_of_structure {base : Option BindingName} {properties : List Property}
    (hkind : declared.kind = .byName base properties) :
    c.narrowed? value declared = some found ↔
      (∃ native, c.identify value = some native ∧ native ≠ declared.name.native) ∧
        c.typeOfValue? value = some found := by
  unfold narrowed? BindingType.isPolymorphic
  rw [hkind]
  cases c.identify value with
  | none => simp
  | some native => simp

/-- There is no type to write a value with just if it has one of its own that does not narrow the
structure that is declared for it. -/
theorem effectiveType_eq_error_iff (hv : value.isNull = false) :
    c.effectiveType value declared = .error found ↔ c.Misfits value declared found := by
  unfold effectiveType
  dsimp only
  constructor
  · intro h
    split at h
    · cases h
    · next type hnarrowed =>
      split at h
      · cases h
      · split at h
        · cases h
        · next hadmits =>
          split at h
          · next base properties hkind =>
            cases h
            obtain ⟨hdiffers, hfound⟩ := (narrowed?_of_structure hkind).mp hnarrowed
            refine ⟨hv, ⟨base, properties, hkind⟩, hdiffers, hfound, ?_⟩
            unfold Catalog.admits BindingType.admits at hadmits
            rw [hkind] at hadmits
            exact Bool.eq_false_iff.mpr hadmits
          · cases h
  · rintro ⟨-, ⟨base, properties, hkind⟩, hdiffers, hfound, hother⟩
    have hbase : c.polymorphicBase? declared = none := by rw [polymorphicBase?, hkind]
    have hname : found.name ≠ declared.name := by
      intro he
      rw [Catalog.derives, BindingType.derivesFrom, decide_eq_true he, Bool.true_or] at hother
      cases hother
    have hadmits : c.catalog.admits declared found = false := by
      rw [Catalog.admits, BindingType.admits, hkind]
      exact hother
    rw [(narrowed?_of_structure hkind).mpr ⟨hdiffers, hfound⟩, hbase]
    dsimp only
    rw [if_neg (by simpa using hname), if_neg (by simp [hadmits]), hkind]

/-- A lenient call makes the root of a document from every value that is not of another type than
the declared one. -/
theorem IsGenerated.succeeds_root (hc : c.IsGenerated)
    (ht : c.catalog.typeNamed? declared.name = some declared)
    (hfits : ∀ found, ¬ c.Misfits value declared found) (depth : Nat) (outer : NamespaceScope)
    (marked : Bool) (name : QName) :
    Succeeds (c.element false (depth + 1) outer (.root marked) name value declared) := by
  cases hv : value.isNull with
  | true =>
    unfold element
    rw [if_pos hv]
    exact inStep_succeeds.nullElement outer name
  | false =>
    rw [element_succ c false depth outer _ name hv]
    obtain ⟨n, hmax⟩ := c.maxHandovers_eq
    rw [hmax]
    unfold valueElement
    cases he : c.effectiveType value declared with
    | error found => exact absurd ((effectiveType_eq_error_iff hv).mp he) (hfits found)
    | ok effective =>
      dsimp only
      rw [hc.writer?, typeNamed?_of_effectiveType ht he]
      have hchild (name : QName) (value : Value) (declared : BindingType) (nillable : Bool) :
          Drafting.Steps (fun w _ ↦ Succeeds w)
            (c.writeChild false depth name value declared nillable)
            (c.writeChild false depth name value declared nillable) :=
        steps_writeChild inStep_succeeds (hc.succeeds_element depth) name value declared nillable
      exact hc.inStep_build inStep_succeeds hchild n effective effective.type outer _ name value

/-- A root of another type than the declared one is an error. -/
theorem Misfits.element_root (h : c.Misfits value declared found) (depth : Nat)
    (outer : NamespaceScope) (marked : Bool) (name : QName) :
    c.element false (depth + 1) outer (.root marked) name value declared =
      throw (.structural (.notNarrowing name found.name declared.name) none) := by
  rw [element_succ c false depth outer _ name h.isNull]
  unfold valueElement
  rw [(effectiveType_eq_error_iff h.isNull).mpr h]
  rfl

/-! ### Documents -/

/-- A lenient call reads every document that is one whole element. -/
theorem IsGenerated.result_readRoot (hc : c.IsGenerated) (declared : BindingType)
    {document : EventStream} (h : IsElement document.events) :
    ∃ v, (Outcome.ofScanning (c.readRoot false (some declared)) document).result = .ok v := by
  obtain ⟨name, attributes, declarations, content, closing, he, hcontent⟩ := isElement_iff.mp h
  have hlength : content.length + 2 ≤ document.entries.length := by
    have hsame : document.entries.length = document.events.length := (List.length_map _).symm
    rw [hsame, he]
    simp
  obtain ⟨diagnostics, hg⟩ := hc.consumes_readElement hcontent hlength .empty closing attributes
    declarations (fun _ ↦ isSome_chosen?_of_declared declared name attributes _) document.entries []
      [] he
  rw [List.append_nil] at hg
  exact ⟨_, congrArg Prod.fst hg⟩

/-- A lenient call with a declared type reads every document that is one whole element, and writes
every value that is not of a type of its own that does not narrow the structure declared for it;
such a root is an error of structure. Below the root nothing is an error. -/
theorem lenient_recovers {settings : Settings} (h : settings.converters = [])
    (bundles : List Bundle) {options : Options}
    (hoff : (make settings bundles).isStrict options = false) {name : BindingName}
    (hdeclared : (make settings bundles).catalog.typeNamed? name = some declared) :
    let c := make settings bundles
    (∀ document : EventStream, IsElement document.events →
      ∃ v, (c.unmarshalType options name document).result = .ok v) ∧
    (∀ value element,
      ((∀ found, ¬ c.Misfits value declared found) →
        ∃ document, (c.marshalType options value element name).result = .ok document) ∧
      ∀ found, c.Misfits value declared found →
        (c.marshalType options value element name).result =
          .error (.structural (.notNarrowing element found.name declared.name) none)) ∧
    ∀ depth outer nillable element value type,
      Succeeds (c.element false depth outer (.child nillable) element value type) := by
  intro c
  have hc : c.IsGenerated := isGenerated_make h bundles
  have ht : c.catalog.typeNamed? declared.name = some declared := Catalog.typeNamed?_name hdeclared
  refine ⟨fun document hdocument ↦ ?_, fun value element ↦ ?_, hc.succeeds_element⟩
  · unfold unmarshalType unmarshalDeclared
    rw [hoff, hdeclared]
    exact hc.result_readRoot declared hdocument
  · unfold marshalType marshalDeclared
    rw [hoff, hdeclared]
    refine ⟨fun hfits ↦ Outcome.result_ofWriting ?_, fun found hfound ↦ ?_⟩
    · refine (hc.succeeds_root ht hfits value.height .empty false element).bind fun tree ↦ ?_
      exact inStep_succeeds.pure _
    · dsimp only
      unfold document
      rw [hfound.element_root]
      rfl

/-- A shape with a note in it is read as a circle, but it is not written as one. -/
theorem lenient_recovers_shapes :
    Settings.default.converters = [] ∧ Shapes.context.isStrict ⟨none, none⟩ = false ∧
      Shapes.context.catalog.typeNamed? Shapes.circle =
        some (.derived Shapes.circle Shapes.shape Shapes.properties) ∧
      (∃ v, (Shapes.context.unmarshalType ⟨none, none⟩ Shapes.circle (.ofEvents
        [.opening ⟨"urn:shapes", "shape"⟩ [] [], .text "note",
          .closing ⟨"urn:shapes", "shape"⟩])).result = .ok v) ∧
      (Shapes.context.marshalType ⟨none, none⟩ (.struct Shapes.shape.native [])
        (.unqualified "note") Shapes.circle).result =
          .error (.structural (.notNarrowing (.unqualified "note") Shapes.shape Shapes.circle)
            none) := by
  have hnone : Settings.default.converters = [] := rfl
  have hoff : Shapes.context.isStrict ⟨none, none⟩ = false := rfl
  have hdeclared : Shapes.context.catalog.typeNamed? Shapes.circle =
      some (.derived Shapes.circle Shapes.shape Shapes.properties) := by decide +kernel
  obtain ⟨hreads, hwrites, -⟩ :=
    lenient_recovers hnone [⟨none, Shapes.descriptor, [], []⟩] hoff hdeclared
  refine ⟨hnone, hoff, hdeclared, hreads _ ?_, (hwrites _ _).2
    (.byName Shapes.shape Shapes.properties) ?_⟩
  · have hcontent : IsContent [.text "note"] := rfl
    exact isElement_opening_iff.mpr hcontent
  · exact ⟨rfl, ⟨_, _, rfl⟩, ⟨Shapes.shape.native, rfl, by decide⟩, by decide +kernel,
      by decide +kernel⟩

end Context

/-- Settings that give nulls the native type of shapes. -/
def Shapes.namingNulls : Settings :=
  { Settings.default with
    identify := fun v ↦ if v.isNull then some Shapes.shape.native else v.nativeId? }

/-- A null is written whatever its native type is held to be: as a circle, though shapes do not
narrow circles. -/
theorem Context.not_lenient_recovers : ¬ ∀ (settings : Settings) (bundles : List Bundle)
    (options : Options) (name : BindingName) (declared found : BindingType) (value : Value)
    (element : QName) (native : NativeId), settings.converters = [] →
    (make settings bundles).isStrict options = false →
    (make settings bundles).catalog.typeNamed? name = some declared →
    (∃ base properties, declared.kind = .byName base properties) →
    (make settings bundles).identify value = some native → native ≠ declared.name.native →
    (make settings bundles).typeOfValue? value = some found →
    (make settings bundles).catalog.derives found declared.name = false →
    ∃ fault location, ((make settings bundles).marshalType options value element name).result =
      .error (.structural fault location) := by
  intro h
  obtain ⟨fault, location, herror⟩ := h Shapes.namingNulls [⟨none, Shapes.descriptor, [], []⟩]
    ⟨none, none⟩ Shapes.circle (.derived Shapes.circle Shapes.shape Shapes.properties)
    (.byName Shapes.shape Shapes.properties) .null (.unqualified "circle") Shapes.shape.native rfl
    rfl (by decide +kernel) ⟨_, _, rfl⟩ rfl (by decide) (by decide +kernel) (by decide +kernel)
  have hwritten : ((make Shapes.namingNulls [⟨none, Shapes.descriptor, [], []⟩]).marshalType
      ⟨none, none⟩ .null (.unqualified "circle") Shapes.circle).result.isOk = true := by
    decide +kernel
  rw [herror] at hwritten
  cases hwritten

end XmlBinding

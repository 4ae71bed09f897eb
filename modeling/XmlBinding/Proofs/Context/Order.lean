import XmlBinding.Proofs.Context.Generated
import XmlBinding.Proofs.Conversion.Gathered
import XmlBinding.Proofs.Conversion.Run
import XmlBinding.Proofs.Unmarshal.Element
import XmlBinding.Session

/-!
# Calls that set lists in different orders

In which order a call sets the lists of a structure is left to chance. That never shows but in the
value that is read: whether the call succeeds, what it raises and how it fails is the same in all
orders (`Context.IsGenerated.forget_unmarshalType`). If the lists of every structure have fields of
different names (`Context.NamesLists`), so is the value
(`Context.IsGenerated.unmarshalType_inOrder`); where two lists share a field it may differ.
Both are one induction over what a call reads, for two relations between steps
(`Scanning.Composes`).
-/

namespace XmlBinding

/-! ### Relations between steps -/

namespace Scanning

/-- A relation between steps that read, whatever they return. -/
abbrev Relation := {α : Type} → Scanning α → Scanning α → Prop

/-- The relation is kept by what two calls have in common: a first step that is the same, and steps
whose results are just put together. -/
structure Composes (S : Relation) : Prop where
  refl {α : Type} (m : Scanning α) : S m m
  bind {α β : Type} (m : Scanning α) {f f' : α → Scanning β} (hf : ∀ a, S (f a) (f' a)) :
    S (m >>= f) (m >>= f')
  both {α β γ : Type} {m m' : Scanning α} {k k' : Scanning β} {g g' : α → β → γ} (hm : S m m')
    (hk : S k k') (hg : ∀ a b, S (pure (g a b)) (pure (g' a b))) :
    S (do return g (← m) (← k)) (do return g' (← m') (← k'))

/-- The relation holds within every element. -/
def Within (S : Relation) {α : Type} (m m' : Reading α) : Prop := ∀ e, S (m.run e) (m'.run e)

/-- The steps run alike but for what they return: they note the same and end at the same place, or
fail alike. -/
def SameCourse {α : Type} (m m' : Scanning α) : Prop :=
  ∀ s, (m.run.run s).map (Except.map fun _ ↦ ()) id = (m'.run.run s).map (Except.map fun _ ↦ ()) id

private theorem composes_eq : Composes fun m m' ↦ m = m' where
  refl _ := rfl
  bind m _ _ hf := congrArg (m >>= ·) (funext hf)
  both hm hk hg := by
    subst hm hk
    simp only [hg]

private theorem composes_sameCourse : Composes SameCourse where
  refl _ _ := rfl
  bind m f f' hf s := by
    rw [run_bind, run_bind]
    rcases m.run.run s with ⟨error | a, s₁⟩
    · rfl
    · exact hf a s₁
  both {_ _ _ m m' k k' _ _} hm hk _ s := by
    have hfirst := hm s
    rw [run_bind, run_bind]
    generalize m.run.run s = p, m'.run.run s = p' at hfirst ⊢
    obtain ⟨error | a, s₁⟩ := p <;> obtain ⟨error' | a', s₁'⟩ := p' <;> cases hfirst
    · rfl
    · have hsecond := hk s₁
      dsimp only
      rw [run_bind, run_bind]
      generalize k.run.run s₁ = q, k'.run.run s₁ = q' at hsecond ⊢
      obtain ⟨error | b, s₂⟩ := q <;> obtain ⟨error' | b', s₂'⟩ := q' <;> cases hsecond <;> rfl

end Scanning

section Within

open Scanning

variable {S : Scanning.Relation} (h : Scanning.Composes S) {α β γ : Type}
include h

private theorem within_refl (m : Reading α) : Within S m m := fun _ ↦ h.refl _

private theorem within_bind (m : Reading α) {f f' : α → Reading β}
    (hf : ∀ a, Within S (f a) (f' a)) : Within S (m >>= f) (m >>= f') := by
  intro e
  rw [ReaderT.run_bind, ReaderT.run_bind]
  exact h.bind _ fun a ↦ hf a e

private theorem within_both {m m' : Reading α} {k k' : Reading β} {g g' : α → β → γ}
    (hm : Within S m m') (hk : Within S k k') (hg : ∀ a b, S (pure (g a b)) (pure (g' a b))) :
    Within S (do return g (← m) (← k)) (do return g' (← m') (← k')) := by
  intro e
  simp only [ReaderT.run_bind, ReaderT.run_pure]
  exact h.both (hm e) (hk e) hg

private theorem within_map {m m' : Reading α} {g g' : α → β} (hm : Within S m m')
    (hg : ∀ a, S (pure (g a)) (pure (g' a))) :
    Within S (do return g (← m)) (do return g' (← m')) := by
  have hboth := within_both h hm (within_refl h (pure ())) fun a _ ↦ hg a
  simpa only [pure_bind] using hboth

private theorem within_gather {handle handle' : QName → Reading (List α)}
    (hh : ∀ name, Within S (handle name) (handle' name)) :
    Within S (Reading.gather handle) (Reading.gather handle') := by
  have hupTo (bound : Nat) :
      Within S (Reading.gatherUpTo handle bound) (Reading.gatherUpTo handle' bound) := by
    induction bound with
    | zero => exact within_refl h _
    | succ bound ih =>
      refine within_bind h _ fun next ↦ ?_
      cases next with
      | none => exact within_refl h _
      | some name => exact within_both h (hh name) ih fun _ _ ↦ h.refl _
  exact within_bind h _ fun cursor ↦ hupTo cursor.rest.length

end Within

namespace Context

open Scanning

variable {c : Context} {order : ListOrder} {strict : Bool}

/-- The lists of every structure that the context resolves have fields of different names. -/
def NamesLists (c : Context) : Prop :=
  ∀ name type, c.catalog.typeNamed? name = some type →
    (BindingType.listNames type.properties).Nodup

/-- Lists have fields of different names if they have in every type of the descriptors. -/
theorem namesLists_of_types
    (h : ∀ d ∈ c.catalog.descriptors, ∀ t ∈ d.types, (BindingType.listNames t.properties).Nodup) :
    c.NamesLists := by
  intro name type ht
  obtain ⟨d, hd, hmem⟩ := Catalog.mem_types_of_typeNamed? ht
  exact h d hd type hmem

@[simp] private theorem inOrder_catalog : (c.inOrder order).catalog = c.catalog := rfl

/-- Setting lists in another order leaves a context with its generated converters. -/
theorem IsGenerated.inOrder (hc : c.IsGenerated) (order : ListOrder) :
    (c.inOrder order).IsGenerated := ⟨hc.marshaller, hc.unmarshaller⟩

/-! ### Reading -/

section Reading

variable {S : Scanning.Relation} {child child' : BindingType → Reading Value}

private theorem IsGenerated.readAttribute_inOrder (hc : c.IsGenerated) (handovers : Nat)
    (p : Property) :
    p.readAttribute ((c.inOrder order).readSession strict child' handovers) =
      p.readAttribute (c.readSession strict child handovers) := by
  cases handovers with
  | zero => rfl
  | succ handovers =>
    unfold Property.readAttribute
    refine congrArg _ (funext fun own ↦ ?_)
    cases own.or p.default with
    | none => rfl
    | some text =>
      dsimp only
      rw [readSession_catalog, readSession_catalog, inOrder_catalog]
      cases c.catalog.typeNamed? p.type with
      | none => rfl
      | some type =>
        dsimp only
        -- Of a reader only what it makes of a text counts here, which no order is asked for.
        rw [(hc.inOrder order).reader?, hc.reader?, inOrder_catalog]
        cases c.catalog.typeNamed? type.name <;> rfl

variable (h : Composes S) (hchild : ∀ type, Within S (child' type) (child type))
include h hchild

private theorem within_readOccurrence (handovers : Nat) (name : BindingName)
    (properties : List Property) (next : QName) :
    Within S
      (BindingType.readOccurrence ((c.inOrder order).readSession strict child' handovers) name
        properties next)
      (BindingType.readOccurrence (c.readSession strict child handovers) name properties next) := by
  unfold BindingType.readOccurrence
  split
  · exact within_refl h _
  · next p index hp =>
    rw [readSession_catalog, readSession_catalog, readSession_child, readSession_child,
      inOrder_catalog]
    cases c.catalog.typeNamed? p.type with
    | some type => exact within_map h (hchild type) fun _ ↦ h.refl _
    | none => cases handovers <;> exact within_refl h _

private theorem within_readItem (handovers : Nat) (name item : BindingName)
    (itemElement next : QName) :
    Within S
      (BindingType.readItem ((c.inOrder order).readSession strict child' handovers) name item
        itemElement next)
      (BindingType.readItem (c.readSession strict child handovers) name item itemElement next) := by
  unfold BindingType.readItem
  split
  · exact within_refl h _
  · rw [readSession_catalog, readSession_catalog, readSession_child, readSession_child,
      inOrder_catalog]
    cases c.catalog.typeNamed? item with
    | some type => exact within_map h (hchild type) fun _ ↦ h.refl _
    | none => cases handovers <;> exact within_refl h _

variable (hc : c.IsGenerated)
  (hlists : ∀ name type, c.catalog.typeNamed? name = some type → ∀ occurrences fields,
    S (pure (Value.struct type.name.native
        (BindingType.setLists order occurrences type.properties fields)))
      (pure (Value.struct type.name.native
        (BindingType.setLists c.order occurrences type.properties fields))))
include hc hlists

private theorem within_read (handovers : Nat) {name : BindingName} {type : BindingType}
    (ht : c.catalog.typeNamed? name = some type) :
    Within S (type.read ((c.inOrder order).readSession strict child' (handovers + 1)))
      (type.read (c.readSession strict child (handovers + 1))) := by
  have hlists := hlists name type ht
  obtain ⟨own, kind⟩ := type
  cases kind with
  | builtin space => exact within_refl h _
  | byName base properties =>
    unfold BindingType.read BindingType.readStructure
    dsimp only
    rw [funext (hc.readAttribute_inOrder (handovers + 1))]
    refine within_bind h _ fun attributes ↦ ?_
    refine within_map h (within_gather h fun next ↦ ?_) fun occurrences ↦ hlists occurrences _
    exact within_readOccurrence h hchild (handovers + 1) own properties next
  | list item itemElement =>
    unfold BindingType.read
    refine within_map h (within_gather h fun next ↦ ?_) fun _ ↦ h.refl _
    exact within_readItem h hchild (handovers + 1) own item itemElement next
  | polymorphic base subtypes => exact within_refl h _

private theorem within_readValue (declared : Option BindingType) (name : QName) :
    Within S
      ((c.inOrder order).readValue ((c.inOrder order).readSession strict child'
        (c.inOrder order).maxHandovers) declared name)
      (c.readValue (c.readSession strict child c.maxHandovers) declared name) := by
  obtain ⟨n, hmax⟩ := c.maxHandovers_eq
  rw [show (c.inOrder order).maxHandovers = n + 2 from hmax, hmax]
  unfold readValue
  refine within_bind h _ fun isNull ↦ ?_
  split
  · exact within_refl h _
  · refine within_bind h _ fun chosen ↦ ?_
    cases chosen with
    | none => exact within_refl h _
    | some type =>
      dsimp only
      rw [(hc.inOrder order).reader?, hc.reader?, inOrder_catalog]
      cases ht : c.catalog.typeNamed? type.name with
      | none => exact within_refl h _
      | some type => exact within_read h hchild hc hlists n ht

omit hchild in
/-- Elements are read in the same relation in two orders in which the structures are. -/
theorem readElement_inOrder (depth : Nat) (outer : NamespaceScope)
    (declared : Option BindingType) :
    S ((c.inOrder order).readElement strict depth outer declared)
      (c.readElement strict depth outer declared) := by
  induction depth generalizing outer declared with
  | zero => exact h.refl _
  | succ depth ih =>
    have hchild (type : BindingType) : Within S ((c.inOrder order).readChild strict depth type)
        (c.readChild strict depth type) := fun e ↦ ih e.scope (some type)
    have hbody (name : QName) : Within S ((c.inOrder order).readBody strict depth declared name)
        (c.readBody strict depth declared name) :=
      within_both h (within_readValue h hchild hc hlists declared name)
        (within_refl h Reading.leave) fun value _ ↦ h.refl (pure value)
    unfold readElement
    refine h.bind _ fun _ ↦ h.bind _ fun cursor ↦ ?_
    split
    · next name attributes declarations location rest hr =>
      exact h.bind _ fun _ ↦ hbody name ⟨attributes, location, outer.push declarations⟩
    · exact h.refl _

end Reading

/-- A document is read alike in all orders, but for the value. -/
theorem IsGenerated.sameCourse_readRoot (hc : c.IsGenerated) (order : ListOrder)
    (declared : Option BindingType) :
    SameCourse ((c.inOrder order).readRoot strict declared) (c.readRoot strict declared) := by
  refine composes_sameCourse.bind _ fun cursor ↦ readElement_inOrder composes_sameCourse hc
    (fun name type ht occurrences fields ↦ ?_) cursor.rest.length .empty declared
  exact fun _ ↦ rfl

/-- A document is read alike in all orders, if lists have fields of different names. -/
theorem IsGenerated.readRoot_inOrder (hc : c.IsGenerated) (hn : c.NamesLists) (order : ListOrder)
    (declared : Option BindingType) :
    (c.inOrder order).readRoot strict declared = c.readRoot strict declared := by
  refine composes_eq.bind _ fun cursor ↦ readElement_inOrder composes_eq hc
    (fun name type ht occurrences fields ↦ ?_) cursor.rest.length .empty declared
  rw [BindingType.setLists_eq_of_nodup (hn name type ht),
    BindingType.setLists_eq_of_nodup (hn name type ht)]

/-! ### Writing -/

private theorem writeSession_inOrder
    (child : QName → Value → BindingType → Bool → Drafting Unit) (handovers : Nat) :
    (c.inOrder order).writeSession strict child handovers =
      c.writeSession strict child handovers := by
  induction handovers with
  | zero => rfl
  | succ handovers ih =>
    unfold writeSession
    rw [ih]
    rfl

/-- An element is made without setting lists. -/
theorem element_inOrder (depth : Nat) :
    (c.inOrder order).element strict depth = c.element strict depth := by
  induction depth with
  | zero => rfl
  | succ depth ih =>
    funext outer position name value declared
    unfold element
    rw [ih]
    simp only [writeSession_inOrder]
    rfl

end Context

/-! ### Calls -/

namespace Outcome

/-- What comes of a call but for what it returns. -/
def forget {α : Type} (o : Outcome α) : Outcome Unit := ⟨o.result.map fun _ ↦ (), o.raised⟩

/-- A call succeeds whether or not what it returns counts. -/
theorem isOk_forget {α : Type} (o : Outcome α) : o.forget.result.isOk = o.result.isOk := by
  unfold forget
  cases o.result <;> rfl

/-- Of steps that run alike comes the same but for what they return. -/
theorem forget_ofScanning {α : Type} {m m' : Scanning α} (h : Scanning.SameCourse m m')
    (document : EventStream) :
    (ofScanning m document).forget = (ofScanning m' document).forget := by
  obtain ⟨hresult, hcursor⟩ := Prod.mk.inj (h ⟨document.entries, []⟩)
  unfold ofScanning forget
  exact congrArg₂ Outcome.mk hresult (congrArg Cursor.diagnostics hcursor)

end Outcome

namespace Context

variable {c : Context} {order : ListOrder} (options : Options)

/-- A call that writes a value of a declared type does not set lists. -/
theorem marshalType_inOrder (value : Value) (name : QName) (declared : BindingName) :
    (c.inOrder order).marshalType options value name declared =
      c.marshalType options value name declared := by
  unfold marshalType marshalDeclared document
  rw [element_inOrder]
  rfl

/-- A call that writes a value by its own type does not set lists. -/
theorem marshal_inOrder (value : Value) :
    (c.inOrder order).marshal options value = c.marshal options value := by
  unfold marshal marshalDetected document
  simp only [element_inOrder]
  rfl

/-- A call that reads a document of a declared type runs alike in all orders, but for the value. -/
theorem IsGenerated.forget_unmarshalType (hc : c.IsGenerated) (order : ListOrder)
    (declared : BindingName) (s : EventStream) :
    ((c.inOrder order).unmarshalType options declared s).forget =
      (c.unmarshalType options declared s).forget := by
  unfold unmarshalType unmarshalDeclared
  rw [inOrder_catalog]
  cases c.catalog.typeNamed? declared with
  | none => rfl
  | some type => exact Outcome.forget_ofScanning (hc.sameCourse_readRoot order (some type)) s

/-- A call that reads a document by its root element runs alike in all orders, but for the value. -/
theorem IsGenerated.forget_unmarshal (hc : c.IsGenerated) (order : ListOrder) (s : EventStream) :
    ((c.inOrder order).unmarshal options s).forget = (c.unmarshal options s).forget :=
  Outcome.forget_ofScanning (hc.sameCourse_readRoot order none) s

/-- What comes of reading a document of a declared type is the same in all orders, if lists have
fields of different names. -/
theorem IsGenerated.unmarshalType_inOrder (hc : c.IsGenerated) (hn : c.NamesLists)
    (order : ListOrder) (declared : BindingName) (s : EventStream) :
    (c.inOrder order).unmarshalType options declared s = c.unmarshalType options declared s := by
  unfold unmarshalType unmarshalDeclared
  rw [inOrder_catalog]
  cases c.catalog.typeNamed? declared with
  | none => rfl
  | some type => exact congrArg (Outcome.ofScanning · s) (hc.readRoot_inOrder hn order (some type))

/-- What comes of reading a document by its root element is the same in all orders, if lists have
fields of different names. -/
theorem IsGenerated.unmarshal_inOrder (hc : c.IsGenerated) (hn : c.NamesLists) (order : ListOrder)
    (s : EventStream) : (c.inOrder order).unmarshal options s = c.unmarshal options s :=
  congrArg (Outcome.ofScanning · s) (hc.readRoot_inOrder hn order none)

end Context

/-! ### Two lists with one field -/

namespace Shapes

/-- The binding of figures. -/
def figure : BindingName := ⟨⟨"Figure"⟩, ⟨"urn:shapes", "Figure"⟩⟩

/-- The properties of figures: edges and corners, which are parts all the same. -/
def figureProperties : List Property :=
  [(Property.element "part" ⟨"urn:shapes", "edge"⟩ name).repeated,
    (Property.element "part" ⟨"urn:shapes", "corner"⟩ name).repeated]

/-- Figures alone. -/
def figures : Bundle :=
  ⟨none, { bindings := [.plain (.byName figure figureProperties)], elements := [] }, [], []⟩

/-- A figure of one edge and one corner. -/
def outline : EventStream :=
  .ofEvents [.opening (.unqualified "figure") [] [],
    .opening ⟨"urn:shapes", "edge"⟩ [] [], .text "round", .closing ⟨"urn:shapes", "edge"⟩,
    .opening ⟨"urn:shapes", "corner"⟩ [] [], .text "sharp", .closing ⟨"urn:shapes", "corner"⟩,
    .closing (.unqualified "figure")]

/-- Whether the corner is the part of the figure or the edge is depends on the order in which their
lists are set. -/
theorem scalars_outline (strict : Bool) :
    ((Context.make .default [figures]).unmarshalType ⟨some strict, none⟩ figure
        outline).result.toOption.map Value.scalars = some [.name (.unqualified "sharp")] ∧
      (((Context.make .default [figures]).inOrder .reversed).unmarshalType ⟨some strict, none⟩
        figure outline).result.toOption.map Value.scalars =
          some [.name (.unqualified "round")] := by
  cases strict <;> decide +kernel

end Shapes

end XmlBinding

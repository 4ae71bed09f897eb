import XmlBinding.Proofs.Context.Generated
import XmlBinding.Proofs.Conversion.Run
import XmlBinding.Proofs.Unmarshal.InStep

/-!
# Calls that write, in step

Two calls that write by the same context may differ in what they do about a type without a binding.
Whatever relation holds between their runs there, and is kept where one step follows another, holds
between the runs for all child elements (`Context.IsGenerated.inStep_element`). At the root, where
more is an error, it holds of whatever fills the element (`Context.IsGenerated.inStep_build`).
-/

namespace XmlBinding

/-- A relation between steps of calls that write, whatever they return. -/
abbrev Writing.Relation := {α : Type} → Writing α → Writing α → Prop

/-- The relation holds between two calls wherever they may differ, and is kept by what they have in
common. -/
structure Writing.InStep (S : Writing.Relation) (strict strict' : Bool) : Prop where
  pure {α : Type} (a : α) : S (pure a) (pure a)
  bind {α β : Type} {w w' : Writing α} {f f' : α → Writing β} (hw : S w w')
    (hf : ∀ a, S (f a) (f' a)) : S (w >>= f) (w' >>= f')
  log : S get get
  number (n : Nat) : S (modify ({ · with generated := n })) (modify ({ · with generated := n }))
  /-- A problem is noted that is none of a missing binding type. -/
  note (problem : Problem) (h : problem.isResolution = false) :
    S (Context.note problem) (Context.note problem)
  missing (name : BindingName) :
    S (if strict then throw (.unresolvedType name) else Context.note (.unresolvedType name))
      (if strict' then throw (.unresolvedType name) else Context.note (.unresolvedType name))

namespace Drafting

/-- The relation holds between two steps from any draft. -/
def Steps (S : Writing.Relation) {α : Type} (m m' : Drafting α) : Prop :=
  ∀ d, S (m.run d) (m'.run d)

end Drafting

open Drafting

namespace Writing.InStep

variable {S : Writing.Relation} {strict strict' : Bool}

section

variable (h : Writing.InStep S strict strict')
include h

/-! ### Steps that fill a draft -/

/-- A value is returned. -/
theorem steps_pure {α : Type} (a : α) : Steps S (Pure.pure a) (Pure.pure a) :=
  fun d ↦ h.pure (a, d)

/-- One step follows another. -/
theorem steps_bind {α β : Type} {m m' : Drafting α} {f f' : α → Drafting β} (hm : Steps S m m')
    (hf : ∀ a, Steps S (f a) (f' a)) : Steps S (m >>= f) (m' >>= f') := by
  intro d
  rw [StateT.run_bind, StateT.run_bind]
  exact h.bind (hm d) fun p ↦ hf p.1 p.2

/-- A step of the call. -/
theorem steps_lift {α : Type} {w w' : Writing α} (hw : S w w') :
    Steps S (liftM w) (liftM w') :=
  fun d ↦ h.bind hw fun a ↦ h.pure (a, d)

/-- The draft is asked for. -/
theorem steps_getDraft : Steps S (getThe Draft) (getThe Draft) := fun d ↦ h.pure (d, d)

/-- The draft changes. -/
theorem steps_modifyDraft (f : Draft → Draft) : Steps S (modifyThe Draft f) (modifyThe Draft f) :=
  fun d ↦ h.pure (PUnit.unit, f d)

/-- A problem is noted. -/
theorem steps_report (problem : Problem) (hp : problem.isResolution = false) :
    Steps S (report problem) (report problem) :=
  h.steps_lift (h.note problem hp)

/-- A row of steps. -/
theorem steps_forM {ι : Type} {f f' : ι → Drafting Unit} (hf : ∀ x, Steps S (f x) (f' x))
    (xs : List ι) : Steps S (xs.forM f) (xs.forM f') := by
  induction xs with
  | nil => exact h.steps_pure ()
  | cons x xs ih => exact h.steps_bind (hf x) fun _ ↦ ih

/-- A prefix is chosen. -/
theorem steps_prefixFor (uri : String) : Steps S (prefixFor uri) (prefixFor uri) := by
  unfold prefixFor
  split
  · exact h.steps_pure ""
  · refine h.steps_bind h.steps_getDraft fun draft ↦ ?_
    refine h.steps_bind (h.steps_lift h.log) fun log ↦ ?_
    refine h.steps_bind (h.steps_lift (h.number _)) fun _ ↦ ?_
    exact h.steps_bind (h.steps_modifyDraft _) fun _ ↦ h.steps_pure _

private theorem steps_lexicalName (name : QName) : Steps S (lexicalName name) (lexicalName name) :=
  h.steps_bind (h.steps_prefixFor name.uri) fun _ ↦ h.steps_pure _

/-- Text is added. -/
theorem steps_characters (text : String) : Steps S (characters text) (characters text) := by
  unfold characters
  split
  · exact h.steps_pure ()
  · exact h.steps_modifyDraft _

/-- An attribute is added. -/
theorem steps_addAttribute (name : QName) (value : String) :
    Steps S (addAttribute name value) (addAttribute name value) := by
  unfold addAttribute
  split
  · exact h.steps_bind (h.steps_prefixFor name.uri) fun _ ↦ h.steps_modifyDraft _
  · exact h.steps_modifyDraft _

/-- An element is made. -/
theorem build (outer : NamespaceScope) (name : QName) {body body' : Drafting Bool}
    (hb : Steps S body body') :
    S (Drafting.build outer name body) (Drafting.build outer name body') :=
  h.bind (h.steps_bind (h.steps_prefixFor name.uri) (fun _ ↦ hb) _) fun _ ↦ h.pure _

/-! ### Texts -/

/-- A value is printed by a type. -/
theorem steps_print (type : BindingType) (value : Value) :
    Steps S (type.print value) (type.print value) := by
  unfold BindingType.print
  split
  · unfold Codec.printText
    split
    · exact h.steps_pure _
    · split
      · exact h.steps_pure _
      · exact h.steps_bind (h.steps_prefixFor _) fun _ ↦ h.steps_pure _
  · exact h.steps_pure _
  · exact h.steps_pure _
  · exact h.steps_pure _

private theorem steps_printed (type : BindingType) (value : Value) :
    Steps S (Drafting.printed type.print value) (Drafting.printed type.print value) := by
  refine h.steps_bind (h.steps_print type value) fun r ↦ ?_
  cases r with
  | ok text => exact h.steps_characters text
  | error cause => exact h.steps_report _ rfl

private theorem steps_markType (type : BindingType) :
    Steps S (Context.markType type) (Context.markType type) :=
  h.steps_bind (h.steps_lexicalName _) fun text ↦ h.steps_addAttribute _ text

/-- A null is written. -/
theorem nullElement (outer : NamespaceScope) (name : QName) :
    S (Context.nullElement outer name) (Context.nullElement outer name) :=
  h.build outer name (h.steps_bind (h.steps_addAttribute _ _) fun _ ↦ h.steps_pure true)

end

end Writing.InStep

namespace Context

variable {c : Context} {S : Writing.Relation} {strict strict' : Bool}
  {child child' : QName → Value → BindingType → (nillable : Bool) → Drafting Unit}

section Sessions

variable (strict : Bool)
  (child : QName → Value → BindingType → (nillable : Bool) → Drafting Unit) (handovers : Nat)

/-- A writing call offers the catalog of its context. -/
@[simp] theorem writeSession_catalog :
    (c.writeSession strict child handovers).catalog = c.catalog := by
  cases handovers <;> rfl

/-- A writing call says whether it is strict. -/
@[simp] theorem writeSession_strict : (c.writeSession strict child handovers).strict = strict := by
  cases handovers <;> rfl

/-- A writing call offers to write child elements. -/
@[simp] theorem writeSession_child : (c.writeSession strict child handovers).child = child := by
  cases handovers <;> rfl

end Sessions

/-! ### Converters -/

section Converters

variable (h : Writing.InStep S strict strict')
  (hchild : ∀ name value type nillable,
    Steps S (child name value type nillable) (child' name value type nillable))
include h

/-- A name has no binding type. -/
theorem steps_unresolved (n : Nat) (name : BindingName) :
    Steps S ((c.writeSession strict child n).unresolved name)
      ((c.writeSession strict' child' n).unresolved name) := by
  unfold WriteSession.unresolved
  rw [writeSession_strict, writeSession_strict]
  have hmissing := h.steps_lift (h.missing name)
  cases strict <;> cases strict' <;> exact hmissing

private theorem IsGenerated.steps_writeAttribute (hc : c.IsGenerated) (n : Nat) (fields : Fields)
    (p : Property) :
    Steps S (p.writeAttribute (c.writeSession strict child (n + 1)) fields)
      (p.writeAttribute (c.writeSession strict' child' (n + 1)) fields) := by
  unfold Property.writeAttribute
  dsimp only
  split
  · exact h.steps_pure ()
  · rw [writeSession_catalog, writeSession_catalog]
    cases ht : c.catalog.typeNamed? p.type with
    | none => exact steps_unresolved h _ _
    | some type =>
      dsimp only
      rw [hc.writer?, hc.writer?, Catalog.typeNamed?_name ht, Option.map_some, Option.map_some]
      dsimp only
      split
      · exact h.steps_report _ rfl
      · refine h.steps_bind (h.steps_print type _) fun r ↦ ?_
        cases r with
        | ok text => exact h.steps_addAttribute _ _
        | error cause => exact h.steps_report _ rfl

include hchild

private theorem steps_writeItems (n : Nat) (p : Property) (type : BindingType) (index : Nat)
    (items : List Value) :
    Steps S (p.writeItems (c.writeSession strict child n) type index items)
      (p.writeItems (c.writeSession strict' child' n) type index items) := by
  induction items generalizing index with
  | nil => exact h.steps_pure ()
  | cons item rest ih =>
    unfold Property.writeItems
    rw [writeSession_child, writeSession_child]
    split
    · exact h.steps_bind (h.steps_report _ rfl) fun _ ↦ ih _
    · exact h.steps_bind (hchild _ _ _ _) fun _ ↦ ih _

private theorem steps_writeElement (n : Nat) (fields : Fields) (p : Property) :
    Steps S (p.writeElement (c.writeSession strict child n) fields)
      (p.writeElement (c.writeSession strict' child' n) fields) := by
  unfold Property.writeElement
  dsimp only
  rw [writeSession_catalog, writeSession_catalog]
  cases c.catalog.typeNamed? p.type with
  | none =>
    dsimp only
    split
    · exact h.steps_pure ()
    · exact steps_unresolved h _ _
  | some type =>
    dsimp only
    split
    · split
      · exact h.steps_pure ()
      · exact steps_writeItems h hchild n p type 0 _
      · exact h.steps_report _ rfl
    · split
      · exact h.steps_pure ()
      · rw [writeSession_child, writeSession_child]
        exact hchild _ _ _ _

private theorem steps_writeList (n : Nat) (name item : BindingName) (itemElement : QName)
    (value : Value) :
    Steps S (BindingType.writeList (c.writeSession strict child n) name item itemElement value)
      (BindingType.writeList (c.writeSession strict' child' n) name item itemElement value) := by
  unfold BindingType.writeList
  split
  · rw [writeSession_catalog, writeSession_catalog]
    cases c.catalog.typeNamed? item with
    | none =>
      dsimp only
      split
      · exact h.steps_pure ()
      · exact steps_unresolved h _ _
    | some type =>
      dsimp only
      rw [writeSession_child, writeSession_child]
      exact h.steps_forM (fun v ↦ hchild _ v type true) _
  · exact h.steps_report _ rfl

private theorem IsGenerated.steps_write (hc : c.IsGenerated) (n : Nat) (type : BindingType)
    (value : Value) :
    Steps S (type.write (c.writeSession strict child (n + 1)) value)
      (type.write (c.writeSession strict' child' (n + 1)) value) := by
  unfold BindingType.write
  split
  · exact h.steps_printed type value
  · unfold BindingType.writeStructure
    split
    · refine h.steps_bind (h.steps_forM (hc.steps_writeAttribute h n _) _) fun _ ↦ ?_
      exact h.steps_forM (steps_writeElement h hchild (n + 1) _) _
    · exact h.steps_report _ rfl
  · exact steps_writeList h hchild (n + 1) _ _ _ value
  · exact h.steps_printed type value

/-- The element at hand is filled by the converter of a type, which the context has for the same
types in both calls. -/
private theorem IsGenerated.steps_fill (hc : c.IsGenerated) (n : Nat) (type : BindingType)
    (isRoot : Bool) (name : QName) (value : Value) :
    Steps S
      (fill ⟨type.isSimple, type.print, type.write (c.writeSession strict child (n + 1))⟩ isRoot
        name value)
      (fill ⟨type.isSimple, type.print, type.write (c.writeSession strict' child' (n + 1))⟩ isRoot
        name value) := by
  unfold fill
  split
  · refine h.steps_bind (h.steps_print type value) fun r ↦ ?_
    cases r with
    | ok text => exact h.steps_bind (h.steps_characters text) fun _ ↦ h.steps_pure true
    | error cause => exact h.steps_bind (h.steps_report _ rfl) fun _ ↦ h.steps_pure isRoot
  · exact h.steps_bind (hc.steps_write h hchild n type value) fun _ ↦ h.steps_pure true

/-- The element of a value is made by the converter of a type. -/
theorem IsGenerated.inStep_build (hc : c.IsGenerated) (n : Nat) (effective : Effective)
    (type : BindingType) (outer : NamespaceScope) (position : Position) (name : QName)
    (value : Value) :
    S (Drafting.build outer name do
        if effective.marked ∨ position.isMarked then
          markType effective.type
        fill ⟨type.isSimple, type.print, type.write (c.writeSession strict child (n + 1))⟩
          position.isRoot name value)
      (Drafting.build outer name do
        if effective.marked ∨ position.isMarked then
          markType effective.type
        fill ⟨type.isSimple, type.print, type.write (c.writeSession strict' child' (n + 1))⟩
          position.isRoot name value) := by
  refine h.build outer name ?_
  split
  · exact h.steps_bind (h.steps_markType _) fun _ ↦ hc.steps_fill h hchild n type _ name value
  · exact hc.steps_fill h hchild n type _ name value

private theorem IsGenerated.inStep_valueElement (hc : c.IsGenerated) (outer : NamespaceScope)
    (nillable : Bool) (name : QName) (value : Value) (declared : BindingType) :
    S (c.valueElement (c.writeSession strict child c.maxHandovers) outer (.child nillable) name
        value declared)
      (c.valueElement (c.writeSession strict' child' c.maxHandovers) outer (.child nillable) name
        value declared) := by
  obtain ⟨n, hmax⟩ := c.maxHandovers_eq
  rw [hmax]
  unfold valueElement
  cases c.effectiveType value declared with
  | error found => exact h.bind (h.note _ rfl) fun _ ↦ h.pure none
  | ok effective =>
    dsimp only
    rw [hc.writer?, hc.writer?]
    cases c.catalog.typeNamed? effective.type.name with
    | some type => exact hc.inStep_build h hchild n effective type outer _ name value
    | none =>
      have hmissing := h.bind (h.missing effective.type.name) fun _ ↦ h.pure (none : Option Tree)
      cases strict <;> cases strict' <;> exact hmissing

end Converters

/-! ### Elements -/

/-- How child elements are written. -/
def writeChild (c : Context) (strict : Bool) (depth : Nat) (name : QName) (value : Value)
    (declared : BindingType) (nillable : Bool) : Drafting Unit := do
  let draft ← getThe Draft
  match ← element c strict depth draft.scope (.child nillable) name value declared with
  | some tree => modifyThe Draft (·.add tree)
  | none => return

/-- The element of a value at hand, if it is not null, is made by what the context has for it. -/
theorem element_succ (c : Context) (strict : Bool) (depth : Nat) (outer : NamespaceScope)
    (position : Position) (name : QName) {value : Value} (hv : value.isNull = false)
    (declared : BindingType) :
    c.element strict (depth + 1) outer position name value declared =
      c.valueElement (c.writeSession strict (c.writeChild strict depth) c.maxHandovers) outer
        position name value declared := by
  unfold element
  rw [if_neg (by simp [hv])]
  rfl

/-- Child elements are made in step if all elements are that stand within another. -/
theorem steps_writeChild (h : Writing.InStep S strict strict') {depth : Nat}
    (hd : ∀ outer nillable name value declared,
      S (c.element strict depth outer (.child nillable) name value declared)
        (c.element strict' depth outer (.child nillable) name value declared))
    (name : QName) (value : Value) (declared : BindingType) (nillable : Bool) :
    Steps S (c.writeChild strict depth name value declared nillable)
      (c.writeChild strict' depth name value declared nillable) := by
  refine h.steps_bind h.steps_getDraft fun draft ↦ ?_
  refine h.steps_bind (h.steps_lift (hd _ nillable name value declared)) fun out ↦ ?_
  cases out with
  | some tree => exact h.steps_modifyDraft _
  | none => exact h.steps_pure ()

/-- The element of a value that stands within another is made, whatever the depth. -/
theorem IsGenerated.inStep_element (hc : c.IsGenerated) (h : Writing.InStep S strict strict')
    (depth : Nat) (outer : NamespaceScope) (nillable : Bool) (name : QName) (value : Value)
    (declared : BindingType) :
    S (c.element strict depth outer (.child nillable) name value declared)
      (c.element strict' depth outer (.child nillable) name value declared) := by
  induction depth generalizing outer nillable name value declared with
  | zero => exact h.pure none
  | succ depth ih =>
    cases hv : value.isNull with
    | true =>
      unfold element
      rw [if_pos hv, if_pos hv]
      split
      · exact h.nullElement outer name
      · exact h.pure none
    | false =>
      rw [element_succ c strict depth outer _ name hv, element_succ c strict' depth outer _ name hv]
      exact hc.inStep_valueElement h (steps_writeChild h ih) outer nillable name value declared

end Context

end XmlBinding

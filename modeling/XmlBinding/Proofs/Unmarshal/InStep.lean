import XmlBinding.Proofs.Context.Generated
import XmlBinding.Proofs.Conversion.Run
import XmlBinding.Proofs.Unmarshal.Element

/-!
# Runs in step

Two calls that read by the same context may differ in how they read child elements and in what they
do about a type without a binding, and in nothing else. Whatever relation holds between their runs
at these places, and is kept where one step follows another, holds between the runs of all
converters (`Context.IsGenerated.inStep_readValue`).
-/

namespace XmlBinding

/-- The problem is that a name has no binding type. -/
def Problem.isResolution : Problem → Bool
  | .unresolvedType _ => true
  | .unknownTypeMarker _ _ => true
  | _ => false

/-- A relation between steps that read, whatever they return. -/
abbrev Reading.Relation := {α : Type} → Reading α → Reading α → Prop

/-- The relation holds between two calls wherever they may differ, and is kept by what they have in
common. -/
structure Reading.InStep (R : Reading.Relation) (strict strict' : Bool)
    (child child' : BindingType → Reading Value) : Prop where
  pure {α : Type} (a : α) : R (pure a) (pure a)
  bind {α β : Type} {m m' : Reading α} {f f' : α → Reading β} (hm : R m m')
    (hf : ∀ a, R (f a) (f' a)) : R (m >>= f) (m' >>= f')
  current : R Reading.current Reading.current
  cursor : R (getThe Cursor) (getThe Cursor)
  /-- A problem is noted that is none of a missing binding type. -/
  report (problem : Problem) (h : problem.isResolution = false) :
    R (Reading.report problem) (Reading.report problem)
  text : R Reading.text Reading.text
  nextChild? : R Reading.nextChild? Reading.nextChild?
  skipElement : R Reading.skipElement Reading.skipElement
  /-- There is no binding type, which is an error or a problem. -/
  missing (error : Error) (problem : Problem) (h : problem.isResolution = true) :
    R (if strict then throw error else Reading.report problem)
      (if strict' then throw error else Reading.report problem)
  child (type : BindingType) : R (child type) (child' type)

namespace Reading.InStep

variable {R : Reading.Relation} {strict strict' : Bool}
  {child child' : BindingType → Reading Value}

section

variable (h : Reading.InStep R strict strict' child child')
include h

/-- An attribute is asked for. -/
theorem attribute? (name : QName) : R (Reading.attribute? name) (Reading.attribute? name) :=
  h.bind h.current fun _ ↦ h.pure _

private theorem mapM {ι α : Type} {f f' : ι → Reading α} (hf : ∀ x, R (f x) (f' x)) (xs : List ι) :
    R (xs.mapM f) (xs.mapM f') := by
  induction xs with
  | nil =>
    rw [List.mapM_nil, List.mapM_nil]
    exact h.pure []
  | cons x xs ih =>
    rw [List.mapM_cons, List.mapM_cons]
    exact h.bind (hf x) fun a ↦ h.bind ih fun as ↦ h.pure (a :: as)

private theorem gather {α : Type} {handle handle' : QName → Reading (List α)}
    (hh : ∀ name, R (handle name) (handle' name)) :
    R (Reading.gather handle) (Reading.gather handle') := by
  have hupTo (bound : Nat) :
      R (Reading.gatherUpTo handle bound) (Reading.gatherUpTo handle' bound) := by
    induction bound with
    | zero => exact h.pure []
    | succ bound ih =>
      refine h.bind h.nextChild? fun next ↦ ?_
      cases next with
      | none => exact h.pure []
      | some name => exact h.bind (hh name) fun first ↦ h.bind ih fun more ↦ h.pure (first ++ more)
  exact h.bind h.cursor fun cursor ↦ hupTo cursor.rest.length

/-! ### Texts -/

/-- A text is read by a codec. -/
theorem readText (codec : Codec) (text : String) :
    R (codec.readText text) (codec.readText text) :=
  h.bind h.current fun _ ↦ h.pure _

private theorem readContent (codec : Codec) : R codec.readContent codec.readContent := by
  refine h.bind h.text fun text ↦ h.bind (h.readText codec text) fun r ↦ ?_
  cases r with
  | ok value => exact h.pure value
  | error cause => exact h.bind (h.report _ rfl) fun _ ↦ h.pure _

private theorem readAttribute (type : BindingType) (text : String) :
    R (type.readAttribute text) (type.readAttribute text) := by
  unfold BindingType.readAttribute
  split
  · exact h.readText _ text
  · exact h.pure _
  · exact h.pure _
  · exact h.pure _

end

end Reading.InStep

namespace Context

variable {c : Context} {R : Reading.Relation} {strict strict' : Bool}
  {child child' : BindingType → Reading Value}

/-! ### Converters -/

private theorem inStep_readItem (h : Reading.InStep R strict strict' child child') (n : Nat)
    (name item : BindingName) (itemElement next : QName) :
    R (BindingType.readItem (c.readSession strict child (n + 1)) name item itemElement next)
      (BindingType.readItem (c.readSession strict' child' (n + 1)) name item itemElement next) := by
  unfold BindingType.readItem
  split
  · exact h.bind (h.report _ rfl) fun _ ↦ h.bind h.skipElement fun _ ↦ h.pure []
  · rw [readSession_catalog, readSession_catalog]
    cases c.catalog.typeNamed? item with
    | some type => exact h.bind (h.child type) fun v ↦ h.pure [v]
    | none => exact h.bind (h.missing _ _ rfl) fun _ ↦ h.bind h.skipElement fun _ ↦ h.pure []

private theorem inStep_readOccurrence (h : Reading.InStep R strict strict' child child') (n : Nat)
    (name : BindingName) (properties : List Property) (next : QName) :
    R (BindingType.readOccurrence (c.readSession strict child (n + 1)) name properties next)
      (BindingType.readOccurrence (c.readSession strict' child' (n + 1)) name properties next) := by
  unfold BindingType.readOccurrence
  split
  · exact h.bind (h.report _ rfl) fun _ ↦ h.bind h.skipElement fun _ ↦ h.pure []
  · next p index hp =>
    rw [readSession_catalog, readSession_catalog]
    cases c.catalog.typeNamed? p.type with
    | some type => exact h.bind (h.child type) fun v ↦ h.pure _
    | none => exact h.bind (h.missing _ _ rfl) fun _ ↦ h.bind h.skipElement fun _ ↦ h.pure []

private theorem IsGenerated.inStep_readAttribute (hc : c.IsGenerated)
    (h : Reading.InStep R strict strict' child child') (n : Nat) (p : Property) :
    R (p.readAttribute (c.readSession strict child (n + 1)))
      (p.readAttribute (c.readSession strict' child' (n + 1))) := by
  refine h.bind (h.attribute? p.qname) fun own ↦ ?_
  split
  · exact h.pure none
  · next text ht =>
    rw [readSession_catalog, readSession_catalog]
    cases ht : c.catalog.typeNamed? p.type with
    | none => exact h.bind (h.missing _ _ rfl) fun _ ↦ h.pure none
    | some type =>
      dsimp only
      rw [hc.reader?, hc.reader?, Catalog.typeNamed?_name ht, Option.map_some, Option.map_some]
      refine h.bind (h.readAttribute type text) fun r ↦ ?_
      cases r with
      | ok value => exact h.pure _
      | error cause => exact h.bind (h.report _ rfl) fun _ ↦ h.pure _

private theorem IsGenerated.inStep_read (hc : c.IsGenerated)
    (h : Reading.InStep R strict strict' child child') (n : Nat) (type : BindingType) :
    R (type.read (c.readSession strict child (n + 1)))
      (type.read (c.readSession strict' child' (n + 1))) := by
  unfold BindingType.read
  split
  · exact h.readContent _
  · refine h.bind (h.mapM (hc.inStep_readAttribute h n) _) fun attributes ↦ ?_
    refine h.bind (h.gather fun next ↦ inStep_readOccurrence h n _ _ next) fun occurrences ↦ ?_
    exact h.pure _
  · exact h.bind (h.gather fun next ↦ inStep_readItem h n _ _ _ next) fun items ↦ h.pure _
  · exact h.bind h.text fun text ↦ h.pure _

/-! ### Elements -/

private theorem inStep_markedType? (h : Reading.InStep R strict strict' child child')
    (declared : Option BindingType) :
    R (c.markedType? strict declared) (c.markedType? strict' declared) := by
  refine h.bind (h.attribute? .typeMarker) fun mark ↦ ?_
  cases mark with
  | none => exact h.pure none
  | some text =>
    refine h.bind h.current fun element ↦ ?_
    split
    · exact h.bind (h.report _ rfl) fun _ ↦ h.pure none
    · next schema hs =>
      generalize (c.catalog.typeOfSchema? schema).bind c.catalog.typeNamed? = found
      cases found with
      | none =>
        have hunknown := h.bind (h.missing (.unresolvedSchemaType schema)
          (.unknownTypeMarker schema declared.isSome) rfl) fun _ ↦
            h.pure (none : Option BindingType)
        cases strict <;> cases strict' <;> exact hunknown
      | some found =>
        cases declared with
        | none => exact h.pure _
        | some declared =>
          dsimp only
          split
          · exact h.pure _
          · exact h.bind (h.report _ rfl) fun _ ↦ h.pure none

private theorem inStep_readType? (h : Reading.InStep R strict strict' child child') (n : Nat)
    {declared : Option BindingType} (name : QName)
    (hthrow : declared = none → ∀ error, R (throw error : Reading BindingType) (throw error)) :
    R (c.readType? (c.readSession strict child (n + 1)) declared name)
      (c.readType? (c.readSession strict' child' (n + 1)) declared name) := by
  refine h.bind (inStep_markedType? h declared) fun marked ↦ ?_
  -- Whichever way the type was chosen, the base of a polymorphic one takes its place.
  rcases hchosen : marked.or declared with _ | type
  case' none =>
    have hroot : R (MonadExcept.ofExcept (c.rootType name) : Reading BindingType)
        (MonadExcept.ofExcept (c.rootType name)) := by
      cases c.rootType name with
      | ok type => exact h.pure type
      | error error => exact hthrow (Option.or_eq_none_iff.mp hchosen).2 error
    refine h.bind hroot fun chosen ↦ ?_
  case' some => refine h.bind (h.pure type) fun chosen ↦ ?_
  all_goals
    dsimp only
    split
    · next base subtypes hk =>
      cases c.catalog.typeNamed? base with
      | some type => exact h.pure _
      | none => exact h.bind (h.missing _ _ rfl) fun _ ↦ h.pure none
    · exact h.pure _

/-- The value of an element is read. -/
theorem IsGenerated.inStep_readValue (hc : c.IsGenerated)
    (h : Reading.InStep R strict strict' child child')
    {declared : Option BindingType} (name : QName)
    (hthrow : declared = none → ∀ {α : Type} error, R (throw error : Reading α) (throw error)) :
    R (c.readValue (c.readSession strict child c.maxHandovers) declared name)
      (c.readValue (c.readSession strict' child' c.maxHandovers) declared name) := by
  obtain ⟨n, hmax⟩ := c.maxHandovers_eq
  rw [hmax]
  have hnull : R isMarkedNull isMarkedNull := h.bind (h.attribute? .nilMarker) fun _ ↦ h.pure _
  refine h.bind hnull fun isNull ↦ ?_
  split
  · exact h.pure Value.null
  · refine h.bind (inStep_readType? h (n + 1) name fun hd error ↦ hthrow hd error) fun chosen ↦ ?_
    cases chosen with
    | none => exact h.pure Value.null
    | some type =>
      dsimp only
      rw [hc.reader?, hc.reader?]
      cases c.catalog.typeNamed? type.name with
      | some type' => exact hc.inStep_read h n type'
      | none =>
        dsimp only [Option.map_none]
        split
        · next hd =>
          refine h.bind (hthrow (Option.isNone_iff_eq_none.mp hd) _) fun _ ↦ ?_
          exact h.bind (h.missing _ _ rfl) fun _ ↦ h.pure Value.null
        · exact h.bind (h.missing _ _ rfl) fun _ ↦ h.pure Value.null

end Context

end XmlBinding

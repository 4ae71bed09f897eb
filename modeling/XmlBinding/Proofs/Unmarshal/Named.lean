import XmlBinding.Proofs.Unmarshal.SameDocument

/-!
# Children that are read by the name of their type

A converter may read the next child as a value of the type of a name. If that name has a binding
type, the child is read behind whatever text there is in front of it. Without one the child is
passed over, but not from text: in front of it the step stays where it is, and a converter that
reads child after child in this way does not get on (`Context.IsGenerated.childNamed_consumes_iff`).
-/

namespace XmlBinding

open Event

/-- Nothing is passed over from text. -/
theorem afterElement_of_texts {texts : List LocatedEvent} (h : ∀ e ∈ texts, e.isText = true)
    (hne : texts ≠ []) (events : List LocatedEvent) :
    afterElement (texts ++ events) = texts ++ events := by
  obtain ⟨⟨event, location⟩, rest, rfl⟩ := List.exists_cons_of_ne_nil hne
  have htext := (List.forall_mem_cons.mp h).1
  cases event with
  | opening name attributes declarations => cases htext
  | closing name => cases htext
  | text s => rfl

/-- An element is passed over from its opening. -/
theorem afterElement_of_isElement {element : List LocatedEvent}
    (h : IsElement (element.map (·.event))) (rest : List LocatedEvent) :
    afterElement (element ++ rest) = rest := by
  obtain ⟨_, hskip⟩ := @Reading.consumes_skipElement [] .empty _ h none element rest [] rfl
  exact congrArg (·.2.rest) hskip

namespace Context

open Reading

variable {c : Context} {depth : Nat} {texts element : List LocatedEvent} {declared : BindingName}

/-- With a binding type the child is read, whatever text is in front of it. -/
theorem IsGenerated.gives_childNamed (hc : c.IsGenerated) {type : BindingType}
    (hfound : c.catalog.typeNamed? declared = some type) (ht : ∀ e ∈ texts, e.isText = true)
    (helement : IsElement (element.map (·.event))) (hd : element.length ≤ depth)
    (handovers : Nat) (e : CurrentElement) (rest : List LocatedEvent)
    (diagnostics : List Diagnostic) :
    ∃ v met, Reading.Gives
      ((c.readSession false (c.readChild false depth) handovers).childNamed declared) e
      ⟨texts ++ (element ++ rest), diagnostics⟩ v ⟨rest, met⟩ := by
  obtain ⟨name, attributes, declarations, content, closing, hevents, hcontent⟩ :=
    isElement_iff.mp helement
  have hlength : element.length = content.length + 2 := by
    simpa using congrArg List.length hevents
  obtain ⟨depth, rfl⟩ := Nat.exists_eq_add_one_of_ne_zero (Nat.ne_zero_of_lt (hlength ▸ hd))
  have hread := hc.consumes_readElement hcontent (hlength ▸ hd) e.scope closing attributes
    declarations fun _ ↦ isSome_chosen?_of_declared type name attributes _
  obtain ⟨met, hgives⟩ := hread element rest diagnostics hevents
  refine ⟨c.elementValue (some type) name attributes (e.scope.push declarations) content, met, ?_⟩
  rw [ReadSession.childNamed, readSession_catalog, hfound, readSession_child]
  exact (run_readElement_texts ht depth e.scope (some type) _ diagnostics).trans hgives

/-- Without a binding type there is no value, and a child is passed over from its opening only. -/
theorem gives_childNamed_unresolved (hnone : c.catalog.typeNamed? declared = none)
    (child : BindingType → Reading Value) (handovers : Nat) (e : CurrentElement) (cursor : Cursor) :
    Reading.Gives ((c.readSession false child handovers).childNamed declared) e cursor .null
      ⟨afterElement cursor.rest, cursor.diagnostics ++
        [⟨.unresolvedType declared, e.location.or cursor.location⟩]⟩ := by
  rw [ReadSession.childNamed, readSession_catalog, hnone, ReadSession.unresolved,
    readSession_strict]
  rfl

/-- Reading the next child by the name of its type always succeeds in a lenient call. It goes on
just behind the child if and only if the name has a binding type or no text is in front of the
child. Without a binding type the value is null, which is noted once. -/
theorem IsGenerated.childNamed_consumes_iff (hc : c.IsGenerated)
    (ht : ∀ e ∈ texts, e.isText = true) (helement : IsElement (element.map (·.event)))
    (hd : element.length ≤ depth) (handovers : Nat) (declared : BindingName) (e : CurrentElement)
    (rest : List LocatedEvent) (diagnostics : List Diagnostic) :
    ∃ v after, Reading.Gives
        ((c.readSession false (c.readChild false depth) handovers).childNamed declared) e
        ⟨texts ++ (element ++ rest), diagnostics⟩ v after ∧
      (after.rest = rest ↔ (c.catalog.typeNamed? declared).isSome = true ∨ texts = []) ∧
      (c.catalog.typeNamed? declared = none → v = .null ∧
        (texts ≠ [] → after.rest = texts ++ (element ++ rest)) ∧
        ∃ location, after.diagnostics = diagnostics ++ [⟨.unresolvedType declared, location⟩]) := by
  cases hfound : c.catalog.typeNamed? declared with
  | some type =>
    obtain ⟨v, met, hgives⟩ :=
      hc.gives_childNamed hfound ht helement hd handovers e rest diagnostics
    exact ⟨v, _, hgives, by simp, by simp⟩
  | none =>
    refine ⟨_, _, gives_childNamed_unresolved hfound _ handovers e _, ?_, fun _ ↦
      ⟨rfl, fun hne ↦ afterElement_of_texts ht hne _, _, rfl⟩⟩
    by_cases htexts : texts = []
    · subst htexts
      exact iff_of_true (afterElement_of_isElement helement rest) (.inr rfl)
    · refine iff_of_false ?_ (by simpa using htexts)
      rw [afterElement_of_texts ht htexts]
      intro hsame
      have hlength := congrArg List.length hsame
      have hpositive := List.length_pos_iff.mpr htexts
      simp only [List.length_append] at hlength
      omega

end Context

/-! ### Shapes -/

namespace Shapes

/-- A name without a binding type. -/
def triangle : BindingName := ⟨⟨"Triangle"⟩, ⟨"urn:shapes", "Triangle"⟩⟩

/-- White space between elements. -/
def gap : List LocatedEvent := [⟨.text " ", none⟩]

/-- An element without content. -/
def hollow : List LocatedEvent :=
  [⟨.opening ⟨"urn:shapes", "inner"⟩ [] [], none⟩, ⟨.closing ⟨"urn:shapes", "inner"⟩, none⟩]

/-- The end of the element around it. -/
def ending : List LocatedEvent := [⟨.closing ⟨"urn:shapes", "shape"⟩, none⟩]

private theorem isElement_hollow : IsElement (hollow.map (·.event)) :=
  isElement_iff.mpr ⟨_, [], [], [], _, rfl, rfl⟩

end Shapes

namespace Context

open Shapes

/-- A shape is read behind white space. -/
theorem childNamed_consumes_iff_shape :
    Shapes.context.IsGenerated ∧ (∀ e ∈ gap, e.isText = true) ∧
      IsElement (hollow.map (·.event)) ∧ hollow.length ≤ 2 ∧
      ∃ v after, Reading.Gives
          ((Shapes.context.readSession false (Shapes.context.readChild false 2) 2).childNamed shape)
          ⟨[], none, .empty⟩ ⟨gap ++ (hollow ++ ending), []⟩ v after ∧ after.rest = ending := by
  have hc : Shapes.context.IsGenerated := isGenerated_make rfl _
  have hgap : ∀ e ∈ gap, e.isText = true := by decide
  obtain ⟨v, after, hgives, hrest, -⟩ := hc.childNamed_consumes_iff hgap isElement_hollow
    (Nat.le_refl 2) 2 shape ⟨[], none, .empty⟩ ending []
  have hfound : (Shapes.context.catalog.typeNamed? shape).isSome = true := by decide +kernel
  exact ⟨hc, hgap, isElement_hollow, Nat.le_refl 2, v, after, hgives, hrest.mpr (.inl hfound)⟩

/-- Not every child that is read by the name of its type is taken off the events. -/
theorem not_childNamed_consumes : ¬ ∀ c : Context, c.IsGenerated →
    ∀ (texts element rest : List LocatedEvent) (declared : BindingName) (e : CurrentElement),
      (∀ x ∈ texts, x.isText = true) → IsElement (element.map (·.event)) → ∀ v after,
        Reading.Gives ((c.readSession false (c.readChild false element.length)
          c.maxHandovers).childNamed declared) e ⟨texts ++ (element ++ rest), []⟩ v after →
        after.rest = rest := by
  intro h
  have hnone : Shapes.context.catalog.typeNamed? triangle = none := by decide +kernel
  have hrest := h Shapes.context (isGenerated_make rfl _) gap hollow ending triangle
    ⟨[], none, .empty⟩ (by decide) isElement_hollow _ _
    (gives_childNamed_unresolved hnone _ _ _ _)
  exact absurd hrest (by decide)

end Context

end XmlBinding

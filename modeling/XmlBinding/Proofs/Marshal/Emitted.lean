import XmlBinding.Proofs.Marshal.Emission
import XmlBinding.Proofs.Marshal.Rejection

/-!
# Emitting elements in place comes to making them

While an element is being made, what was emitted is what had been emitted before, and behind it the
start tag and the content of the element's draft (`Emission.within`). Every step of the converters
that emits keeps to the step that fills the draft (`Drafting.Emits`), and an element that is made is
emitted at the end, or else nothing is (`Context.IsGenerated.emitsElement`): what was opened for it
is taken back in full, whatever was emitted before. So both ways give one document
(`Context.IsGenerated.document_eq`), and a value that is rejected leaves what was emitted as it was
(`Context.emitted_rejected`).
-/

namespace XmlBinding

private theorem Tree.eventsOfAll_append (ts us : List Tree) :
    eventsOfAll (ts ++ us) = eventsOfAll ts ++ eventsOfAll us := by
  induction ts with
  | nil => rfl
  | cons t ts ih => rw [List.cons_append, eventsOfAll, eventsOfAll, ih, List.append_assoc]

private theorem modify_length_append {α : Type} (f : α → α) (xs : List α) (y : α) (ys : List α) :
    (xs ++ y :: ys).modify xs.length f = xs ++ f y :: ys := by
  induction xs with
  | nil => rfl
  | cons x xs ih => rw [List.cons_append, List.length_cons, List.modify_succ_cons, ih,
      List.cons_append]

/-! ### Emissions around a draft -/

namespace Emission

/-- What is emitted while an element is being made. -/
def within (e : Emission) (d : Draft) : Emission :=
  ⟨e.events ++ .opening d.name d.attributes d.declarations :: Tree.eventsOfAll d.content,
    e.events.length :: e.opened, d.scope⟩

/-- What is emitted when an element was made, if one was. -/
def append (e : Emission) (made : Option Tree) : Emission :=
  { e with events := e.events ++ Tree.eventsOfAll made.toList }

variable {e : Emission} {d : Draft}

@[simp] private theorem append_none : e.append none = e := by
  unfold append
  rw [Option.toList_none, Tree.eventsOfAll, List.append_nil]

/-- The start tag of the element in the making is the one that is changed. -/
theorem amend_within (f : Event → Event) : (e.within d).amend f =
    ⟨e.events ++ f (.opening d.name d.attributes d.declarations) :: Tree.eventsOfAll d.content,
      e.events.length :: e.opened, d.scope⟩ :=
  congrArg (Emission.mk · _ _) (modify_length_append f _ _ _)

private theorem addAttribute_within (a : Attribute) : (e.within d).amend (·.withAttribute a) =
    e.within { d with attributes := d.attributes ++ [a] } :=
  amend_within _

/-- A declaration is added to the element in the making, and to its frame. -/
private theorem declare_within (declaration : Declaration) : (e.within d).declare declaration =
    e.within { d with declarations := d.declarations ++ [declaration] } := by
  unfold declare
  rw [amend_within]
  unfold within
  rw [Draft.scope_declare]
  rfl

private theorem declare?_within (declaration : Option Declaration) :
    declaration.elim (e.within d) (declare · (e.within d)) =
      e.within { d with declarations := d.declarations ++ declaration.toList } := by
  cases declaration with
  | none => rw [Option.elim_none, Option.toList_none, List.append_nil]
  | some declaration => exact declare_within declaration

/-- A part of the content of the element in the making is emitted at the end. -/
theorem add_within (e : Emission) (d : Draft) (part : Tree) :
    { e.within d with events := (e.within d).events ++ part.events } = e.within (d.add part) := by
  unfold within Draft.add
  rw [Tree.eventsOfAll_append, Tree.eventsOfAll, Tree.eventsOfAll, List.append_nil,
    List.append_assoc, List.cons_append]
  rfl

/-- An element that was made within the one in the making is a part of its content. -/
private theorem append_within (made : Option Tree) :
    (e.within d).append made = e.within (made.elim d d.add) := by
  cases made with
  | none => exact append_none
  | some tree =>
    rw [append, Option.toList_some, Tree.eventsOfAll, Tree.eventsOfAll, List.append_nil]
    exact e.add_within d tree

private theorem finish_within (h : d.outer = e.scope) :
    (e.within d).finish = e.append (some d.toTree) := by
  have hplace : (e.events ++ Event.opening d.name d.attributes d.declarations ::
      Tree.eventsOfAll d.content)[e.events.length]? =
        some (.opening d.name d.attributes d.declarations) := by
    rw [List.getElem?_append_right (Nat.le_refl _), Nat.sub_self, List.getElem?_cons_zero]
  unfold finish within
  dsimp only
  rw [hplace]
  dsimp only
  rw [Draft.scope, NamespaceScope.pop_push, h, append, Option.toList_some, Draft.toTree,
    Tree.eventsOfAll, Tree.eventsOfAll, List.append_nil, Tree.events, List.append_assoc,
    List.cons_append]

private theorem rollback_within (h : d.outer = e.scope) :
    (e.within d).rollback e.events.length = e := by
  unfold rollback within Draft.scope
  rw [List.take_left, NamespaceScope.pop_push, h]
  rfl

end Emission

/-! ### Steps that emit what they fill a draft with -/

namespace Drafting

/-- Emitting, a step does to what is emitted while an element is being made what the other step does
to the draft of the element; they return and note the same, and fail alike. -/
def Emits {α : Type} (m : Drafting α) (w : Emitting α) : Prop :=
  ∀ (e : Emission) (d : Draft) (log : WriteLog), d.outer = e.scope →
    match (m.run d).run.run log with
    | (.ok (a, d'), log') =>
      d'.outer = e.scope ∧ (w.run (e.within d)).run.run log = (.ok (a, e.within d'), log')
    | (.error error, log') => (w.run (e.within d)).run.run log = (.error error, log')

variable {α β : Type}

/-- A value is returned. -/
theorem emits_pure (a : α) : Emits (pure a) (pure a) := fun _ _ _ hd ↦ ⟨hd, rfl⟩

private theorem emits_throw (error : Error) : Emits (throw error : Drafting α) (throw error) :=
  fun _ _ _ _ ↦ rfl

/-- One step follows another. -/
theorem Emits.bind {m : Drafting α} {w : Emitting α} {f : α → Drafting β} {g : α → Emitting β}
    (hm : Emits m w) (hf : ∀ a, Emits (f a) (g a)) : Emits (m >>= f) (w >>= g) := by
  intro e d log hd
  have hfirst := hm e d log hd
  rw [StateT.run_bind, StateT.run_bind, run_bind, run_bind]
  generalize (m.run d).run.run log = r at hfirst ⊢
  obtain ⟨error | ⟨a, d₁⟩, log₁⟩ := r
  · dsimp only at hfirst ⊢
    rw [hfirst]
  · obtain ⟨hd₁, hfirst⟩ := hfirst
    dsimp only
    rw [hfirst]
    exact hf a e d₁ log₁ hd₁

/-- A row of steps. -/
theorem emits_forM {ι : Type} {f : ι → Drafting Unit} {g : ι → Emitting Unit}
    (h : ∀ x, Emits (f x) (g x)) (xs : List ι) : Emits (xs.forM f) (xs.forM g) := by
  induction xs with
  | nil => exact emits_pure ()
  | cons x xs ih => exact (h x).bind fun _ ↦ ih

/-- A problem is noted. -/
theorem emits_report (problem : Problem) : Emits (report problem) (Emitting.report problem) :=
  fun _ _ _ hd ↦ ⟨hd, rfl⟩

/-- A prefix is chosen. -/
theorem emits_prefixFor (uri : String) : Emits (prefixFor uri) (Emitting.prefixFor uri) := by
  unfold prefixFor Emitting.prefixFor
  split
  · exact emits_pure ""
  · intro e d log hd
    let choice := d.scope.choosePrefix log.generated uri
    let after : WriteLog := ⟨choice.generated, log.diagnostics⟩
    exact ⟨hd, congrArg (fun x ↦ (Except.ok (choice.pre, x), after))
      (Emission.declare?_within choice.declaration)⟩

private theorem emits_lexicalName (name : QName) :
    Emits (lexicalName name) (Emitting.lexicalName name) :=
  (emits_prefixFor name.uri).bind fun _ ↦ emits_pure _

/-- Text is added. -/
theorem emits_characters (text : String) :
    Emits (characters text) (Emitting.characters text) := by
  unfold characters Emitting.characters
  split
  · exact emits_pure ()
  · exact fun e d log hd ↦
      ⟨hd, congrArg (fun x ↦ (Except.ok ((), x), log)) (e.add_within d (.text text))⟩

/-- An attribute is added. -/
theorem emits_addAttribute (name : QName) (value : String) :
    Emits (addAttribute name value) (Emitting.addAttribute name value) := by
  have hadd : Emits
      (modifyThe Draft fun draft ↦ { draft with attributes := draft.attributes ++ [⟨name, value⟩] })
      (modifyThe Emission (·.amend (·.withAttribute ⟨name, value⟩))) := fun e d log hd ↦
    ⟨hd, congrArg (fun x ↦ (Except.ok (PUnit.unit, x), log)) (Emission.addAttribute_within _)⟩
  unfold addAttribute Emitting.addAttribute
  split
  · exact (emits_prefixFor name.uri).bind fun _ ↦ hadd
  · exact hadd

/-- What is emitted for an element is the element that is made of it, if one is; both note the same,
and fail alike. -/
def EmitsElement (make : NamespaceScope → Writing (Option Tree)) (w : Emitting Unit) : Prop :=
  ∀ (e : Emission) (log : WriteLog),
    match (make e.scope).run.run log with
    | (.ok made, log') => (w.run e).run.run log = (.ok ((), e.append made), log')
    | (.error error, log') => (w.run e).run.run log = (.error error, log')

/-- An element that is made from where something was emitted is emitted there. -/
theorem EmitsElement.gives {make : NamespaceScope → Writing (Option Tree)} {w : Emitting Unit}
    (h : EmitsElement make w) {e : Emission} {log log' : WriteLog} {made : Option Tree}
    (hg : XmlBinding.Gives (make e.scope) log made log') :
    XmlBinding.Gives (w.run e) log ((), e.append made) log' := by
  have hmade := h e log
  rw [show (make e.scope).run.run log = (.ok made, log') from hg] at hmade
  exact hmade

/-- An element is made of what the steps of its body fill it with, or taken back. -/
theorem emitsElement_build {m : Drafting Bool} {w : Emitting Bool} (h : Emits m w) (name : QName) :
    EmitsElement (fun outer ↦ build outer name m) (Emitting.build name w) := by
  intro e log
  have hbody : Emits (prefixFor name.uri *> m) (Emitting.prefixFor name.uri *> w) :=
    (emits_prefixFor name.uri).bind fun _ ↦ h
  have hrun := hbody e (.start e.scope name) log rfl
  unfold build
  rw [run_bind]
  generalize ((prefixFor name.uri *> m).run (.start e.scope name)).run.run log = r at hrun ⊢
  -- What is opened is an element in the making, with nothing in it.
  have hopen : ((Emitting.build name w).run e).run.run log =
      (((Emitting.prefixFor name.uri *> w >>= fun kept ↦
        if kept then modifyThe Emission (·.finish)
        else modifyThe Emission (·.rollback e.events.length)).run
          (e.within (.start e.scope name))).run.run log) := rfl
  rw [hopen, StateT.run_bind, run_bind]
  obtain ⟨error | ⟨kept, d⟩, log'⟩ := r
  · dsimp only at hrun ⊢
    rw [hrun]
  · obtain ⟨hd, hrun⟩ := hrun
    dsimp only
    rw [hrun]
    cases kept with
    | true => exact congrArg (fun x ↦ (Except.ok ((), x), log')) (Emission.finish_within hd)
    | false =>
      exact congrArg (fun x ↦ (Except.ok ((), x), log'))
        ((Emission.rollback_within hd).trans Emission.append_none.symm)

/-- An element that is made where a draft is becomes a part of it. -/
private theorem EmitsElement.emits {make : NamespaceScope → Writing (Option Tree)}
    {w : Emitting Unit} (h : EmitsElement make w) : Emits (do
      let draft ← getThe Draft
      match ← make draft.scope with
      | some tree => modifyThe Draft (·.add tree)
      | none => return) w := by
  intro e d log hd
  have hmade := h (e.within d) log
  have hopen : (do
      let draft ← getThe Draft
      match ← make draft.scope with
      | some tree => modifyThe Draft (·.add tree)
      | none => return : Drafting Unit).run d =
        make d.scope >>= fun made ↦ pure ((), made.elim d d.add) := by
    change ((make d.scope >>= fun made ↦ pure (made, d)) >>= fun p ↦
      (match p.1 with
        | some tree => modifyThe Draft (·.add tree)
        | none => return : Drafting Unit).run p.2) = _
    rw [bind_assoc]
    congr
    funext made
    cases made <;> rfl
  rw [hopen, run_bind]
  rw [show (e.within d).scope = d.scope from rfl] at hmade
  generalize (make d.scope).run.run log = r at hmade ⊢
  obtain ⟨error | made, log'⟩ := r
  · exact hmade
  · dsimp only at hmade ⊢
    rw [hmade, Emission.append_within]
    cases made <;> exact ⟨hd, rfl⟩

/-- A value is printed by a type. -/
theorem emits_print (type : BindingType) (value : Value) :
    Emits (type.print value) (Emitting.print type value) := by
  obtain ⟨own, kind⟩ := type
  cases kind with
  | builtin space =>
    unfold BindingType.print Emitting.print Codec.printText
    dsimp only
    cases (own.codec space).print value with
    | error cause => exact emits_pure _
    | ok printed =>
      dsimp only
      cases printed.namespace? with
      | none => exact emits_pure _
      | some uri => exact (emits_prefixFor uri).bind fun _ ↦ emits_pure _
  | byName base properties => exact emits_pure _
  | list item itemElement => exact emits_pure _
  | polymorphic base subtypes => exact emits_pure _

private theorem emits_printed (type : BindingType) (value : Value) :
    Emits (printed type.print value) (Emitting.printed type value) := by
  refine (emits_print type value).bind fun r ↦ ?_
  cases r with
  | ok text => exact emits_characters text
  | error cause => exact emits_report _

private theorem emits_markType (type : BindingType) :
    Emits (Context.markType type) (Emitting.markType type) :=
  (emits_lexicalName _).bind fun text ↦ emits_addAttribute _ text

end Drafting

namespace Context

open Drafting

variable {c : Context}

/-! ### Converters -/

section Converters

variable {strict : Bool} {child : QName → Value → BindingType → (nillable : Bool) → Drafting Unit}
  {child' : QName → Value → BindingType → (nillable : Bool) → Emitting Unit}

/-- A name has no binding type. -/
theorem emits_unresolved (n : Nat) (name : BindingName) :
    Emits ((c.writeSession strict child n).unresolved name) (Emitting.unresolved strict name) := by
  unfold WriteSession.unresolved Emitting.unresolved
  rw [writeSession_strict]
  cases strict with
  | true => exact emits_throw _
  | false => exact emits_report _

private theorem IsGenerated.emits_writeAttribute (hc : c.IsGenerated) (n : Nat) (fields : Fields)
    (p : Property) :
    Emits (p.writeAttribute (c.writeSession strict child (n + 1)) fields)
      (Emitting.writeAttribute c strict fields p) := by
  unfold Property.writeAttribute Emitting.writeAttribute
  dsimp only
  split
  · exact emits_pure ()
  · rw [writeSession_catalog]
    cases ht : c.catalog.typeNamed? p.type with
    | none => exact emits_unresolved _ _
    | some type =>
      dsimp only
      rw [hc.writer?, Catalog.typeNamed?_name ht, Option.map_some]
      dsimp only
      split
      · exact emits_report _
      · refine (emits_print type _).bind fun r ↦ ?_
        cases r with
        | ok text => exact emits_addAttribute _ _
        | error cause => exact emits_report _

variable (hchild : ∀ name value type nillable,
  Emits (child name value type nillable) (child' name value type nillable))
include hchild

private theorem emits_writeItems (n : Nat) (p : Property) (type : BindingType) (index : Nat)
    (items : List Value) :
    Emits (p.writeItems (c.writeSession strict child n) type index items)
      (Emitting.writeItems child' p type index items) := by
  induction items generalizing index with
  | nil => exact emits_pure ()
  | cons item rest ih =>
    unfold Property.writeItems Emitting.writeItems
    rw [writeSession_child]
    split
    · exact (emits_report _).bind fun _ ↦ ih _
    · exact (hchild _ _ _ _).bind fun _ ↦ ih _

private theorem emits_writeElement (n : Nat) (fields : Fields) (p : Property) :
    Emits (p.writeElement (c.writeSession strict child n) fields)
      (Emitting.writeElement c strict child' fields p) := by
  unfold Property.writeElement Emitting.writeElement
  dsimp only
  rw [writeSession_catalog]
  cases c.catalog.typeNamed? p.type with
  | none =>
    dsimp only
    split
    · exact emits_pure ()
    · exact emits_unresolved _ _
  | some type =>
    dsimp only
    split
    · cases fields.get p.name with
      | null => exact emits_pure ()
      | list items => exact emits_writeItems hchild n p type 0 items
      | scalar s => exact emits_report _
      | struct native fields => exact emits_report _
    · split
      · exact emits_pure ()
      · rw [writeSession_child]
        exact hchild _ _ _ _

private theorem emits_writeList (n : Nat) (name item : BindingName) (itemElement : QName)
    (value : Value) :
    Emits (BindingType.writeList (c.writeSession strict child n) name item itemElement value)
      (Emitting.writeList c strict child' name item itemElement value) := by
  cases value with
  | list items =>
    unfold BindingType.writeList Emitting.writeList
    dsimp only
    rw [writeSession_catalog]
    cases c.catalog.typeNamed? item with
    | none =>
      dsimp only
      split
      · exact emits_pure ()
      · exact emits_unresolved _ _
    | some type =>
      dsimp only
      rw [writeSession_child]
      exact emits_forM (fun v ↦ hchild _ v type true) _
  | null => exact emits_report _
  | scalar s => exact emits_report _
  | struct native fields => exact emits_report _

private theorem IsGenerated.emits_writeStructure (hc : c.IsGenerated) (n : Nat) (name : BindingName)
    (properties : List Property) (value : Value) :
    Emits (BindingType.writeStructure (c.writeSession strict child (n + 1)) name properties value)
      (Emitting.writeStructure c strict child' name properties value) := by
  cases value with
  | struct native fields =>
    refine (emits_forM (hc.emits_writeAttribute n fields) _).bind fun _ ↦ ?_
    exact emits_forM (emits_writeElement hchild (n + 1) fields) _
  | null => exact emits_report _
  | scalar s => exact emits_report _
  | list items => exact emits_report _

private theorem IsGenerated.emits_write (hc : c.IsGenerated) (n : Nat) (type : BindingType)
    (value : Value) :
    Emits (type.write (c.writeSession strict child (n + 1)) value)
      (Emitting.write c strict child' type value) := by
  obtain ⟨own, kind⟩ := type
  cases kind with
  | builtin space => exact emits_printed _ value
  | byName base properties => exact hc.emits_writeStructure hchild n own properties value
  | list item itemElement => exact emits_writeList hchild (n + 1) own item itemElement value
  | polymorphic base subtypes => exact emits_printed _ value

private theorem IsGenerated.emits_fill (hc : c.IsGenerated) (n : Nat) (type : BindingType)
    (isRoot : Bool) (name : QName) (value : Value) :
    Emits
      (fill ⟨type.isSimple, type.print, type.write (c.writeSession strict child (n + 1))⟩ isRoot
        name value)
      (Emitting.fill c strict child' type isRoot name value) := by
  unfold fill Emitting.fill
  split
  · refine (emits_print type value).bind fun r ↦ ?_
    cases r with
    | ok text => exact (emits_characters text).bind fun _ ↦ emits_pure true
    | error cause => exact (emits_report _).bind fun _ ↦ emits_pure isRoot
  · exact (hc.emits_write hchild n type value).bind fun _ ↦ emits_pure true

private theorem IsGenerated.emitsElement_valueElement (hc : c.IsGenerated) (position : Position)
    (name : QName) (value : Value) (declared : BindingType) :
    EmitsElement
      (fun outer ↦ c.valueElement (c.writeSession strict child c.maxHandovers) outer position name
        value declared)
      (Emitting.valueElement c strict child' position name value declared) := by
  obtain ⟨n, hmax⟩ := c.maxHandovers_eq
  rw [hmax]
  unfold valueElement Emitting.valueElement
  cases c.effectiveType value declared with
  | error found =>
    dsimp only
    cases position.isRoot with
    | true => exact fun e log ↦ rfl
    | false => exact fun e log ↦ congrArg (fun x ↦ (Except.ok ((), x), _)) e.append_none.symm
  | ok effective =>
    dsimp only
    rw [hc.writer?]
    cases c.catalog.typeNamed? effective.type.name with
    | none =>
      dsimp only [Option.map_none]
      rw [writeSession_strict]
      unfold Emitting.unresolved
      by_cases hends : position.isRoot = true ∨ strict = true
      · simp only [if_pos hends]
        rw [if_pos (by simpa using hends)]
        exact fun e log ↦ rfl
      · simp only [if_neg hends]
        rw [if_neg (by simpa using hends)]
        exact fun e log ↦ congrArg (fun x ↦ (Except.ok ((), x), _)) e.append_none.symm
    | some type =>
      dsimp only [Option.map_some]
      refine emitsElement_build ?_ name
      split
      · exact (emits_markType _).bind fun _ ↦ hc.emits_fill hchild n type _ name value
      · exact hc.emits_fill hchild n type _ name value

end Converters

/-! ### Elements and documents -/

/-- The element of a value is made, whatever the depth. -/
theorem IsGenerated.emitsElement (hc : c.IsGenerated) (strict : Bool) (depth : Nat)
    (position : Position) (name : QName) (value : Value) (declared : BindingType) :
    EmitsElement (fun outer ↦ c.element strict depth outer position name value declared)
      (Emitting.element c strict depth position name value declared) := by
  induction depth generalizing position name value declared with
  | zero => exact fun e log ↦ congrArg (fun x ↦ (Except.ok ((), x), log)) e.append_none.symm
  | succ depth ih =>
    unfold element Emitting.element
    cases value.isNull with
    | true =>
      cases position.writesNull with
      | true =>
        exact emitsElement_build ((emits_addAttribute _ _).bind fun _ ↦ emits_pure true) name
      | false => exact fun e log ↦ congrArg (fun x ↦ (Except.ok ((), x), log)) e.append_none.symm
    | false =>
      have hchild (name : QName) (value : Value) (type : BindingType) (nillable : Bool) :=
        (ih (.child nillable) name value type).emits
      exact hc.emitsElement_valueElement hchild position name value declared

/-- Emitting a document in place gives the document that is made of elements. -/
theorem IsGenerated.document_eq (hc : c.IsGenerated) (strict marked : Bool) (name : QName)
    (value : Value) (declared : BindingType) :
    Emitting.document c strict marked name value declared =
      c.document strict marked name value declared := by
  refine ExceptT.ext (StateT.ext fun log ↦ ?_)
  have hroot := hc.emitsElement strict (value.height + 1) (.root marked) name value declared .empty
    log
  dsimp only at hroot
  rw [show Emission.empty.scope = .empty from rfl] at hroot
  change (Emitting.document c strict marked name value declared).run.run log =
    (c.document strict marked name value declared).run.run log
  unfold Emitting.document document
  rw [run_bind, run_bind]
  generalize (c.element strict (value.height + 1) .empty (.root marked) name value
    declared).run.run log = r at hroot ⊢
  obtain ⟨error | made, log'⟩ := r
  · dsimp only at hroot ⊢
    rw [hroot]
  · dsimp only at hroot ⊢
    rw [hroot]
    rfl

/-! ### Values that are rejected -/

/-- A value that has no text, or whose own type does not narrow the structure that is declared for
it, is rejected as a child. Where elements are emitted in place, which gives the same documents,
nothing that was emitted before has changed afterwards: no event, no attribute or declaration of a
start tag, no open element and no declaration in scope; and one error was noted. -/
theorem emitted_rejected {settings : Settings} (h : settings.converters = [])
    (bundles : List Bundle) {declared : BindingType} {value : Value}
    (ht : (make settings bundles).catalog.typeNamed? declared.name = some declared)
    (hnull : value.isNull = false) (hout : (make settings bundles).LeavesOut value declared)
    (strict : Bool) (depth : Nat) (name : QName) (nillable : Bool) :
    let c := make settings bundles
    c.Rejects strict (depth + 1) name value declared nillable ∧
    (∀ marked name value declared, Emitting.document c strict marked name value declared =
      c.document strict marked name value declared) ∧
    ∃ problem : Problem, problem.severity = .error ∧ ∀ (e : Emission) (log : WriteLog),
      ∃ generated, XmlBinding.Gives
        ((Emitting.element c strict (depth + 1) (.child nillable) name value declared).run e) log
        ((), e) ⟨generated, log.diagnostics ++ [⟨problem, none⟩]⟩ := by
  intro c
  have hc : c.IsGenerated := isGenerated_make h bundles
  refine ⟨hc.rejects ht hnull hout strict depth name nillable, hc.document_eq strict, ?_⟩
  obtain ⟨problem, hsevere, hremarks⟩ := hc.remarks_of_leavesOut ht hnull hout name
  refine ⟨problem, hsevere, fun e log ↦ ?_⟩
  obtain ⟨out, ⟨generated, diagnostics⟩, hg, hlog, rfl⟩ :=
    hremarks strict depth e.scope nillable log
  dsimp only at hlog
  subst hlog
  have hemitted :=
    (hc.emitsElement strict (depth + 1) (.child nillable) name value declared).gives hg
  rw [Emission.append_none] at hemitted
  exact ⟨generated, hemitted⟩

/-- A name that cannot be written is rejected within a shape where values of all types may stand. By
then its element is open and marked, with prefixes for the mark and for its type; what was emitted
for the shape is not changed. -/
theorem emitted_rejected_name :
    Settings.default.converters = [] ∧
      Shapes.context.catalog.typeNamed? .anyType = some (.polymorphic .anyType none []) ∧
      Shapes.context.effectiveType (.scalar (.name (.unqualified "1")))
        (.polymorphic .anyType none []) = .ok ⟨.builtin Shapes.name .qname, true⟩ ∧
      ∃ problem generated, problem.severity = .error ∧ XmlBinding.Gives
        ((Emitting.element Shapes.context false 1 (.child false) ⟨"urn:shapes", "note"⟩
          (.scalar (.name (.unqualified "1"))) (.polymorphic .anyType none [])).run
            ((Emission.empty.start ⟨"urn:shapes", "shape"⟩).declare ⟨"ns1", "urn:shapes"⟩)) ⟨1, []⟩
        ((), ((Emission.empty.start ⟨"urn:shapes", "shape"⟩).declare ⟨"ns1", "urn:shapes"⟩))
        ⟨generated, [⟨problem, none⟩]⟩ := by
  have hnone : Settings.default.converters = [] := rfl
  have hdeclared : Shapes.context.catalog.typeNamed?
      (BindingType.polymorphic .anyType none []).name = some (.polymorphic .anyType none []) := by
    decide +kernel
  have heffective : Shapes.context.effectiveType (.scalar (.name (.unqualified "1")))
      (.polymorphic .anyType none []) = .ok ⟨.builtin Shapes.name .qname, true⟩ := by
    decide +kernel
  have hrefuses : (BindingType.builtin Shapes.name .qname).Refuses
      (.scalar (.name (.unqualified "1"))) := by
    intro codec hcodec
    cases hcodec
    exact ⟨.invalidLocalPart "1", rfl⟩
  have hout : Shapes.context.LeavesOut (.scalar (.name (.unqualified "1")))
      (.polymorphic .anyType none []) := by
    rw [LeavesOut, heffective]
    exact ⟨rfl, hrefuses⟩
  obtain ⟨-, -, problem, hsevere, hemitted⟩ := emitted_rejected hnone
    [⟨none, Shapes.descriptor, [], []⟩] hdeclared rfl hout false 0 ⟨"urn:shapes", "note"⟩ false
  obtain ⟨generated, hg⟩ := hemitted
    ((Emission.empty.start ⟨"urn:shapes", "shape"⟩).declare ⟨"ns1", "urn:shapes"⟩) ⟨1, []⟩
  exact ⟨hnone, hdeclared, heffective, problem, generated, hsevere, hg⟩

end Context

end XmlBinding

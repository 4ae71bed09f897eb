import XmlBinding.Proofs.RoundTrip.Conforming

/-!
# Conforming values are written without a problem

No step that writes a conforming value fails or notes a problem, whatever draft and log it starts
from. What the steps write is another matter, which `Context.Renders` settles.
-/

namespace XmlBinding

/-! ### Steps without a problem -/

/-- From every log the step succeeds without noting a problem. -/
def Quiet {α : Type} (m : Writing α) : Prop :=
  ∀ log, ∃ a log', Gives m log a log' ∧ log'.diagnostics = log.diagnostics

namespace Drafting

variable {α β : Type} {m : Drafting α} {P : α → Prop}

/-- From every draft and log the step succeeds without noting a problem, and its result has a
property. -/
def Quietly (m : Drafting α) (P : α → Prop) : Prop :=
  ∀ d log, ∃ a d' log', Drafting.Gives m d log a d' log' ∧
    log'.diagnostics = log.diagnostics ∧ P a

/-- Returning a value is no problem. -/
theorem quietly_pure {a : α} (h : P a) : Quietly (pure a) P :=
  fun d log ↦ ⟨a, d, log, gives_pure.mpr ⟨rfl, rfl, rfl⟩, rfl, h⟩

/-- Two steps are no problem if neither is. -/
theorem quietly_bind {f : α → Drafting β} {R : β → Prop} (hm : Quietly m P)
    (hf : ∀ a, P a → Quietly (f a) R) : Quietly (m >>= f) R := by
  intro d log
  obtain ⟨a, d₁, log₁, hg, hlog, ha⟩ := hm d log
  obtain ⟨b, d', log', hg', hlog', hb⟩ := hf a ha d₁ log₁
  exact ⟨b, d', log', gives_bind.mpr ⟨a, d₁, log₁, hg, hg'⟩, hlog'.trans hlog, hb⟩

private theorem quietly_forM {ι : Type} {f : ι → Drafting Unit} {xs : List ι}
    (h : ∀ x ∈ xs, Quietly (f x) fun _ ↦ True) : Quietly (xs.forM f) fun _ ↦ True := by
  induction xs with
  | nil => exact fun d log ↦ ⟨(), d, log, gives_forM_nil.mpr ⟨rfl, rfl⟩, rfl, trivial⟩
  | cons x xs ih =>
    intro d log
    obtain ⟨⟨⟩, d₁, log₁, hg, hlog, -⟩ := h x List.mem_cons_self d log
    obtain ⟨⟨⟩, d', log', hg', hlog', -⟩ :=
      ih (fun y hy ↦ h y (List.mem_cons_of_mem _ hy)) d₁ log₁
    exact ⟨(), d', log', gives_forM_cons.mpr ⟨d₁, log₁, hg, hg'⟩, hlog'.trans hlog, trivial⟩

/-- Choosing a prefix is no problem. -/
theorem quietly_prefixFor (uri : String) : Quietly (prefixFor uri) fun _ ↦ True := by
  unfold prefixFor
  split
  · exact quietly_pure trivial
  · exact fun d log ↦ ⟨_, _, _, rfl, rfl, trivial⟩

private theorem quietly_characters (text : String) : Quietly (characters text) fun _ ↦ True :=
  fun _ _ ↦ ⟨(), _, _, gives_characters.mpr ⟨rfl, rfl⟩, rfl, trivial⟩

/-- Changing the draft is no problem. -/
theorem quietly_modifyDraft (f : Draft → Draft) : Quietly (modifyThe Draft f) fun _ ↦ True :=
  fun _ _ ↦ ⟨⟨⟩, _, _, gives_modifyDraft.mpr ⟨rfl, rfl⟩, rfl, trivial⟩

private theorem quietly_getDraft : Quietly (getThe Draft) fun _ ↦ True :=
  fun d log ↦ ⟨d, d, log, gives_getDraft.mpr ⟨rfl, rfl, rfl⟩, rfl, trivial⟩

/-- A step of the call that is no problem is none within a draft. -/
private theorem quietly_lift {w : Writing α} (h : Quiet w) : Quietly (liftM w) fun _ ↦ True := by
  intro d log
  obtain ⟨a, log', hg, hlog⟩ := h log
  exact ⟨a, d, log', gives_lift.mpr ⟨hg, rfl⟩, hlog, trivial⟩

/-- Adding an attribute is no problem. -/
theorem quietly_addAttribute (name : QName) (text : String) :
    Quietly (addAttribute name text) fun _ ↦ True := by
  unfold addAttribute
  split
  · exact quietly_bind (quietly_prefixFor _) fun _ _ ↦ quietly_modifyDraft _
  · exact quietly_modifyDraft _

/-- Making an element is no problem if filling it is none. -/
theorem quiet_build {outer : NamespaceScope} {name : QName} {body : Drafting Bool}
    (h : Quietly body fun _ ↦ True) : Quiet (build outer name body) := by
  intro log
  have hall : Quietly (prefixFor name.uri >>= fun _ ↦ body) fun _ ↦ True :=
    quietly_bind (quietly_prefixFor _) fun _ _ ↦ h
  obtain ⟨kept, d', log', hg, hlog, -⟩ := hall (.start outer name) log
  exact ⟨_, log', XmlBinding.gives_bind.mpr
    ⟨(kept, d'), log', hg, XmlBinding.gives_pure.mpr ⟨rfl, rfl⟩⟩, hlog⟩

end Drafting

open Drafting

private theorem Codec.RoundTrips.quietly {codec : Codec} {value : Value}
    (h : codec.RoundTrips value) :
    Drafting.Quietly (codec.printText value) fun r ↦ ∃ text, r = .ok text := by
  obtain ⟨printed, hp, -⟩ := h
  unfold Codec.printText
  rw [hp]
  dsimp only
  split
  · exact quietly_pure ⟨_, rfl⟩
  · exact quietly_bind (quietly_prefixFor _) fun _ _ ↦ quietly_pure ⟨_, rfl⟩

namespace Context

variable {c : Context}

/-- A value that fits a type of text has a text. -/
theorem Fits.quietly_print {type : BindingType} {value : Value} (h : c.Fits type value)
    (hs : type.isSimple = true) :
    Drafting.Quietly (type.print value) fun r ↦ ∃ text, r = .ok text := by
  unfold BindingType.isSimple at hs
  unfold BindingType.print
  cases h with
  | text layout trip =>
    rw [layout]
    exact trip.quietly
  | struct layout =>
    rw [layout] at hs
    cases hs
  | list layout =>
    rw [layout] at hs
    cases hs

/-- What a session offers is what the context has, and child elements of conforming values below a
height are no problem. -/
structure Writes (c : Context) (height : Nat) (s : WriteSession) : Prop where
  catalog : s.catalog = c.catalog
  writer (type : BindingType) (h : c.catalog.typeNamed? type.name = some type) :
    ∃ content, s.writer? type.name = some ⟨type.isSimple, type.print, content⟩
  child (name : QName) {value : Value} {type : BindingType} (nillable : Bool)
    (hv : value.height < height) (ht : c.catalog.typeNamed? type.name = some type)
    (hc : c.Conforms type value) :
    Drafting.Quietly (s.child name value type nillable) fun _ ↦ True

private theorem Writes.writeAttribute {height : Nat} {s : WriteSession} (hs : c.Writes height s)
    {p : Property} {fields : Fields}
    (h : (fields.get p.name).isNull = false →
      ∃ t space, c.catalog.typeNamed? p.type = some t ∧ t.kind = .builtin space ∧
        (t.name.codec space).RoundTrips (fields.get p.name)) :
    Drafting.Quietly (p.writeAttribute s fields) fun _ ↦ True := by
  unfold Property.writeAttribute
  dsimp only
  split
  · exact quietly_pure trivial
  · next hnull =>
    obtain ⟨t, space, ht, hk, htrip⟩ := h (by simpa using hnull)
    obtain ⟨content, hw⟩ := hs.writer t (Catalog.typeNamed?_name ht)
    have hsimple : t.isSimple = true := by rw [BindingType.isSimple, hk]
    rw [hs.catalog, ht]
    dsimp only
    rw [hw]
    dsimp only
    rw [if_neg (by simpa using hsimple)]
    have hfits : c.Fits t (fields.get p.name) := .text hk htrip
    apply quietly_bind (hfits.quietly_print hsimple)
    intro r hr
    obtain ⟨text, rfl⟩ := hr
    exact quietly_addAttribute _ _

private theorem Writes.writeItems {height : Nat} {s : WriteSession} (hs : c.Writes height s)
    {p : Property} {type : BindingType} (ht : c.catalog.typeNamed? type.name = some type)
    {items : List Value} (index : Nat) (hv : ∀ v ∈ items, v.height < height)
    (hn : ∀ v ∈ items, v.isNull = true → p.isNillable = true)
    (hc : ∀ v ∈ items, c.Conforms type v) :
    Drafting.Quietly (p.writeItems s type index items) fun _ ↦ True := by
  induction items generalizing index with
  | nil => exact quietly_pure trivial
  | cons v rest ih =>
    rw [Property.writeItems]
    split
    · next hnull =>
      have hp := hn v List.mem_cons_self hnull.1
      exact absurd hp hnull.2
    · refine quietly_bind (hs.child p.qname p.isNillable (hv v List.mem_cons_self) ht
        (hc v List.mem_cons_self)) fun _ _ ↦ ?_
      exact ih (index + 1) (fun w hw ↦ hv w (List.mem_cons_of_mem _ hw))
        (fun w hw ↦ hn w (List.mem_cons_of_mem _ hw)) fun w hw ↦ hc w (List.mem_cons_of_mem _ hw)

private theorem Writes.writeElement {height : Nat} {s : WriteSession} (hs : c.Writes height s)
    {p : Property} {fields : Fields} (hv : Value.heightOfFields fields < height)
    (hrepeated : p.isMultiple = true → (c.catalog.typeNamed? p.type).isSome = true ∧
      ∃ items, fields.get p.name = .list items ∧ ∀ v ∈ items, v.isNull = true →
        p.isNillable = true)
    (htyped : ∀ part ∈ p.parts fields, part.value.isNull = false →
      (c.catalog.typeNamed? p.type).isSome = true)
    (hc : ∀ part ∈ p.parts fields, ∀ t, c.catalog.typeNamed? p.type = some t →
      c.Conforms t part.value) :
    Drafting.Quietly (p.writeElement s fields) fun _ ↦ True := by
  have hget : (fields.get p.name).height < height :=
    Nat.lt_of_le_of_lt (Value.height_get_le fields p.name) hv
  unfold Property.writeElement
  rw [hs.catalog]
  dsimp only
  cases ht : c.catalog.typeNamed? p.type with
  | none =>
    have hm : p.isMultiple = false := by
      cases hm : p.isMultiple with
      | false => rfl
      | true =>
        obtain ⟨hsome, -⟩ := hrepeated hm
        rw [ht] at hsome
        cases hsome
    have hnull : (fields.get p.name).isNull = true := by
      cases hnull : (fields.get p.name).isNull with
      | true => rfl
      | false =>
        have hsome := htyped ⟨p.qname, fields.get p.name, p.type, p.isNillable⟩
          (by rw [Property.parts, hm]; simp) hnull
        rw [ht] at hsome
        cases hsome
    dsimp only
    rw [if_pos hnull]
    exact quietly_pure trivial
  | some type =>
    have hr := Catalog.typeNamed?_name ht
    dsimp only
    split
    · next hm =>
      obtain ⟨-, items, hitems, hnull⟩ := hrepeated hm
      rw [hitems] at hget ⊢
      have hheight : Value.heightOfItems items + 1 < height := hget
      refine hs.writeItems hr 0 (fun v hv ↦ ?_) hnull fun v hv ↦ ?_
      · have := Value.height_le_of_mem hv
        omega
      · refine hc ⟨p.qname, v, p.type, p.isNillable⟩ ?_ type ht
        rw [Property.parts_of_list hm hitems]
        exact List.mem_map.mpr ⟨v, hv, rfl⟩
    · next hm =>
      split
      · exact quietly_pure trivial
      · apply hs.child p.qname p.isNillable hget hr
        refine hc ⟨p.qname, fields.get p.name, p.type, p.isNillable⟩ ?_ type ht
        rw [Property.parts_of_single fields (by simpa using hm)]
        exact List.mem_singleton.mpr rfl

/-- A value that fits a type which is no plain text is no problem. -/
theorem Writes.write {height : Nat} {s : WriteSession} (hs : c.Writes height s)
    {type : BindingType} {value : Value} (hf : c.Fits type value) (hsimple : type.isSimple = false)
    (hv : value.height ≤ height) : Drafting.Quietly (type.write s value) fun _ ↦ True := by
  obtain ⟨name, kind⟩ := type
  cases hf with
  | text layout =>
    cases layout
    cases hsimple
  | @struct _ base properties fields layout only unset attributes repeated typed elements =>
    cases layout
    have hheight : Value.heightOfFields fields + 1 ≤ height := hv
    refine quietly_bind (quietly_forM fun p hp ↦ ?_) fun _ _ ↦ quietly_forM fun p hp ↦ ?_
    · obtain ⟨hp, ha⟩ := List.mem_filter.mp hp
      exact hs.writeAttribute (attributes p hp ha)
    · obtain ⟨hp, ha⟩ := List.mem_filter.mp hp
      have ha' : p.isAttribute = false := by simpa using ha
      exact hs.writeElement (by omega) (repeated p hp ha') (typed p hp ha') (elements p hp ha')
  | @list _ item itemElement items layout typed values =>
    cases layout
    have hheight : Value.heightOfItems items + 1 ≤ height := hv
    change Drafting.Quietly (BindingType.writeList s name item itemElement (.list items)) _
    rw [BindingType.writeList, hs.catalog]
    cases ht : c.catalog.typeNamed? item with
    | none =>
      cases items with
      | nil => exact quietly_pure trivial
      | cons v rest =>
        have hsome := typed v List.mem_cons_self
        rw [ht] at hsome
        cases hsome
    | some type =>
      apply quietly_forM
      intro v hv
      have hle := Value.height_le_of_mem hv
      exact hs.child itemElement true (by omega) (Catalog.typeNamed?_name ht) (values v hv type ht)

/-- Filling an element with a value that fits its type is no problem. -/
private theorem Writes.fill {height : Nat} {s : WriteSession} (hs : c.Writes height s)
    {type : BindingType} {value : Value} (hf : c.Fits type value) (hv : value.height ≤ height)
    (isRoot : Bool) (name : QName) :
    Drafting.Quietly (Context.fill ⟨type.isSimple, type.print, type.write s⟩ isRoot name value)
      fun _ ↦ True := by
  unfold Context.fill
  dsimp only
  cases hsimple : type.isSimple with
  | false =>
    rw [if_neg (by decide)]
    exact quietly_bind (hs.write hf hsimple hv) fun _ _ ↦ quietly_pure trivial
  | true =>
    rw [if_pos rfl]
    apply quietly_bind (hf.quietly_print hsimple)
    intro r hr
    obtain ⟨text, rfl⟩ := hr
    exact quietly_bind (quietly_characters text) fun _ _ ↦ quietly_pure trivial

/-- Marking an element with a type is no problem. -/
theorem quietly_markType (type : BindingType) :
    Drafting.Quietly (markType type) fun _ ↦ True := by
  unfold markType
  have hname : Drafting.Quietly (Drafting.lexicalName type.name.schema) fun _ ↦ True :=
    quietly_bind (quietly_prefixFor _) fun _ _ ↦ quietly_pure trivial
  exact quietly_bind hname fun _ _ ↦ quietly_addAttribute _ _

/-- Making the element of a value that conforms and is not null is no problem, if child elements are
none. -/
private theorem IsGenerated.quiet_valueElement (hc : c.IsGenerated)
    (hi : c.identify = Value.nativeId?)
    {strict : Bool} {height : Nat} {child : QName → Value → BindingType → Bool → Drafting Unit}
    (hs : ∀ n, c.Writes height (c.writeSession strict child (n + 1))) {outer : NamespaceScope}
    {position : Position} {name : QName} {value : Value} {declared : BindingType}
    (hnull : value.isNull = false) (hv : value.height ≤ height)
    (ht : c.catalog.typeNamed? declared.name = some declared) (hf : c.Conforms declared value) :
    Quiet (c.valueElement (c.writeSession strict child c.maxHandovers) outer position name value
      declared) := by
  obtain ⟨effective, he, hfits, -⟩ := hf.effective hi hnull
  obtain ⟨n, hmax⟩ := c.maxHandovers_eq
  unfold valueElement
  rw [he, hmax]
  dsimp only
  rw [hc.writer?, typeNamed?_of_effectiveType ht he]
  have hfill := (hs n).fill hfits hv position.isRoot name
  apply quiet_build
  split
  · exact quietly_bind (quietly_markType _) fun _ _ ↦ hfill
  · exact hfill

/-- Making the element of a conforming value is no problem. The induction is on the depth that is
left to the engine, which exceeds the height of the value. -/
theorem IsGenerated.quiet_element (hc : c.IsGenerated) (hi : c.identify = Value.nativeId?)
    {strict : Bool} {depth : Nat} {outer : NamespaceScope} {position : Position} {name : QName}
    {value : Value} {declared : BindingType} (hv : value.height < depth)
    (ht : c.catalog.typeNamed? declared.name = some declared) (hf : c.Conforms declared value) :
    Quiet (c.element strict depth outer position name value declared) := by
  induction depth generalizing outer position name value declared with
  | zero => omega
  | succ depth ih =>
    unfold element
    split
    · split
      · exact quiet_build (quietly_bind (quietly_addAttribute _ _) fun _ _ ↦ quietly_pure trivial)
      · exact fun log ↦ ⟨_, log, XmlBinding.gives_pure.mpr ⟨rfl, rfl⟩, rfl⟩
    · next hnull =>
      refine hc.quiet_valueElement hi (fun n ↦ ?_) (by simpa using hnull) (Nat.le_of_lt_succ hv)
        ht hf
      refine ⟨rfl, fun type ht ↦ ⟨_, by rw [hc.writer?, ht]; rfl⟩, ?_⟩
      intro name value type nillable hv ht hconf
      apply quietly_bind quietly_getDraft
      intro draft _
      apply quietly_bind (quietly_lift (ih hv ht hconf))
      intro out _
      cases out with
      | none => exact quietly_pure trivial
      | some tree => exact quietly_modifyDraft _

end Context

end XmlBinding

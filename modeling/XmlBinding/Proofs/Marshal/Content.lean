import Mathlib.Data.List.ReduceOption
import XmlBinding.Proofs.Marshal.Rendering
import XmlBinding.Proofs.Value

/-!
# What converters put into an element

A generated converter fills the element at hand with the attributes, the text and the elements that
the value asks for, provided that the child elements of the session do what a child element should
(`Context.Serves`). What has no element is left out for a reason.
-/

namespace XmlBinding

/-! ### Texts -/

/-- A type without a text refuses every value. -/
theorem BindingType.refuses_of_codec?_eq_none {t : BindingType} (h : t.codec? = none)
    (value : Value) : t.Refuses value := by
  intro codec hc
  rw [h] at hc
  cases hc

/-- A text goes on showing its value when more is declared. -/
theorem BindingType.Shows.mono {t : BindingType} {s s' : NamespaceScope} {value : Value}
    {text : String} (h : t.Shows s value text) (hs : s'.Clear)
    (hss : ∀ e ∈ s.declarations, e ∈ s'.declarations) : t.Shows s' value text := by
  obtain ⟨codec, hc, hshow⟩ := h
  exact ⟨codec, hc, hshow.mono hs hss⟩

/-- What a type prints shows the value, or the type refuses the value. -/
theorem BindingType.print_grows {t : BindingType} {value : Value} {d d' : Draft}
    {log log' : WriteLog} (hd : d.scope.Clear) {r : Except ConversionError String}
    (h : Drafting.Gives (t.print value) d log r d' log') :
    d.Grows [] d' ∧
      match r with
      | .ok text => t.Shows d'.scope value text
      | .error _ => t.Refuses value := by
  unfold BindingType.print at h
  cases hk : t.kind with
  | builtin space =>
    have hcodec : t.codec? = some (t.name.codec space) := by rw [codec?, hk]
    rw [hk] at h
    obtain ⟨hgrow, -, hr⟩ := Codec.printText_grows hd h
    refine ⟨hgrow, ?_⟩
    cases r with
    | ok text => exact ⟨_, hcodec, hr⟩
    | error cause =>
      intro codec hc
      rw [hcodec] at hc
      cases hc
      exact ⟨cause, hr⟩
  | byName base properties =>
    rw [hk, Drafting.gives_pure] at h
    obtain ⟨rfl, rfl, rfl⟩ := h
    exact ⟨.refl hd, refuses_of_codec?_eq_none (by rw [codec?, hk]) value⟩
  | list item itemElement =>
    rw [hk, Drafting.gives_pure] at h
    obtain ⟨rfl, rfl, rfl⟩ := h
    exact ⟨.refl hd, refuses_of_codec?_eq_none (by rw [codec?, hk]) value⟩
  | polymorphic base subtypes =>
    rw [hk, Drafting.gives_pure] at h
    obtain ⟨rfl, rfl, rfl⟩ := h
    exact ⟨.refl hd, refuses_of_codec?_eq_none (by rw [codec?, hk]) value⟩

private theorem BindingType.codec?_eq_none_of_not_isSimple {t : BindingType}
    (h : t.isSimple = false) : t.codec? = none := by
  unfold codec?
  unfold isSimple at h
  cases hk : t.kind with
  | builtin space => rw [hk] at h; cases h
  | byName base properties => rfl
  | list item itemElement => rfl
  | polymorphic base subtypes => rfl

namespace Context

variable {c : Context} {d d₁ d' : Draft} {log log' : WriteLog}

/-! ### Sessions -/

/-- A draft has received the elements of some parts at the end of its content, and nothing else. -/
def Receives (c : Context) (d : Draft) (parts : List Part) (d' : Draft) : Prop :=
  ∃ children : List (Part × Option Tree), children.map Prod.fst = parts ∧
    d' = { d with content := d.content ++ (children.map Prod.snd).reduceOption } ∧
    (∀ child ∈ children, child.2 = none → c.Omits child.1) ∧
    ∀ child ∈ children, ∀ tree, child.2 = some tree →
      ∃ type, c.catalog.typeNamed? child.1.declared = some type ∧
        c.Renders (.child child.1.isNillable) d.scope child.1.name child.1.value type tree

/-- What a session offers is what the context has: its types, their printed texts, and child
elements that render values below a height. -/
structure Serves (c : Context) (height : Nat) (s : WriteSession) : Prop where
  catalog : s.catalog = c.catalog
  writer (type : BindingType) (h : c.catalog.typeNamed? type.name = some type) :
    ∃ content, s.writer? type.name = some ⟨type.isSimple, type.print, content⟩
  child {name : QName} {value : Value} {type : BindingType} {nillable : Bool} {d d' : Draft}
    {log log' : WriteLog} (hd : d.scope.Clear) (hv : value.height < height)
    (ht : c.catalog.typeNamed? type.name = some type)
    (h : Drafting.Gives (s.child name value type nillable) d log () d' log') :
    c.Receives d [⟨name, value, type.name, nillable⟩] d'

namespace Receives

/-- No part is received by doing nothing. -/
theorem nil : c.Receives d [] d := ⟨[], rfl, by simp [List.reduceOption_nil], by simp, by simp⟩

/-- A part without an element is received by doing nothing. -/
theorem omitted {part : Part} (h : c.Omits part) : c.Receives d [part] d :=
  ⟨[(part, none)], rfl, by simp, by simpa using h, by simp⟩

/-- The scope stays as it is. -/
theorem scope {parts : List Part} (h : c.Receives d parts d') : d'.scope = d.scope := by
  obtain ⟨children, -, rfl, -⟩ := h
  rfl

/-- Parts may be received one after the other. -/
theorem append {ps qs : List Part} (h : c.Receives d ps d₁) (h' : c.Receives d₁ qs d') :
    c.Receives d (ps ++ qs) d' := by
  obtain ⟨xs, rfl, rfl, hom, hren⟩ := h
  obtain ⟨ys, rfl, rfl, hom', hren'⟩ := h'
  refine ⟨xs ++ ys, by simp, ?_, ?_, ?_⟩
  · rw [List.map_append, List.reduceOption_append, List.append_assoc]
  · intro child hc
    cases List.mem_append.mp hc with
    | inl hx => exact hom child hx
    | inr hy => exact hom' child hy
  · intro child hc
    cases List.mem_append.mp hc with
    | inl hx => exact hren child hx
    | inr hy => exact hren' child hy

end Receives

/-! ### Content -/

/-- A child element whose declared type is given by name is received as a part. -/
theorem Serves.child_part {height : Nat} {s : WriteSession} (hs : c.Serves height s)
    (part : Part) {type : BindingType} (hd : d.scope.Clear) (hv : part.value.height < height)
    (ht : c.catalog.typeNamed? part.declared = some type)
    (h : Drafting.Gives (s.child part.name part.value type part.isNillable) d log () d' log') :
    c.Receives d [part] d' := by
  have hn := Catalog.name_of_typeNamed? ht
  have hreceived := hs.child hd hv (Catalog.typeNamed?_name ht) h
  rw [hn] at hreceived
  exact hreceived

/-- A part without a type has no element. -/
theorem omits_of_unresolved {part : Part} (h : c.catalog.typeNamed? part.declared = none) :
    c.Omits part := by
  intro declared ht
  rw [h] at ht
  cases ht

/-- A null has no element where nulls are not written. -/
theorem omits_null {part : Part} (hv : part.value.isNull = true) (hn : part.isNillable = false) :
    c.Omits part := by
  intro declared _
  rw [if_pos hv]
  exact hn

/-- Parts without elements are received by doing nothing. -/
theorem Receives.none {parts : List Part} (h : ∀ part ∈ parts, c.Omits part) :
    c.Receives d parts d := by
  induction parts with
  | nil => exact .nil
  | cons part parts ih =>
    have hfirst : c.Receives d [part] d := .omitted (h part List.mem_cons_self)
    exact hfirst.append (ih fun q hq ↦ h q (List.mem_cons_of_mem _ hq))

/-- Meeting a name without a type leaves the draft as it is. -/
theorem draft_of_unresolved {s : WriteSession} {name : BindingName}
    (h : Drafting.Gives (s.unresolved name) d log () d' log') : d' = d := by
  unfold WriteSession.unresolved at h
  split at h
  · exact absurd h Drafting.not_gives_throw
  · exact (Drafting.gives_report.mp h).1

private theorem Serves.writeItems {height : Nat} {s : WriteSession} (hs : c.Serves height s)
    {p : Property} {type : BindingType} (ht : c.catalog.typeNamed? p.type = some type)
    {items : List Value} {index : Nat} (hd : d.scope.Clear)
    (hv : ∀ v ∈ items, v.height < height)
    (h : Drafting.Gives (p.writeItems s type index items) d log () d' log') :
    c.Receives d (items.map fun v ↦ ⟨p.qname, v, p.type, p.isNillable⟩) d' := by
  induction items generalizing index d log with
  | nil =>
    rw [Property.writeItems, Drafting.gives_pure] at h
    obtain ⟨-, rfl, rfl⟩ := h
    exact .nil
  | cons v rest ih =>
    have hstep : ∃ d₁ log₁, c.Receives d [⟨p.qname, v, p.type, p.isNillable⟩] d₁ ∧
        Drafting.Gives (p.writeItems s type (index + 1) rest) d₁ log₁ () d' log' := by
      rw [Property.writeItems] at h
      split at h
      · next hnull =>
        obtain ⟨hnull, hnil⟩ := hnull
        obtain ⟨⟨⟩, d₁, log₁, hfirst, hrest⟩ := Drafting.gives_bind.mp h
        obtain ⟨rfl, -⟩ := Drafting.gives_report.mp hfirst
        exact ⟨d₁, log₁, .omitted (omits_null hnull (by simpa using hnil)), hrest⟩
      · obtain ⟨⟨⟩, d₁, log₁, hfirst, hrest⟩ := Drafting.gives_bind.mp h
        exact ⟨d₁, log₁, hs.child_part ⟨p.qname, v, p.type, p.isNillable⟩ hd
          (hv v List.mem_cons_self) ht hfirst, hrest⟩
    obtain ⟨d₁, log₁, hone, hrest⟩ := hstep
    exact hone.append (ih (by rw [hone.scope]; exact hd)
      (fun w hw ↦ hv w (List.mem_cons_of_mem _ hw)) hrest)

private theorem Serves.writeElement {height : Nat} {s : WriteSession} (hs : c.Serves height s)
    {p : Property} {fields : Fields} (hd : d.scope.Clear)
    (hv : Value.heightOfFields fields < height)
    (h : Drafting.Gives (p.writeElement s fields) d log () d' log') :
    c.Receives d (p.parts fields) d' := by
  have hget : (fields.get p.name).height < height :=
    Nat.lt_of_le_of_lt (Value.height_get_le fields p.name) hv
  unfold Property.writeElement at h
  rw [hs.catalog] at h
  dsimp only at h
  cases ht : c.catalog.typeNamed? p.type with
  | none =>
    have homit : ∀ part ∈ p.parts fields, c.Omits part := by
      intro part hp
      have hdecl : part.declared = p.type := by
        unfold Property.parts at hp
        split at hp
        · split at hp
          · obtain ⟨v, -, rfl⟩ := List.mem_map.mp hp
            rfl
          · cases hp
        · rw [List.mem_singleton] at hp
          rw [hp]
      exact omits_of_unresolved (by rw [hdecl, ht])
    have hsame : d' = d := by
      rw [ht] at h
      dsimp only at h
      split at h
      · exact (Drafting.gives_pure.mp h).2.1
      · exact draft_of_unresolved h
    rw [hsame]
    exact .none homit
  | some type =>
    rw [ht] at h
    dsimp only at h
    unfold Property.parts
    split at h
    · next hm =>
      rw [if_pos hm]
      cases hval : fields.get p.name with
      | null =>
        rw [hval] at h
        obtain ⟨-, rfl, rfl⟩ := Drafting.gives_pure.mp h
        exact .nil
      | scalar x =>
        rw [hval] at h
        obtain ⟨rfl, -⟩ := Drafting.gives_report.mp h
        exact .nil
      | struct native fs =>
        rw [hval] at h
        obtain ⟨rfl, -⟩ := Drafting.gives_report.mp h
        exact .nil
      | list items =>
        rw [hval] at h hget
        have hitems : Value.heightOfItems items + 1 < height := hget
        refine hs.writeItems ht hd (fun v hv ↦ ?_) h
        have := Value.height_le_of_mem hv
        omega
    · next hm =>
      rw [if_neg hm]
      split at h
      · next hnull =>
        obtain ⟨hnull, hnil⟩ := hnull
        obtain ⟨-, rfl, rfl⟩ := Drafting.gives_pure.mp h
        exact .omitted (omits_null hnull (by simpa using hnil))
      · exact hs.child_part ⟨p.qname, fields.get p.name, p.type, p.isNillable⟩ hd hget ht
          h

private theorem Serves.writeElements {height : Nat} {s : WriteSession} (hs : c.Serves height s)
    {properties : List Property} {fields : Fields} (hd : d.scope.Clear)
    (hv : Value.heightOfFields fields < height)
    (h : Drafting.Gives (properties.forM (Property.writeElement s fields)) d log () d' log') :
    c.Receives d (properties.flatMap (Property.parts fields)) d' := by
  induction properties generalizing d log with
  | nil =>
    obtain ⟨rfl, -⟩ := Drafting.gives_forM_nil.mp h
    exact .nil
  | cons p rest ih =>
    obtain ⟨d₁, log₁, hfirst, hrest⟩ := Drafting.gives_forM_cons.mp h
    have hone := hs.writeElement hd hv hfirst
    exact hone.append (ih (by rw [hone.scope]; exact hd) hrest)

private theorem Serves.writeChildren {height : Nat} {s : WriteSession} (hs : c.Serves height s)
    {item : BindingName} {itemElement : QName} {type : BindingType}
    (ht : c.catalog.typeNamed? item = some type) {items : List Value} (hd : d.scope.Clear)
    (hv : ∀ v ∈ items, v.height < height)
    (h : Drafting.Gives (items.forM fun v ↦ s.child itemElement v type true) d log () d' log') :
    c.Receives d (items.map fun v ↦ ⟨itemElement, v, item, true⟩) d' := by
  induction items generalizing d log with
  | nil =>
    obtain ⟨rfl, -⟩ := Drafting.gives_forM_nil.mp h
    exact .nil
  | cons v rest ih =>
    obtain ⟨d₁, log₁, hfirst, hrest⟩ := Drafting.gives_forM_cons.mp h
    have hone := hs.child_part ⟨itemElement, v, item, true⟩ hd
      (hv v List.mem_cons_self) ht hfirst
    exact hone.append (ih (by rw [hone.scope]; exact hd)
      (fun w hw ↦ hv w (List.mem_cons_of_mem _ hw)) hrest)

/-! ### Attributes -/

private theorem ShowsAttribute.mono {s s' : NamespaceScope} {asked : Property × Value}
    {out : Option Attribute} (h : c.ShowsAttribute s asked out) (hs : s'.Clear)
    (hss : ∀ e ∈ s.declarations, e ∈ s'.declarations) : c.ShowsAttribute s' asked out := by
  cases out with
  | none => exact h
  | some a =>
    obtain ⟨hnull, hname, type, ht, hshow⟩ := h
    exact ⟨hnull, hname, type, ht, hshow.mono hs hss⟩

/-- A property that is an attribute is written with its text, or left out. -/
private theorem Serves.writeAttribute {height : Nat} {s : WriteSession} (hs : c.Serves height s)
    {p : Property} {fields : Fields} (hd : d.scope.Clear)
    (h : Drafting.Gives (p.writeAttribute s fields) d log () d' log') :
    ∃ out, d.Grows out.toList d' ∧ c.ShowsAttribute d'.scope (p, fields.get p.name) out := by
  unfold Property.writeAttribute at h
  dsimp only at h
  split at h
  · next hnull =>
    obtain ⟨-, rfl, rfl⟩ := Drafting.gives_pure.mp h
    exact ⟨none, .refl hd, .inl hnull⟩
  · next hnull =>
    rw [hs.catalog] at h
    cases ht : c.catalog.typeNamed? p.type with
    | none =>
      rw [ht] at h
      rw [draft_of_unresolved h]
      refine ⟨none, .refl hd, .inr fun type ht' ↦ ?_⟩
      rw [ht] at ht'
      cases ht'
    | some type =>
      obtain ⟨content, hw⟩ := hs.writer type (Catalog.typeNamed?_name ht)
      have hrefused (hr : type.Refuses (fields.get p.name)) :
          c.ShowsAttribute d'.scope (p, fields.get p.name) none := by
        refine .inr fun type' ht' ↦ ?_
        rw [ht] at ht'
        cases ht'
        exact hr
      rw [ht] at h
      dsimp only at h
      rw [hw] at h
      dsimp only at h
      split at h
      · next hsimple =>
        obtain ⟨rfl, -⟩ := Drafting.gives_report.mp h
        have hc := BindingType.codec?_eq_none_of_not_isSimple (by simpa using hsimple)
        exact ⟨none, .refl hd, hrefused (BindingType.refuses_of_codec?_eq_none hc _)⟩
      · obtain ⟨r, d₁, log₁, hprint, h⟩ := Drafting.gives_bind.mp h
        obtain ⟨hgrow, hr⟩ := BindingType.print_grows hd hprint
        cases r with
        | error cause =>
          obtain ⟨rfl, -⟩ := Drafting.gives_report.mp h
          exact ⟨none, hgrow, hrefused hr⟩
        | ok text =>
          obtain ⟨hadd, -⟩ := Drafting.addAttribute_grows hgrow.clear h
          refine ⟨some ⟨p.qname, text⟩, hgrow.trans hadd, by simpa using hnull, rfl, type, ht, ?_⟩
          exact hr.mono hadd.clear hadd.declared

private theorem Serves.writeAttributes {height : Nat} {s : WriteSession} (hs : c.Serves height s)
    {properties : List Property} {fields : Fields} (hd : d.scope.Clear)
    (h : Drafting.Gives (properties.forM (Property.writeAttribute s fields)) d log () d' log') :
    ∃ shown : List ((Property × Value) × Option Attribute),
      shown.map Prod.fst = properties.map (fun p ↦ (p, fields.get p.name)) ∧
      d.Grows (shown.map Prod.snd).reduceOption d' ∧
      ∀ a ∈ shown, c.ShowsAttribute d'.scope a.1 a.2 := by
  induction properties generalizing d log with
  | nil =>
    obtain ⟨rfl, -⟩ := Drafting.gives_forM_nil.mp h
    exact ⟨[], rfl, .refl hd, by simp⟩
  | cons p rest ih =>
    obtain ⟨d₁, log₁, hfirst, hrest⟩ := Drafting.gives_forM_cons.mp h
    obtain ⟨out, hgrow, hshow⟩ := hs.writeAttribute hd hfirst
    obtain ⟨shown, hasked, hgrow', hshow'⟩ := ih hgrow.clear hrest
    refine ⟨((p, fields.get p.name), out) :: shown, by rw [List.map_cons, hasked]; rfl, ?_, ?_⟩
    · have happend : out.toList ++ (shown.map Prod.snd).reduceOption =
          ((((p, fields.get p.name), out) :: shown).map Prod.snd).reduceOption := by
        cases out <;> simp [List.reduceOption_cons_of_some, List.reduceOption_cons_of_none]
      rw [← happend]
      exact hgrow.trans hgrow'
    · exact List.forall_mem_cons.mpr ⟨hshow.mono hgrow'.clear hgrow'.declared, hshow'⟩

/-! ### Values -/

/-- A draft has received everything that an element shows of a value, apart from its mark. -/
def Fills (c : Context) (isRoot : Bool) (t : BindingType) (value : Value) (d d' : Draft) : Prop :=
  ∃ (shown : List ((Property × Value) × Option Attribute)) (texts : List Tree) (d₁ : Draft),
    shown.map Prod.fst = t.attributeValues value ∧
    d.Grows (shown.map Prod.snd).reduceOption d₁ ∧
    (∀ a ∈ shown, c.ShowsAttribute d₁.scope a.1 a.2) ∧
    ShowsText d₁.scope isRoot t value texts ∧
    c.Receives { d₁ with content := d₁.content ++ texts } (t.parts value) d'

private theorem parts_of_isSimple {t : BindingType} (h : t.isSimple = true) (value : Value) :
    t.parts value = [] ∧ t.attributeValues value = [] := by
  unfold BindingType.isSimple at h
  unfold BindingType.parts BindingType.attributeValues
  cases hk : t.kind with
  | builtin space => exact ⟨rfl, rfl⟩
  | byName base properties => rw [hk] at h; cases h
  | list item itemElement => rw [hk] at h; cases h
  | polymorphic base subtypes => exact ⟨rfl, rfl⟩

/-- A value that asks for nothing is filled in by doing nothing. -/
theorem Fills.nothing {t : BindingType} {value : Value} (isRoot : Bool) (hd : d.scope.Clear)
    (hsimple : t.isSimple = false) (hp : t.parts value = []) (ha : t.attributeValues value = []) :
    c.Fills isRoot t value d d := by
  refine ⟨[], [], d, ha.symm, .refl hd, by simp, by rw [ShowsText, hsimple]; rfl, ?_⟩
  rw [hp, List.append_nil]
  exact .nil

private theorem Serves.writeStructure {height : Nat} {s : WriteSession} (hs : c.Serves height s)
    {name : BindingName} (base : Option BindingName) {properties : List Property} {value : Value}
    (isRoot : Bool) (hd : d.scope.Clear) (hv : value.height ≤ height)
    (h : Drafting.Gives (BindingType.writeStructure s name properties value) d log () d' log') :
    c.Fills isRoot ⟨name, .byName base properties⟩ value d d' := by
  cases value with
  | struct native fields =>
    have hf : Value.heightOfFields fields + 1 ≤ height := hv
    rw [BindingType.writeStructure] at h
    obtain ⟨⟨⟩, d₁, log₁, hattributes, helements⟩ := Drafting.gives_bind.mp h
    obtain ⟨shown, hshown, hgrow, hshow⟩ := hs.writeAttributes hd hattributes
    refine ⟨shown, [], d₁, hshown, hgrow, hshow, rfl, ?_⟩
    rw [List.append_nil]
    exact hs.writeElements hgrow.clear (by omega) helements
  | null =>
    rw [(Drafting.gives_report.mp h).1]
    exact .nothing isRoot hd rfl rfl rfl
  | scalar x =>
    rw [(Drafting.gives_report.mp h).1]
    exact .nothing isRoot hd rfl rfl rfl
  | list items =>
    rw [(Drafting.gives_report.mp h).1]
    exact .nothing isRoot hd rfl rfl rfl

private theorem Serves.writeList {height : Nat} {s : WriteSession} (hs : c.Serves height s)
    {name item : BindingName} {itemElement : QName} {value : Value} (isRoot : Bool)
    (hd : d.scope.Clear) (hv : value.height ≤ height)
    (h : Drafting.Gives (BindingType.writeList s name item itemElement value) d log () d' log') :
    c.Fills isRoot ⟨name, .list item itemElement⟩ value d d' := by
  cases value with
  | list items =>
    have hi : Value.heightOfItems items + 1 ≤ height := hv
    rw [BindingType.writeList, hs.catalog] at h
    refine ⟨[], [], d, rfl, .refl hd, by simp, rfl, ?_⟩
    rw [List.append_nil]
    cases ht : c.catalog.typeNamed? item with
    | none =>
      have hsame : d' = d := by
        rw [ht] at h
        dsimp only at h
        split at h
        · exact (Drafting.gives_pure.mp h).2.1
        · exact draft_of_unresolved h
      rw [hsame]
      refine .none fun part hp ↦ ?_
      obtain ⟨v, -, rfl⟩ := List.mem_map.mp hp
      exact omits_of_unresolved ht
    | some type =>
      rw [ht] at h
      refine hs.writeChildren ht hd (fun v hv ↦ ?_) h
      have := Value.height_le_of_mem hv
      omega
  | null =>
    rw [(Drafting.gives_report.mp h).1]
    exact .nothing isRoot hd rfl rfl rfl
  | scalar x =>
    rw [(Drafting.gives_report.mp h).1]
    exact .nothing isRoot hd rfl rfl rfl
  | struct native fields =>
    rw [(Drafting.gives_report.mp h).1]
    exact .nothing isRoot hd rfl rfl rfl

/-- A value of a type that is no plain text is filled in by the type's own layout. -/
theorem Serves.write {height : Nat} {s : WriteSession} (hs : c.Serves height s) {t : BindingType}
    {value : Value} (isRoot : Bool) (hsimple : t.isSimple = false) (hd : d.scope.Clear)
    (hv : value.height ≤ height) (h : Drafting.Gives (t.write s value) d log () d' log') :
    c.Fills isRoot t value d d' := by
  obtain ⟨name, kind⟩ := t
  cases kind with
  | builtin space => cases hsimple
  | byName base properties => exact hs.writeStructure base isRoot hd hv h
  | list item itemElement => exact hs.writeList isRoot hd hv h
  | polymorphic base subtypes => cases hsimple

/-- Filling an element either fills everything in, or gives up on a child without a text. -/
theorem Serves.fill {height : Nat} {s : WriteSession} (hs : c.Serves height s) {t : BindingType}
    {value : Value} {isRoot kept : Bool} {name : QName} (hd : d.scope.Clear)
    (hv : value.height ≤ height)
    (h : Drafting.Gives (Context.fill ⟨t.isSimple, t.print, t.write s⟩ isRoot name value) d log
      kept d' log') :
    if kept then c.Fills isRoot t value d d'
    else isRoot = false ∧ t.isSimple = true ∧ t.Refuses value := by
  unfold Context.fill at h
  dsimp only at h
  cases hsimple : t.isSimple with
  | false =>
    rw [if_neg (by rw [hsimple]; decide)] at h
    obtain ⟨⟨⟩, d₁, log₁, hwrite, h⟩ := Drafting.gives_bind.mp h
    obtain ⟨rfl, rfl, rfl⟩ := Drafting.gives_pure.mp h
    exact hs.write isRoot hsimple hd hv hwrite
  | true =>
    obtain ⟨hparts, hasked⟩ := parts_of_isSimple hsimple value
    rw [if_pos hsimple] at h
    obtain ⟨r, d₁, log₁, hprint, h⟩ := Drafting.gives_bind.mp h
    obtain ⟨hgrow, hr⟩ := BindingType.print_grows hd hprint
    -- Whatever stands for the text, there is nothing before and nothing behind it.
    have hfills (texts : List Tree) (ht : ShowsText d₁.scope isRoot t value texts) :
        c.Fills isRoot t value d { d₁ with content := d₁.content ++ texts } := by
      refine ⟨[], texts, d₁, hasked.symm, hgrow, by simp, ht, ?_⟩
      rw [hparts]
      exact .nil
    cases r with
    | ok text =>
      obtain ⟨⟨⟩, d₂, log₂, hchars, h⟩ := Drafting.gives_bind.mp h
      obtain ⟨rfl, rfl, rfl⟩ := Drafting.gives_pure.mp h
      obtain ⟨rfl, -⟩ := Drafting.gives_characters.mp hchars
      have hfilled := hfills (if text = "" then [] else [.text text]) (by
        rw [ShowsText, if_pos hsimple]
        exact .inl ⟨text, hr, rfl⟩)
      split at hfilled
      · next he =>
        rw [List.append_nil] at hfilled
        rw [if_pos he]
        exact hfilled
      · next he =>
        rw [if_neg he]
        exact hfilled
    | error cause =>
      obtain ⟨⟨⟩, d₂, log₂, hreport, h⟩ := Drafting.gives_bind.mp h
      obtain ⟨rfl, rfl, rfl⟩ := Drafting.gives_pure.mp h
      obtain ⟨rfl, -⟩ := Drafting.gives_report.mp hreport
      cases kept with
      | false => exact ⟨rfl, rfl, hr⟩
      | true =>
        have hfilled := hfills [] (by
          rw [ShowsText, if_pos hsimple]
          exact .inr ⟨rfl, hr, rfl⟩)
        rw [List.append_nil] at hfilled
        exact hfilled

end Context

end XmlBinding

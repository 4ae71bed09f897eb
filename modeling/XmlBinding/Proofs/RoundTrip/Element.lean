import XmlBinding.Proofs.Marshal.Root
import XmlBinding.Proofs.RoundTrip.Reading
import XmlBinding.Proofs.Unmarshal.Element

/-!
# Elements are read back

An element that renders a conforming value is read back, whatever comes behind it. The marks decide
the type that it is read with, which is the one that it was written with; the content follows by
induction over the element.
-/

namespace XmlBinding

open Reading

namespace Context

variable {c : Context} {e : CurrentElement}

/-! ### Marks -/

private theorem NamesParts.uri_ne (hn : c.NamesParts) {type : BindingType} {value : Value}
    (hr : c.catalog.typeNamed? type.name = some type) {asked : Property × Value}
    (ha : asked ∈ type.attributeValues value) : asked.1.qname.uri ≠ QName.instanceUri := by
  obtain ⟨name, kind⟩ := type
  cases kind with
  | byName base properties =>
    cases value with
    | struct native fields =>
      obtain ⟨p, hp, rfl⟩ := List.mem_map.mp ha
      obtain ⟨hp, hattribute⟩ := List.mem_filter.mp hp
      exact (hn _ _ hr).unmarked p hp hattribute
    | _ => cases ha
  | _ => cases ha

/-- A mark is looked for in vain among the attributes of a value. -/
private theorem Displays.attribute?_mark (hn : c.NamesParts) {isRoot : Bool} {type : BindingType}
    {value : Value} {marks : List Attribute} {shown : List ((Property × Value) × Option Attribute)}
    {texts : List Tree} {children : List (Part × Option Tree)}
    (hd : c.Displays e isRoot type value marks shown texts children)
    (hr : c.catalog.typeNamed? type.name = some type) {name : QName}
    (hname : name.uri = QName.instanceUri) :
    attribute? e.attributes name = attribute? marks name := by
  have hnone : attribute? (shown.map Prod.snd).reduceOption name = none := by
    refine attribute?_eq_none fun a ha he ↦ ?_
    obtain ⟨x, hx, hsome⟩ := List.mem_map.mp (List.reduceOption_mem_iff.mp ha)
    have hshows := hd.showing x hx
    rw [hsome] at hshows
    have hasked : x.1 ∈ type.attributeValues value := by
      rw [← hd.asked]
      exact List.mem_map.mpr ⟨x, hx, rfl⟩
    apply hn.uri_ne hr hasked
    rw [← hshows.2.1, he, hname]
  rw [hd.attributes, attribute?_append, hnone, Option.or_none]

/-- An element is asked for its mark of null. -/
theorem looks_isMarkedNull :
    Looks isMarkedNull e (match attribute? e.attributes .nilMarker with
      | some text => decide (Text.trimmed text = "true" ∨ Text.trimmed text = "1")
      | none => false) := by
  unfold isMarkedNull
  exact (looks_attribute? .nilMarker).bind (looks_pure _)

private theorem looks_markedType?_none (strict : Bool) (declared : Option BindingType)
    (h : attribute? e.attributes .typeMarker = none) :
    Looks (c.markedType? strict declared) e none := by
  refine (looks_attribute? .typeMarker).bind ?_
  rw [h]
  exact looks_pure none

/-- An element names the type that its mark resolves to, if the declared one admits it. -/
private theorem looks_markedType?_some (strict : Bool) {declared type : BindingType} {text : String}
    (h : attribute? e.attributes .typeMarker = some text)
    (hresolve : QName.resolve e.scope.namespaceOf? text = .ok type.name.schema)
    (hschema : c.catalog.typeOfSchema? type.name.schema = some type.name)
    (hr : c.catalog.typeNamed? type.name = some type)
    (ha : c.catalog.admits declared type = true) :
    Looks (c.markedType? strict (some declared)) e (some type) := by
  refine (looks_attribute? .typeMarker).bind ?_
  rw [h]
  apply looks_current.bind
  rw [hresolve]
  dsimp only
  rw [hschema, Option.bind_some, hr]
  dsimp only
  rw [if_pos (.inr ha)]
  exact looks_pure _

private theorem Leads.looks_readType? {session : ReadSession} {declared : BindingType}
    {effective : Effective} (h : c.Leads declared effective)
    (hr : c.catalog.typeNamed? effective.type.name = some effective.type)
    (hpoly : effective.type.isPolymorphic = false) {marks : List Attribute}
    (hmarks : Marks e.scope effective.marked effective.type.name.schema marks)
    (hfound : attribute? e.attributes .typeMarker = attribute? marks .typeMarker) (name : QName) :
    Looks (c.readType? session (some declared) name) e (some effective.type) := by
  unfold Leads at h
  unfold Marks at hmarks
  unfold readType?
  split at h
  · next hm =>
    obtain ⟨hnamed, hschema, hadmits⟩ := h
    rw [if_pos hm] at hmarks
    obtain ⟨text, rfl, hresolve⟩ := hmarks
    rw [attribute?_cons_self] at hfound
    refine (looks_markedType?_some session.strict hfound (hresolve hnamed) hschema hr hadmits).bind
      ?_
    rw [Option.some_or]
    dsimp only
    rw [pure_bind]
    split
    · next hk => exact absurd hk (BindingType.kind_ne_polymorphic hpoly)
    · exact looks_pure _
  · next hm =>
    rw [if_neg hm] at hmarks
    subst hmarks
    refine (looks_markedType?_none session.strict _ hfound).bind ?_
    rw [Option.none_or]
    dsimp only
    rw [pure_bind]
    cases h with
    | inl he =>
      rw [← he]
      split
      · next hk => exact absurd hk (BindingType.kind_ne_polymorphic hpoly)
      · exact looks_pure _
    | inr hbase =>
      obtain ⟨base, subtypes, hk, hbase⟩ := hbase
      rw [hk]
      dsimp only
      rw [hbase]
      exact looks_pure _

/-! ### Elements -/

/-- The parts of a value that fits its type conform to their types. -/
private theorem Fits.conforms_part {type : BindingType} {value : Value} (h : c.Fits type value)
    {part : Part} (hp : part ∈ type.parts value) {t : BindingType}
    (ht : c.catalog.typeNamed? part.declared = some t) : c.Conforms t part.value := by
  obtain ⟨name, kind⟩ := type
  cases h with
  | text layout =>
    cases layout
    cases hp
  | struct layout only unset attributes repeated typed elements =>
    cases layout
    obtain ⟨p, hproperty, hpart⟩ := List.mem_flatMap.mp hp
    obtain ⟨hmem, ha⟩ := List.mem_filter.mp hproperty
    rw [(Property.of_mem_parts hpart).2.1] at ht
    exact elements p hmem (by simpa using ha) part hpart t ht
  | list layout typed values =>
    cases layout
    obtain ⟨v, hv, rfl⟩ := List.mem_map.mp hp
    exact values v hv t ht

private theorem gives_readElement {strict : Bool} {depth : Nat} {outer : NamespaceScope}
    {declared : Option BindingType} {name : QName} {attributes : List Attribute}
    {declarations : List Declaration} {content : List Tree} {value : Value}
    (h : TakesContent (c.readValue
        (c.readSession strict (c.readChild strict depth) c.maxHandovers) declared name)
      ⟨attributes, none, outer.push declarations⟩ (Tree.entriesOfAll content) value)
    (rest : List LocatedEvent) (diagnostics : List Diagnostic) :
    XmlBinding.Gives (c.readElement strict (depth + 1) outer declared)
      ⟨(Tree.element name attributes declarations content).entries ++ rest, diagnostics⟩ value
      ⟨rest, diagnostics⟩ := by
  have hall : (Tree.element name attributes declarations content).entries ++ rest =
      ⟨.opening name attributes declarations, none⟩ ::
        (Tree.entriesOfAll content ++ ⟨.closing name, none⟩ :: rest) := by
    rw [Tree.entries_element, List.cons_append, List.append_assoc]
    rfl
  have hbody : Reading.Gives (do
        let value ← c.readValue
          (c.readSession strict (c.readChild strict depth) c.maxHandovers) declared name
        Reading.leave
        return value)
      ⟨attributes, none, outer.push declarations⟩
      ⟨Tree.entriesOfAll content ++ ⟨.closing name, none⟩ :: rest, diagnostics⟩ value
      ⟨rest, diagnostics⟩ :=
    Reading.gives_bind.mpr ⟨value, _, h name rest diagnostics,
      Reading.gives_bind.mpr ⟨(), _, gives_leave, Reading.gives_pure.mpr ⟨rfl, rfl⟩⟩⟩
  rw [hall]
  unfold readElement
  refine XmlBinding.gives_bind.mpr ⟨(), _, rfl, XmlBinding.gives_bind.mpr ⟨_, _, rfl, ?_⟩⟩
  exact XmlBinding.gives_bind.mpr ⟨(), _, rfl, hbody⟩

private theorem length_events_le {ts : List Tree} {t : Tree} (h : t ∈ ts) :
    t.events.length ≤ (Tree.eventsOfAll ts).length := by
  induction ts with
  | nil => cases h
  | cons u rest ih =>
    rw [Tree.eventsOfAll, List.length_append]
    cases List.mem_cons.mp h with
    | inl he =>
      subst he
      exact Nat.le_add_right _ _
    | inr hm => exact Nat.le_trans (ih hm) (Nat.le_add_left _ _)

/-- The content of an element that renders a conforming value is read back. -/
private theorem IsGenerated.readValue_back (hc : c.IsGenerated) (hi : c.identify = Value.nativeId?)
    (hn : c.NamesParts) {strict : Bool} {depth : Nat} {declared : BindingType} {value : Value}
    {name : QName} {isRoot : Bool} {effective : Effective} {marks : List Attribute}
    {shown : List ((Property × Value) × Option Attribute)} {texts : List Tree}
    {children : List (Part × Option Tree)}
    (hd : c.Displays e isRoot effective.type value marks shown texts children)
    (hr : c.catalog.typeNamed? effective.type.name = some effective.type)
    (hf : c.Fits effective.type value) (leads : c.Leads declared effective)
    (marking : Marks e.scope effective.marked effective.type.name.schema marks)
    (hrest : ∀ n, c.Restores (c.readSession strict (c.readChild strict depth) n) e children) :
    ∃ back, (back == value) = true ∧
      TakesContent (c.readValue
          (c.readSession strict (c.readChild strict depth) c.maxHandovers) (some declared) name)
        e (Tree.entriesOfAll (texts ++ (children.map Prod.snd).reduceOption)) back := by
  obtain ⟨n, hmax⟩ := c.maxHandovers_eq
  have hmarks : ∀ a ∈ marks, a.name = .typeMarker := by
    intro a ha
    unfold Marks at marking
    split at marking
    · obtain ⟨text, rfl, -⟩ := marking
      rw [List.mem_singleton.mp ha]
    · subst marking
      cases ha
  have hnil : attribute? e.attributes .nilMarker = none := by
    rw [hd.attribute?_mark hn hr rfl]
    refine attribute?_eq_none fun a ha ↦ ?_
    rw [hmarks a ha]
    decide
  have hreads : c.Reads (c.readSession strict (c.readChild strict depth) (n + 1)) :=
    ⟨rfl, fun type ht ↦ ⟨_, by rw [hc.reader?, ht]; rfl⟩⟩
  obtain ⟨back, hequal, htakes⟩ := hf.read hi hn hreads hr hd
    (fun a ha ↦ by rw [hmarks a ha]; rfl) (hrest (n + 1))
  refine ⟨back, hequal, ?_⟩
  have hnull : Looks isMarkedNull e false := by
    have hlooks := looks_isMarkedNull (e := e)
    rw [hnil] at hlooks
    exact hlooks
  refine hnull.takesContent ((leads.looks_readType? hr hf.isPolymorphic marking
    (hd.attribute?_mark hn hr rfl) name).takesContent ?_)
  dsimp only
  rw [hmax, hc.reader?, hr]
  exact htakes

/-- An element that renders a conforming value is read back, whatever comes behind it. The induction
is on the element; the depth that is left to reading exceeds its events. -/
theorem IsGenerated.readElement_back (hc : c.IsGenerated) (hi : c.identify = Value.nativeId?)
    (hn : c.NamesParts) {strict : Bool} {depth : Nat} {position : Position} {outer : NamespaceScope}
    {name : QName} {value : Value} {declared : BindingType} {tree : Tree}
    (h : c.Renders position outer name value declared tree)
    (hr : c.catalog.typeNamed? declared.name = some declared) (hm : position.isMarked = false)
    (hf : c.Conforms declared value) (hd : tree.events.length ≤ depth) :
    ∃ back, (back == value) = true ∧ ∀ rest diagnostics,
      XmlBinding.Gives (c.readElement strict depth outer (some declared))
        ⟨tree.entries ++ rest, diagnostics⟩ back ⟨rest, diagnostics⟩ := by
  induction h generalizing depth with
  | @null position outer name declared declarations opens written =>
    rw [Tree.events, List.length_cons] at hd
    obtain ⟨depth, rfl⟩ := Nat.exists_eq_add_one_of_ne_zero (Nat.ne_of_gt (Nat.zero_lt_of_lt hd))
    refine ⟨.null, rfl, gives_readElement ?_⟩
    exact looks_isMarkedNull.takesContent fun _ _ _ ↦ Reading.gives_pure.mpr ⟨rfl, rfl⟩
  | @made position outer name value declared declarations effective marks shown texts children opens
      present chosen marking asked showing content parts omitted resolved rendered ih =>
    rw [Tree.events, List.length_cons, List.length_append] at hd
    obtain ⟨depth, rfl⟩ := Nat.exists_eq_add_one_of_ne_zero (Nat.ne_of_gt (Nat.zero_lt_of_lt hd))
    obtain ⟨effective', chosen', fits, leads⟩ := hf.effective hi present
    cases chosen'.symm.trans chosen
    rw [hm, Bool.or_false] at marking
    have hrest (n : Nat) : c.Restores (c.readSession strict (c.readChild strict depth) n)
        ⟨marks ++ (shown.map Prod.snd).reduceOption, none, outer.push declarations⟩ children := by
      intro x hx
      have hchild := Part.mem_written.mp hx
      obtain ⟨type, ht⟩ := Option.isSome_iff_exists.mp (resolved _ hchild x.2 rfl)
      obtain ⟨attributes, inner, more, htree⟩ := (rendered _ hchild x.2 rfl type ht).eq_element
      have hpart : x.1 ∈ effective.type.parts value := by
        rw [← parts]
        exact List.mem_map.mpr ⟨_, hchild, rfl⟩
      have hlength : x.2.events.length ≤ depth := by
        have hout : some x.2 ∈ children.map Prod.snd := List.mem_map.mpr ⟨_, hchild, rfl⟩
        have hle := length_events_le
          (List.mem_append_right texts (List.reduceOption_mem_iff.mpr hout))
        rw [List.length_singleton] at hd
        omega
      obtain ⟨back, hequal, hgives⟩ := ih _ hchild x.2 rfl type ht (Catalog.typeNamed?_name ht) rfl
        (fits.conforms_part hpart ht) hlength
      refine ⟨type, ht, attributes, inner, more, htree, back, hequal, fun rest diagnostics ↦ ?_⟩
      have hback : Reading.Gives (c.readChild strict depth type)
          ⟨marks ++ (shown.map Prod.snd).reduceOption, none, outer.push declarations⟩
          ⟨x.2.entries ++ rest, diagnostics⟩ back ⟨rest, diagnostics⟩ :=
        Reading.gives_bind.mpr ⟨_, _, rfl, hgives rest diagnostics⟩
      cases n with
      | zero => exact hback
      | succ n => exact hback
    have hback : ∃ back, (back == value) = true ∧
        TakesContent (c.readValue
            (c.readSession strict (c.readChild strict depth) c.maxHandovers) (some declared) name)
          ⟨marks ++ (shown.map Prod.snd).reduceOption, none, outer.push declarations⟩
          (Tree.entriesOfAll (texts ++ (children.map Prod.snd).reduceOption)) back :=
      hc.readValue_back hi hn ⟨rfl, asked, showing, content, parts, omitted⟩
        (typeNamed?_of_effectiveType hr chosen) fits leads marking hrest
    obtain ⟨back, hequal, htakes⟩ := hback
    exact ⟨back, hequal, gives_readElement htakes⟩

end Context

end XmlBinding

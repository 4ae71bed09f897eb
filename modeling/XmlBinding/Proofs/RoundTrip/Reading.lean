import XmlBinding.Proofs.RoundTrip.Fields

/-!
# Conforming values are read back

A generated converter that reads what was written for a conforming value takes just that and returns
an equal value, provided that the child elements do so. As attributes and elements are found by
their names, it does not matter in which order a structure gathers its fields.
-/

namespace XmlBinding

open Reading

namespace Context

variable {c : Context}

private theorem Conforms.not_leavesOut (hi : c.identify = Value.nativeId?) {declared : BindingType}
    {value : Value} (h : c.Conforms declared value) (hnull : value.isNull = false) :
    ¬ c.LeavesOut value declared := by
  obtain ⟨effective, he, hfits, -⟩ := h.effective hi hnull
  intro hl
  rw [LeavesOut, he] at hl
  exact hfits.not_refuses hl.1 hl.2

/-- A part whose value conforms has an element, unless it is a null that is not written. -/
theorem Conforms.not_omits (hi : c.identify = Value.nativeId?) {part : Part} {type : BindingType}
    (ht : c.catalog.typeNamed? part.declared = some type) (h : c.Conforms type part.value)
    (hn : part.value.isNull = true → part.isNillable = true) : ¬ c.Omits part := by
  intro ho
  have ho := ho type ht
  split at ho
  · next hnull =>
    rw [hn hnull] at ho
    cases ho
  · next hnull => exact h.not_leavesOut hi (by simpa using hnull) ho

/-- Of the elements of a property whose values conform, only a null that is no item is left out. -/
private theorem isNull_of_omits (hi : c.identify = Value.nativeId?) {p : Property} {fields : Fields}
    {part : Part} (hpart : part ∈ p.parts fields)
    (hrepeated : p.isMultiple = true → (c.catalog.typeNamed? p.type).isSome = true ∧
      ∃ items, fields.get p.name = .list items ∧ ∀ v ∈ items, v.isNull = true →
        p.isNillable = true)
    (htyped : part.value.isNull = false → (c.catalog.typeNamed? p.type).isSome = true)
    (hconforms : ∀ t, c.catalog.typeNamed? p.type = some t → c.Conforms t part.value)
    (homits : c.Omits part) : p.isMultiple = false ∧ part.value.isNull = true := by
  obtain ⟨-, hdeclared, hnillable⟩ := Property.of_mem_parts hpart
  have hnot (hsome : (c.catalog.typeNamed? p.type).isSome = true)
      (hnull : part.value.isNull = true → p.isNillable = true) : False := by
    obtain ⟨t, ht⟩ := Option.isSome_iff_exists.mp hsome
    refine (hconforms t ht).not_omits hi (hdeclared ▸ ht) ?_ homits
    rw [hnillable]
    exact hnull
  cases hm : p.isMultiple with
  | false =>
    refine ⟨rfl, ?_⟩
    cases hnull : part.value.isNull with
    | true => rfl
    | false =>
      refine (hnot (htyped hnull) fun h ↦ ?_).elim
      rw [hnull] at h
      cases h
  | true =>
    obtain ⟨hsome, items, hitems, hnulls⟩ := hrepeated hm
    refine (hnot hsome fun hnull ↦ ?_).elim
    rw [Property.parts_of_list hm hitems] at hpart
    obtain ⟨v, hv, rfl⟩ := List.mem_map.mp hpart
    exact hnulls v hv hnull

/-- What a session offers is what the context has: its types, and readers of attributes. -/
structure Reads (c : Context) (s : ReadSession) : Prop where
  catalog : s.catalog = c.catalog
  reader (type : BindingType) (h : c.catalog.typeNamed? type.name = some type) :
    ∃ content, s.reader? type.name = some ⟨content, type.readAttribute, type.default⟩

/-- The child elements of the session give back the parts that were written. -/
def Restores (c : Context) (s : ReadSession) (e : CurrentElement)
    (children : List (Part × Option Tree)) : Prop :=
  ∀ x ∈ Part.written children, ∃ type, c.catalog.typeNamed? x.1.declared = some type ∧
    ∃ attributes declarations content, x.2 = .element x.1.name attributes declarations content ∧
      ∃ back, (back == x.1.value) = true ∧ Takes (s.child type) e x.2.entries back

/-! ### Attributes -/

/-- An attribute that is unset without a default or round-trips is read back. -/
private theorem Reads.readAttribute {s : ReadSession} (hs : c.Reads s) {e : CurrentElement}
    {p : Property}
    {v : Value} {out : Option Attribute} (hshown : c.ShowsAttribute e.scope (p, v) out)
    (hfound : attribute? e.attributes p.qname = out.map (·.value))
    (hunset : v.isNull = true → p.default = none)
    (htrip : v.isNull = false → ∃ t space, c.catalog.typeNamed? p.type = some t ∧
      t.kind = .builtin space ∧ (t.name.codec space).RoundTrips v) :
    ∃ r, p.Recovers v r ∧ Looks (p.readAttribute s) e r := by
  have hlook : Looks (Reading.attribute? p.qname) e (out.map (·.value)) := by
    rw [← hfound]
    exact looks_attribute? p.qname
  cases hnull : v.isNull with
  | true =>
    cases out with
    | some a =>
      rw [hshown.1] at hnull
      cases hnull
    | none =>
      refine ⟨none, hnull, hlook.bind ?_⟩
      rw [hunset hnull]
      exact looks_pure none
  | false =>
    obtain ⟨t, space, ht, hk, hrt⟩ := htrip hnull
    have hcodec : t.codec? = some (t.name.codec space) := by rw [BindingType.codec?, hk]
    cases out with
    | none =>
      exfalso
      cases hshown with
      | inl hv =>
        rw [hv] at hnull
        cases hnull
      | inr hr =>
        obtain ⟨cause, hcause⟩ := hr t ht _ hcodec
        obtain ⟨printed, hp, -⟩ := hrt
        rw [hcause] at hp
        cases hp
    | some a =>
      obtain ⟨-, -, t', ht', codec, hcodec', hshows⟩ := hshown
      cases ht.symm.trans ht'
      cases hcodec.symm.trans hcodec'
      obtain ⟨scalar, hread, hequal⟩ := hrt.read hshows
      obtain ⟨content, hreader⟩ := hs.reader t (Catalog.typeNamed?_name ht)
      refine ⟨some (p.name, .scalar scalar), ⟨rfl, hequal⟩, hlook.bind ?_⟩
      rw [hs.catalog, ht]
      dsimp only [Option.map_some, Option.some_or]
      rw [hreader]
      dsimp only
      have htext : Looks (t.readAttribute a.value) e (.ok (.scalar scalar)) := by
        unfold BindingType.readAttribute
        rw [hk]
        apply looks_current.bind
        rw [hread]
        exact looks_pure _
      exact htext.bind (looks_pure _)

/-- The attributes of a structure are read back, each for its own property. -/
private theorem Reads.readAttributes {s : ReadSession} (hs : c.Reads s) {e : CurrentElement}
    {attributes : List Property} {fields : Fields} {marks : List Attribute}
    {shown : List ((Property × Value) × Option Attribute)}
    (he : e.attributes = marks ++ (shown.map Prod.snd).reduceOption)
    (hmarks : ∀ a ∈ marks, a.name.uri = QName.instanceUri)
    (hunmarked : ∀ p ∈ attributes, p.qname.uri ≠ QName.instanceUri)
    (hnodup : (attributes.map (·.qname)).Nodup)
    (hasked : shown.map Prod.fst = attributes.map fun p ↦ (p, Fields.get fields p.name))
    (hshowing : ∀ x ∈ shown, c.ShowsAttribute e.scope x.1 x.2)
    (hunset : ∀ p ∈ attributes, (Fields.get fields p.name).isNull = true → p.default = none)
    (htrip : ∀ p ∈ attributes, (Fields.get fields p.name).isNull = false →
      ∃ t space, c.catalog.typeNamed? p.type = some t ∧ t.kind = .builtin space ∧
        (t.name.codec space).RoundTrips (Fields.get fields p.name)) :
    ∃ results, List.Forall₂ (fun p r ↦ p.Recovers (Fields.get fields p.name) r) attributes results ∧
      Looks (attributes.mapM (Property.readAttribute s)) e results := by
  have hnames : shown.map (·.1.1.qname) = attributes.map (·.qname) := by
    have hcongr := congrArg (List.map fun x : Property × Value ↦ x.1.qname) hasked
    simpa only [List.map_map, Function.comp_def] using hcongr
  have hfound {x : (Property × Value) × Option Attribute} (hx : x ∈ shown)
      (hp : x.1.1 ∈ attributes) : attribute? e.attributes x.1.1.qname = x.2.map (·.value) := by
    have hnone : attribute? marks x.1.1.qname = none := by
      refine attribute?_eq_none fun a ha hname ↦ hunmarked _ hp ?_
      rw [← hname]
      exact hmarks a ha
    rw [he, attribute?_append, hnone, Option.none_or]
    refine attribute?_shown (fun y hy a ha ↦ ?_) (hnames ▸ hnodup) hx
    have hshows := hshowing y hy
    rw [ha] at hshows
    exact hshows.2.1
  have hrow : ∃ results, List.Forall₂ (fun p r ↦ p.Recovers (Fields.get fields p.name) r ∧
      Looks (p.readAttribute s) e r) attributes results := by
    apply exists_forall₂
    intro p hp
    have hmem : (p, Fields.get fields p.name) ∈ shown.map Prod.fst := by
      rw [hasked]
      exact List.mem_map.mpr ⟨p, hp, rfl⟩
    obtain ⟨⟨asked, out⟩, hx, rfl⟩ := List.mem_map.mp hmem
    exact hs.readAttribute (hshowing _ hx) (hfound hx hp) (hunset p hp) (htrip p hp)
  obtain ⟨results, hresults⟩ := hrow
  exact ⟨results, hresults.imp fun _ _ h ↦ h.1, looks_mapM (hresults.imp fun _ _ h ↦ h.2)⟩

/-! ### Elements -/

/-- The element of a part of a structure is handled by reading it for the property of its name. -/
private theorem Restores.readOccurrence {s : ReadSession} {e : CurrentElement} (hs : c.Reads s)
    {children : List (Part × Option Tree)} (hrest : c.Restores s e children) (name : BindingName)
    {properties : List Property} {fields : Fields}
    (hparts : children.map Prod.fst =
      (properties.filter (!·.isAttribute)).flatMap (Property.parts fields))
    (hnodup : ((properties.filter (!·.isAttribute)).map (·.qname)).Nodup) {x : Part × Tree}
    (hx : x ∈ Part.written children) :
    ∃ o, x.1.Recovers properties o ∧
      Handles (BindingType.readOccurrence s name properties) e x.2 o := by
  have hpart : x.1 ∈ children.map Prod.fst :=
    List.mem_map.mpr ⟨(x.1, some x.2), Part.mem_written.mp hx, rfl⟩
  rw [hparts] at hpart
  obtain ⟨p, hp, hpart⟩ := List.mem_flatMap.mp hpart
  obtain ⟨hp, ha⟩ := List.mem_filter.mp hp
  obtain ⟨i, hi⟩ := Property.exists_place hp
  obtain ⟨hname, hdeclared, -⟩ := Property.of_mem_parts hpart
  have hfound : BindingType.elementProperty? properties x.1.name = some (p, i) := by
    rw [hname]
    exact BindingType.elementProperty?_of_mem hi (by simpa using ha) hnodup
  obtain ⟨type, ht, attributes, declarations, content, htree, back, hback, htakes⟩ := hrest x hx
  refine ⟨⟨i, p, back⟩, ⟨hfound, hback⟩, x.1.name, attributes, declarations, content, htree, ?_⟩
  unfold BindingType.readOccurrence
  rw [hfound]
  dsimp only
  rw [hs.catalog, ← hdeclared, ht]
  exact htakes.looks (looks_pure _)

/-- The element of an item of a list is handled by reading it as an item. -/
private theorem Restores.readItem {s : ReadSession} {e : CurrentElement} (hs : c.Reads s)
    {children : List (Part × Option Tree)} (hrest : c.Restores s e children)
    (name item : BindingName) {itemElement : QName} {items : List Value}
    (hparts : children.map Prod.fst = items.map fun v ↦ ⟨itemElement, v, item, true⟩)
    {x : Part × Tree} (hx : x ∈ Part.written children) :
    ∃ back, (back == x.1.value) = true ∧
      Handles (BindingType.readItem s name item itemElement) e x.2 back := by
  have hpart : x.1 ∈ children.map Prod.fst :=
    List.mem_map.mpr ⟨(x.1, some x.2), Part.mem_written.mp hx, rfl⟩
  rw [hparts] at hpart
  obtain ⟨v, -, hv⟩ := List.mem_map.mp hpart
  have hname : x.1.name = itemElement := by rw [← hv]
  have hdeclared : x.1.declared = item := by rw [← hv]
  obtain ⟨type, ht, attributes, declarations, content, htree, back, hback, htakes⟩ := hrest x hx
  refine ⟨back, hback, x.1.name, attributes, declarations, content, htree, ?_⟩
  unfold BindingType.readItem
  rw [if_neg (by simpa using hname), hs.catalog, ← hdeclared, ht]
  exact htakes.looks (looks_pure _)

private theorem Restores.readList {s : ReadSession} {e : CurrentElement} (hs : c.Reads s)
    {children : List (Part × Option Tree)} (hrest : c.Restores s e children)
    {type : BindingType} {item : BindingName} {itemElement : QName} {items : List Value}
    (layout : type.kind = .list item itemElement)
    (hparts : children.map Prod.fst = items.map fun v ↦ ⟨itemElement, v, item, true⟩)
    (hwritten : ∀ child ∈ children, child.2.isSome = true) :
    ∃ back, (back == Value.list items) = true ∧
      TakesContent (type.read s) e (Tree.entriesOfAll (children.map Prod.snd).reduceOption)
        back := by
  obtain ⟨backs, hbacks, htakes⟩ := takesContent_written
    (R := fun part back ↦ (back == part.value) = true)
    fun x hx ↦ hrest.readItem hs type.name item hparts hx
  refine ⟨.list backs, Value.beq_list ?_, ?_⟩
  · have hall : (Part.written children).map Prod.fst = children.map Prod.fst := by
      have hfilter := Part.map_fst_filter_written (fun _ ↦ true)
        fun child hc _ ↦ hwritten child hc
      simpa using hfilter
    have hvalues : (Part.written children).map (·.1.value) = items := by
      have hcongr := congrArg (List.map Part.value) (hall.trans hparts)
      simpa [Function.comp_def] using hcongr
    rw [← hvalues]
    exact List.forall₂_map_right_iff.mpr hbacks.flip
  · unfold BindingType.read
    rw [layout]
    exact htakes.looks (looks_pure _)

private theorem Restores.readStructure {s : ReadSession} {e : CurrentElement} (hs : c.Reads s)
    {children : List (Part × Option Tree)} (hrest : c.Restores s e children)
    {type : BindingType} {base : Option BindingName} {properties : List Property} {fields : Fields}
    (layout : type.kind = .byName base properties)
    {results : List (Option (String × Value))}
    (hattributes : List.Forall₂ (fun p r ↦ p.Recovers (Fields.get fields p.name) r)
      (properties.filter (·.isAttribute)) results)
    (hlooks : Looks ((properties.filter (·.isAttribute)).mapM (Property.readAttribute s)) e results)
    (hparts : children.map Prod.fst =
      (properties.filter (!·.isAttribute)).flatMap (Property.parts fields))
    (hnodup : ((properties.filter (!·.isAttribute)).map (·.qname)).Nodup)
    (homitted : ∀ p ∈ properties, p.isAttribute = false → ∀ part ∈ p.parts fields,
      (part, none) ∈ children → p.isMultiple = false ∧ part.value.isNull = true)
    (honly : ∀ n, (Fields.get fields n).isNull = false → ∃ p ∈ properties, p.name = n)
    (hlists : ∀ p ∈ properties, p.isAttribute = false → p.isMultiple = true →
      ∃ items, Fields.get fields p.name = .list items) :
    ∃ back, (back == Value.struct type.name.native fields) = true ∧
      TakesContent (type.read s) e (Tree.entriesOfAll (children.map Prod.snd).reduceOption)
        back := by
  obtain ⟨occurrences, hoccurrences, htakes⟩ := takesContent_written
    (R := fun part o ↦ part.Recovers properties o)
    fun x hx ↦ hrest.readOccurrence hs type.name hparts hnodup hx
  have hregains : Regains properties fields children results occurrences :=
    ⟨hnodup, hparts, homitted, hattributes, hoccurrences⟩
  refine ⟨.struct type.name.native (BindingType.gathered s.order properties results occurrences),
    hregains.beq_struct honly hlists type.name.native, ?_⟩
  unfold BindingType.read
  rw [layout]
  exact hlooks.takesContent (htakes.looks (looks_pure _))

/-! ### Content -/

/-- What stands within an element for a value of a type: behind the marks the attributes that were
shown, then the text and the elements of the parts. -/
structure Displays (c : Context) (e : CurrentElement) (isRoot : Bool) (type : BindingType)
    (value : Value) (marks : List Attribute)
    (shown : List ((Property × Value) × Option Attribute)) (texts : List Tree)
    (children : List (Part × Option Tree)) : Prop where
  attributes : e.attributes = marks ++ (shown.map Prod.snd).reduceOption
  asked : shown.map Prod.fst = type.attributeValues value
  showing : ∀ x ∈ shown, c.ShowsAttribute e.scope x.1 x.2
  content : ShowsText e.scope isRoot type value texts
  parts : children.map Prod.fst = type.parts value
  omitted : ∀ child ∈ children, child.2 = none → c.Omits child.1

/-- What was written within an element for a value that fits its type is read back. -/
theorem Fits.read (hi : c.identify = Value.nativeId?) (hn : c.NamesParts) {s : ReadSession}
    (hs : c.Reads s) {e : CurrentElement} {type : BindingType} {value : Value}
    (hf : c.Fits type value) (hr : c.catalog.typeNamed? type.name = some type)
    {marks : List Attribute} {shown : List ((Property × Value) × Option Attribute)} {isRoot : Bool}
    {texts : List Tree} {children : List (Part × Option Tree)}
    (hd : c.Displays e isRoot type value marks shown texts children)
    (hmarks : ∀ a ∈ marks, a.name.uri = QName.instanceUri) (hrest : c.Restores s e children) :
    ∃ back, (back == value) = true ∧
      TakesContent (type.read s) e
        (Tree.entriesOfAll (texts ++ (children.map Prod.snd).reduceOption)) back := by
  obtain ⟨he, asked, showing, content, parts, omitted⟩ := hd
  obtain ⟨name, kind⟩ := type
  cases hf with
  | @text _ space _ layout trip =>
    cases layout
    have hnone : children = [] := List.map_eq_nil_iff.mp parts
    subst hnone
    rw [List.map_nil, List.reduceOption_nil, List.append_nil]
    cases content with
    | inl hshows =>
      obtain ⟨text, ⟨codec, hcodec, hshows⟩, rfl⟩ := hshows
      cases hcodec
      obtain ⟨scalar, hread, hequal⟩ := trip.read hshows
      exact ⟨.scalar scalar, hequal, takesContent_readContent hread⟩
    | inr hrefuses =>
      have hfits : c.Fits ⟨name, .builtin space⟩ value := .text rfl trip
      exact absurd hrefuses.2.1 (hfits.not_refuses rfl)
  | @struct _ base properties fields layout only unset attributes repeated typed elements =>
    cases layout
    cases content
    have hmem {p : Property} (hp : p ∈ properties.filter (·.isAttribute)) :
        p ∈ properties ∧ p.isAttribute = true := List.mem_filter.mp hp
    obtain ⟨results, hresults, hlooks⟩ := hs.readAttributes he hmarks
      (fun p hp ↦ (hn _ _ hr).unmarked p (hmem hp).1 (hmem hp).2) (hn _ _ hr).attributes
      asked showing
      (fun p hp ↦ unset p (hmem hp).1 (hmem hp).2)
      (fun p hp ↦ attributes p (hmem hp).1 (hmem hp).2)
    refine hrest.readStructure hs rfl hresults hlooks parts (hn _ _ hr).elements ?_ only
      (fun p hp ha hm ↦ (repeated p hp ha hm).2.imp fun _ h ↦ h.1)
    exact fun p hp ha part hpart hnone ↦ isNull_of_omits hi hpart (repeated p hp ha)
      (typed p hp ha part hpart) (elements p hp ha part hpart) (omitted _ hnone rfl)
  | @list _ item itemElement items layout typed values =>
    cases layout
    cases content
    have hparts : children.map Prod.fst = items.map fun v ↦ ⟨itemElement, v, item, true⟩ := parts
    apply hrest.readList hs rfl hparts
    intro child hc
    obtain ⟨part, out⟩ := child
    cases out with
    | some tree => rfl
    | none =>
      have hpart : part ∈ children.map Prod.fst := List.mem_map.mpr ⟨_, hc, rfl⟩
      rw [hparts] at hpart
      obtain ⟨v, hv, rfl⟩ := List.mem_map.mp hpart
      obtain ⟨t, ht⟩ := Option.isSome_iff_exists.mp (typed v hv)
      exact absurd (omitted _ hc rfl) ((values v hv t ht).not_omits hi ht fun _ ↦ rfl)

end Context

end XmlBinding

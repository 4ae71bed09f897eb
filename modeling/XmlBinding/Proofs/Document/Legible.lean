import XmlBinding.Proofs.Document.Resolution

/-!
# What is written can be read

The tags that stand for legible events are legible: the prefixes that are generated for them are
names, and what these are declared for are namespaces of the names in the events
(`Faithful.isLegible`). Likewise no tag declares anything reserved if no event names it
(`StartTag.Resolves.isFree`).
-/

namespace XmlBinding

open Markup

/-! ### Declarations -/

/-- What holds of the declarations of an event, and of those that its names may need besides, holds
of all declarations of its tag. -/
theorem StartTag.Resolves.forall_declarations {tag : StartTag} {outer : List StartTag}
    (h : tag.Resolves outer) {P : Declaration → Prop} (hgiven : ∀ d ∈ tag.given, P d)
    (hback : P ⟨"", ""⟩)
    (hadded : ∀ n uri, uri = tag.name.uri ∨ (∃ a ∈ tag.attributes, uri = a.2.name.uri) →
      P ⟨NamespaceScope.generatedPrefix n, uri⟩) : ∀ d ∈ tag.declarations, P d := by
  intro d hd
  rcases List.mem_append.mp hd with hd | hd
  · exact hgiven d hd
  · rcases h.added d hd with rfl | ⟨⟨n, hpre⟩, -, huri⟩
    · exact hback
    · obtain ⟨pre, uri⟩ := d
      obtain rfl : pre = NamespaceScope.generatedPrefix n := hpre
      exact hadded n uri huri

/-- A generated prefix is a name. -/
theorem isNamePart_generatedPrefix (n : Nat) :
    IsNamePart (NamespaceScope.generatedPrefix n).toList := by
  have hdigit (c : Char) (hc : c ∈ Nat.toDigits 10 n) : c.isDigit = true :=
    Nat.isDigit_of_mem_toDigits (by decide) (by decide) hc
  rw [NamespaceScope.toList_generatedPrefix]
  constructor
  · rfl
  · intro c hc
    simp only [List.mem_cons] at hc
    rcases hc with rfl | rfl | hc
    · decide
    · decide
    · simp [isTagNameChar, hdigit c hc]
  · simp only [List.mem_cons, not_or]
    refine ⟨by decide, by decide, fun hc ↦ ?_⟩
    exact absurd (hdigit ':' hc) (by decide)

/-- No generated prefix is the prefix of declarations. -/
theorem generatedPrefix_ne_xmlns (n : Nat) : NamespaceScope.generatedPrefix n ≠ "xmlns" := by
  intro h
  have hl := congrArg String.toList h
  rw [NamespaceScope.toList_generatedPrefix] at hl
  exact absurd (List.cons.inj hl).1 (by decide)

/-- The declarations of a tag are legible if its event is. -/
theorem StartTag.Resolves.isLegible_declarations {tag : StartTag} {outer : List StartTag}
    (h : tag.Resolves outer) (hevent : tag.event.IsLegible) :
    ∀ d ∈ tag.declarations, d.IsLegible := by
  obtain ⟨hname, hattributes, hgiven⟩ := hevent
  refine h.forall_declarations hgiven ⟨.inl rfl, rfl⟩ fun n uri huri ↦ ?_
  refine ⟨.inr (isNamePart_generatedPrefix n), ?_⟩
  rcases huri with rfl | ⟨a, ha, rfl⟩
  · exact hname.uri
  · exact (hattributes a.2 (List.mem_map_of_mem ha)).name.uri

/-- The declarations of a tag are free if its event keeps to the rules. -/
theorem StartTag.Resolves.isFree {tag : StartTag} {outer : List StartTag}
    (h : tag.Resolves outer) (hevent : tag.event.IsConforming) :
    ∀ d ∈ tag.declarations, d.IsFree := by
  obtain ⟨hname, hattributes, -, hgiven⟩ := hevent
  refine h.forall_declarations hgiven ⟨by decide, by decide⟩ fun n uri huri ↦ ?_
  refine ⟨⟨NamespaceScope.generatedPrefix_ne_xml n, generatedPrefix_ne_xmlns n⟩, ?_⟩
  rcases huri with rfl | ⟨a, ha, rfl⟩
  · exact hname
  · exact hattributes a.2 (List.mem_map_of_mem ha)

/-! ### Tags -/

private theorem Declaration.IsLegible.tagAttribute {d : Declaration} (h : d.IsLegible) :
    d.tagAttribute.IsProper := by
  have hxmlns : IsNamePart ['x', 'm', 'l', 'n', 's'] := by decide
  refine ⟨?_, h.uri⟩
  unfold Declaration.tagAttribute
  split
  · exact ⟨.inl rfl, hxmlns⟩
  · next hne => exact ⟨.inr hxmlns, h.pre.resolve_left hne⟩

private theorem isNamePart_of_declared? {tags : List StartTag}
    (hlegible : ∀ t ∈ tags, ∀ d ∈ t.declarations, d.IsLegible) {pre uri : String} (hne : pre ≠ "")
    (h : declared? (tags.map StartTag.declarations) pre = some uri) : IsNamePart pre.toList := by
  obtain ⟨t, ht, d, hd, rfl, -⟩ := exists_of_declared? h
  exact (hlegible t ht d hd).pre.resolve_left hne

/-- A tag whose prefixes resolve within legible ones is legible if its event is. -/
private theorem StartTag.Resolves.isLegible {tag : StartTag} {outer : List StartTag}
    (h : tag.Resolves outer) (hevent : tag.event.IsLegible)
    (houter : ∀ t ∈ outer, ∀ d ∈ t.declarations, d.IsLegible) : tag.IsLegible := by
  have hown := h.isLegible_declarations hevent
  have hall : ∀ t ∈ tag :: outer, ∀ d ∈ t.declarations, d.IsLegible :=
    List.forall_mem_cons.mpr ⟨hown, houter⟩
  obtain ⟨hname, hattributes, -⟩ := hevent
  constructor
  · refine ⟨?_, hname.localPart⟩
    have helement := h.element
    split at helement
    · next hempty => exact .inl (by simp [tagName, hempty])
    · next hne => exact .inr (isNamePart_of_declared? hall hne helement)
  · intro b hb
    rcases List.mem_append.mp hb with hb | hb
    · obtain ⟨d, hd, rfl⟩ := List.mem_map.mp hb
      exact (hown d hd).tagAttribute
    · obtain ⟨a, ha, rfl⟩ := List.mem_map.mp hb
      have hlegible := hattributes a.2 (List.mem_map_of_mem ha)
      refine ⟨⟨?_, hlegible.name.localPart⟩, hlegible.value⟩
      have hattribute := h.attributes a ha
      split at hattribute
      · exact .inl (by simp [Attribute.tagAttribute, hattribute])
      · exact .inr (isNamePart_of_declared? hall hattribute.1 hattribute.2)

/-- What is written for legible events within legible tags is legible. -/
theorem Faithful.isLegible {opened : List StartTag} {events : List Event} {ws : List Written}
    (h : Faithful opened events ws) (hevents : ∀ e ∈ events, e.IsLegible)
    (hopened : ∀ t ∈ opened, t.IsLegible ∧ ∀ d ∈ t.declarations, d.IsLegible) :
    ∀ w ∈ ws, w.IsLegible := by
  induction h with
  | nil => simp
  | text s _ ih =>
    rw [List.forall_mem_cons] at hevents
    exact List.forall_mem_cons.mpr ⟨hevents.1, ih hevents.2 hopened⟩
  | opening resolves _ ih =>
    rw [List.forall_mem_cons] at hevents
    have htag := resolves.isLegible hevents.1 fun t ht ↦ (hopened t ht).2
    have hdeclarations := resolves.isLegible_declarations hevents.1
    exact List.forall_mem_cons.mpr
      ⟨htag, ih hevents.2 (List.forall_mem_cons.mpr ⟨⟨htag, hdeclarations⟩, hopened⟩)⟩
  | empty resolves _ ih =>
    rw [List.forall_mem_cons, List.forall_mem_cons] at hevents
    have htag := resolves.isLegible hevents.1 fun t ht ↦ (hopened t ht).2
    exact List.forall_mem_cons.mpr ⟨htag, ih hevents.2.2 hopened⟩
  | closing _ ih =>
    rw [List.forall_mem_cons] at hevents hopened
    exact List.forall_mem_cons.mpr ⟨hopened.1.1.name, ih hevents.2 hopened.2⟩

end XmlBinding

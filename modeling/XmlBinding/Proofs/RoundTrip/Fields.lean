import XmlBinding.Proofs.RoundTrip.Parts

/-!
# Fields that are regained

From equal values for its attributes and its elements a structure gathers equal fields: every value
that is set is equal to the one in the field of its name, and every field that was not null is set
again. Which element belongs to which property follows from their names.
-/

namespace XmlBinding

/-- What is read for an attribute: its field with an equal value, or nothing for a null. -/
def Property.Recovers (p : Property) (v : Value) : Option (String × Value) → Prop
  | none => v.isNull = true
  | some field => field.1 = p.name ∧ (field.2 == v) = true

/-- What is read for an element: an equal value, at the place of the property of its name. -/
def Part.Recovers (properties : List Property) (part : Part) (o : Occurrence) : Prop :=
  BindingType.elementProperty? properties part.name = some (o.property, o.index) ∧
    (o.value == part.value) = true

/-- What was read for the parts of a structure that were written; only a null that is no item was
left out. -/
structure Regains (properties : List Property) (fields : Fields)
    (children : List (Part × Option Tree)) (results : List (Option (String × Value)))
    (occurrences : List Occurrence) : Prop where
  distinct : ((properties.filter (!·.isAttribute)).map (·.qname)).Nodup
  parts : children.map Prod.fst =
    (properties.filter (!·.isAttribute)).flatMap (Property.parts fields)
  omitted (p : Property) (hp : p ∈ properties) (ha : p.isAttribute = false) (part : Part)
    (h : part ∈ p.parts fields) (hnone : (part, none) ∈ children) :
    p.isMultiple = false ∧ part.value.isNull = true
  attributes : List.Forall₂ (fun p r ↦ p.Recovers (Fields.get fields p.name) r)
    (properties.filter (·.isAttribute)) results
  elements : List.Forall₂ (fun x o ↦ x.1.Recovers properties o) (Part.written children) occurrences

namespace Regains

variable {order : ListOrder} {properties : List Property} {fields : Fields}
  {children : List (Part × Option Tree)} {results : List (Option (String × Value))}
  {occurrences : List Occurrence}

private theorem exists_part (h : Regains properties fields children results occurrences)
    {o : Occurrence} (ho : o ∈ occurrences) :
    ∃ part ∈ o.property.parts fields, (o.value == part.value) = true := by
  obtain ⟨x, hx, hfound, hequal⟩ := exists_left_of_forall₂ h.elements ho
  obtain ⟨hplace, ha, hname⟩ := BindingType.mem_of_elementProperty? hfound
  have hp : o.property ∈ properties.filter (!·.isAttribute) :=
    List.mem_filter.mpr ⟨List.fst_mem_of_mem_zipIdx hplace, by simp [ha]⟩
  have hpart : x.1 ∈ children.map Prod.fst :=
    List.mem_map.mpr ⟨(x.1, some x.2), Part.mem_written.mp hx, rfl⟩
  refine ⟨x.1, ?_, hequal⟩
  rw [← Property.filter_parts hp h.distinct, ← h.parts]
  exact List.mem_filter.mpr ⟨hpart, by simpa using hname.symm⟩

/-- The values that were read for the elements of a property equal its parts, in order. -/
private theorem forall₂_parts (h : Regains properties fields children results occurrences)
    {p : Property} {i : Nat} (hp : (p, i) ∈ properties.zipIdx) (ha : p.isAttribute = false)
    (hm : p.isMultiple = true) :
    List.Forall₂ (fun o part ↦ (o.value == part.value) = true)
      (occurrences.filter (·.index = i)) (p.parts fields) := by
  have hmem : p ∈ properties := List.fst_mem_of_mem_zipIdx hp
  have hfilter : p ∈ properties.filter (!·.isAttribute) :=
    List.mem_filter.mpr ⟨hmem, by simp [ha]⟩
  -- An element has the place of the property just if it has its name.
  have hplace : ∀ ⦃x : Part × Tree⦄ ⦃o : Occurrence⦄, x.1.Recovers properties o →
      (decide (x.1.name = p.qname) = true ↔ decide (o.index = i) = true) := by
    intro x o hr
    simp only [decide_eq_true_eq]
    constructor
    · intro hname
      have hfound := BindingType.elementProperty?_of_mem hp ha h.distinct
      rw [← hname, hr.1] at hfound
      cases hfound
      rfl
    · intro hindex
      obtain ⟨hplace, -, hname⟩ := BindingType.mem_of_elementProperty? hr.1
      rw [hindex] at hplace
      rw [← hname, Property.eq_of_mem_zipIdx hplace hp]
  have hwritten : ((Part.written children).filter fun x ↦ decide (x.1.name = p.qname)).map
      Prod.fst = p.parts fields := by
    rw [Part.map_fst_filter_written fun part ↦ decide (part.name = p.qname), h.parts]
    · exact Property.filter_parts hfilter h.distinct
    · rintro ⟨part, out⟩ hc hname
      cases out with
      | some tree => rfl
      | none =>
        have hpart : part ∈ p.parts fields := by
          rw [← Property.filter_parts hfilter h.distinct, ← h.parts]
          exact List.mem_filter.mpr ⟨List.mem_map.mpr ⟨_, hc, rfl⟩, hname⟩
        have hsingle := (h.omitted p hmem ha part hpart hc).1
        rw [hm] at hsingle
        cases hsingle
  rw [← hwritten]
  refine List.forall₂_map_right_iff.mpr (List.Forall₂.flip ?_)
  have hrows := List.rel_filter (R := fun (x : Part × Tree) o ↦ x.1.Recovers properties o)
    (p := fun x ↦ decide (x.1.name = p.qname)) (q := fun o ↦ decide (o.index = i)) hplace h.elements
  exact hrows.imp fun _ _ hr ↦ hr.2

/-- Something was read for a property that is not repeated, if its field is not null. -/
private theorem exists_occurrence (h : Regains properties fields children results occurrences)
    {p : Property} (hp : p ∈ properties) (ha : p.isAttribute = false) (hm : p.isMultiple = false)
    (hn : (Fields.get fields p.name).isNull = false) : ∃ o ∈ occurrences, o.property = p := by
  have hpart : ⟨p.qname, Fields.get fields p.name, p.type, p.isNillable⟩ ∈ p.parts fields := by
    rw [Property.parts_of_single fields hm]
    exact List.mem_singleton.mpr rfl
  have hall : ⟨p.qname, Fields.get fields p.name, p.type, p.isNillable⟩ ∈
      children.map Prod.fst := by
    rw [h.parts]
    exact List.mem_flatMap.mpr ⟨p, List.mem_filter.mpr ⟨hp, by simp [ha]⟩, hpart⟩
  obtain ⟨⟨part, out⟩, hc, rfl⟩ := List.mem_map.mp hall
  cases out with
  | none =>
    have hnull := (h.omitted p hp ha _ hpart hc).2
    rw [hn] at hnull
    cases hnull
  | some tree =>
    obtain ⟨o, ho, hfound, -⟩ := exists_right_of_forall₂ h.elements
      (Part.mem_written (x := (_, tree)).mpr hc)
    obtain ⟨i, hi⟩ := Property.exists_place hp
    have hplace := BindingType.elementProperty?_of_mem hi ha h.distinct
    rw [hplace] at hfound
    cases hfound
    exact ⟨o, ho, rfl⟩

/-- Every value that is gathered equals the one in the field of its name. -/
private theorem holds (h : Regains properties fields children results occurrences)
    (hlists : ∀ p ∈ properties, p.isAttribute = false → p.isMultiple = true →
      ∃ items, Fields.get fields p.name = .list items) :
    (BindingType.gathered order properties results occurrences).Holds
      fun n v ↦ (v == Fields.get fields n) = true := by
  refine BindingType.holds_gathered ?_ ?_ ?_
  · intro n v hm
    obtain ⟨p, -, hname, hequal⟩ := exists_left_of_forall₂ h.attributes hm
    rw [← hname] at hequal
    exact hequal
  · intro o ho hm
    obtain ⟨part, hpart, hequal⟩ := h.exists_part ho
    rw [Property.parts_of_single fields hm, List.mem_singleton] at hpart
    subst hpart
    exact hequal
  · intro p i hp hm ha
    obtain ⟨items, hitems⟩ := hlists p (List.fst_mem_of_mem_zipIdx hp) ha hm
    have hparts := h.forall₂_parts hp ha hm
    rw [Property.parts_of_list hm hitems] at hparts
    rw [hitems]
    refine Value.beq_list (List.forall₂_map_left_iff.mpr ?_)
    exact List.forall₂_map_right_iff.mp hparts

private theorem isSome (h : Regains properties fields children results occurrences)
    (honly : ∀ n, (Fields.get fields n).isNull = false → ∃ p ∈ properties, p.name = n) {n : String}
    (hn : (Fields.get fields n).isNull = false) :
    (Fields.get? n (BindingType.gathered order properties results occurrences)).isSome = true := by
  obtain ⟨p, hp, rfl⟩ := honly n hn
  cases ha : p.isAttribute with
  | true =>
    obtain ⟨r, hr, hrecovers⟩ := exists_right_of_forall₂ h.attributes
      (List.mem_filter.mpr ⟨hp, ha⟩)
    cases r with
    | none =>
      rw [Property.Recovers, hn] at hrecovers
      cases hrecovers
    | some field =>
      rw [← hrecovers.1]
      exact BindingType.isSome_gathered_of_attribute hr
  | false =>
    cases hm : p.isMultiple with
    | true => exact BindingType.isSome_gathered_of_repeated hp hm ha
    | false =>
      obtain ⟨o, ho, rfl⟩ := h.exists_occurrence hp ha hm hn
      exact BindingType.isSome_gathered_of_occurrence ho hm

/-- The structure that is gathered equals the one that was written. -/
theorem beq_struct (h : Regains properties fields children results occurrences)
    (honly : ∀ n, (Fields.get fields n).isNull = false → ∃ p ∈ properties, p.name = n)
    (hlists : ∀ p ∈ properties, p.isAttribute = false → p.isMultiple = true →
      ∃ items, Fields.get fields p.name = .list items) (native : NativeId) :
    (Value.struct native (BindingType.gathered order properties results occurrences) ==
      Value.struct native fields) = true :=
  Value.beq_struct (h.holds hlists) fun _ hn ↦ h.isSome honly hn

end Regains

end XmlBinding

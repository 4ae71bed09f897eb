import Mathlib.Data.List.Nodup
import Mathlib.Data.List.ReduceOption
import XmlBinding.Conversion.Structure
import XmlBinding.Proofs.Value

/-!
# Fields that a structure gathers

A structure that is read sets its fields in three passes: attributes, elements that are not
repeated, and the lists of those that are. What is common to everything that is set is common to all
fields in the end, and no pass unsets a field.
-/

namespace XmlBinding

/-! ### Properties by their names and places -/

/-- The place of an element property among all is that of its name. -/
theorem BindingType.mem_of_elementProperty? {properties : List Property} {child : QName}
    {p : Property} {index : Nat} (h : elementProperty? properties child = some (p, index)) :
    (p, index) ∈ properties.zipIdx ∧ p.isAttribute = false ∧ p.qname = child := by
  have hp := List.find?_some h
  simp only [Bool.and_eq_true, Bool.not_eq_true', decide_eq_true_eq] at hp
  exact ⟨List.mem_of_find?_eq_some h, hp⟩

/-- Of element properties with different names, each is found by its name at its own place. -/
theorem BindingType.elementProperty?_of_mem {properties : List Property} {p : Property} {i : Nat}
    (hp : (p, i) ∈ properties.zipIdx) (ha : p.isAttribute = false)
    (hnodup : ((properties.filter (!·.isAttribute)).map (·.qname)).Nodup) :
    elementProperty? properties p.qname = some (p, i) := by
  unfold elementProperty?
  generalize 0 = k at hp ⊢
  induction properties generalizing k with
  | nil => cases hp
  | cons q rest ih =>
    rw [List.zipIdx_cons] at hp ⊢
    cases List.mem_cons.mp hp with
    | inl he =>
      cases he
      rw [List.find?_cons_of_pos (by simp [ha])]
    | inr hr =>
      have hne : (!q.isAttribute && decide (q.qname = p.qname)) = false := by
        cases hq : q.isAttribute with
        | true => rfl
        | false =>
          rw [List.filter_cons_of_pos (by simp [hq]), List.map_cons, List.nodup_cons] at hnodup
          refine decide_eq_false fun he ↦ hnodup.1 (List.mem_map.mpr ⟨p, ?_, he.symm⟩)
          exact List.mem_filter.mpr ⟨List.fst_mem_of_mem_zipIdx hr, by simp [ha]⟩
      rw [List.find?_cons_of_neg (by simpa using hne)]
      refine ih ?_ _ hr
      cases hq : q.isAttribute with
      | true =>
        rw [List.filter_cons_of_neg (by simp [hq])] at hnodup
        exact hnodup
      | false =>
        rw [List.filter_cons_of_pos (by simp [hq]), List.map_cons, List.nodup_cons] at hnodup
        exact hnodup.2

namespace Property

/-- A place has one property. -/
theorem eq_of_mem_zipIdx {properties : List Property} {p q : Property} {i : Nat}
    (hp : (p, i) ∈ properties.zipIdx) (hq : (q, i) ∈ properties.zipIdx) : p = q := by
  have hp' := List.mk_mem_zipIdx_iff_getElem?.mp hp
  have hq' := List.mk_mem_zipIdx_iff_getElem?.mp hq
  rw [hp'] at hq'
  exact Option.some.inj hq'

/-- Every property has a place. -/
theorem exists_place {properties : List Property} {p : Property} (hp : p ∈ properties) :
    ∃ i, (p, i) ∈ properties.zipIdx := by
  obtain ⟨i, hi⟩ := List.mem_iff_getElem?.mp hp
  exact ⟨i, List.mk_mem_zipIdx_iff_getElem?.mpr hi⟩

end Property

namespace BindingType

/-! ### Fields -/

/-- The fields that a structure gathers from what was read. -/
def gathered (order : ListOrder) (properties : List Property)
    (results : List (Option (String × Value))) (occurrences : List Occurrence) : Fields :=
  setLists order occurrences properties
    (occurrences.foldl setOccurrence
      (results.reduceOption.foldl (fun (fields : Fields) a ↦ fields.set a.1 a.2) []))

variable {order : ListOrder} {properties : List Property}
  {results : List (Option (String × Value))} {occurrences : List Occurrence}

/-- In whichever order the lists are set, those of the properties are, and no others. -/
theorem mem_arrange {p : Property × Nat} :
    p ∈ order.arrange occurrences properties.zipIdx ↔ p ∈ properties.zipIdx :=
  (order.perm occurrences properties.zipIdx).mem_iff

/-- Setting the lists keeps what all fields have in common, if the lists have it too. -/
private theorem holds_setLists {P : String → Value → Prop} {fields : Fields}
    (hfields : fields.Holds P)
    (hlists : ∀ p i, (p, i) ∈ properties.zipIdx → p.isMultiple = true → p.isAttribute = false →
      P p.name (.list ((occurrences.filter (·.index = i)).map (·.value)))) :
    (setLists order occurrences properties fields).Holds P := by
  have hpass (row : List (Property × Nat)) (hrow : ∀ p ∈ row, p ∈ properties.zipIdx)
      {fields : Fields} (hfields : fields.Holds P) :
      Fields.Holds P (row.foldl (setRepeated occurrences) fields) := by
    refine List.foldlRecOn row _ hfields fun fields hfields p hp ↦ ?_
    unfold setRepeated
    split
    · next hm => exact hfields.set (hlists p.1 p.2 (hrow p hp) hm.1 (by simpa using hm.2))
    · exact hfields
  exact hpass _ (fun p hp ↦ mem_arrange.mp hp) (hpass _ (fun p hp ↦ hp) hfields)

/-- What the values of attributes, of elements and of lists have in common, all fields have. -/
theorem holds_gathered {P : String → Value → Prop}
    (hattributes : ∀ name value, some (name, value) ∈ results → P name value)
    (helements : ∀ o ∈ occurrences, o.property.isMultiple = false → P o.property.name o.value)
    (hlists : ∀ p i, (p, i) ∈ properties.zipIdx → p.isMultiple = true → p.isAttribute = false →
      P p.name (.list ((occurrences.filter (·.index = i)).map (·.value)))) :
    (gathered order properties results occurrences).Holds P := by
  refine holds_setLists ?_ hlists
  refine List.foldlRecOn occurrences _ ?_ fun fields hfields o ho ↦ ?_
  · refine List.foldlRecOn results.reduceOption _ ?_ fun fields hfields a ha ↦ hfields.set ?_
    · intro n v hn
      cases hn
    · exact hattributes a.1 a.2 (List.reduceOption_mem_iff.mp ha)
  · unfold setOccurrence
    split
    · exact hfields
    · next hm => exact hfields.set (helements o ho (by simpa using hm))

/-- Setting the field of a property that is not repeated keeps the others set. -/
theorem isSome_setOccurrence {n : String} (fields : Fields) (o : Occurrence)
    (h : (fields.get? n).isSome = true) : ((setOccurrence fields o).get? n).isSome = true := by
  unfold setOccurrence
  split
  · exact h
  · exact Fields.isSome_get?_set _ _ h

/-- Setting the field of a repeated property keeps the others set. -/
theorem isSome_setRepeated {n : String} (fields : Fields) (p : Property × Nat)
    (h : (fields.get? n).isSome = true) :
    ((setRepeated occurrences fields p).get? n).isSome = true := by
  unfold setRepeated
  split
  · exact Fields.isSome_get?_set _ _ h
  · exact h

/-- Setting the lists keeps the other fields set. -/
theorem isSome_setLists {n : String} {fields : Fields} (h : (fields.get? n).isSome = true) :
    ((setLists order occurrences properties fields).get? n).isSome = true :=
  Fields.isSome_foldl_of_isSome isSome_setRepeated _
    (Fields.isSome_foldl_of_isSome isSome_setRepeated _ h)

/-- The field of an attribute that was read is set. -/
theorem isSome_gathered_of_attribute {name : String} {value : Value}
    (h : some (name, value) ∈ results) :
    ((gathered order properties results occurrences).get? name).isSome = true := by
  apply isSome_setLists
  apply Fields.isSome_foldl_of_isSome isSome_setOccurrence _
  refine Fields.isSome_foldl (fun fields a ha ↦ Fields.isSome_get?_set a.1 a.2 ha)
    (List.reduceOption_mem_iff.mpr h) (fun fields ↦ ?_) []
  rw [Fields.get?_set, if_pos rfl]
  rfl

/-- The field of an element that was read is set, if its property is not repeated. -/
theorem isSome_gathered_of_occurrence {o : Occurrence} (h : o ∈ occurrences)
    (hm : o.property.isMultiple = false) :
    ((gathered order properties results occurrences).get? o.property.name).isSome = true := by
  apply isSome_setLists
  refine Fields.isSome_foldl isSome_setOccurrence h (fun fields ↦ ?_) _
  rw [setOccurrence, if_neg (by simp [hm]), Fields.get?_set, if_pos rfl]
  rfl

/-- The field of a repeated element property is set in any case. -/
theorem isSome_gathered_of_repeated {p : Property} (hp : p ∈ properties)
    (hm : p.isMultiple = true) (ha : p.isAttribute = false) :
    ((gathered order properties results occurrences).get? p.name).isSome = true := by
  obtain ⟨i, hi⟩ := Property.exists_place hp
  refine Fields.isSome_foldl isSome_setRepeated (mem_arrange.mpr hi) (fun fields ↦ ?_) _
  rw [setRepeated, if_pos ⟨hm, by simp [ha]⟩, Fields.get?_set, if_pos rfl]
  rfl

end BindingType

end XmlBinding

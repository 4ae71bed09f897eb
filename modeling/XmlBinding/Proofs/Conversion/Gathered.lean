import XmlBinding.Proofs.Conversion.Structure

/-!
# Which value a structure gathers for a field

All that a structure sets while it is read is one row of assignments, and of several to one field
the last counts (`Fields.get?_foldl_set`). Where the properties have different names, what is
assigned to the field of one comes from its own attribute or its own elements, so that each field
can be told from these alone (`BindingType.get?_gathered_of_attribute`,
`BindingType.get?_gathered_of_element`).
-/

namespace XmlBinding

/-! ### The last assignment -/

/-- The value of the last assignment to a field. -/
def lastAssigned (n : String) (assignments : List (String × Value)) : Option Value :=
  (assignments.filter (·.1 = n)).getLast?.map (·.2)

/-- A field has the value that was assigned to it last, or else the one that it had before. -/
theorem Fields.get?_foldl_set (n : String) (assignments : List (String × Value)) (fields : Fields) :
    get? n (assignments.foldl (fun (fields : Fields) a ↦ fields.set a.1 a.2) fields) =
      (lastAssigned n assignments).or (fields.get? n) := by
  induction assignments generalizing fields with
  | nil => rfl
  | cons a rest ih =>
    rw [List.foldl_cons, ih, Fields.get?_set]
    unfold lastAssigned
    by_cases ha : a.1 = n
    · rw [List.filter_cons_of_pos (by simp [ha]), if_pos ha.symm]
      cases hrest : rest.filter (·.1 = n) with
      | nil => rfl
      | cons b more => rw [List.getLast?_cons_cons, List.getLast?_cons, Option.map_some, Option.or,
          Option.or]
    · rw [List.filter_cons_of_neg (by simp [ha]), if_neg (Ne.symm ha)]

/-- No value was assigned to a field last if none was at all. -/
theorem lastAssigned_eq_none {n : String} {assignments : List (String × Value)}
    (h : ∀ v, (n, v) ∉ assignments) : lastAssigned n assignments = none := by
  have hnone : assignments.filter (·.1 = n) = [] := by
    refine List.filter_eq_nil_iff.mpr fun a ha hn ↦ h a.2 ?_
    rw [← of_decide_eq_true hn]
    exact ha
  rw [lastAssigned, hnone]
  rfl

private theorem not_mem_of_lastAssigned {n : String} {assignments : List (String × Value)}
    (h : lastAssigned n assignments = none) {v : Value} : (n, v) ∉ assignments := by
  intro hv
  have hlast := List.getLast?_eq_none_iff.mp (Option.map_eq_none_iff.mp h)
  exact List.filter_eq_nil_iff.mp hlast _ hv (decide_eq_true rfl)

/-- The only value that is assigned to a field is the last one. -/
theorem lastAssigned_eq_some {n : String} {v : Value} {assignments : List (String × Value)}
    (h : (n, v) ∈ assignments) (honly : ∀ w, (n, w) ∈ assignments → w = v) :
    lastAssigned n assignments = some v := by
  unfold lastAssigned
  have hmem : (n, v) ∈ assignments.filter (·.1 = n) := List.mem_filter.mpr ⟨h, decide_eq_true rfl⟩
  cases hlast : (assignments.filter (·.1 = n)).getLast? with
  | none =>
    rw [List.getLast?_eq_none_iff.mp hlast] at hmem
    cases hmem
  | some a =>
    obtain ⟨ha, hn⟩ := List.mem_filter.mp (List.mem_of_getLast? hlast)
    obtain ⟨n', w⟩ := a
    cases of_decide_eq_true hn
    rw [Option.map_some, honly w ha]

/-- The last value that was assigned to a field was assigned to it. -/
private theorem mem_of_lastAssigned {n : String} {v : Value} {assignments : List (String × Value)}
    (h : lastAssigned n assignments = some v) : (n, v) ∈ assignments := by
  obtain ⟨⟨n', w⟩, hlast, rfl⟩ := Option.map_eq_some_iff.mp h
  obtain ⟨ha, hn⟩ := List.mem_filter.mp (List.mem_of_getLast? hlast)
  cases of_decide_eq_true hn
  exact ha

namespace BindingType

/-! ### Assignments of a structure -/

/-- What a value that was read sets: nothing yet if its property is repeated. -/
def occurrenceAssignment? (o : Occurrence) : Option (String × Value) :=
  if o.property.isMultiple then none else some (o.property.name, o.value)

/-- What a property sets in the end: the list of all its values if it is repeated. -/
def listAssignment? (occurrences : List Occurrence) (p : Property × Nat) :
    Option (String × Value) :=
  if p.1.isMultiple ∧ ¬ p.1.isAttribute then
    some (p.1.name, .list ((occurrences.filter (·.index = p.2)).map (·.value)))
  else none

/-- What a structure sets in the end, in the order of its lists. -/
def listAssignments (order : ListOrder) (properties : List Property)
    (occurrences : List Occurrence) : List (String × Value) :=
  (order.arrange occurrences properties.zipIdx).filterMap (listAssignment? occurrences)

variable {order : ListOrder} {properties : List Property} {occurrences : List Occurrence}

/-- After the lists of some properties were set, a field has the value that was assigned last. -/
theorem get?_foldl_setRepeated (row : List (Property × Nat)) (fields : Fields) (n : String) :
    Fields.get? n (row.foldl (setRepeated occurrences) fields) =
      (lastAssigned n (row.filterMap (listAssignment? occurrences))).or (fields.get? n) := by
  have hlists : row.foldl (setRepeated occurrences) fields =
      (row.filterMap (listAssignment? occurrences)).foldl
        (fun (fields : Fields) a ↦ fields.set a.1 a.2) fields := by
    rw [List.foldl_filterMap]
    congr
    funext fields p
    unfold setRepeated listAssignment?
    split <;> rfl
  rw [hlists, Fields.get?_foldl_set]

/-- Once all lists are set, a field has the value that the order assigned to it last: what put it in
its place before does not show. -/
private theorem get?_setLists (fields : Fields) (n : String) :
    (setLists order occurrences properties fields).get? n =
      (lastAssigned n (listAssignments order properties occurrences)).or (fields.get? n) := by
  unfold setLists
  rw [get?_foldl_setRepeated, get?_foldl_setRepeated, ← listAssignments]
  cases hlast : lastAssigned n (listAssignments order properties occurrences) with
  | some v => rfl
  | none =>
    have hnone : lastAssigned n (properties.zipIdx.filterMap (listAssignment? occurrences)) =
        none := by
      refine lastAssigned_eq_none fun v hv ↦ ?_
      obtain ⟨p, hp, hassigned⟩ := List.mem_filterMap.mp hv
      exact not_mem_of_lastAssigned hlast
        (List.mem_filterMap.mpr ⟨p, mem_arrange.mpr hp, hassigned⟩)
    rw [hnone, Option.none_or, Option.none_or]

/-- A field of a structure has the value that was assigned last: that of a list, or of an element,
or of an attribute. -/
theorem get?_gathered (results : List (Option (String × Value))) (n : String) :
    (gathered order properties results occurrences).get? n =
      (lastAssigned n (listAssignments order properties occurrences)).or
        ((lastAssigned n (occurrences.filterMap occurrenceAssignment?)).or
          (lastAssigned n results.reduceOption)) := by
  have helements (fields : Fields) : occurrences.foldl setOccurrence fields =
      (occurrences.filterMap occurrenceAssignment?).foldl
        (fun (fields : Fields) a ↦ fields.set a.1 a.2) fields := by
    rw [List.foldl_filterMap]
    congr
    funext fields o
    unfold setOccurrence occurrenceAssignment?
    split <;> rfl
  unfold gathered
  rw [get?_setLists, helements, Fields.get?_foldl_set, Fields.get?_foldl_set, Fields.get?,
    Option.or_none]

/-- What is assigned for a list is the list of a repeated element property of the name. -/
theorem mem_listAssignments {n : String} {v : Value}
    (h : (n, v) ∈ listAssignments order properties occurrences) :
    ∃ p i, (p, i) ∈ properties.zipIdx ∧ p.isMultiple = true ∧ p.isAttribute = false ∧ p.name = n ∧
      v = .list ((occurrences.filter (·.index = i)).map (·.value)) := by
  obtain ⟨⟨p, i⟩, hp, hassigned⟩ := List.mem_filterMap.mp h
  unfold listAssignment? at hassigned
  split at hassigned
  · next hm =>
    cases hassigned
    exact ⟨p, i, mem_arrange.mp hp, hm.1, by simpa using hm.2, rfl, rfl⟩
  · cases hassigned

/-! ### The order of lists -/

/-- The names of the fields that a structure sets to lists. -/
def listNames (properties : List Property) : List String :=
  (properties.filter fun p ↦ p.isMultiple && !p.isAttribute).map (·.name)

private theorem eq_of_mem_listNames (hnames : (listNames properties).Nodup)
    {p q : Property × Nat} (hp : p ∈ properties.zipIdx) (hq : q ∈ properties.zipIdx)
    (hp' : (p.1.isMultiple && !p.1.isAttribute) = true)
    (hq' : (q.1.isMultiple && !q.1.isAttribute) = true) (h : q.1.name = p.1.name) : q = p := by
  have hplaced : listNames properties =
      (properties.zipIdx.filter fun p ↦ p.1.isMultiple && !p.1.isAttribute).map (·.1.name) := by
    rw [listNames, ← List.zipIdx_map_fst 0 properties, List.filter_map, List.map_map]
    simp [Function.comp_def]
  rw [hplaced] at hnames
  exact List.inj_on_of_nodup_map hnames (List.mem_filter.mpr ⟨hq, hq'⟩)
    (List.mem_filter.mpr ⟨hp, hp'⟩) h

private theorem foldl_setRepeated_eq_self {row : List (Property × Nat)} {fields : Fields}
    (h : ∀ p ∈ row, ∀ n v, listAssignment? occurrences p = some (n, v) → fields.get? n = some v) :
    row.foldl (setRepeated occurrences) fields = fields := by
  induction row with
  | nil => rfl
  | cons p row ih =>
    have hset : setRepeated occurrences fields p = fields := by
      unfold setRepeated
      split
      · next hm => exact Fields.set_eq_self (h p List.mem_cons_self _ _ (if_pos hm))
      · rfl
    rw [List.foldl_cons, hset]
    exact ih fun q hq ↦ h q (List.mem_cons_of_mem _ hq)

/-- Where the fields of repeated properties have different names, their lists are set alike in all
orders. -/
theorem setLists_eq_of_nodup (hnames : (listNames properties).Nodup) (fields : Fields) :
    setLists order occurrences properties fields =
      properties.zipIdx.foldl (setRepeated occurrences) fields := by
  -- Each list is in its field after the first pass, as no other one is assigned to it.
  refine foldl_setRepeated_eq_self fun p hp n v hassigned ↦ ?_
  have hmem := mem_arrange.mp hp
  rw [get?_foldl_setRepeated, lastAssigned_eq_some (List.mem_filterMap.mpr ⟨p, hmem, hassigned⟩),
    Option.some_or]
  intro w hw
  obtain ⟨q, hq, hassigned'⟩ := List.mem_filterMap.mp hw
  unfold listAssignment? at hassigned hassigned'
  split at hassigned
  · next hp' =>
    split at hassigned'
    · next hq' =>
      cases hassigned
      obtain ⟨hname, hvalue⟩ := Prod.mk.inj (Option.some.inj hassigned')
      rw [← hvalue, eq_of_mem_listNames hnames hmem hq (by simpa using hp') (by simpa using hq')
        hname]
    · cases hassigned'
  · cases hassigned

/-! ### Fields of properties with different names -/

section Fields

variable (hnames : (properties.map (·.name)).Nodup)
  (hplaces : ∀ o ∈ occurrences, (o.property, o.index) ∈ properties.zipIdx ∧
    o.property.isAttribute = false)
  (read : Property → Option Value)

/-- What is read for the attributes of a structure. -/
def attributeResults (properties : List Property) (read : Property → Option Value) :
    List (Option (String × Value)) :=
  (properties.filter (·.isAttribute)).map fun p ↦ (read p).map (p.name, ·)

/-- What is assigned for an attribute is what was read for one of the name. -/
theorem mem_attributeResults {n : String} {v : Value} :
    (n, v) ∈ (attributeResults properties read).reduceOption ↔
      ∃ p ∈ properties, p.isAttribute = true ∧ p.name = n ∧ read p = some v := by
  rw [List.reduceOption_mem_iff, attributeResults, List.mem_map]
  constructor
  · rintro ⟨p, hp, hread⟩
    obtain ⟨w, hw, he⟩ := Option.map_eq_some_iff.mp hread
    cases he
    exact ⟨p, (List.mem_filter.mp hp).1, (List.mem_filter.mp hp).2, rfl, hw⟩
  · rintro ⟨p, hp, ha, rfl, hread⟩
    exact ⟨p, List.mem_filter.mpr ⟨hp, ha⟩, by rw [hread, Option.map_some]⟩

/-- Without elements a structure has what was read for its attributes, and empty lists. -/
theorem get?_gathered_nil {n : String} {v : Value}
    (h : (gathered order properties (attributeResults properties read) []).get? n = some v) :
    ∃ p ∈ properties, p.name = n ∧
      if p.isAttribute then read p = some v else p.isMultiple = true ∧ v = .list [] := by
  rw [get?_gathered] at h
  rcases Option.or_eq_some_iff.mp h with hlist | ⟨-, hrest⟩
  · obtain ⟨p, i, hp, hm, ha, hn, rfl⟩ := mem_listAssignments (mem_of_lastAssigned hlist)
    refine ⟨p, List.fst_mem_of_mem_zipIdx hp, hn, ?_⟩
    rw [if_neg (by simp [ha])]
    exact ⟨hm, rfl⟩
  · rcases Option.or_eq_some_iff.mp hrest with hnone | ⟨-, hattribute⟩
    · cases mem_of_lastAssigned hnone
    · obtain ⟨p, hp, ha, hn, hv⟩ := (mem_attributeResults read).mp (mem_of_lastAssigned hattribute)
      exact ⟨p, hp, hn, (if_pos ha).mpr hv⟩

end Fields

end BindingType

end XmlBinding

import Mathlib.Data.List.Forall2
import XmlBinding.Value

/-!
# Fields, equality and heights of values

What is common to all fields of a structure is kept by setting one more. Two structures are equal in
meaning if every field that the first one sets has an equal in the second, and the second one has
nothing else.
-/

namespace XmlBinding

/-! ### Fields -/

/-- Every field that is set has a property together with its value. -/
def Fields.Holds (P : String → Value → Prop) (fields : Fields) : Prop :=
  ∀ n v, fields.get? n = some v → P n v

/-- Setting a field keeps what is common to all fields, if the new one has it. -/
theorem Fields.Holds.set {P : String → Value → Prop} {fields : Fields} (h : fields.Holds P)
    {name : String} {value : Value} (hv : P name value) : (fields.set name value).Holds P := by
  intro n v hn
  rw [Fields.get?_set] at hn
  split at hn
  · next he =>
    cases hn
    rw [he]
    exact hv
  · exact h n v hn

/-- Setting a field to the value that it has changes nothing. -/
theorem Fields.set_eq_self {fields : Fields} {name : String} {value : Value}
    (h : fields.get? name = some value) : fields.set name value = fields := by
  induction fields with
  | nil => cases h
  | cons field rest ih =>
    obtain ⟨n, v⟩ := field
    rw [Fields.get?] at h
    rw [Fields.set]
    split
    · next he =>
      rw [if_pos he] at h
      cases h
      rw [he]
    · next hne =>
      rw [if_neg hne] at h
      rw [ih h]

/-- A field that is set stays so when another one is. -/
theorem Fields.isSome_get?_set {fields : Fields} {n : String} (name : String) (value : Value)
    (h : (fields.get? n).isSome = true) : ((fields.set name value).get? n).isSome = true := by
  rw [Fields.get?_set]
  split
  · rfl
  · exact h

/-- A field that is set stays so through a row of steps, if no step unsets it. -/
theorem Fields.isSome_foldl_of_isSome {α : Type} {f : Fields → α → Fields} {n : String}
    (hkeep : ∀ fields x, (fields.get? n).isSome = true → ((f fields x).get? n).isSome = true)
    (xs : List α) {fields : Fields} (h : (fields.get? n).isSome = true) :
    (Fields.get? n (xs.foldl f fields)).isSome = true := by
  induction xs generalizing fields with
  | nil => exact h
  | cons x xs ih => exact ih (hkeep fields x h)

/-- A field that one step of a row sets is set in the end, if no step unsets it. -/
theorem Fields.isSome_foldl {α : Type} {f : Fields → α → Fields} {n : String}
    (hkeep : ∀ fields x, (fields.get? n).isSome = true → ((f fields x).get? n).isSome = true)
    {xs : List α} {x : α} (hx : x ∈ xs) (hset : ∀ fields, ((f fields x).get? n).isSome = true)
    (fields : Fields) : (Fields.get? n (xs.foldl f fields)).isSome = true := by
  induction xs generalizing fields with
  | nil => cases hx
  | cons y ys ih =>
    rw [List.foldl_cons]
    cases List.mem_cons.mp hx with
    | inl he =>
      subst he
      exact isSome_foldl_of_isSome hkeep ys (hset fields)
    | inr hr => exact ih hr (f fields y)

/-- A field that is not null is one of those listed. -/
theorem Fields.exists_mem_of_get {fields : Fields} {n : String}
    (h : (fields.get n).isNull = false) : ∃ v, (n, v) ∈ fields := by
  induction fields with
  | nil => cases h
  | cons field rest ih =>
    obtain ⟨name, v⟩ := field
    unfold Fields.get at ih h
    rw [Fields.get?] at h
    split at h
    · next he =>
      subst he
      exact ⟨v, List.mem_cons_self⟩
    · obtain ⟨w, hw⟩ := ih h
      exact ⟨w, List.mem_cons_of_mem _ hw⟩

/-! ### Equality -/

/-- Fields are equal in meaning to the fields of another structure if each has an equal there. -/
private theorem Value.beqFields_of_forall {seen : List String} {fs gs : Fields}
    (h : ∀ n v, seen.contains n = false → fs.get? n = some v → (v == gs.get n) = true) :
    beqFields seen fs gs = true := by
  induction fs generalizing seen with
  | nil => rw [beqFields]
  | cons field rest ih =>
    obtain ⟨name, v⟩ := field
    rw [beqFields, Bool.and_eq_true, Bool.or_eq_true]
    constructor
    · cases hs : seen.contains name with
      | true => exact .inl rfl
      | false => exact .inr (h name v hs (by rw [Fields.get?, if_pos rfl]))
    · apply ih
      intro n w hn hw
      rw [List.contains_cons, Bool.or_eq_false_iff, beq_eq_false_iff_ne] at hn
      exact h n w hn.2 (by rw [Fields.get?, if_neg (Ne.symm hn.1)]; exact hw)

/-- Structures of one type are equal in meaning if every field of the first has an equal in the
second, and whatever is not null in the second is set in the first. -/
theorem Value.beq_struct {type : NativeId} {fs gs : Fields}
    (hf : fs.Holds fun n v ↦ (v == gs.get n) = true)
    (hg : ∀ n, (gs.get n).isNull = false → (fs.get? n).isSome = true) :
    (Value.struct type fs == Value.struct type gs) = true := by
  change Value.beq (.struct type fs) (.struct type gs) = true
  rw [beq, Bool.and_eq_true, Bool.and_eq_true]
  refine ⟨⟨decide_eq_true rfl, beqFields_of_forall fun n v _ ↦ hf n v⟩, ?_⟩
  rw [List.all_eq_true]
  intro g _
  cases hn : (Fields.get gs g.1).isNull with
  | true => exact Bool.or_true _
  | false => rw [hg g.1 hn, Bool.true_or]

/-- Lists are equal in meaning if they are item by item. -/
theorem Value.beq_list {as bs : List Value} (h : List.Forall₂ (fun a b ↦ (a == b) = true) as bs) :
    (Value.list as == Value.list bs) = true := by
  change Value.beq (.list as) (.list bs) = true
  rw [beq]
  induction h with
  | nil => rw [beqItems]
  | cons hab _ ih =>
    rw [beqItems, ih, Bool.and_true]
    exact hab

/-! ### Heights -/

/-- The value of a field is no higher than the highest. -/
theorem Value.height_get_le (fields : Fields) (name : String) :
    (fields.get name).height ≤ heightOfFields fields := by
  induction fields with
  | nil => exact Nat.zero_le _
  | cons field rest ih =>
    obtain ⟨n, v⟩ := field
    rw [heightOfFields]
    unfold Fields.get at ih ⊢
    rw [Fields.get?]
    split
    · exact Nat.le_max_left _ _
    · exact Nat.le_trans ih (Nat.le_max_right _ _)

/-- An item is no higher than the highest. -/
theorem Value.height_le_of_mem {items : List Value} {v : Value} (h : v ∈ items) :
    v.height ≤ heightOfItems items := by
  induction items with
  | nil => cases h
  | cons w rest ih =>
    rw [heightOfItems]
    cases List.mem_cons.mp h with
    | inl he =>
      subst he
      exact Nat.le_max_left _ _
    | inr hm => exact Nat.le_trans (ih hm) (Nat.le_max_right _ _)

/-! ### Scalars -/

namespace Value

mutual

/-- The scalars in a value, in order. -/
def scalars : Value → List Scalar
  | .null => []
  | .scalar s => [s]
  | .list items => scalarsOfItems items
  | .struct _ fields => scalarsOfFields fields

/-- The scalars in items. -/
def scalarsOfItems : List Value → List Scalar
  | [] => []
  | v :: rest => scalars v ++ scalarsOfItems rest

/-- The scalars in fields. -/
def scalarsOfFields : List (String × Value) → List Scalar
  | [] => []
  | (_, v) :: rest => scalars v ++ scalarsOfFields rest

end

/-- The scalars in an item are among those in all items. -/
theorem scalars_subset_of_mem {items : List Value} {v : Value} (h : v ∈ items) :
    v.scalars ⊆ scalarsOfItems items := by
  induction items with
  | nil => cases h
  | cons w rest ih =>
    rw [scalarsOfItems]
    cases List.mem_cons.mp h with
    | inl he =>
      subst he
      exact List.subset_append_left _ _
    | inr hm => exact List.Subset.trans (ih hm) (List.subset_append_right _ _)

/-- The scalars in the value of a field are among those in all fields. -/
theorem scalars_get_subset (fields : Fields) (name : String) :
    (fields.get name).scalars ⊆ scalarsOfFields fields := by
  induction fields with
  | nil => exact List.nil_subset _
  | cons field rest ih =>
    obtain ⟨n, v⟩ := field
    rw [scalarsOfFields]
    unfold Fields.get at ih ⊢
    rw [Fields.get?]
    split
    · exact List.subset_append_left _ _
    · exact List.Subset.trans ih (List.subset_append_right _ _)

end Value

end XmlBinding

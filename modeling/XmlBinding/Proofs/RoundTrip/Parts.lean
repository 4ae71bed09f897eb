import XmlBinding.Proofs.Conversion.Structure
import XmlBinding.Proofs.RoundTrip.Conforming
import XmlBinding.Proofs.RoundTrip.Steps

/-!
# Finding parts again

The attributes and the elements that were written for the properties of a structure are found again
by their names, provided that these differ. Elements of one property stand together, in the order of
its items.
-/

namespace XmlBinding

/-! ### Attributes -/

/-- Of attributes with different names, each is found by its name, and none that was left out. -/
theorem attribute?_shown {shown : List ((Property × Value) × Option Attribute)}
    (hname : ∀ s ∈ shown, ∀ a, s.2 = some a → a.name = s.1.1.qname)
    (hnodup : (shown.map (·.1.1.qname)).Nodup) {s : (Property × Value) × Option Attribute}
    (hs : s ∈ shown) :
    attribute? (shown.map Prod.snd).reduceOption s.1.1.qname = s.2.map (·.value) := by
  have hother {rest : List ((Property × Value) × Option Attribute)}
      (hrest : ∀ s ∈ rest, ∀ a, s.2 = some a → a.name = s.1.1.qname) {name : QName}
      (hn : name ∉ rest.map (·.1.1.qname)) :
      attribute? (rest.map Prod.snd).reduceOption name = none := by
    refine attribute?_eq_none fun a ha he ↦ hn ?_
    obtain ⟨t, ht, hsome⟩ := List.mem_map.mp (List.reduceOption_mem_iff.mp ha)
    exact List.mem_map.mpr ⟨t, ht, (hrest t ht a hsome).symm.trans he⟩
  induction shown with
  | nil => cases hs
  | cons t rest ih =>
    have hrest : ∀ s ∈ rest, ∀ a, s.2 = some a → a.name = s.1.1.qname :=
      fun u hu ↦ hname u (List.mem_cons_of_mem _ hu)
    rw [List.map_cons, List.nodup_cons] at hnodup
    obtain ⟨asked, out⟩ := t
    have hsplit (name : QName) :
        attribute? (((asked, out) :: rest).map Prod.snd).reduceOption name =
          (attribute? out.toList name).or
            (attribute? (rest.map Prod.snd).reduceOption name) := by
      rw [← attribute?_append]
      cases out <;> rfl
    rw [hsplit]
    cases List.mem_cons.mp hs with
    | inl he =>
      subst he
      rw [hother hrest hnodup.1, Option.or_none]
      cases out with
      | none => rfl
      | some a =>
        have ha : a.name = asked.1.qname := hname (asked, some a) List.mem_cons_self a rfl
        simp [attribute?, ha]
    | inr hm =>
      have hne : asked.1.qname ≠ s.1.1.qname := by
        intro he
        exact hnodup.1 (List.mem_map.mpr ⟨s, hm, he.symm⟩)
      have hnone : attribute? out.toList s.1.1.qname = none := by
        refine attribute?_eq_none fun a ha ↦ ?_
        rw [hname (asked, out) List.mem_cons_self a (Option.mem_toList.mp ha)]
        exact hne
      rw [hnone, Option.none_or]
      exact ih hrest hnodup.2 hm

/-! ### Elements -/

/-- The elements of a property have its name and its type. -/
theorem Property.of_mem_parts {p : Property} {fields : Fields} {part : Part}
    (h : part ∈ p.parts fields) :
    part.name = p.qname ∧ part.declared = p.type ∧ part.isNillable = p.isNillable := by
  unfold parts at h
  split at h
  · split at h
    · obtain ⟨v, -, rfl⟩ := List.mem_map.mp h
      exact ⟨rfl, rfl, rfl⟩
    · cases h
  · rw [List.mem_singleton] at h
    subst h
    exact ⟨rfl, rfl, rfl⟩

/-- Among the elements of properties with different names, those with the name of one are its
own. -/
theorem Property.filter_parts {fields : Fields} {ps : List Property} {p : Property} (hp : p ∈ ps)
    (hnodup : (ps.map (·.qname)).Nodup) :
    (ps.flatMap (Property.parts fields)).filter (·.name = p.qname) = p.parts fields := by
  have hnone {q : Property} (hq : q.qname ≠ p.qname) :
      (q.parts fields).filter (·.name = p.qname) = [] := by
    apply List.filter_eq_nil_iff.mpr
    intro part hm
    rw [(of_mem_parts hm).1]
    simpa using hq
  induction ps with
  | nil => cases hp
  | cons q rest ih =>
    rw [List.map_cons, List.nodup_cons] at hnodup
    rw [List.flatMap_cons, List.filter_append]
    cases List.mem_cons.mp hp with
    | inl he =>
      subst he
      have hrest : (rest.flatMap (Property.parts fields)).filter (·.name = p.qname) = [] := by
        rw [List.filter_flatMap]
        refine List.flatMap_eq_nil_iff.mpr fun q hq ↦ hnone fun he ↦ ?_
        exact hnodup.1 (List.mem_map.mpr ⟨q, hq, he⟩)
      rw [hrest, List.append_nil]
      apply List.filter_eq_self.mpr
      intro part hm
      simpa using (of_mem_parts hm).1
    | inr hr =>
      rw [hnone fun he ↦ hnodup.1 (List.mem_map.mpr ⟨p, hr, he.symm⟩), List.nil_append]
      exact ih hr hnodup.2

/-! ### Elements that were written -/

namespace Part

/-- The parts that have an element, with their elements. -/
def written (children : List (Part × Option Tree)) : List (Part × Tree) :=
  children.filterMap fun child ↦ child.2.map (child.1, ·)

/-- A part that was written has its element. -/
theorem mem_written {children : List (Part × Option Tree)} {x : Part × Tree} :
    x ∈ written children ↔ (x.1, some x.2) ∈ children := by
  unfold written
  rw [List.mem_filterMap]
  constructor
  · rintro ⟨⟨part, out⟩, hm, he⟩
    obtain ⟨tree, rfl, rfl⟩ := Option.map_eq_some_iff.mp he
    exact hm
  · intro hm
    exact ⟨_, hm, rfl⟩

private theorem map_snd_written (children : List (Part × Option Tree)) :
    (written children).map Prod.snd = (children.map Prod.snd).reduceOption := by
  induction children with
  | nil => rfl
  | cons child rest ih =>
    obtain ⟨part, out⟩ := child
    cases out with
    | none => exact ih
    | some tree => exact congrArg (tree :: ·) ih

/-- All parts of a kind were written, if none of them has no element. -/
theorem map_fst_filter_written (keep : Part → Bool) {children : List (Part × Option Tree)}
    (h : ∀ child ∈ children, keep child.1 = true → child.2.isSome = true) :
    ((written children).filter fun x ↦ keep x.1).map Prod.fst =
      (children.map Prod.fst).filter keep := by
  induction children with
  | nil => rfl
  | cons child rest ih =>
    have hrest := ih fun x hx ↦ h x (List.mem_cons_of_mem _ hx)
    have hfirst := h child List.mem_cons_self
    obtain ⟨part, out⟩ := child
    cases hk : keep part with
    | false =>
      rw [List.map_cons, List.filter_cons_of_neg (by simp [hk]), ← hrest]
      cases out with
      | none => rfl
      | some tree =>
        change (((part, tree) :: written rest).filter _).map Prod.fst = _
        rw [List.filter_cons_of_neg (by simp [hk])]
    | true =>
      rw [List.map_cons, List.filter_cons_of_pos (by simp [hk]), ← hrest]
      cases out with
      | none => cases hfirst hk
      | some tree =>
        change (((part, tree) :: written rest).filter _).map Prod.fst = _
        rw [List.filter_cons_of_pos (by simp [hk])]
        rfl

end Part

/-- What is gathered from the elements that were written, one value for each. -/
theorem Reading.takesContent_written {α : Type} {handle : QName → Reading (List α)}
    {e : CurrentElement} {children : List (Part × Option Tree)} {R : Part → α → Prop}
    (h : ∀ x ∈ Part.written children, ∃ a, R x.1 a ∧ Handles handle e x.2 a) :
    ∃ as, List.Forall₂ (fun x a ↦ R x.1 a) (Part.written children) as ∧
      TakesContent (gather handle) e
        (Tree.entriesOfAll (children.map Prod.snd).reduceOption) as := by
  obtain ⟨as, has⟩ := exists_forall₂ h
  refine ⟨as, has.imp fun _ _ h ↦ h.1, ?_⟩
  rw [← Part.map_snd_written]
  refine takesContent_gather (List.forall₂_map_left_iff.mpr ?_)
  exact has.imp fun _ _ h ↦ h.2

end XmlBinding

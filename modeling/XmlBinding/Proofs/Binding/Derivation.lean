import Mathlib.Logic.Function.Iterate
import XmlBinding.Binding.Catalog

/-!
# Derivation

The bases of a structure form a chain of names, which may break off or lead back into itself. A type
derives from what is on the first stretch of that chain, of 65 names, and nothing behind it is
looked up. Within the stretch derivation is transitive, and so is standing in for one another,
except by way of a polymorphic type that a closed one lists: a closed polymorphic type admits what
derives from its subtypes, and what those admit need not derive from them
(`BindingType.derivation_bounded`).
-/

namespace XmlBinding

namespace BindingType

variable {lookUp : BindingName → Option BindingType}

/-! ### Chains of bases -/

/-- The name after another on a chain of bases: the base of the structure of that name. -/
def nextBase (lookUp : BindingName → Option BindingType) (name? : Option BindingName) :
    Option BindingName :=
  name?.bind fun name ↦ (lookUp name).bind base?

/-- Nothing follows the end of a chain. -/
theorem iterate_nextBase_none (i : Nat) : (nextBase lookUp)^[i] none = none :=
  Function.iterate_fixed rfl i

/-- A chain that is followed `depth` times has `depth + 1` names compared. -/
theorem chainReaches_iff {ancestor : BindingName} {depth : Nat} {next? : Option BindingName} :
    chainReaches lookUp ancestor depth next? ↔
      ∃ i < depth + 1, (nextBase lookUp)^[i] next? = some ancestor := by
  induction depth generalizing next? with
  | zero => cases next? <;> simp [chainReaches]
  | succ depth ih =>
    cases next? with
    | none => simp [chainReaches, iterate_nextBase_none]
    | some name =>
      have hnext : nextBase lookUp (some name) = (lookUp name).bind base? := rfl
      rw [chainReaches, Bool.or_eq_true, ih, Nat.exists_lt_succ_left (n := depth + 1)]
      simp only [Function.iterate_zero_apply, Function.iterate_succ_apply, hnext,
        decide_eq_true_eq, Option.some.injEq]

/-- Only the first `depth` names of a chain are looked up. -/
theorem chainReaches_congr {lookUp' : BindingName → Option BindingType} {ancestor : BindingName}
    {depth : Nat} {next? : Option BindingName}
    (h : ∀ i < depth, ∀ name, (nextBase lookUp)^[i] next? = some name →
      lookUp' name = lookUp name) :
    chainReaches lookUp' ancestor depth next? = chainReaches lookUp ancestor depth next? := by
  induction depth generalizing next? with
  | zero => cases next? <;> rfl
  | succ depth ih =>
    cases next? with
    | none => rfl
    | some name =>
      have hhead : lookUp' name = lookUp name := h 0 depth.succ_pos name rfl
      rw [chainReaches, chainReaches, hhead, ih]
      exact fun i hi ↦ h (i + 1) (Nat.succ_lt_succ hi)

/-! ### Ancestors -/

/-- The name is so many links away from the type: none from its own name, one from its base. -/
def IsAncestor (lookUp : BindingName → Option BindingType) (t : BindingType) :
    (links : Nat) → (name : BindingName) → Prop
  | 0, name => t.name = name
  | i + 1, name => (nextBase lookUp)^[i] t.base? = some name

/-- The ancestors of a resolved type are the names of the chain that begins with its own. -/
private theorem isAncestor_iff_of_resolved {t : BindingType} (ht : lookUp t.name = some t)
    {links : Nat} {name : BindingName} :
    IsAncestor lookUp t links name ↔ (nextBase lookUp)^[links] (some t.name) = some name := by
  cases links with
  | zero => simp [IsAncestor]
  | succ i =>
    have hbase : nextBase lookUp (some t.name) = t.base? := by simp [nextBase, ht]
    rw [IsAncestor, Function.iterate_succ_apply, hbase]

/-- The links to an ancestor and those from there to one of its own add up. -/
private theorem IsAncestor.trans {t s : BindingType} {i j : Nat} {name : BindingName}
    (h : IsAncestor lookUp t i s.name) (ht : lookUp t.name = some t)
    (hs : lookUp s.name = some s) (h' : IsAncestor lookUp s j name) :
    IsAncestor lookUp t (i + j) name := by
  rw [isAncestor_iff_of_resolved ht] at h ⊢
  rw [isAncestor_iff_of_resolved hs] at h'
  rw [Nat.add_comm, Function.iterate_add_apply, h, h']

private theorem IsAncestor.of_base?_eq_none {t : BindingType} (ht : t.base? = none) {links : Nat}
    {name : BindingName} (h : IsAncestor lookUp t links name) : links = 0 ∧ t.name = name := by
  cases links with
  | zero => exact ⟨rfl, h⟩
  | succ i => simp [IsAncestor, ht, iterate_nextBase_none] at h

/-- Derivation leads to the ancestors within the bound. -/
theorem derivesFrom_iff {t : BindingType} {ancestor : BindingName} :
    t.derivesFrom lookUp ancestor ↔
      ∃ links ≤ maxBaseDepth + 1, IsAncestor lookUp t links ancestor := by
  have hlinks : (∃ links ≤ maxBaseDepth + 1, IsAncestor lookUp t links ancestor) ↔
      t.name = ancestor ∨
        ∃ i < maxBaseDepth + 1, (nextBase lookUp)^[i] t.base? = some ancestor := by
    simp only [← Nat.lt_succ_iff]
    exact Nat.exists_lt_succ_left
  rw [hlinks, derivesFrom, Bool.or_eq_true, chainReaches_iff, decide_eq_true_eq]

/-! ### Types that stand in for others -/

/-- The subtypes that a polymorphic type lists. -/
def subtypes (t : BindingType) : List BindingName :=
  match t.kind with
  | .polymorphic _ subtypes => subtypes
  | _ => []

/-- The type is polymorphic and lists its subtypes. -/
def IsClosed (t : BindingType) : Prop := t.subtypes ≠ []

/-- The candidate may stand in for the type, and is so many links away from it, or from the subtype
that it derives from. -/
def AdmitsOver (lookUp : BindingName → Option BindingType) (t : BindingType) (links : Nat)
    (candidate : BindingType) : Prop :=
  match t.kind with
  | .polymorphic _ [] => True
  | .polymorphic _ subtypes => ∃ s ∈ subtypes, IsAncestor lookUp candidate links s
  | .byName _ _ => IsAncestor lookUp candidate links t.name
  | _ => links = 0 ∧ candidate.name = t.name

/-- A closed polymorphic type admits what derives from its subtypes. -/
theorem admits_iff_of_isClosed {t candidate : BindingType} (h : t.IsClosed) :
    t.admits lookUp candidate ↔ ∃ s ∈ t.subtypes, candidate.derivesFrom lookUp s := by
  unfold IsClosed subtypes at h
  unfold admits subtypes
  split <;> simp_all

/-- A type admits what is within the bound from it. -/
theorem admits_iff {t candidate : BindingType} :
    t.admits lookUp candidate ↔
      ∃ links ≤ maxBaseDepth + 1, t.AdmitsOver lookUp links candidate := by
  obtain ⟨name, kind⟩ := t
  cases kind with
  | builtin | list =>
    constructor
    · intro h
      exact ⟨0, Nat.zero_le _, rfl, of_decide_eq_true h⟩
    · rintro ⟨links, -, -, h⟩
      exact decide_eq_true h
  | byName base properties => exact derivesFrom_iff
  | polymorphic base subtypes =>
    cases subtypes with
    | nil => exact iff_of_true rfl ⟨0, Nat.zero_le _, trivial⟩
    | cons s subtypes =>
      have hclosed : IsClosed ⟨name, .polymorphic base (s :: subtypes)⟩ :=
        List.cons_ne_nil s subtypes
      simp only [admits_iff_of_isClosed hclosed, derivesFrom_iff]
      constructor
      · rintro ⟨s', hs, links, hle, h⟩
        exact ⟨links, hle, s', hs, h⟩
      · rintro ⟨links, hle, s', hs, h⟩
        exact ⟨s', hs, links, hle, h⟩

/-- What stands in for a type that is not polymorphic is a descendant of it. -/
private theorem AdmitsOver.isAncestor {t candidate : BindingType} {links : Nat}
    (h : t.AdmitsOver lookUp links candidate) (ht : t.isPolymorphic = false) :
    IsAncestor lookUp candidate links t.name := by
  obtain ⟨name, kind⟩ := t
  cases kind with
  | byName base properties => exact h
  | polymorphic base subtypes => cases ht
  | builtin | list =>
    obtain ⟨rfl, h⟩ := h
    exact h

private theorem base?_of_isPolymorphic {t : BindingType} (h : t.isPolymorphic) :
    t.base? = none := by
  unfold isPolymorphic at h
  unfold base?
  split <;> simp_all

/-- What stands in for a type that stands in for another stands in for that one, over the links of
both, unless the other is a closed polymorphic type that lists a polymorphic one. -/
theorem AdmitsOver.trans {a b c : BindingType} {i j : Nat} (ha : lookUp a.name = some a)
    (hb : lookUp b.name = some b) (hc : lookUp c.name = some c)
    (hclosed : a.IsClosed → b.isPolymorphic → a = b) (hab : a.AdmitsOver lookUp i b)
    (hbc : b.AdmitsOver lookUp j c) : a.AdmitsOver lookUp (j + i) c := by
  have heq : b.name = a.name → b = a := fun hname ↦ Option.some.inj (by rw [← hb, hname, ha])
  have hdesc (h : b.isPolymorphic = false) {name : BindingName} (h' : IsAncestor lookUp b i name) :
      IsAncestor lookUp c (j + i) name := (hbc.isAncestor h).trans hc hb h'
  cases hkind : a.kind with
  | builtin | list =>
    simp only [AdmitsOver, hkind] at hab
    obtain ⟨rfl, hname⟩ := hab
    rw [← heq hname]
    exact hbc
  | byName base properties =>
    simp only [AdmitsOver, hkind] at hab ⊢
    apply hdesc _ hab
    by_contra hpoly
    obtain ⟨-, hname⟩ := hab.of_base?_eq_none (base?_of_isPolymorphic (by simpa using hpoly))
    simp [heq hname, isPolymorphic, hkind] at hpoly
  | polymorphic base subtypes =>
    cases subtypes with
    | nil => simp [AdmitsOver, hkind]
    | cons s subtypes =>
      cases hpoly : b.isPolymorphic with
      | false =>
        simp only [AdmitsOver, hkind] at hab ⊢
        obtain ⟨s', hs, h⟩ := hab
        exact ⟨s', hs, hdesc hpoly h⟩
      | true =>
        obtain rfl := hclosed (by simp [IsClosed, BindingType.subtypes, hkind]) hpoly
        have hi : i = 0 := by
          simp only [AdmitsOver, hkind] at hab
          obtain ⟨s', hs, h⟩ := hab
          exact (h.of_base?_eq_none (base?_of_isPolymorphic hpoly)).1
        rw [hi]
        exact hbc

/-- A type derives from its own name and from the first 65 names of the chain of its bases, of which
64 at most are looked up. It admits what is within that bound from it: a type that is not
polymorphic admits itself, and a closed polymorphic type what derives from one of its subtypes. What
a type admits is also admitted by the types that admit it, if the links to the one and to the other
are within the bound together, unless a closed polymorphic type admits another type that is
polymorphic. -/
theorem derivation_bounded (lookUp : BindingName → Option BindingType) :
    (∀ (t : BindingType) (ancestor : BindingName), t.derivesFrom lookUp ancestor ↔
      t.name = ancestor ∨ ∃ i < 65, (nextBase lookUp)^[i] t.base? = some ancestor) ∧
    (∀ (t : BindingType) (ancestor : BindingName) (lookUp' : BindingName → Option BindingType),
      (∀ i < 64, ∀ name, (nextBase lookUp)^[i] t.base? = some name →
        lookUp' name = lookUp name) →
      t.derivesFrom lookUp' ancestor = t.derivesFrom lookUp ancestor) ∧
    (∀ t candidate : BindingType, t.admits lookUp candidate ↔
      ∃ links ≤ 65, t.AdmitsOver lookUp links candidate) ∧
    (∀ t : BindingType, t.isPolymorphic = false → t.admits lookUp t) ∧
    (∀ (a b c : BindingType) (i j : Nat),
      lookUp a.name = some a → lookUp b.name = some b → lookUp c.name = some c →
      (a.IsClosed → b.isPolymorphic → a = b) →
      a.AdmitsOver lookUp i b → b.AdmitsOver lookUp j c → i + j ≤ 65 → a.admits lookUp c) ∧
    ∀ t candidate : BindingType, t.IsClosed →
      (t.admits lookUp candidate ↔ ∃ s ∈ t.subtypes, candidate.derivesFrom lookUp s) := by
  refine ⟨fun t ancestor ↦ ?_, fun t ancestor lookUp' h ↦ ?_, fun _ _ ↦ admits_iff,
    admits_self lookUp, fun a b c i j ha hb hc hclosed hab hbc hle ↦ ?_,
    fun _ _ ↦ admits_iff_of_isClosed⟩
  · rw [derivesFrom, Bool.or_eq_true, chainReaches_iff, decide_eq_true_eq]
    rfl
  · have hchain : chainReaches lookUp' ancestor maxBaseDepth t.base? =
        chainReaches lookUp ancestor maxBaseDepth t.base? := chainReaches_congr h
    rw [derivesFrom, derivesFrom, hchain]
  · have hbound : j + i ≤ maxBaseDepth + 1 := by
      rw [Nat.add_comm]
      exact hle
    exact admits_iff.mpr ⟨j + i, hbound, .trans ha hb hc hclosed hab hbc⟩

/-! ### Shapes -/

namespace Shapes

/-- The name of a type of shapes. -/
def named (name : String) : BindingName := ⟨⟨name⟩, ⟨"urn:shapes", name⟩⟩

/-- A structure. -/
def shape : BindingType := byName (named "Shape") []

/-- A structure that narrows it. -/
def circle : BindingType := derived (named "Circle") (named "Shape") []

/-- A structure that narrows that one. -/
def disc : BindingType := derived (named "Disc") (named "Circle") []

/-- A closed type of circles. -/
def round : BindingType := polymorphic (named "Round") none [named "Circle"]

/-- A closed type that lists the closed type of circles. -/
def figure : BindingType := polymorphic (named "Figure") none [named "Round"]

/-- The catalog of these types. -/
def catalog : Catalog :=
  ⟨[{ bindings := [shape, circle, disc, round, figure].map .plain, elements := [] }]⟩

end Shapes

open Shapes in
/-- Discs narrow shapes by way of circles, and are admitted where shapes and where only circles are
declared. -/
theorem derivation_bounded_shapes :
    shape.AdmitsOver catalog.typeNamed? 1 circle ∧ circle.AdmitsOver catalog.typeNamed? 1 disc ∧
      catalog.admits shape disc ∧
      round.AdmitsOver catalog.typeNamed? 0 circle ∧ catalog.admits round disc := by
  have hshape : catalog.typeNamed? shape.name = some shape := by rfl
  have hcircle : catalog.typeNamed? circle.name = some circle := by rfl
  have hdisc : catalog.typeNamed? disc.name = some disc := by rfl
  have hround : catalog.typeNamed? round.name = some round := by rfl
  have hsub : round.AdmitsOver catalog.typeNamed? 0 circle := ⟨_, List.mem_singleton_self _, rfl⟩
  obtain ⟨-, -, -, -, htrans, -⟩ := derivation_bounded catalog.typeNamed?
  exact ⟨rfl, rfl,
    htrans shape circle disc 1 1 hshape hcircle hdisc (absurd rfl) rfl rfl (by decide), hsub,
    htrans round circle disc 0 1 hround hcircle hdisc (fun _ h ↦ nomatch h) hsub rfl (by decide)⟩

open Shapes in
/-- A closed type that lists another admits it, but not what the other admits. -/
theorem not_admits_trans :
    catalog.typeNamed? figure.name = some figure ∧ catalog.typeNamed? round.name = some round ∧
      catalog.typeNamed? circle.name = some circle ∧
      figure.AdmitsOver catalog.typeNamed? 0 round ∧ catalog.admits figure round ∧
      round.AdmitsOver catalog.typeNamed? 0 circle ∧ catalog.admits round circle ∧
      ¬ catalog.admits figure circle := by
  have hfigure : figure.AdmitsOver catalog.typeNamed? 0 round :=
    ⟨_, List.mem_singleton_self _, rfl⟩
  have hround : round.AdmitsOver catalog.typeNamed? 0 circle :=
    ⟨_, List.mem_singleton_self _, rfl⟩
  exact ⟨by rfl, by rfl, by rfl, hfigure, by rfl, hround, by rfl, by decide⟩

end BindingType

end XmlBinding

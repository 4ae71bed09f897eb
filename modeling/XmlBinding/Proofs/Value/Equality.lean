import XmlBinding.Proofs.Calendar.Comparison
import XmlBinding.Proofs.Number.Decimal
import XmlBinding.Proofs.Value

/-!
# Equality of values

Comparing values by meaning is symmetric and transitive, and two structures are equal just if they
are of one type and equal in every field, where a field that was never set is null. A value is equal
to itself just if there is no NaN in it, and no moment that universal time has no date for
(`Value.beq?_equivalence`).
-/

namespace XmlBinding

open Number Calendar

/-! ### Moments -/

namespace Calendar.DateTime

variable {a b c : DateTime}

private theorem Equiv.symm (h : Equiv a b) : Equiv b a := by
  obtain ⟨a, x⟩ := a
  obtain ⟨b, y⟩ := b
  cases x <;> cases y <;> simp_all [Equiv]

private theorem Equiv.trans (h : Equiv a b) (h' : Equiv b c) : Equiv a c := by
  obtain ⟨a, x⟩ := a
  obtain ⟨b, y⟩ := b
  obtain ⟨c, z⟩ := c
  cases x <;> cases y <;> cases z <;> simp_all [Equiv]

private theorem Equiv.isSome_offset (h : Equiv a b) : a.offset.isSome = b.offset.isSome := by
  obtain ⟨a, x⟩ := a
  obtain ⟨b, y⟩ := b
  cases x <;> cases y <;> simp_all [Equiv]

private theorem IsBeyond.isSome_offset (h : a.IsBeyond) : a.offset.isSome := by
  obtain ⟨o, ho, -⟩ := h
  exact Option.isSome_of_mem ho

/-- The answer is yes for moments that are the same, unless an offset leads out of the calendar. -/
private theorem equiv?_eq_true_iff :
    equiv? a b = some true ↔ Equiv a b ∧ ¬ a.IsBeyond ∧ ¬ b.IsBeyond := by
  constructor
  · intro h
    have hequiv : Equiv a b := by simpa using eq_of_equiv?_eq_some h
    have hsome : ¬ (a.offset.isSome ∧ b.offset.isSome ∧ (a.IsBeyond ∨ b.IsBeyond)) := by
      rw [← equiv?_eq_none_iff, h]
      simp
    have hoffset := hequiv.isSome_offset
    refine ⟨hequiv, fun ha ↦ hsome ?_, fun hb ↦ hsome ?_⟩
    · exact ⟨ha.isSome_offset, hoffset ▸ ha.isSome_offset, .inl ha⟩
    · exact ⟨hoffset ▸ hb.isSome_offset, hb.isSome_offset, .inr hb⟩
  · rintro ⟨hequiv, ha, hb⟩
    cases h : equiv? a b with
    | none =>
      obtain ⟨-, -, hbeyond⟩ := equiv?_eq_none_iff.mp h
      exact absurd hbeyond (not_or.mpr ⟨ha, hb⟩)
    | some r =>
      have hr := eq_of_equiv?_eq_some h
      simp [hr, hequiv]

end Calendar.DateTime

/-! ### Floating point numbers -/

namespace Number.Binary

variable {f : BinaryFormat} {x y z : Binary f}

private theorem equiv_self_iff : x.Equiv x ↔ ¬ x.IsNaN := by
  simp [Equiv]

private theorem Equiv.symm (h : x.Equiv y) : y.Equiv x := by
  obtain ⟨hx, hy, hsame⟩ := h
  exact ⟨hy, hx, hsame.imp Eq.symm And.symm⟩

private theorem Equiv.trans (h : x.Equiv y) (h' : y.Equiv z) : x.Equiv z := by
  obtain ⟨hx, hy, rfl | ⟨hxzero, hyzero⟩⟩ := h
  · exact h'
  · obtain ⟨-, hz, rfl | ⟨-, hzzero⟩⟩ := h'
    · exact ⟨hx, hy, .inr ⟨hxzero, hyzero⟩⟩
    · exact ⟨hx, hz, .inr ⟨hxzero, hzzero⟩⟩

end Number.Binary

/-! ### Scalars -/

namespace Scalar

variable {a b c : Scalar}

/-- The scalar is a NaN. -/
def IsNaN : Scalar → Prop
  | .binary32 x => x.IsNaN
  | .binary64 x => x.IsNaN
  | _ => False

private theorem beq_self_iff : (a == a) = true ↔ ¬ a.IsNaN := by
  change beq a a = true ↔ _
  cases a with
  | binary32 x => simp [beq, IsNaN, Binary.equiv_self_iff]
  | binary64 x => simp [beq, IsNaN, Binary.equiv_self_iff]
  | decimal d => simp [beq, IsNaN, Decimal.Equiv]
  | dateTime d => simp [beq, IsNaN, DateTime.equiv_refl]
  | bool | integer | string | name | date | time | duration => simp [beq, IsNaN]

private theorem beq_symm (h : (a == b) = true) : (b == a) = true := by
  have hsame : beq a b = true := h
  change beq b a = true
  change beq a b = true at h
  unfold beq at h
  split at h
  · exact decide_eq_true (Eq.symm (of_decide_eq_true h))
  · exact decide_eq_true (of_decide_eq_true h).symm
  · exact decide_eq_true (of_decide_eq_true h).symm
  · exact decide_eq_true (of_decide_eq_true h).symm
  · obtain rfl := of_decide_eq_true h
    exact hsame

private theorem beq_trans (h : (a == b) = true) (h' : (b == c) = true) : (a == c) = true := by
  change beq a b = true at h
  change beq b c = true at h'
  change beq a c = true
  unfold beq at h
  split at h
  case h_5 =>
    obtain rfl := of_decide_eq_true h
    exact h'
  all_goals cases c <;> simp only [beq, decide_eq_true_eq] at h h' ⊢
  all_goals first
    | exact Eq.trans h h'
    | exact h.trans h'
    | cases h'

private theorem exists_dateTime_of_isBeyond (h : (a == b) = true) (ha : a.IsBeyond) :
    ∃ d e, a = .dateTime d ∧ b = .dateTime e := by
  cases a with
  | dateTime d =>
    change beq (.dateTime d) b = true at h
    cases b with
    | dateTime e => exact ⟨d, e, rfl, rfl⟩
    | _ => simp [beq] at h
  | _ => cases ha

/-- Scalars are compared as equal just if they are, and neither is a moment whose offset leads out
of the calendar. -/
private theorem beq?_eq_true_iff :
    beq? a b = some true ↔ (a == b) = true ∧ ¬ a.IsBeyond ∧ ¬ b.IsBeyond := by
  unfold beq?
  split
  · next a b =>
    have hbeq : (dateTime a == dateTime b) = true ↔ DateTime.Equiv a b := decide_eq_true_iff
    rw [hbeq]
    exact DateTime.equiv?_eq_true_iff
  · next hdateTime =>
    rw [Option.some_inj, iff_self_and]
    intro h
    constructor
    · intro ha
      obtain ⟨d, e, rfl, rfl⟩ := exists_dateTime_of_isBeyond h ha
      exact hdateTime d e rfl rfl
    · intro hb
      obtain ⟨e, d, rfl, rfl⟩ := exists_dateTime_of_isBeyond (beq_symm h) hb
      exact hdateTime d e rfl rfl

private theorem isSome_beq? (ha : ¬ a.IsBeyond) (hb : ¬ b.IsBeyond) : (beq? a b).isSome := by
  unfold beq?
  split
  · next a b =>
    cases h : DateTime.equiv? a b with
    | none =>
      obtain ⟨-, -, hbeyond⟩ := DateTime.equiv?_eq_none_iff.mp h
      exact absurd hbeyond (not_or.mpr ⟨ha, hb⟩)
    | some r => rfl
  · rfl

end Scalar

/-! ### Parts of values -/

namespace Value

variable {P : Scalar → Prop}

/-- What holds of null and of scalars, and of lists and structures if it holds of their parts, holds
of all values. -/
@[elab_as_elim]
theorem inductionOnParts {motive : Value → Prop} (v : Value) (null : motive .null)
    (scalar : ∀ s, motive (.scalar s))
    (list : ∀ items, (∀ v ∈ items, motive v) → motive (.list items))
    (struct : ∀ type fields, (∀ n, motive (Fields.get fields n)) → motive (.struct type fields)) :
    motive v := by
  suffices h : ∀ k, ∀ v : Value, v.height ≤ k → motive v from h _ v le_rfl
  intro k
  induction k with
  | zero =>
    intro v hv
    cases v with
    | null => exact null
    | scalar | list | struct => simp [height] at hv
  | succ k ih =>
    intro v hv
    cases v with
    | null => exact null
    | scalar s => exact scalar s
    | list items =>
      rw [height] at hv
      apply list
      intro v hmem
      exact ih v ((height_le_of_mem hmem).trans (by omega))
    | struct type fields =>
      rw [height] at hv
      apply struct
      intro n
      exact ih _ ((height_get_le fields n).trans (by omega))

/-- Every scalar in the value has the property, however deep it lies. -/
inductive All (P : Scalar → Prop) : Value → Prop where
  | null : All P .null
  | scalar {s : Scalar} (h : P s) : All P (.scalar s)
  | list {items : List Value} (h : ∀ v ∈ items, All P v) : All P (.list items)
  | struct {type : NativeId} {fields : Fields} (h : ∀ n, All P (fields.get n)) :
    All P (.struct type fields)

/-! ### Rows and fields -/

private theorem beqItems?_eq_true_iff {as bs : List Value} :
    beqItems? as bs = some true ↔ List.Forall₂ (fun a b ↦ beq? a b = some true) as bs := by
  induction as generalizing bs with
  | nil => cases bs <;> simp [beqItems?]
  | cons a as ih =>
    cases bs with
    | nil => simp [beqItems?]
    | cons b bs =>
      rw [beqItems?, List.forall₂_cons, ← ih]
      cases beq? a b with
      | none => simp
      | some r => cases r <;> simp

private theorem beqFields?_eq_true_iff {seen : List String} {fs gs : Fields} :
    beqFields? seen fs gs = some true ↔
      ∀ n v, n ∉ seen → fs.get? n = some v → beq? v (gs.get n) = some true := by
  induction fs generalizing seen with
  | nil => simp [beqFields?, Fields.get?]
  | cons field rest ih =>
    obtain ⟨name, v⟩ := field
    have hcons : beqFields? seen ((name, v) :: rest) gs = some true ↔
        (name ∉ seen → beq? v (gs.get name) = some true) ∧
          beqFields? (name :: seen) rest gs = some true := by
      rw [beqFields?]
      by_cases hseen : name ∈ seen
      · simp [hseen]
      · cases beq? v (gs.get name) with
        | none => simp [hseen]
        | some r => cases r <;> simp [hseen]
    rw [hcons, ih]
    constructor
    · rintro ⟨hname, hrest⟩ n w hn hw
      rw [Fields.get?] at hw
      split at hw
      · next he =>
        subst he
        obtain rfl := Option.some.inj hw
        exact hname hn
      · next he => exact hrest n w (by simp [hn, Ne.symm he]) hw
    · intro h
      refine ⟨fun hname ↦ h name v hname (by rw [Fields.get?, if_pos rfl]), fun n w hn hw ↦ ?_⟩
      rw [List.mem_cons, not_or] at hn
      exact h n w hn.2 (by rw [Fields.get?, if_neg (Ne.symm hn.1)]; exact hw)

/-- Every field that is null in the first structure, or was never set there, is null in the second
one. -/
private theorem all_isNull_iff {fs gs : Fields} :
    (gs.all fun g ↦ (fs.get? g.1).isSome || (gs.get g.1).isNull) = true ↔
      ∀ n, fs.get? n = none → (gs.get n).isNull = true := by
  rw [List.all_eq_true]
  constructor
  · intro h n hn
    cases hnull : (gs.get n).isNull with
    | true => rfl
    | false =>
      obtain ⟨v, hv⟩ := Fields.exists_mem_of_get hnull
      simpa [hn, hnull] using h (n, v) hv
  · intro h g _
    cases hn : fs.get? g.1 with
    | none => simp [h g.1 hn]
    | some v => simp

/-- Structures are equal just if they are of one type and equal in every field. -/
theorem beq?_struct_iff {t u : NativeId} {fs gs : Fields} :
    beq? (.struct t fs) (.struct u gs) = some true ↔
      t = u ∧ ∀ n, beq? (fs.get n) (gs.get n) = some true := by
  have hnull (v : Value) : beq? .null v = some true ↔ v.isNull = true := by
    cases v <;> simp [beq?, isNull]
  have hfields : (∀ n, beq? (fs.get n) (gs.get n) = some true) ↔
      beqFields? [] fs gs = some true ∧
        (gs.all fun g ↦ (fs.get? g.1).isSome || (gs.get g.1).isNull) = true := by
    rw [beqFields?_eq_true_iff, all_isNull_iff]
    constructor
    · intro h
      refine ⟨fun n v _ hv ↦ ?_, fun n hn ↦ ?_⟩
      · simpa [Fields.get, hv] using h n
      · exact (hnull _).mp (by simpa [Fields.get, hn] using h n)
    · rintro ⟨hset, hunset⟩ n
      cases hn : fs.get? n with
      | none => simpa [Fields.get, hn] using (hnull _).mpr (hunset n hn)
      | some v => simpa [Fields.get, hn] using hset n v List.not_mem_nil hn
  rw [hfields, beq?]
  by_cases ht : t = u
  · cases beqFields? [] fs gs <;> simp [ht]
  · simp [ht]

private theorem beq?_list_iff {as bs : List Value} :
    beq? (.list as) (.list bs) = some true ↔
      List.Forall₂ (fun a b ↦ beq? a b = some true) as bs := by
  rw [beq?, ← beqItems?_eq_true_iff]
  split
  · rfl
  · next hlength =>
    refine iff_of_false (by simp) fun h ↦ hlength ?_
    exact (beqItems?_eq_true_iff.mp h).length_eq

private theorem beq?_scalar_iff {a b : Scalar} :
    beq? (.scalar a) (.scalar b) = some true ↔ (a == b) = true ∧ ¬ a.IsBeyond ∧ ¬ b.IsBeyond := by
  rw [beq?, Scalar.beq?_eq_true_iff]

/-! ### Values -/

private theorem all_list_iff {items : List Value} : All P (.list items) ↔ ∀ v ∈ items, All P v :=
  ⟨fun h ↦ by cases h; assumption, .list⟩

private theorem all_struct_iff {type : NativeId} {fields : Fields} :
    All P (.struct type fields) ↔ ∀ n, All P (fields.get n) :=
  ⟨fun h ↦ by cases h; assumption, .struct⟩

private theorem all_scalar_iff {s : Scalar} : All P (.scalar s) ↔ P s :=
  ⟨fun h ↦ by cases h; assumption, .scalar⟩

private theorem All.imp {Q : Scalar → Prop} (hPQ : ∀ s, P s → Q s) {v : Value} (h : v.All P) :
    v.All Q := by
  induction h with
  | null => exact .null
  | scalar h => exact .scalar (hPQ _ h)
  | list _ ih => exact .list ih
  | struct _ ih => exact .struct ih

/-- A value is equal to itself just if there is no NaN in it, and no moment whose offset leads out
of the calendar. -/
theorem beq?_self_iff (v : Value) :
    beq? v v = some true ↔ v.All fun s ↦ ¬ s.IsNaN ∧ ¬ s.IsBeyond := by
  induction v using inductionOnParts with
  | null => exact iff_of_true (by rw [beq?]) .null
  | scalar s => simp [beq?_scalar_iff, all_scalar_iff, Scalar.beq_self_iff]
  | list items ih =>
    rw [beq?_list_iff, List.forall₂_same, all_list_iff]
    exact forall₂_congr ih
  | struct type fields ih =>
    rw [beq?_struct_iff, all_struct_iff]
    exact (and_iff_right rfl).trans (forall_congr' ih)

/-! ### The shapes of equal values -/

private theorem eq_null_of_beq? {b : Value} (h : beq? .null b = some true) : b = .null := by
  cases b with
  | null => rfl
  | scalar | list | struct => simp [beq?] at h

private theorem exists_scalar_of_beq? {s : Scalar} {b : Value}
    (h : beq? (.scalar s) b = some true) : ∃ t, b = .scalar t := by
  cases b with
  | scalar t => exact ⟨t, rfl⟩
  | null | list | struct => simp [beq?] at h

private theorem exists_list_of_beq? {as : List Value} {b : Value}
    (h : beq? (.list as) b = some true) : ∃ bs, b = .list bs := by
  cases b with
  | list bs => exact ⟨bs, rfl⟩
  | null | scalar | struct => simp [beq?] at h

private theorem exists_struct_of_beq? {type : NativeId} {fs : Fields} {b : Value}
    (h : beq? (.struct type fs) b = some true) : ∃ type' gs, b = .struct type' gs := by
  cases b with
  | struct type' gs => exact ⟨type', gs, rfl⟩
  | null | scalar | list => simp [beq?] at h

/-! ### An equivalence -/

private theorem beq?_symm {a b : Value} (h : beq? a b = some true) : beq? b a = some true := by
  induction a using inductionOnParts generalizing b with
  | null =>
    obtain rfl := eq_null_of_beq? h
    exact h
  | scalar s =>
    obtain ⟨t, rfl⟩ := exists_scalar_of_beq? h
    obtain ⟨hst, hs, ht⟩ := beq?_scalar_iff.mp h
    exact beq?_scalar_iff.mpr ⟨Scalar.beq_symm hst, ht, hs⟩
  | list as ih =>
    obtain ⟨bs, rfl⟩ := exists_list_of_beq? h
    have hboth := (List.forall₂_and_left _ _).mpr ⟨ih, beq?_list_iff.mp h⟩
    exact beq?_list_iff.mpr (hboth.imp fun a b hab ↦ hab.1 hab.2).flip
  | struct type fs ih =>
    obtain ⟨type', gs, rfl⟩ := exists_struct_of_beq? h
    obtain ⟨rfl, hfields⟩ := beq?_struct_iff.mp h
    exact beq?_struct_iff.mpr ⟨rfl, fun n ↦ ih n (hfields n)⟩

/-- Rows are related item by item if each item of the first is, by way of the second row. -/
private theorem forall₂_trans_of_mem {α : Type} {R : α → α → Prop} {as bs cs : List α}
    (htrans : ∀ a ∈ as, ∀ b c, R a b → R b c → R a c) (h : List.Forall₂ R as bs)
    (h' : List.Forall₂ R bs cs) : List.Forall₂ R as cs := by
  induction h generalizing cs with
  | nil => exact h'
  | cons hab _ ih =>
    cases h' with
    | cons hbc h' =>
      rw [List.forall_mem_cons] at htrans
      exact .cons (htrans.1 _ _ hab hbc) (ih htrans.2 h')

private theorem beq?_trans {a b c : Value} (h : beq? a b = some true) (h' : beq? b c = some true) :
    beq? a c = some true := by
  induction a using inductionOnParts generalizing b c with
  | null =>
    obtain rfl := eq_null_of_beq? h
    exact h'
  | scalar s =>
    obtain ⟨t, rfl⟩ := exists_scalar_of_beq? h
    obtain ⟨u, rfl⟩ := exists_scalar_of_beq? h'
    obtain ⟨hst, hs, -⟩ := beq?_scalar_iff.mp h
    obtain ⟨htu, -, hu⟩ := beq?_scalar_iff.mp h'
    exact beq?_scalar_iff.mpr ⟨Scalar.beq_trans hst htu, hs, hu⟩
  | list as ih =>
    obtain ⟨bs, rfl⟩ := exists_list_of_beq? h
    obtain ⟨cs, rfl⟩ := exists_list_of_beq? h'
    rw [beq?_list_iff] at h h' ⊢
    exact forall₂_trans_of_mem (fun a ha b c ↦ ih a ha) h h'
  | struct type fs ih =>
    obtain ⟨type', gs, rfl⟩ := exists_struct_of_beq? h
    obtain ⟨type'', hs, rfl⟩ := exists_struct_of_beq? h'
    obtain ⟨rfl, hfields⟩ := beq?_struct_iff.mp h
    obtain ⟨rfl, hfields'⟩ := beq?_struct_iff.mp h'
    exact beq?_struct_iff.mpr ⟨rfl, fun n ↦ ih n (hfields n) (hfields' n)⟩

/-! ### There is an answer -/

private theorem isSome_beqItems? {as bs : List Value}
    (h : ∀ a ∈ as, ∀ b ∈ bs, (beq? a b).isSome) : (beqItems? as bs).isSome := by
  induction as generalizing bs with
  | nil => cases bs <;> simp [beqItems?]
  | cons a as ih =>
    cases bs with
    | nil => simp [beqItems?]
    | cons b bs =>
      obtain ⟨r, hr⟩ := Option.isSome_iff_exists.mp
        (h a List.mem_cons_self b List.mem_cons_self)
      have hrest := ih fun a ha b hb ↦
        h a (List.mem_cons_of_mem _ ha) b (List.mem_cons_of_mem _ hb)
      rw [beqItems?, hr]
      cases r <;> simp [hrest]

private theorem isSome_beqFields? {seen : List String} {fs gs : Fields}
    (h : ∀ n v, n ∉ seen → fs.get? n = some v → (beq? v (gs.get n)).isSome) :
    (beqFields? seen fs gs).isSome := by
  induction fs generalizing seen with
  | nil => simp [beqFields?]
  | cons field rest ih =>
    obtain ⟨name, v⟩ := field
    have hrest : (beqFields? (name :: seen) rest gs).isSome := by
      apply ih
      intro n w hn hw
      rw [List.mem_cons, not_or] at hn
      exact h n w hn.2 (by rw [Fields.get?, if_neg (Ne.symm hn.1)]; exact hw)
    rw [beqFields?]
    by_cases hseen : name ∈ seen
    · simp [hseen, hrest]
    · obtain ⟨r, hr⟩ := Option.isSome_iff_exists.mp (h name v hseen (by simp [Fields.get?]))
      cases r <;> simp [hseen, hr, hrest]

/-- Values are compared with an answer if no moment in them has an offset that leads out of the
calendar. -/
theorem isSome_beq? {a b : Value} (ha : a.All fun s ↦ ¬ s.IsBeyond)
    (hb : b.All fun s ↦ ¬ s.IsBeyond) : (beq? a b).isSome := by
  induction a using inductionOnParts generalizing b with
  | null => cases b <;> simp [beq?]
  | scalar s =>
    cases b with
    | scalar t =>
      rw [beq?]
      exact Scalar.isSome_beq? (all_scalar_iff.mp ha) (all_scalar_iff.mp hb)
    | null | list | struct => simp [beq?]
  | list as ih =>
    cases b with
    | list bs =>
      rw [all_list_iff] at ha hb
      rw [beq?]
      split
      · exact isSome_beqItems? fun a hmem b hmem' ↦ ih a hmem (ha a hmem) (hb b hmem')
      · rfl
    | null | scalar | struct => simp [beq?]
  | struct type fs ih =>
    cases b with
    | struct type' gs =>
      rw [all_struct_iff] at ha hb
      have hfields : (beqFields? [] fs gs).isSome := by
        apply isSome_beqFields?
        intro n v _ hv
        have hget : fs.get n = v := by simp [Fields.get, hv]
        exact hget ▸ ih n (ha n) (hb n)
      rw [beq?]
      split
      · simpa using hfields
      · rfl
    | null | scalar | list => simp [beq?]

/-- Moments with offsets are compared by the instant, those without by what they show, and one with
an offset is never equal to one without. -/
theorem beq?_dateTime (a b : DateTime) :
    match a.offset, b.offset with
    | some x, some y => ¬ a.IsBeyond → ¬ b.IsBeyond →
      beq? (.scalar (.dateTime a)) (.scalar (.dateTime b)) =
        some (decide (a.value.instant x = b.value.instant y))
    | none, none =>
      beq? (.scalar (.dateTime a)) (.scalar (.dateTime b)) = some (decide (a.value = b.value))
    | _, _ => beq? (.scalar (.dateTime a)) (.scalar (.dateTime b)) = some false := by
  have hbeq : beq? (.scalar (.dateTime a)) (.scalar (.dateTime b)) = DateTime.equiv? a b := by
    rw [beq?, Scalar.beq?]
  simp only [hbeq]
  split
  · next x y hx hy =>
    intro ha hb
    cases h : DateTime.equiv? a b with
    | none =>
      obtain ⟨-, -, hbeyond⟩ := DateTime.equiv?_eq_none_iff.mp h
      exact absurd hbeyond (not_or.mpr ⟨ha, hb⟩)
    | some r => simp [DateTime.eq_of_equiv?_eq_some h, DateTime.Equiv, hx, hy]
  · next hx hy => simp [DateTime.equiv?, DateTime.Equiv, hx, hy]
  · next hboth hneither =>
    cases hx : a.offset <;> cases hy : b.offset <;>
      simp_all [DateTime.equiv?, DateTime.Equiv]

/-- Comparing values is symmetric and transitive, and there is an answer as long as no moment has an
offset that leads out of the calendar. Just the values without such a moment and without a NaN are
equal to themselves. Structures are equal just if they are of one type and equal in every field, one
that was never set being null; decimal numbers are equal just if they are one number, and moments
with offsets just if they are one instant. A moment with an offset is never equal to one without. -/
theorem beq?_equivalence (a b c : Value) :
    (beq? a a = some true ↔ a.All fun s ↦ ¬ s.IsNaN ∧ ¬ s.IsBeyond) ∧
    (beq? a b = some true → beq? b a = some true) ∧
    (beq? a b = some true → beq? b c = some true → beq? a c = some true) ∧
    ((a.All fun s ↦ ¬ s.IsBeyond) → (b.All fun s ↦ ¬ s.IsBeyond) →
      ∃ answer, beq? a b = some answer ∧ beq? b a = some answer) ∧
    (∀ (t u : NativeId) (fs gs : Fields), beq? (.struct t fs) (.struct u gs) = some true ↔
      t = u ∧ ∀ n, beq? (fs.get n) (gs.get n) = some true) ∧
    (∀ a b : Decimal, beq? (.scalar (.decimal a)) (.scalar (.decimal b)) =
      some (decide (a.value = b.value))) ∧
    ∀ a b : DateTime,
      match a.offset, b.offset with
      | some x, some y => ¬ a.IsBeyond → ¬ b.IsBeyond →
        beq? (.scalar (.dateTime a)) (.scalar (.dateTime b)) =
          some (decide (a.value.instant x = b.value.instant y))
      | none, none =>
        beq? (.scalar (.dateTime a)) (.scalar (.dateTime b)) = some (decide (a.value = b.value))
      | _, _ => beq? (.scalar (.dateTime a)) (.scalar (.dateTime b)) = some false := by
  refine ⟨beq?_self_iff a, beq?_symm, beq?_trans, fun ha hb ↦ ?_,
    fun t u fs gs ↦ beq?_struct_iff, fun a b ↦ ?_, beq?_dateTime⟩
  · obtain ⟨r, hr⟩ := Option.isSome_iff_exists.mp (isSome_beq? ha hb)
    obtain ⟨r', hr'⟩ := Option.isSome_iff_exists.mp (isSome_beq? hb ha)
    refine ⟨r, hr, ?_⟩
    -- A yes in one direction is a yes in the other one, so that a no is a no.
    cases r with
    | true => exact beq?_symm hr
    | false =>
      cases r' with
      | true => simp [beq?_symm hr'] at hr
      | false => exact hr'
  · have hbeq : (Scalar.decimal a == Scalar.decimal b) = decide (a.Equiv b) := rfl
    rw [beq?, Scalar.beq?, hbeq, decide_eq_decide.mpr Decimal.equiv_iff]
    simp

/-- Half past midnight on New Year's Day, an hour ahead of universal time. -/
def newYear : DateTime :=
  ⟨⟨⟨2024, 1, 1, by decide⟩, ⟨0, 30, 0, 0, by decide⟩⟩, some ⟨3600, by decide⟩⟩

/-- The same moment on a clock of universal time. -/
def newYearsEve : DateTime := ⟨⟨⟨2023, 12, 31, by decide⟩, ⟨23, 30, 0, 0, by decide⟩⟩, some .utc⟩

/-- A list of one structure, with a price and a moment. -/
def order : Value :=
  .list [.struct ⟨"Order"⟩
    [("price", .scalar (.decimal ⟨15, 1⟩)), ("placed", .scalar (.dateTime newYear))]]

/-- The same in other words, and with a field that is null. -/
def sameOrder : Value :=
  .list [.struct ⟨"Order"⟩
    [("note", .null), ("placed", .scalar (.dateTime newYearsEve)),
      ("price", .scalar (.decimal ⟨150, 2⟩))]]

/-- The two orders are equal, as are the moments in them, and comparing an order with a moment gives
the same answer in either direction. -/
theorem beq?_equivalence_orders :
    beq? order sameOrder = some true ∧ beq? sameOrder order = some true ∧
      beq? sameOrder sameOrder = some true ∧
      (∃ answer, beq? order (.scalar (.dateTime newYear)) = some answer ∧
        beq? (.scalar (.dateTime newYear)) order = some answer) ∧
      beq? (.scalar (.dateTime newYear)) (.scalar (.dateTime newYearsEve)) = some true := by
  have hsame : beq? order sameOrder = some true := by decide +kernel
  have hother := (beq?_equivalence order sameOrder order).2.1 hsame
  have hmoment : beq? (.scalar (.dateTime newYear)) (.scalar (.dateTime newYear)) = some true := by
    decide +kernel
  have hmoment' : beq? (.scalar (.dateTime newYearsEve)) (.scalar (.dateTime newYearsEve)) =
      some true := by decide +kernel
  have hwithin {v : Value} (hv : beq? v v = some true) : v.All fun s ↦ ¬ s.IsBeyond :=
    ((beq?_equivalence v v v).1.mp hv).imp fun _ hs ↦ hs.2
  obtain ⟨-, -, htrans, -⟩ := beq?_equivalence order sameOrder order
  obtain ⟨-, -, htrans', -⟩ := beq?_equivalence sameOrder order sameOrder
  obtain ⟨-, -, -, hanswer, -, -, hdateTime⟩ :=
    beq?_equivalence order (.scalar (.dateTime newYear)) .null
  have hnewYear : ¬ newYear.IsBeyond := all_scalar_iff.mp (hwithin hmoment)
  have hnewYearsEve : ¬ newYearsEve.IsBeyond := all_scalar_iff.mp (hwithin hmoment')
  exact ⟨hsame, hother, htrans' hother hsame,
    hanswer (hwithin (htrans hsame hother)) (hwithin hmoment),
    (hdateTime newYear newYearsEve hnewYear hnewYearsEve).trans (by decide)⟩

/-- A structure without a NaN need not be equal to itself: there is no answer if a moment in it has
an offset that leads out of the calendar. -/
theorem not_beq?_self :
    let moment : DateTime := ⟨⟨.least, ⟨0, 0, 0, 0, by decide⟩⟩, some ⟨50400, by decide⟩⟩
    let v : Value := .struct ⟨"Event"⟩ [("time", .scalar (.dateTime moment))]
    (v.All fun s ↦ ¬ s.IsNaN) ∧ beq? v v = none := by
  intro moment v
  refine ⟨.struct fun n ↦ ?_, by decide +kernel⟩
  by_cases hn : "time" = n
  · subst hn
    exact .scalar not_false
  · have hget : Fields.get [("time", .scalar (.dateTime moment))] n = .null := by
      simp [Fields.get, Fields.get?, hn]
    rw [hget]
    exact .null

end Value

end XmlBinding

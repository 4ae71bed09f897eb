import XmlBinding.Proofs.Context.Recovery
import XmlBinding.Proofs.Marshal.Misshapen

/-!
# Structures outside of a closed set

A polymorphic type that lists its subtypes admits them and what derives from them. A structure whose
own type stands outside is written with the base in place of the polymorphic type, if that has a
binding. Where there is none, or one of plain text, it is rejected; a base that is a structure takes
it for one of its own, and a base that is a list takes it for one without items
(`Context.writeChild_outside`).
-/

namespace XmlBinding

private theorem BindingType.refuses_struct (t : BindingType) (native : NativeId) (fields : Fields) :
    t.Refuses (.struct native fields) := fun _ _ ↦ ⟨_, rfl⟩

namespace Context

variable {c : Context} {declared found base : BindingType} {value value' : Value}
  {effective : Effective}

/-- The own type of a value stands outside of a polymorphic type that lists its subtypes. -/
structure Outside (c : Context) (declared found : BindingType) : Prop where
  isClosed : ∃ base subtypes, declared.kind = .polymorphic base subtypes ∧ subtypes ≠ []
  isOther : found.name ≠ declared.name
  /-- The own type is neither the base nor derived from it. -/
  isUnrelated : ∀ base subtypes, declared.kind = .polymorphic (some base) subtypes →
    c.catalog.derives found base = false
  notAdmitted : c.catalog.admits declared found = false

/-- What is not of the listed subtypes is written with the base, if that has a binding. -/
theorem Outside.effectiveType_eq (h : c.Outside declared found)
    (hfound : c.typeOfValue? value = some found) :
    c.effectiveType value declared = .ok ⟨(c.polymorphicBase? declared).getD declared, false⟩ := by
  obtain ⟨base, subtypes, hkind, -⟩ := h.isClosed
  have hpoly : declared.isPolymorphic = true := by rw [BindingType.isPolymorphic, hkind]
  unfold effectiveType narrowed?
  rw [if_pos (.inl hpoly), hfound]
  dsimp only
  split
  · rfl
  · rw [if_neg (by rw [h.notAdmitted]; exact Bool.false_ne_true), hkind]

/-- A value of the native type of a structure is written as that structure, unmarked. -/
private theorem effectiveType_of_identify {b : Option BindingName} {properties : List Property}
    (hkind : base.kind = .byName b properties)
    (hid : c.identify value = some base.name.native) :
    c.effectiveType value base = .ok ⟨base, false⟩ := by
  have hpoly : base.isPolymorphic = false := by rw [BindingType.isPolymorphic, hkind]
  have hnone : c.narrowed? value base = none := by
    unfold narrowed?
    rw [if_neg (by simp [hpoly, hid])]
  unfold effectiveType
  rw [hnone, polymorphicBase?_eq_none hpoly]
  rfl

/-- Values that one type writes alike have the same elements where they are written with it. -/
private theorem IsGenerated.element_eq (hc : c.IsGenerated) (hnull : value.isNull = false)
    (hnull' : value'.isNull = false) (he : c.effectiveType value declared = .ok effective)
    (he' : c.effectiveType value' base = .ok effective)
    (ht : c.catalog.typeNamed? effective.type.name = some effective.type)
    (hs : effective.type.isSimple = false)
    (hwrite : ∀ s, effective.type.write s value = effective.type.write s value') (strict : Bool)
    (depth : Nat) (outer : NamespaceScope) (nillable : Bool) (name : QName) :
    c.element strict (depth + 1) outer (.child nillable) name value declared =
      c.element strict (depth + 1) outer (.child nillable) name value' base := by
  rw [element_succ c strict depth outer _ name hnull,
    element_succ c strict depth outer _ name hnull']
  obtain ⟨n, hmax⟩ := c.maxHandovers_eq
  unfold valueElement
  rw [he, he', hmax]
  dsimp only
  rw [hc.writer?, ht, Option.map_some]
  dsimp only
  unfold fill
  simp only [hs, hwrite, Bool.false_eq_true, if_false]

/-- A lenient call gives the parent of a structure or a list an element. -/
private theorem IsGenerated.gives_element (hc : c.IsGenerated)
    (ht : c.catalog.typeNamed? declared.name = some declared) (hnull : value.isNull = false)
    (he : c.effectiveType value declared = .ok effective) (hs : effective.type.isSimple = false)
    {depth : Nat} (hdepth : value.height < depth) (name : QName) (nillable : Bool) {d : Draft}
    (hd : d.scope.Clear) (log : WriteLog) : ∃ tree log',
      Drafting.Gives (c.writeChild false depth name value declared nillable) d log () (d.add tree)
        log' := by
  obtain ⟨out, log', hg⟩ := hc.succeeds_element depth d.scope nillable name value declared log
  cases out with
  | some tree => exact ⟨tree, log', gives_writeChild hg⟩
  | none =>
    -- Only what has no text is left out, and these have no need of one.
    have hleft := (hc.element_answers hd hdepth ht hg).2
    rw [if_neg (by rw [hnull]; exact Bool.false_ne_true), LeavesOut, he] at hleft
    have hsimple := hleft.1
    rw [hs] at hsimple
    cases hsimple

/-! ### Children outside of a closed set -/

section Children

variable {native : NativeId} {fields : Fields} (hout : c.Outside declared found)
  (hfound : c.typeOfValue? (.struct native fields) = some found) (hc : c.IsGenerated)
  (ht : c.catalog.typeNamed? declared.name = some declared)
include hout hfound hc ht

/-- Without a base that has a binding, or with one of plain text, the child is rejected. -/
theorem Outside.rejects (hsimple : ∀ base, c.polymorphicBase? declared = some base →
    base.isSimple = true) (strict : Bool) (depth : Nat) (name : QName) (nillable : Bool) :
    c.Rejects strict (depth + 1) name (.struct native fields) declared nillable := by
  refine hc.rejects ht rfl ?_ strict depth name nillable
  rw [LeavesOut, hout.effectiveType_eq hfound]
  refine ⟨?_, BindingType.refuses_struct _ native fields⟩
  cases hbase : c.polymorphicBase? declared with
  | none =>
    obtain ⟨base, subtypes, hkind, -⟩ := hout.isClosed
    rw [Option.getD_none, BindingType.isSimple, hkind]
  | some base => exact hsimple base hbase

/-- With a structure as base, the child is written as one of that structure with the same fields. -/
theorem Outside.writeChild_eq (hbase : c.polymorphicBase? declared = some base)
    {b : Option BindingName} {properties : List Property}
    (hkind : base.kind = .byName b properties) {native' : NativeId}
    (hid : c.identify (.struct native' fields) = some base.name.native) (strict : Bool)
    (depth : Nat) (name : QName) (nillable : Bool) :
    c.writeChild strict (depth + 1) name (.struct native fields) declared nillable =
      c.writeChild strict (depth + 1) name (.struct native' fields) base nillable := by
  have he := hout.effectiveType_eq hfound
  have htype := typeNamed?_of_effectiveType ht he
  rw [hbase, Option.getD_some] at he htype
  have hs : base.isSimple = false := by rw [BindingType.isSimple, hkind]
  have hwrite (s : WriteSession) :
      base.write s (.struct native fields) = base.write s (.struct native' fields) := by
    unfold BindingType.write
    rw [hkind]
    rfl
  have hsame := hc.element_eq rfl rfl he (effectiveType_of_identify hkind hid) htype hs hwrite
    strict depth
  unfold writeChild
  simp only [hsame]

/-- With a structure as base, the parent receives an element. -/
theorem Outside.gives_structure (hbase : c.polymorphicBase? declared = some base)
    {b : Option BindingName} {properties : List Property}
    (hkind : base.kind = .byName b properties) {depth : Nat}
    (hdepth : (Value.struct native fields).height ≤ depth) (name : QName) (nillable : Bool)
    {d : Draft} (hd : d.scope.Clear) (log : WriteLog) : ∃ tree log',
      Drafting.Gives
        (c.writeChild false (depth + 1) name (.struct native fields) declared nillable) d log ()
        (d.add tree) log' := by
  have he := hout.effectiveType_eq hfound
  rw [hbase, Option.getD_some] at he
  have hs : base.isSimple = false := by rw [BindingType.isSimple, hkind]
  exact hc.gives_element ht rfl he hs (Nat.lt_succ_of_le hdepth) name nillable hd log

/-- With a list as base, the parent receives an element with nothing in it, for one problem. -/
theorem Outside.gives_list (hbase : c.polymorphicBase? declared = some base) {item : BindingName}
    {itemElement : QName} (hkind : base.kind = .list item itemElement) (strict : Bool)
    {depth : Nat} (hdepth : (Value.struct native fields).height ≤ depth) (name : QName)
    (nillable : Bool) {d : Draft} (hd : d.scope.Clear) (log : WriteLog) :
    ∃ declarations generated, Drafting.Gives
      (c.writeChild strict (depth + 1) name (.struct native fields) declared nillable) d log
      () (d.add (.element name [] declarations []))
      ⟨generated, log.diagnostics ++ [⟨.notAList base.name native.text, none⟩]⟩ := by
  have he := hout.effectiveType_eq hfound
  rw [hbase, Option.getD_some] at he
  obtain ⟨marks, declarations, generated, hg, hmarks⟩ :=
    hc.gives_misshapen ht rfl he (.list hkind fun _ ↦ nofun) strict (Nat.lt_succ_of_le hdepth)
      name nillable hd log
  cases (hmarks : marks = [])
  exact ⟨declarations, generated, hg⟩

end Children

/-- A child whose own type stands outside of the declared set is rejected if there is no base with a
binding, or one of plain text. A base that is a structure writes it, unmarked, in the same way as a
structure of its own with the same fields; for a base that is a list it is a problem, and the
element has nothing in it. -/
theorem writeChild_outside {settings : Settings} (h : settings.converters = [])
    (bundles : List Bundle)
    (ht : (make settings bundles).catalog.typeNamed? declared.name = some declared)
    {native : NativeId} {fields : Fields}
    (hfound : (make settings bundles).typeOfValue? (.struct native fields) = some found)
    (hout : (make settings bundles).Outside declared found) (strict : Bool) (depth : Nat)
    (name : QName) (nillable : Bool) :
    let c := make settings bundles
    ((∀ base, c.polymorphicBase? declared = some base → base.isSimple = true) →
      c.Rejects strict (depth + 1) name (.struct native fields) declared nillable) ∧
    ∀ base, c.polymorphicBase? declared = some base →
      (∀ b properties, base.kind = .byName b properties →
        (∀ native', c.identify (.struct native' fields) = some base.name.native →
          c.writeChild strict (depth + 1) name (.struct native fields) declared nillable =
            c.writeChild strict (depth + 1) name (.struct native' fields) base nillable) ∧
        ∀ d log, d.scope.Clear → (Value.struct native fields).height ≤ depth → ∃ tree log',
          Drafting.Gives
            (c.writeChild false (depth + 1) name (.struct native fields) declared nillable) d log ()
            (d.add tree) log') ∧
      ∀ item itemElement, base.kind = .list item itemElement →
        ∀ d log, d.scope.Clear → (Value.struct native fields).height ≤ depth →
          ∃ declarations generated, Drafting.Gives
            (c.writeChild strict (depth + 1) name (.struct native fields) declared nillable) d log
            () (d.add (.element name [] declarations []))
            ⟨generated, log.diagnostics ++ [⟨.notAList base.name native.text, none⟩]⟩ := by
  intro c
  have hc : c.IsGenerated := isGenerated_make h bundles
  constructor
  · exact fun hsimple ↦ hout.rejects hfound hc ht hsimple strict depth name nillable
  · intro base hbase
    constructor
    · intro b properties hkind
      exact ⟨fun native' hid ↦ hout.writeChild_eq hfound hc ht hbase hkind hid strict depth name
          nillable,
        fun d log hd hdepth ↦ hout.gives_structure hfound hc ht hbase hkind hdepth name nillable hd
          log⟩
    · intro item itemElement hkind d log hd hdepth
      exact hout.gives_list hfound hc ht hbase hkind strict hdepth name nillable hd log

end Context

/-! ### Squares among round shapes -/

namespace Shapes

/-- The binding of squares, which are not held to be shapes. -/
def square : BindingName := ⟨⟨"Square"⟩, ⟨"urn:shapes", "Square"⟩⟩

/-- The binding of round shapes. -/
def round : BindingName := ⟨⟨"Round"⟩, ⟨"urn:shapes", "Round"⟩⟩

/-- Round shapes are circles, or else plain shapes. -/
def roundShapes : BindingType := .polymorphic round (some shape) [circle]

/-- Shapes, circles, squares and round shapes. -/
def classified : Bundle :=
  ⟨none,
    { bindings := [.plain (.byName shape properties), .plain (.derived circle shape properties),
        .plain (.byName square []), .plain roundShapes]
      elements := [] }, [], []⟩

/-- Squares stand outside of round shapes. -/
theorem outside_square :
    (Context.make .default [classified]).Outside roundShapes (.byName square []) where
  isClosed := ⟨_, _, rfl, by decide⟩
  isOther := by decide
  isUnrelated base subtypes h := by
    cases h
    decide +kernel
  notAdmitted := by decide +kernel

end Shapes

namespace Context

/-- A square where a round shape is declared is written as a plain shape. -/
theorem writeChild_outside_squares :
    Settings.default.converters = [] ∧
      (make .default [Shapes.classified]).catalog.typeNamed? Shapes.roundShapes.name =
        some Shapes.roundShapes ∧
      (make .default [Shapes.classified]).typeOfValue? (.struct Shapes.square.native []) =
        some (.byName Shapes.square []) ∧
      (make .default [Shapes.classified]).Outside Shapes.roundShapes (.byName Shapes.square []) ∧
      (make .default [Shapes.classified]).writeChild false 1 Shapes.root
          (.struct Shapes.square.native []) Shapes.roundShapes false =
        (make .default [Shapes.classified]).writeChild false 1 Shapes.root
          (.struct Shapes.shape.native []) (.byName Shapes.shape Shapes.properties) false := by
  have hnone : Settings.default.converters = [] := rfl
  have hdeclared : (make .default [Shapes.classified]).catalog.typeNamed? Shapes.roundShapes.name =
      some Shapes.roundShapes := by decide +kernel
  have hfound : (make .default [Shapes.classified]).typeOfValue?
      (.struct Shapes.square.native []) = some (.byName Shapes.square []) := by decide +kernel
  have hbase : (make .default [Shapes.classified]).polymorphicBase? Shapes.roundShapes =
      some (.byName Shapes.shape Shapes.properties) := by decide +kernel
  obtain ⟨-, hwritten⟩ := writeChild_outside hnone [Shapes.classified] hdeclared hfound
    Shapes.outside_square false 0 Shapes.root false
  exact ⟨hnone, hdeclared, hfound, Shapes.outside_square,
    ((hwritten _ hbase).1 _ _ rfl).1 Shapes.shape.native rfl⟩

/-- Such a child is not rejected: the square has an element. -/
theorem not_rejects_outside : ¬ ∀ (settings : Settings) (bundles : List Bundle)
    (declared found : BindingType) (native : NativeId) (fields : Fields) (depth : Nat)
    (name : QName) (nillable : Bool), settings.converters = [] →
    (make settings bundles).catalog.typeNamed? declared.name = some declared →
    (make settings bundles).typeOfValue? (.struct native fields) = some found →
    (make settings bundles).Outside declared found →
    (make settings bundles).Rejects false (depth + 1) name (.struct native fields) declared
      nillable := by
  intro h
  have hnothing := (h .default [Shapes.classified] Shapes.roundShapes (.byName Shapes.square [])
    Shapes.square.native [] 0 Shapes.root false rfl (by decide +kernel) (by decide +kernel)
    Shapes.outside_square).length_content (.start .empty Shapes.root) ⟨0, []⟩
  have hwritten : ((((make .default [Shapes.classified]).writeChild false 1 Shapes.root
      (.struct Shapes.square.native []) Shapes.roundShapes false).run
        (.start .empty Shapes.root)).run.run ⟨0, []⟩).1.toOption.map (·.2.content.length) =
          some 1 := by decide +kernel
  exact absurd (hnothing.symm.trans hwritten) (by decide)

end Context

end XmlBinding

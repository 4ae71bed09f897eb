import XmlBinding.Proofs.Marshal.Element
import XmlBinding.Proofs.Marshal.Rejection
import XmlBinding.Proofs.Unmarshal.Fieldwise

/-!
# Values of another shape

A structure that is given something else than a structure, or a list something else than a list,
notes an error when its element is already open, and does not take it back. The element is left with
nothing in it, and is read as a value that is as good as empty (`Context.writeChild_misshapen`).
-/

namespace XmlBinding

open Event

/-- A value has not the shape that a type asks for, which is the given problem. -/
inductive BindingType.Misshapes : BindingType → Value → Problem → Prop
  | byName {type : BindingType} {value : Value} {base : Option BindingName}
      {properties : List Property} (layout : type.kind = .byName base properties)
      (shape : ∀ native fields, value ≠ .struct native fields) :
      Misshapes type value (.notAStructure type.name value.describe)
  | list {type : BindingType} {value : Value} {item : BindingName} {itemElement : QName}
      (layout : type.kind = .list item itemElement) (shape : ∀ items, value ≠ .list items) :
      Misshapes type value (.notAList type.name value.describe)

namespace BindingType.Misshapes

variable {type : BindingType} {value : Value} {problem : Problem}

/-- Something is lost with a value of another shape. -/
theorem severity (h : type.Misshapes value problem) : problem.severity = .error := by
  cases h <;> rfl

/-- The values of the type are not plain text. -/
theorem isSimple (h : type.Misshapes value problem) : type.isSimple = false := by
  unfold BindingType.isSimple
  cases h with
  | byName layout => rw [layout]
  | list layout => rw [layout]

/-- The type is no polymorphic one. -/
theorem isPolymorphic (h : type.Misshapes value problem) : type.isPolymorphic = false := by
  unfold BindingType.isPolymorphic
  cases h with
  | byName layout => rw [layout]
  | list layout => rw [layout]

private theorem attributeValues (h : type.Misshapes value problem) :
    type.attributeValues value = [] := by
  unfold BindingType.attributeValues
  cases h with
  | byName layout shape =>
    rw [layout]
    cases value with
    | struct native fields => exact absurd rfl (shape native fields)
    | _ => rfl
  | list layout => rw [layout]

private theorem parts (h : type.Misshapes value problem) : type.parts value = [] := by
  unfold BindingType.parts
  cases h with
  | byName layout shape =>
    rw [layout]
    cases value with
    | struct native fields => exact absurd rfl (shape native fields)
    | _ => rfl
  | list layout shape =>
    rw [layout]
    cases value with
    | list items => exact absurd rfl (shape items)
    | _ => rfl

/-- Noting the problem is all that writing the value comes to. -/
theorem write (h : type.Misshapes value problem) (s : WriteSession) :
    type.write s value = Drafting.report problem := by
  unfold BindingType.write
  cases h with
  | byName layout shape =>
    rw [layout]
    cases value with
    | struct native fields => exact absurd rfl (shape native fields)
    | _ => rfl
  | list layout shape =>
    rw [layout]
    cases value with
    | list items => exact absurd rfl (shape items)
    | _ => rfl

end BindingType.Misshapes

namespace Context

open Drafting

variable {c : Context} {value : Value} {declared : BindingType} {effective : Effective}
  {problem : Problem}

/-! ### What is written -/

/-- Making the element of a value of another shape is one problem, and the element is kept. -/
private theorem IsGenerated.remarks_misshapen (hc : c.IsGenerated)
    (ht : c.catalog.typeNamed? declared.name = some declared) (hnull : value.isNull = false)
    (he : c.effectiveType value declared = .ok effective)
    (hshape : effective.type.Misshapes value problem) (strict : Bool) (depth : Nat)
    (outer : NamespaceScope) (position : Position) (name : QName) :
    XmlBinding.Remarks (c.element strict (depth + 1) outer position name value declared) problem
      fun out ↦ out.isSome = true := by
  refine hc.remarks_element ht hnull he (fun s ↦ ?_) strict depth outer
  unfold fill
  rw [if_neg (by rw [hshape.isSimple]; exact Bool.false_ne_true)]
  dsimp only
  rw [hshape.write]
  exact (remarks_report _).quietly fun _ _ ↦ quietly_pure rfl

/-- An element that renders a value of another shape has nothing in it but the mark of its type. -/
private theorem Renders.eq_of_misshapes {position : Position} {outer : NamespaceScope}
    {name : QName} {tree : Tree} (h : c.Renders position outer name value declared tree)
    (hnull : value.isNull = false) (he : c.effectiveType value declared = .ok effective)
    (hshape : effective.type.Misshapes value problem) :
    ∃ marks declarations, tree = .element name marks declarations [] ∧
      Marks (outer.push declarations) (effective.marked || position.isMarked)
        effective.type.name.schema marks := by
  cases h with
  | null => cases hnull
  | @made _ _ _ _ _ declarations chosen marks shown texts children opens _ hchosen marking asked _
      content parts =>
    rw [he] at hchosen
    cases hchosen
    rw [hshape.attributeValues] at asked
    rw [hshape.parts] at parts
    rw [ShowsText, if_neg (by rw [hshape.isSimple]; exact Bool.false_ne_true)] at content
    cases List.map_eq_nil_iff.mp asked
    cases List.map_eq_nil_iff.mp parts
    subst content
    refine ⟨marks, declarations, ?_, marking⟩
    rw [List.map_nil, List.map_nil, List.reduceOption_nil, List.reduceOption_nil, List.append_nil,
      List.append_nil]

/-- A child of another shape gives its parent an element that has nothing in it but perhaps a mark,
for one problem. -/
theorem IsGenerated.gives_misshapen (hc : c.IsGenerated)
    (ht : c.catalog.typeNamed? declared.name = some declared) (hnull : value.isNull = false)
    (he : c.effectiveType value declared = .ok effective)
    (hshape : effective.type.Misshapes value problem) (strict : Bool) {depth : Nat}
    (hdepth : value.height < depth) (name : QName) (nillable : Bool) {d : Draft}
    (hd : d.scope.Clear) (log : WriteLog) : ∃ marks declarations generated,
      Drafting.Gives (c.writeChild strict depth name value declared nillable) d log ()
        (d.add (.element name marks declarations []))
        ⟨generated, log.diagnostics ++ [⟨problem, none⟩]⟩ ∧
      Marks (d.scope.push declarations) effective.marked effective.type.name.schema marks := by
  obtain ⟨depth, rfl⟩ := Nat.exists_eq_add_one_of_ne_zero (Nat.ne_zero_of_lt hdepth)
  obtain ⟨out, ⟨generated, diagnostics⟩, hg, hlog, hout⟩ :=
    hc.remarks_misshapen ht hnull he hshape strict depth d.scope (.child nillable) name log
  obtain ⟨tree, rfl⟩ := Option.isSome_iff_exists.mp hout
  have hrenders : c.Renders (.child nillable) d.scope name value declared tree :=
    hc.element_answers hd hdepth ht hg
  obtain ⟨marks, declarations, rfl, hmarks⟩ := hrenders.eq_of_misshapes hnull he hshape
  rw [show (effective.marked || (Position.child nillable).isMarked) = effective.marked from
    Bool.or_false _] at hmarks
  dsimp only at hlog
  subst hlog
  exact ⟨marks, declarations, generated, gives_writeChild hg, hmarks⟩

/-! ### What is read -/

/-- A value was written with the type that its element is read with, if the mark names it. -/
theorem leads_of_effectiveType (he : c.effectiveType value declared = .ok effective)
    (hnamed : effective.marked = true →
      isNCName effective.type.name.schema.localPart.toList = true ∧
        c.catalog.typeOfSchema? effective.type.name.schema = some effective.type.name) :
    c.Leads declared effective := by
  have hplain : c.Leads declared ⟨(c.polymorphicBase? declared).getD declared, false⟩ := by
    rw [Leads, if_neg Bool.false_ne_true]
    unfold polymorphicBase?
    split
    · next base subtypes hkind =>
      cases hbase : c.catalog.typeNamed? base with
      | none => exact .inl rfl
      | some type => exact .inr ⟨base, subtypes, hkind, hbase⟩
    · exact .inl rfl
  unfold effectiveType at he
  dsimp only at he
  split at he
  · cases he
    exact hplain
  · next found _ =>
    split at he
    · cases he
      exact hplain
    · split at he
      · next hadmits =>
        cases he
        obtain ⟨hname, hschema⟩ := hnamed rfl
        rw [Leads, if_pos rfl]
        exact ⟨hname, hschema, hadmits⟩
      · split at he
        · cases he
        · cases he
          exact hplain

/-- An element is read with the type that is chosen for it unless that is a polymorphic one. -/
private theorem typeRead?_of_chosen? {name : QName} {attributes : List Attribute}
    {scope : NamespaceScope} {type : BindingType} (hpoly : type.isPolymorphic = false)
    (h : c.chosen? (some declared) name attributes scope = some type) :
    c.typeRead? (some declared) name attributes scope = some type := by
  rw [typeRead?, h, Option.bind_some]
  split
  · next hkind => exact absurd hkind (BindingType.kind_ne_polymorphic hpoly)
  · rfl

/-- An element that has nothing but the mark of the type that it was written with is read as one of
that type. -/
theorem Leads.readAs?_eq {scope : NamespaceScope} {marks : List Attribute}
    (h : c.Leads declared effective)
    (ht : c.catalog.typeNamed? effective.type.name = some effective.type)
    (hpoly : effective.type.isPolymorphic = false)
    (hmarks : Marks scope effective.marked effective.type.name.schema marks) (name : QName) :
    c.readAs? (some declared) name marks scope = some effective.type := by
  have hread : c.typeRead? (some declared) name marks scope = some effective.type ∧
      marksNull marks = false := by
    unfold Leads at h
    unfold Marks at hmarks
    split at h
    · next hm =>
      obtain ⟨hname, hschema, hadmits⟩ := h
      rw [if_pos hm] at hmarks
      obtain ⟨text, rfl, hresolve⟩ := hmarks
      have hmark : XmlBinding.attribute? [⟨.typeMarker, text⟩] .typeMarker = some text := rfl
      refine ⟨typeRead?_of_chosen? hpoly ?_, rfl⟩
      rw [chosen?, heeded?, hmark, Option.bind_some, hresolve hname, Except.toOption,
        Option.bind_some, hschema, Option.bind_some, ht, Option.filter_some, Option.all_some,
        if_pos (decide_eq_true (.inr hadmits)), Option.some_or, Option.some_or]
    · next hm =>
      rw [if_neg hm] at hmarks
      subst hmarks
      rcases h with hsame | ⟨base, subtypes, hkind, hbase⟩
      · exact ⟨typeRead?_of_chosen? hpoly (hsame ▸ rfl), rfl⟩
      · refine ⟨?_, rfl⟩
        have hchosen : c.chosen? (some declared) name [] scope = some declared := rfl
        rw [typeRead?, hchosen, Option.bind_some, hkind]
        exact hbase
  rw [readAs?, hread.2, if_neg Bool.false_ne_true, hread.1, Option.bind_some, ht]

/-- The value is as good as empty: a list without items, or a structure that has the fields of its
attributes, or of their defaults, and empty lists for its repeated elements. -/
def IsVacant (c : Context) (attributes : List Attribute) (scope : NamespaceScope)
    (type : BindingType) (value : Value) : Prop :=
  match type.kind with
  | .list _ _ => value = .list []
  | .byName _ properties => ∃ fields, value = .struct type.name.native fields ∧
      ∀ n v, Fields.get? n fields = some v → ∃ p ∈ properties, p.name = n ∧
        if p.isAttribute then c.attributeField attributes scope p = some v
        else p.isMultiple = true ∧ v = .list []
  | _ => False

/-- A structure or a list is as good as empty if it is read from an element without content. -/
theorem isVacant_contentValue {type : BindingType} (h : type.Misshapes value problem)
    (attributes : List Attribute) (scope : NamespaceScope) :
    c.IsVacant attributes scope type (c.contentValue attributes scope [] type) := by
  cases h with
  | list layout =>
    rw [IsVacant, layout]
    exact contentValue_of_list layout
  | byName layout =>
    rw [IsVacant, layout]
    refine ⟨_, contentValue_of_structure layout, fun n v hv ↦ ?_⟩
    exact BindingType.get?_gathered_nil (c.attributeField attributes scope) hv

/-! ### Children of another shape -/

/-- A child whose value has another shape than its type asks for is reported once, but not left out:
its parent receives an element that has nothing in it but perhaps a mark. Wherever it stands, this
is read as a value that is as good as empty, unless it is marked with a name that does not lead back
to the type. -/
theorem writeChild_misshapen {settings : Settings} (h : settings.converters = [])
    (bundles : List Bundle)
    (ht : (make settings bundles).catalog.typeNamed? declared.name = some declared)
    (hnull : value.isNull = false)
    (he : (make settings bundles).effectiveType value declared = .ok effective)
    (hshape : effective.type.Misshapes value problem) (strict : Bool) {depth : Nat}
    (hdepth : value.height < depth) (name : QName) (nillable : Bool) {d : Draft}
    (hd : d.scope.Clear) (log : WriteLog) :
    let c := make settings bundles
    problem.severity = .error ∧ ∃ marks declarations generated,
      Drafting.Gives (c.writeChild strict depth name value declared nillable) d log ()
        (d.add (.element name marks declarations []))
        ⟨generated, log.diagnostics ++ [⟨problem, none⟩]⟩ ∧
      Marks (d.scope.push declarations) effective.marked effective.type.name.schema marks ∧
      ((effective.marked = true →
          isNCName effective.type.name.schema.localPart.toList = true ∧
            c.catalog.typeOfSchema? effective.type.name.schema = some effective.type.name) →
        ∃ v, c.IsVacant marks (d.scope.push declarations) effective.type v ∧
          c.ReadsWhole d.scope (some declared)
            (Tree.element name marks declarations []).events v) := by
  intro c
  have hc : c.IsGenerated := isGenerated_make h bundles
  refine ⟨hshape.severity, ?_⟩
  obtain ⟨marks, declarations, generated, hg, hmarks⟩ :=
    hc.gives_misshapen ht hnull he hshape strict hdepth name nillable hd log
  refine ⟨marks, declarations, generated, hg, hmarks, fun hnamed ↦ ?_⟩
  have hread := (leads_of_effectiveType he hnamed).readAs?_eq (typeNamed?_of_effectiveType ht he)
    hshape.isPolymorphic hmarks name
  have hcontent : IsContent [] := rfl
  exact ⟨_, isVacant_contentValue hshape marks _, hc.readsWhole hcontent hread⟩

/-- A shape within a shape is given as a list. It is written as an element without content, and read
as a shape of which nothing is known. -/
theorem writeChild_misshapen_shapes :
    Settings.default.converters = [] ∧
      Shapes.context.catalog.typeNamed? Shapes.shape =
        some (.byName Shapes.shape Shapes.properties) ∧
      Shapes.context.effectiveType (.list []) (.byName Shapes.shape Shapes.properties) =
        .ok ⟨.byName Shapes.shape Shapes.properties, false⟩ ∧
      ∃ marks declarations generated v,
        Drafting.Gives (Shapes.context.writeChild false 2 ⟨"urn:shapes", "inner"⟩ (.list [])
            (.byName Shapes.shape Shapes.properties) true) (.start .empty Shapes.root) ⟨0, []⟩ ()
          ((Draft.start .empty Shapes.root).add
            (.element ⟨"urn:shapes", "inner"⟩ marks declarations []))
          ⟨generated, [⟨.notAStructure Shapes.shape "list", none⟩]⟩ ∧
        Shapes.context.IsVacant marks
          ((Draft.start .empty Shapes.root).scope.push declarations)
          (.byName Shapes.shape Shapes.properties) v ∧
        Shapes.context.ReadsWhole (Draft.start .empty Shapes.root).scope
          (some (.byName Shapes.shape Shapes.properties))
          (Tree.element ⟨"urn:shapes", "inner"⟩ marks declarations []).events v := by
  have hnone : Settings.default.converters = [] := rfl
  have hdeclared : Shapes.context.catalog.typeNamed?
      (BindingType.byName Shapes.shape Shapes.properties).name =
        some (.byName Shapes.shape Shapes.properties) := by decide +kernel
  have heffective : Shapes.context.effectiveType (.list [])
      (.byName Shapes.shape Shapes.properties) =
        .ok ⟨.byName Shapes.shape Shapes.properties, false⟩ := by decide +kernel
  have hscope : (Draft.start .empty Shapes.root).scope.Clear := NamespaceScope.clear_empty.congr rfl
  obtain ⟨-, marks, declarations, generated, hg, -, hread⟩ :=
    writeChild_misshapen hnone [⟨none, Shapes.descriptor, [], []⟩] hdeclared rfl heffective
      (.byName rfl fun _ _ ↦ nofun) false (by decide : (Value.list []).height < 2)
      ⟨"urn:shapes", "inner"⟩ true hscope ⟨0, []⟩
  obtain ⟨v, hv, hwhole⟩ := hread nofun
  exact ⟨hnone, hdeclared, heffective, marks, declarations, generated, v, hg, hv, hwhole⟩

/-- Such a child is not rejected: the shape within has its element. -/
theorem not_rejects_misshapen : ¬ ∀ (settings : Settings) (bundles : List Bundle)
    (declared : BindingType) (value : Value) (effective : Effective) (problem : Problem)
    (depth : Nat) (name : QName) (nillable : Bool), settings.converters = [] →
    (make settings bundles).catalog.typeNamed? declared.name = some declared →
    value.isNull = false → (make settings bundles).effectiveType value declared = .ok effective →
    effective.type.Misshapes value problem →
    (make settings bundles).Rejects false (depth + 1) name value declared nillable := by
  intro h
  have hnothing := (h .default [⟨none, Shapes.descriptor, [], []⟩]
    (.byName Shapes.shape Shapes.properties) (.list [])
    ⟨.byName Shapes.shape Shapes.properties, false⟩ _ 1 ⟨"urn:shapes", "inner"⟩ true rfl
    (by decide +kernel) rfl (by decide +kernel) (.byName rfl fun _ _ ↦ nofun)).length_content
      (.start .empty Shapes.root) ⟨0, []⟩
  have hwritten : (((Shapes.context.writeChild false 2 ⟨"urn:shapes", "inner"⟩ (.list [])
      (.byName Shapes.shape Shapes.properties) true).run (.start .empty Shapes.root)).run.run
        ⟨0, []⟩).1.toOption.map (·.2.content.length) = some 1 := by decide +kernel
  exact absurd (hnothing.symm.trans hwritten) (by decide)

end Context

end XmlBinding

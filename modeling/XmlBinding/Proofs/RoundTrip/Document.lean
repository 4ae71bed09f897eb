import XmlBinding.Proofs.RoundTrip.Element
import XmlBinding.Proofs.RoundTrip.Writing
import XmlBinding.Proofs.Unmarshal.Soundness

/-!
# Documents are read back

What is marshalled for a conforming value is unmarshalled as an equal value, and neither call raises
a diagnostic. Two halves meet at the element of the document: writing without a problem renders the
value, and an element that renders it is read back.
-/

namespace XmlBinding

/-- A call that writes has the result and the diagnostics of its steps. -/
private theorem Outcome.ofWriting_eq {α : Type} {w : Writing α} {a : α} {log : WriteLog}
    (h : XmlBinding.Gives w ⟨0, []⟩ a log) : ofWriting w = ⟨.ok a, log.diagnostics⟩ := by
  unfold XmlBinding.Gives at h
  unfold ofWriting
  rw [h]

/-- A call that reads has the result and the diagnostics of its steps. -/
private theorem Outcome.ofScanning_eq {α : Type} {m : Scanning α} {document : EventStream} {a : α}
    {cursor : Cursor} (h : XmlBinding.Gives m ⟨document.entries, []⟩ a cursor) :
    ofScanning m document = ⟨.ok a, cursor.diagnostics⟩ := by
  unfold XmlBinding.Gives at h
  unfold ofScanning
  rw [h]

namespace Context

variable {c : Context}

/-- Parts are told apart by their names where those of every type in every descriptor are. -/
theorem namesParts_of_forall (h : ∀ d ∈ c.catalog.descriptors, ∀ t ∈ d.types, t.NamesParts) :
    c.NamesParts := by
  intro name type ht
  obtain ⟨d, hd, hm⟩ := Catalog.mem_types_of_typeNamed? ht
  exact h d hd type hm

/-- A conforming value is marshalled without a diagnostic as a document that renders it. -/
theorem IsGenerated.marshalType_eq (hc : c.IsGenerated) (hi : c.identify = Value.nativeId?)
    {options : Options} {value : Value} {name : QName} {declared : BindingName} {type : BindingType}
    (ht : c.catalog.typeNamed? declared = some type) (hv : c.Conforms type value) :
    ∃ root, c.Renders (.root false) .empty name value type root ∧
      c.marshalType options value name declared = ⟨.ok (.ofEvents root.events), []⟩ := by
  have hr := Catalog.typeNamed?_name ht
  have hquiet : Quiet (c.element (c.isStrict options) (value.height + 1) .empty (.root false) name
      value type) := hc.quiet_element hi (Nat.lt_succ_self _) hr hv
  obtain ⟨out, log, hgives, hlog⟩ := hquiet ⟨0, []⟩
  have hanswer := hc.element_answers NamespaceScope.clear_empty (Nat.lt_succ_self _) hr hgives
  cases out with
  | none => cases hanswer.1
  | some root =>
    refine ⟨root, hanswer, ?_⟩
    have hdocument : XmlBinding.Gives (c.document (c.isStrict options) false name value type)
        ⟨0, []⟩ (.ofEvents root.events) log := by
      refine XmlBinding.gives_bind.mpr ⟨_, _, hgives, XmlBinding.gives_pure.mpr ⟨?_, rfl⟩⟩
      rw [Option.toList_some, Tree.eventsOfAll, Tree.eventsOfAll, List.append_nil]
    unfold marshalType marshalDeclared
    rw [ht]
    exact (Outcome.ofWriting_eq hdocument).trans (by rw [hlog])

/-- A document that renders a conforming value is unmarshalled without a diagnostic as an equal
value. -/
theorem IsGenerated.unmarshalType_eq (hc : c.IsGenerated) (hi : c.identify = Value.nativeId?)
    (hn : c.NamesParts) {options : Options} {value : Value} {name : QName} {declared : BindingName}
    {type : BindingType} {root : Tree} (ht : c.catalog.typeNamed? declared = some type)
    (hv : c.Conforms type value) (h : c.Renders (.root false) .empty name value type root) :
    ∃ back, (back == value) = true ∧
      c.unmarshalType options declared (.ofEvents root.events) = ⟨.ok back, []⟩ := by
  obtain ⟨back, hequal, hgives⟩ := hc.readElement_back hi hn h (Catalog.typeNamed?_name ht) rfl hv
    (Nat.le_refl _)
  refine ⟨back, hequal, ?_⟩
  have hroot : XmlBinding.Gives (c.readRoot (c.isStrict options) (some type))
      ⟨(EventStream.ofEvents root.events).entries, []⟩ back ⟨[], []⟩ := by
    refine XmlBinding.gives_bind.mpr ⟨_, _, rfl, ?_⟩
    have hall := hgives [] []
    rw [List.append_nil] at hall
    have hlength : (EventStream.ofEvents root.events).entries.length = root.events.length :=
      List.length_map _
    dsimp only
    rw [hlength]
    exact hall
  unfold unmarshalType unmarshalDeclared
  rw [ht]
  exact Outcome.ofScanning_eq hroot

/-- A conforming value survives the way into a document and back: both calls succeed without a
diagnostic, and the value that is read equals the one that was written. -/
theorem unmarshalType_marshalType {settings : Settings} (h : settings.converters = [])
    (hi : settings.identify = Value.nativeId?) {bundles : List Bundle}
    (hn : (make settings bundles).NamesParts) {declared : BindingName} {type : BindingType}
    (ht : (make settings bundles).catalog.typeNamed? declared = some type) {value : Value}
    (hv : (make settings bundles).Conforms type value) (writing reading : Options) (name : QName) :
    ∃ document back,
      (make settings bundles).marshalType writing value name declared = ⟨.ok document, []⟩ ∧
      (make settings bundles).unmarshalType reading declared document = ⟨.ok back, []⟩ ∧
      (back == value) = true := by
  have hc := isGenerated_make h bundles
  obtain ⟨root, hroot, hmarshal⟩ := hc.marshalType_eq hi ht hv
  obtain ⟨back, hequal, hunmarshal⟩ := hc.unmarshalType_eq hi hn ht hv hroot
  exact ⟨_, back, hmarshal, hunmarshal, hequal⟩

end Context

/-! ### A shape and back -/

namespace Shapes

private theorem forall_properties {P : Property → Prop} :
    (∀ p ∈ properties, P p) ↔
      P (.ofAttribute "kind" (.unqualified "kind") name) ∧
      P (Property.element "inner" ⟨"urn:shapes", "inner"⟩ shape).withNull ∧
      P (Property.element "label" ⟨"urn:shapes", "label"⟩ name).repeated := by
  simp [properties]

/-- Shapes and circles with a name that can be printed, with names that can be, and with a shape
that conforms, fit. -/
private theorem fits {type : BindingType} {base : Option BindingName} {fields : Fields}
    (layout : type.kind = .byName base properties)
    (only : ∀ f ∈ fields, ∃ p ∈ properties, p.name = f.1)
    (kind : (fields.get "kind").isNull = false → (name.codec .qname).RoundTrips (fields.get "kind"))
    (inner : context.Conforms (.byName shape properties) (fields.get "inner"))
    (label : ∃ items, fields.get "label" = .list items ∧
      ∀ v ∈ items, v.isNull = false ∧ context.Conforms (.builtin name .qname) v) :
    context.Fits type (.struct type.name.native fields) := by
  have hname : context.catalog.typeNamed? name = some (.builtin name .qname) := by decide +kernel
  have hshape : context.catalog.typeNamed? shape = some (.byName shape properties) := by
    decide +kernel
  have hresolved {t : BindingType} (n : BindingName) (h : context.catalog.typeNamed? n = some t) :
      (context.catalog.typeNamed? n).isSome = true := by
    rw [h]
    rfl
  obtain ⟨items, hitems, hlabels⟩ := label
  refine .struct layout ?_ ?_ ?_ ?_ ?_ ?_
  · intro n hn
    obtain ⟨v, hv⟩ := Fields.exists_mem_of_get hn
    exact only _ hv
  · exact forall_properties.mpr ⟨fun _ _ ↦ rfl, nofun, nofun⟩
  · exact forall_properties.mpr
      ⟨fun _ hn ↦ ⟨.builtin name .qname, .qname, hname, rfl, kind hn⟩, nofun, nofun⟩
  · refine forall_properties.mpr ⟨nofun, nofun, fun _ _ ↦ ⟨hresolved name hname, items, hitems, ?_⟩⟩
    intro v hv hnull
    rw [(hlabels v hv).1] at hnull
    cases hnull
  · exact forall_properties.mpr
      ⟨nofun, fun _ _ _ _ ↦ hresolved shape hshape, fun _ _ _ _ ↦ hresolved name hname⟩
  · refine forall_properties.mpr ⟨nofun, fun _ part hpart t ht ↦ ?_, fun _ part hpart t ht ↦ ?_⟩
    · cases hshape.symm.trans ht
      cases List.mem_singleton.mp hpart
      exact inner
    · cases hname.symm.trans ht
      rw [Property.parts_of_list rfl hitems] at hpart
      obtain ⟨v, hv, rfl⟩ := List.mem_map.mp hpart
      exact (hlabels v hv).2

private theorem roundTrips_name {q : QName} (h : isNCName q.localPart.toList = true) :
    (name.codec .qname).RoundTrips (.scalar (.name q)) := by
  refine ⟨.name q, ?_, nofun⟩
  change Codec.printName q = _
  rw [Codec.printName, if_pos h]

/-- The shape with a circle in it conforms. The circle narrows the shape that is declared. -/
theorem conforms_value : context.Conforms (.byName shape properties) value := by
  have hlabel {q : QName} (h : isNCName q.localPart.toList = true) :
      (Value.scalar (.name q)).isNull = false ∧
        context.Conforms (.builtin name .qname) (.scalar (.name q)) :=
    ⟨rfl, .plain (.text rfl (roundTrips_name h))⟩
  have hcircle : context.Fits (.derived circle shape properties) (.struct ⟨"Circle"⟩
      [("label", .list [.scalar (.name ⟨"urn:circles", "unit"⟩),
        .scalar (.name (.unqualified "plain"))])]) := by
    refine fits rfl (by decide) nofun .null ⟨_, rfl, ?_⟩
    exact List.forall_mem_cons.mpr ⟨hlabel (by decide +kernel),
      List.forall_mem_cons.mpr ⟨hlabel (by decide +kernel), by simp⟩⟩
  have hfits : context.Fits (.byName shape properties) value := by
    refine fits rfl (by decide) (fun _ ↦ roundTrips_name (by decide +kernel)) ?_ ⟨[], rfl, by simp⟩
    exact .narrower (by decide +kernel) (.inr (by decide +kernel)) (by decide) nofun
      (by decide +kernel) (by decide +kernel) (by decide +kernel) hcircle
  exact .plain hfits

end Shapes

/-- The shape with a circle in it survives the way into a document and back. -/
theorem Context.unmarshalType_marshalType_shapes :
    ∃ document back,
      Shapes.context.marshalType ⟨none, none⟩ Shapes.value ⟨"urn:shapes", "shape"⟩ Shapes.shape =
        ⟨.ok document, []⟩ ∧
      Shapes.context.unmarshalType ⟨none, none⟩ Shapes.shape document = ⟨.ok back, []⟩ ∧
      (back == Shapes.value) = true := by
  have hnone : Settings.default.converters = [] := rfl
  have hidentify : Settings.default.identify = Value.nativeId? := rfl
  have hnames : Shapes.context.NamesParts := namesParts_of_forall (by decide +kernel)
  have htype : Shapes.context.catalog.typeNamed? Shapes.shape =
      some (.byName Shapes.shape Shapes.properties) := by decide +kernel
  exact unmarshalType_marshalType hnone hidentify hnames htype Shapes.conforms_value _ _ _

end XmlBinding

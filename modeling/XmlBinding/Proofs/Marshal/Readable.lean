import XmlBinding.Proofs.Marshal.Document
import XmlBinding.Proofs.Marshal.Ordinary

/-!
# Marshalled documents are readable by their characters

With ordinary bindings, and values without names in reserved namespaces, every element that is made
is ordinary: nothing is reserved in it and no attribute is given twice. Such a document can be read
unless there is a character in it that no document may hold, which only the value can bring in
(`Context.parse_marshalType`).
-/

namespace XmlBinding

open Markup Drafting

/-! ### Ordinary bindings -/

namespace BindingType

/-- The names of the attributes of an element of the type. -/
def attributeNames (t : BindingType) : List QName :=
  (t.properties.filter (·.isAttribute)).map (·.qname)

/-- The names of the child elements of an element of the type. -/
def elementNames (t : BindingType) : List QName :=
  match t.kind with
  | .byName _ properties => (properties.filter (!·.isAttribute)).map (·.qname)
  | .list _ itemElement => [itemElement]
  | _ => []

/-- A type whose names are ordinary, and whose attributes differ from each other and from the mark
of the type. -/
structure IsOrdinary (t : BindingType) : Prop where
  schema : t.name.schema.IsOrdinary
  elements : ∀ n ∈ t.elementNames, n.IsOrdinary
  attributes : ∀ n ∈ t.attributeNames, n.IsOrdinary ∧ n.localPart ≠ "xmlns"
  distinct : (QName.typeMarker :: t.attributeNames).Nodup

instance (t : BindingType) : Decidable t.IsOrdinary :=
  decidable_of_iff (t.name.schema.IsOrdinary ∧ (∀ n ∈ t.elementNames, n.IsOrdinary) ∧
      (∀ n ∈ t.attributeNames, n.IsOrdinary ∧ n.localPart ≠ "xmlns") ∧
      (QName.typeMarker :: t.attributeNames).Nodup)
    ⟨fun h ↦ ⟨h.1, h.2.1, h.2.2.1, h.2.2.2⟩, fun h ↦ ⟨h.1, h.2, h.3, h.4⟩⟩

end BindingType

/-- All types of the descriptor are ordinary. -/
def Descriptor.IsOrdinary (d : Descriptor) : Prop := ∀ t ∈ d.types, t.IsOrdinary

instance (d : Descriptor) : Decidable d.IsOrdinary :=
  inferInstanceAs (Decidable (∀ t ∈ d.types, t.IsOrdinary))

private theorem Descriptor.isOrdinary_builtin : builtin.IsOrdinary := by
  have hchars : QName.schemaUri.toList.all isDocumentChar = true := by decide +kernel
  have htypes : ∀ t ∈ builtin.types, t.name.schema.uri = QName.schemaUri ∧
      IsNamePart t.name.schema.localPart.toList ∧ t.elementNames = [] ∧ t.attributeNames = [] := by
    decide +kernel
  intro t ht
  obtain ⟨huri, hlocal, helements, hattributes⟩ := htypes t ht
  refine ⟨⟨⟨by rw [huri, hchars], hlocal⟩, ?_⟩, by simp [helements], by simp [hattributes], ?_⟩
  · rw [huri]
    decide
  · simp [hattributes]

/-- All types that the catalog resolves are ordinary. -/
def Catalog.IsOrdinary (c : Catalog) : Prop := ∀ name t, c.typeNamed? name = some t → t.IsOrdinary

/-- The catalog of bundles with ordinary types resolves no others. -/
theorem Context.isOrdinary_catalogOf {bundles : List Bundle}
    (h : ∀ b ∈ bundles, b.descriptor.IsOrdinary) : (catalogOf bundles).IsOrdinary := by
  intro name t ht
  obtain ⟨d, hd, ht⟩ := Catalog.mem_types_of_typeNamed? ht
  rcases List.mem_append.mp hd with hd | hd
  · obtain ⟨b, hb, rfl⟩ := List.mem_map.mp hd
    exact h b hb t ht
  · rw [List.mem_singleton.mp hd] at ht
    exact Descriptor.isOrdinary_builtin t ht

/-! ### Sessions -/

namespace Context

/-- What a session offers keeps drafts ordinary. -/
structure Presents (c : Context) (p : Char → Bool) (s : WriteSession) : Prop where
  catalog : s.catalog = c.catalog
  writer (type : BindingType) (h : c.catalog.typeNamed? type.name = some type) :
    ∃ content, s.writer? type.name = some ⟨type.isSimple, type.print, content⟩
  child {name : QName} {value : Value} {type : BindingType} {nillable : Bool}
    (hname : name.IsOrdinary) (hvalue : ∀ x ∈ value.scalars, x.IsOrdinary p)
    (ht : c.catalog.typeNamed? type.name = some type) :
    Ensures (Draft.IsOrdinary p []) (s.child name value type nillable) fun _ ↦ Draft.IsOrdinary p []

variable {c : Context} {p : Char → Bool} (hp : ∀ c, isDocumentChar c = true → p c = true)
  {awaited : List QName} {s : WriteSession}

/-- Meeting a name without a type leaves the draft as it is. -/
theorem ensures_unresolved {P : Draft → Prop} (s : WriteSession) (name : BindingName) :
    Ensures P (s.unresolved name) fun _ ↦ P := by
  unfold WriteSession.unresolved
  split
  · exact ensures_throw _
  · exact ensures_report _

private theorem ensures_without {m : Drafting Unit} {name : QName}
    (h : Ensures (Draft.IsOrdinary p awaited) m fun _ ↦ Draft.IsOrdinary p awaited) :
    Ensures (Draft.IsOrdinary p (name :: awaited)) m fun _ ↦ Draft.IsOrdinary p awaited :=
  ensures_fewer (List.sublist_cons_self _ _) h

include hp in
private theorem Presents.writeAttribute (hs : c.Presents p s) {q : Property} {fields : Fields}
    (hq : q.qname.IsOrdinary ∧ q.qname.localPart ≠ "xmlns")
    (hfields : ∀ x ∈ Value.scalarsOfFields fields, x.IsOrdinary p) :
    Ensures (Draft.IsOrdinary p (q.qname :: awaited)) (q.writeAttribute s fields) fun _ ↦
      Draft.IsOrdinary p awaited := by
  unfold Property.writeAttribute
  dsimp only
  split
  · exact ensures_without (ensures_pure fun _ hd ↦ hd)
  · rw [hs.catalog]
    cases ht : c.catalog.typeNamed? q.type with
    | none => exact ensures_without (ensures_unresolved s _)
    | some type =>
      obtain ⟨content, hw⟩ := hs.writer type (Catalog.typeNamed?_name ht)
      dsimp only
      rw [hw]
      dsimp only
      split
      · exact ensures_without (ensures_report _)
      · have hvalue : ∀ x ∈ (fields.get q.name).scalars, x.IsOrdinary p :=
          fun x hx ↦ hfields x (Value.scalars_get_subset fields q.name hx)
        refine ensures_bind (BindingType.ensures_print hp hvalue) fun r ↦ ?_
        refine ensures_of_forall fun hr ↦ ?_
        cases r with
        | ok text => exact ensures_addAttribute hp hq.1 hq.2 (hr text rfl)
        | error cause => exact ensures_without (ensures_report _)

include hp in
private theorem Presents.writeAttributes (hs : c.Presents p s) {properties : List Property}
    {fields : Fields} (hq : ∀ n ∈ properties.map (·.qname), n.IsOrdinary ∧ n.localPart ≠ "xmlns")
    (hfields : ∀ x ∈ Value.scalarsOfFields fields, x.IsOrdinary p) :
    Ensures (Draft.IsOrdinary p (properties.map (·.qname)))
      (properties.forM (Property.writeAttribute s fields)) fun _ ↦ Draft.IsOrdinary p [] := by
  induction properties with
  | nil => exact ensures_pure fun _ hd ↦ hd
  | cons q rest ih =>
    rw [List.map_cons, List.forall_mem_cons] at hq
    exact ensures_bind (hs.writeAttribute hp hq.1 hfields) fun _ ↦ ih hq.2

private theorem Presents.writeItems (hs : c.Presents p s) {q : Property} {type : BindingType}
    (hq : q.qname.IsOrdinary) (ht : c.catalog.typeNamed? type.name = some type)
    {items : List Value} (hitems : ∀ x ∈ Value.scalarsOfItems items, x.IsOrdinary p) (index : Nat) :
    Ensures (Draft.IsOrdinary p []) (q.writeItems s type index items) fun _ ↦
      Draft.IsOrdinary p [] := by
  induction items generalizing index with
  | nil => exact ensures_pure fun _ hd ↦ hd
  | cons v rest ih =>
    rw [Value.scalarsOfItems, List.forall_mem_append] at hitems
    have hrest := ih hitems.2 (index + 1)
    rw [Property.writeItems]
    split
    · exact ensures_bind (ensures_report _) fun _ ↦ hrest
    · exact ensures_bind (hs.child hq hitems.1 ht) fun _ ↦ hrest

private theorem Presents.writeElement (hs : c.Presents p s) {q : Property} (hq : q.qname.IsOrdinary)
    {fields : Fields} (hfields : ∀ x ∈ Value.scalarsOfFields fields, x.IsOrdinary p) :
    Ensures (Draft.IsOrdinary p []) (q.writeElement s fields) fun _ ↦ Draft.IsOrdinary p [] := by
  have hvalue : ∀ x ∈ (fields.get q.name).scalars, x.IsOrdinary p :=
    fun x hx ↦ hfields x (Value.scalars_get_subset fields q.name hx)
  unfold Property.writeElement
  rw [hs.catalog]
  dsimp only
  cases ht : c.catalog.typeNamed? q.type with
  | none =>
    dsimp only
    split
    · exact ensures_pure fun _ hd ↦ hd
    · exact ensures_unresolved s _
  | some type =>
    have hname := Catalog.typeNamed?_name ht
    dsimp only
    split
    · split
      · exact ensures_pure fun _ hd ↦ hd
      · next items hitems =>
        rw [hitems, Value.scalars] at hvalue
        exact hs.writeItems hq hname hvalue 0
      · exact ensures_report _
    · split
      · exact ensures_pure fun _ hd ↦ hd
      · exact hs.child hq hvalue hname

include hp in
private theorem Presents.writeStructure (hs : c.Presents p s) {name : BindingName}
    {base : Option BindingName} {properties : List Property}
    (ht : (⟨name, .byName base properties⟩ : BindingType).IsOrdinary) {value : Value}
    (hvalue : ∀ x ∈ value.scalars, x.IsOrdinary p) :
    Ensures (Draft.IsOrdinary p ((properties.filter (·.isAttribute)).map (·.qname)))
      (BindingType.writeStructure s name properties value) fun _ ↦ Draft.IsOrdinary p [] := by
  have hreport (problem : Problem) :
      Ensures (Draft.IsOrdinary p ((properties.filter (·.isAttribute)).map (·.qname)))
        (report problem) fun _ ↦ Draft.IsOrdinary p [] :=
    ensures_fewer (List.nil_sublist _) (ensures_report problem)
  cases value with
  | struct native fields =>
    rw [Value.scalars] at hvalue
    rw [BindingType.writeStructure]
    refine ensures_bind (hs.writeAttributes hp ht.attributes hvalue) fun _ ↦ ?_
    refine ensures_forM fun q hq ↦ ?_
    exact hs.writeElement (ht.elements q.qname (List.mem_map_of_mem hq)) hvalue
  | null => exact hreport _
  | scalar x => exact hreport _
  | list items => exact hreport _

private theorem Presents.writeList (hs : c.Presents p s) {name item : BindingName}
    {itemElement : QName} (hname : itemElement.IsOrdinary) {value : Value}
    (hvalue : ∀ x ∈ value.scalars, x.IsOrdinary p) :
    Ensures (Draft.IsOrdinary p []) (BindingType.writeList s name item itemElement value) fun _ ↦
      Draft.IsOrdinary p [] := by
  cases value with
  | list items =>
    rw [Value.scalars] at hvalue
    rw [BindingType.writeList, hs.catalog]
    cases ht : c.catalog.typeNamed? item with
    | none =>
      dsimp only
      split
      · exact ensures_pure fun _ hd ↦ hd
      · exact ensures_unresolved s _
    | some type =>
      refine ensures_forM fun v hv ↦ hs.child hname (fun x hx ↦ ?_) (Catalog.typeNamed?_name ht)
      exact hvalue x (Value.scalars_subset_of_mem hv hx)
  | null => exact ensures_report _
  | scalar x => exact ensures_report _
  | struct native fields => exact ensures_report _

include hp in
/-- The content of an element is filled in by the layout of its type. -/
theorem Presents.write (hs : c.Presents p s) {t : BindingType} (ht : t.IsOrdinary)
    (hsimple : t.isSimple = false) {value : Value}
    (hvalue : ∀ x ∈ value.scalars, x.IsOrdinary p) :
    Ensures (Draft.IsOrdinary p t.attributeNames) (t.write s value) fun _ ↦
      Draft.IsOrdinary p [] := by
  obtain ⟨name, kind⟩ := t
  cases kind with
  | builtin space => cases hsimple
  | byName base properties => exact hs.writeStructure hp ht hvalue
  | list item itemElement =>
    exact hs.writeList (ht.elements itemElement (by simp [BindingType.elementNames])) hvalue
  | polymorphic base subtypes => cases hsimple

include hp in
private theorem Presents.fill (hs : c.Presents p s) {t : BindingType} (ht : t.IsOrdinary)
    (isRoot : Bool) (name : QName) {value : Value} (hvalue : ∀ x ∈ value.scalars, x.IsOrdinary p) :
    Ensures (Draft.IsOrdinary p t.attributeNames)
      (Context.fill ⟨t.isSimple, t.print, t.write s⟩ isRoot name value) fun _ ↦
        Draft.IsOrdinary p [] := by
  unfold Context.fill
  dsimp only
  split
  · refine ensures_bind (BindingType.ensures_print hp hvalue) fun r ↦ ?_
    refine ensures_of_forall fun hr ↦ ensures_fewer (List.nil_sublist _) ?_
    cases r with
    | ok text =>
      exact ensures_bind (ensures_characters (hr text rfl)) fun _ ↦ ensures_pure fun _ hd ↦ hd
    | error cause => exact ensures_bind (ensures_report _) fun _ ↦ ensures_pure fun _ hd ↦ hd
  · next hsimple =>
    exact ensures_bind (hs.write hp ht (by simpa using hsimple) hvalue) fun _ ↦
      ensures_pure fun _ hd ↦ hd

/-! ### Elements -/

include hp in
private theorem ensures_markType {type : BindingType} (ht : type.IsOrdinary) :
    Ensures (Draft.IsOrdinary p (.typeMarker :: awaited)) (markType type) fun _ ↦
      Draft.IsOrdinary p awaited := by
  unfold markType
  refine ensures_bind (ensures_lexicalName hp ht.schema) fun text ↦ ensures_of_forall fun htext ↦ ?_
  exact ensures_addAttribute hp (by decide) (by decide) htext

include hp in
/-- An element that is made and filled in with ordinary parts is ordinary. -/
theorem isOrdinary_of_build {outer : NamespaceScope}
    (houter : ∀ e ∈ outer.declarations, e.IsOrdinary p) {name : QName} (hname : name.IsOrdinary)
    {names : List QName} (hnames : names.Nodup) {body : Drafting Bool}
    (hbody : Ensures (Draft.IsOrdinary p names) body fun _ ↦ Draft.IsOrdinary p [])
    {out : Option Tree} {log log' : WriteLog}
    (h : XmlBinding.Gives (Drafting.build outer name body) log out log') :
    ∀ t ∈ out, t.IsOrdinary p := by
  obtain ⟨pre, d₁, log₁, kept, d', hpre, hrun, rfl⟩ := gives_build h
  have hstart : (Draft.start outer name).IsOrdinary p names :=
    ⟨hname, by simpa [Draft.declarations_scope, Draft.start] using houter, by simp [Draft.start],
      by simpa [Draft.start] using hnames, by simp [Draft.start]⟩
  have huri := all_of_all_isDocumentChar hp hname.isLegible.uri
  have hnamed := (ensures_prefixFor huri hname.free _ _ _ _ _ hstart hpre).1
  intro t ht
  cases kept with
  | false => cases ht
  | true =>
    cases ht
    exact (hbody _ _ _ _ _ hnamed hrun).toTree

include hp in
private theorem isOrdinary_of_nullElement {outer : NamespaceScope}
    (houter : ∀ e ∈ outer.declarations, e.IsOrdinary p) {name : QName} (hname : name.IsOrdinary)
    {out : Option Tree} {log log' : WriteLog}
    (h : XmlBinding.Gives (nullElement outer name) log out log') : ∀ t ∈ out, t.IsOrdinary p := by
  refine isOrdinary_of_build hp houter hname (List.nodup_singleton QName.nilMarker) ?_ h
  refine ensures_bind (ensures_addAttribute hp (by decide) (by decide) ?_) fun _ ↦
    ensures_pure fun _ hd ↦ hd
  exact all_of_all_isDocumentChar hp (by decide)

include hp in
/-- The element of a value that is not null is ordinary, if the session's child elements are. -/
private theorem IsGenerated.isOrdinary_of_valueElement (hc : c.IsGenerated)
    (htypes : c.catalog.IsOrdinary)
    {strict : Bool} {child : QName → Value → BindingType → Bool → Drafting Unit}
    (hs : ∀ n, c.Presents p (c.writeSession strict child (n + 1))) {outer : NamespaceScope}
    (houter : ∀ e ∈ outer.declarations, e.IsOrdinary p) {position : Position} {name : QName}
    (hname : name.IsOrdinary) {value : Value} (hvalue : ∀ x ∈ value.scalars, x.IsOrdinary p)
    {declared : BindingType} (ht : c.catalog.typeNamed? declared.name = some declared)
    {out : Option Tree} {log log' : WriteLog}
    (h : XmlBinding.Gives (c.valueElement (c.writeSession strict child c.maxHandovers) outer
      position name value declared) log out log') : ∀ t ∈ out, t.IsOrdinary p := by
  obtain ⟨n, hn⟩ := c.maxHandovers_eq
  unfold valueElement at h
  rw [hn] at h
  cases he : c.effectiveType value declared with
  | error found =>
    rw [he] at h
    dsimp only at h
    split at h
    · exact absurd h XmlBinding.not_gives_throw
    · obtain ⟨⟨⟩, log₁, -, h⟩ := XmlBinding.gives_bind.mp h
      obtain ⟨rfl, rfl⟩ := XmlBinding.gives_pure.mp h
      simp
  | ok effective =>
    have heffective := typeNamed?_of_effectiveType ht he
    have htype := htypes _ _ heffective
    rw [he] at h
    dsimp only at h
    rw [hc.writer?, heffective] at h
    refine isOrdinary_of_build hp houter hname htype.distinct ?_ h
    have hfill := (hs n).fill hp htype position.isRoot name hvalue
    split
    · exact ensures_bind (ensures_markType hp htype) fun _ ↦ hfill
    · exact ensures_fewer (List.sublist_cons_self _ _) hfill

include hp in
/-- Every element is ordinary. The induction is on the depth that is left to the engine. -/
private theorem IsGenerated.isOrdinary_of_element (hc : c.IsGenerated)
    (htypes : c.catalog.IsOrdinary) {strict : Bool} {depth : Nat} {outer : NamespaceScope}
    (houter : ∀ e ∈ outer.declarations, e.IsOrdinary p) {position : Position} {name : QName}
    (hname : name.IsOrdinary) {value : Value} (hvalue : ∀ x ∈ value.scalars, x.IsOrdinary p)
    {declared : BindingType} (ht : c.catalog.typeNamed? declared.name = some declared)
    {out : Option Tree} {log log' : WriteLog}
    (h : XmlBinding.Gives (c.element strict depth outer position name value declared) log out
      log') : ∀ t ∈ out, t.IsOrdinary p := by
  induction depth generalizing outer position name value declared log out log' with
  | zero =>
    obtain ⟨rfl, rfl⟩ := XmlBinding.gives_pure.mp h
    simp
  | succ depth ih =>
    unfold element at h
    split at h
    · split at h
      · exact isOrdinary_of_nullElement hp houter hname h
      · obtain ⟨rfl, rfl⟩ := XmlBinding.gives_pure.mp h
        simp
    · refine hc.isOrdinary_of_valueElement hp htypes (fun n ↦ ?_) houter hname hvalue ht h
      refine ⟨rfl, fun type ht' ↦ ⟨_, by rw [hc.writer?, ht']; rfl⟩, ?_⟩
      intro name value type nillable hname hvalue ht' d log u d' log' hd hchild
      obtain ⟨out, helement, rfl⟩ := Drafting.gives_addMade
        (fun outer ↦ c.element strict depth outer (.child nillable) name value type) hchild
      have hout := ih hd.scope hname hvalue ht' helement
      cases out with
      | none => exact hd
      | some tree => exact hd.add (hout tree rfl)

end Context

/-! ### Documents -/

namespace Tree

mutual

/-- Within an element, what completes a document completes it behind a tree too. -/
private theorem completes_events (t : Tree) {opened : List QName} (hopened : opened ≠ [])
    {rest : List Event} (h : Completes true opened rest) :
    Completes true opened (t.events ++ rest) := by
  cases t with
  | text s => exact ⟨hopened, h⟩
  | element name attributes declarations content =>
    rw [events, List.cons_append, List.append_assoc]
    refine ⟨fun he ↦ absurd he hopened, completes_eventsOfAll content (List.cons_ne_nil _ _) ?_⟩
    exact ⟨rfl, h⟩

private theorem completes_eventsOfAll (ts : List Tree) {opened : List QName} (hopened : opened ≠ [])
    {rest : List Event} (h : Completes true opened rest) :
    Completes true opened (eventsOfAll ts ++ rest) := by
  cases ts with
  | nil => exact h
  | cons t ts =>
    rw [eventsOfAll, List.append_assoc]
    exact completes_events t hopened (completes_eventsOfAll ts hopened h)

end

private theorem isDocument_events (name : QName) (attributes : List Attribute)
    (declarations : List Declaration) (content : List Tree) :
    IsDocument (Tree.element name attributes declarations content).events := by
  rw [events]
  exact ⟨fun _ ↦ rfl, completes_eventsOfAll content (List.cons_ne_nil _ _) ⟨rfl, rfl, rfl⟩⟩

/-- In a tree in which nothing is declared twice on the way down, tags declare properly. -/
private theorem Scoped.declaresProperly {outer : NamespaceScope} {t : Tree} (h : t.Scoped outer) :
    ∀ e ∈ t.events, e.DeclaresProperly := by
  induction h with
  | text s =>
    intro e he
    rw [events, List.mem_singleton] at he
    rw [he]
    trivial
  | @element outer name attributes declarations content opens parts ih =>
    intro e he
    rw [events] at he
    rcases List.mem_cons.mp he with rfl | he
    · have hclear := opens.clear
      have hown (d : Declaration) (hd : d ∈ declarations) :
          d ∈ (outer.push declarations).declarations := by simp [hd]
      refine ⟨?_, fun d hd ↦ hclear.unreserved d (hown d hd),
        fun d hd _ ↦ hclear.bound d (hown d hd), fun _ d hd hpre ↦ ?_⟩
      · have hprefixes := hclear.prefixes
        rw [NamespaceScope.declarations_push, List.map_append, List.map_reverse] at hprefixes
        exact List.nodup_reverse.mp (hprefixes.sublist (List.sublist_append_left _ _))
      · exact absurd hpre (NamespaceScope.ne_empty_of_isNCName (hclear.named d (hown d hd)))
    · rcases List.mem_append.mp he with he | he
      · obtain ⟨part, hpart, he⟩ := mem_eventsOfAll.mp he
        exact ih part hpart e he
      · rw [List.mem_singleton.mp he]
        trivial

end Tree

namespace Context

variable {c : Context} {p : Char → Bool}

/-- A document with ordinary events is written. Its text is read exactly if a document may hold all
of its characters, as it may if it may hold those of the events, and then with the same content. -/
theorem Documents.parse_toXml_iff {marked : Bool} {name : QName} {value : Value}
    {declared : BindingType} {stream : EventStream} {root : Tree}
    (h : c.Documents marked name value declared stream root)
    (hordinary : ∀ e ∈ stream.events, e.IsOrdinary p) :
    ∃ text, stream.toXml = .ok text ∧
      ((∃ parsed, EventStream.parse text = .ok parsed) ↔
        text.toList.all isDocumentChar = true) ∧
      ((∀ e ∈ stream.events, e.IsLegible) → text.toList.all isDocumentChar = true) ∧
      ∀ parsed, EventStream.parse text = .ok parsed →
        parsed.events.map Event.bare = content stream.events := by
  have hevents : stream.events = root.events := by rw [h.events, EventStream.events_ofEvents]
  refine EventStream.parse_toXml_iff ?_ (fun e he ↦ (hordinary e he).isMadeOf)
    (fun e he ↦ (hordinary e he).isConforming) (fun e he ↦ (hordinary e he).avoidsXmlns) ?_
  · obtain ⟨attributes, declarations, content, rfl⟩ := h.isElement
    rw [hevents]
    exact Tree.isDocument_events name attributes declarations content
  · rw [hevents]
    exact h.isScoped.declaresProperly

/-- The events of a value that is marshalled are ordinary. -/
theorem IsGenerated.isOrdinary_of_marshalType (hp : ∀ c, isDocumentChar c = true → p c = true)
    (hc : c.IsGenerated) (htypes : c.catalog.IsOrdinary) {options : Options} {value : Value}
    (hvalue : ∀ x ∈ value.scalars, x.IsOrdinary p) {name : QName} (hname : name.IsOrdinary)
    {declared : BindingName} {stream : EventStream}
    (h : (c.marshalType options value name declared).result = .ok stream) :
    ∀ e ∈ stream.events, e.IsOrdinary p := by
  obtain ⟨log, h⟩ := gives_of_ofWriting h
  unfold marshalDeclared at h
  cases ht : c.catalog.typeNamed? declared with
  | none =>
    rw [ht] at h
    exact absurd h XmlBinding.not_gives_throw
  | some type =>
    rw [ht] at h
    obtain ⟨out, log₁, helement, h⟩ := XmlBinding.gives_bind.mp h
    obtain ⟨rfl, rfl⟩ := XmlBinding.gives_pure.mp h
    have hout := hc.isOrdinary_of_element hp htypes (by simp [NamespaceScope.empty,
      NamespaceScope.declarations]) hname hvalue (Catalog.typeNamed?_name ht) helement
    intro e he
    rw [EventStream.events_ofEvents] at he
    obtain ⟨t, ht, he⟩ := Tree.mem_eventsOfAll.mp he
    exact hout t (by simpa using ht) e he

/-- With ordinary bindings, every value without names in reserved namespaces that is marshalled is
written. The text is read exactly if a document may hold all of its characters, and then with the
same content; and so it may if it may hold the texts and the namespaces in the value. -/
theorem parse_marshalType {settings : Settings} (hsettings : settings.converters = [])
    {bundles : List Bundle} (hbundles : ∀ b ∈ bundles, b.descriptor.IsOrdinary)
    {options : Options} {value : Value} (hvalue : ∀ s ∈ value.scalars, s.IsFree) {name : QName}
    (hname : name.IsOrdinary) {declared : BindingName} {stream : EventStream}
    (h : ((make settings bundles).marshalType options value name declared).result = .ok stream) :
    ∃ text, stream.toXml = .ok text ∧
      ((∃ parsed, EventStream.parse text = .ok parsed) ↔
        text.toList.all isDocumentChar = true) ∧
      ((∀ s ∈ value.scalars, s.IsMadeOf isDocumentChar) →
        text.toList.all isDocumentChar = true) ∧
      ∀ parsed, EventStream.parse text = .ok parsed →
        parsed.events.map Event.bare = content stream.events := by
  have hc := isGenerated_make hsettings bundles
  have htypes : (make settings bundles).catalog.IsOrdinary := isOrdinary_catalogOf hbundles
  obtain ⟨type, root, -, hdocuments⟩ := hc.documents_marshalType h
  have hany : ∀ s ∈ value.scalars, s.IsOrdinary fun _ ↦ true := fun s hs ↦ ⟨hvalue s hs, by
    cases s <;> simp [Scalar.IsMadeOf]⟩
  obtain ⟨text, htext, hiff, hlegible, hcontent⟩ := hdocuments.parse_toXml_iff
    (hc.isOrdinary_of_marshalType (fun _ _ ↦ rfl) htypes hany hname h)
  refine ⟨text, htext, hiff, fun hmade ↦ hlegible fun e he ↦ ?_, hcontent⟩
  have hordinary := hc.isOrdinary_of_marshalType (fun _ h ↦ h) htypes
    (fun s hs ↦ ⟨hvalue s hs, hmade s hs⟩) hname h
  exact (hordinary e he).isMadeOf.isLegible

/-- The document of a shape is read again. -/
theorem parse_marshalType_shapes :
    (∀ b ∈ Shapes.context.bundles, b.descriptor.IsOrdinary) ∧
      (∀ s ∈ Shapes.value.scalars, s.IsFree ∧ s.IsMadeOf isDocumentChar) ∧
      (QName.mk "urn:shapes" "shape").IsOrdinary ∧
      (Shapes.context.marshalType ⟨none, none⟩ Shapes.value ⟨"urn:shapes", "shape"⟩
        Shapes.shape).result = .ok (.ofEvents Shapes.tree.events) ∧
      ∃ text parsed, (EventStream.ofEvents Shapes.tree.events).toXml = .ok text ∧
        EventStream.parse text = .ok parsed ∧
        parsed.events.map Event.bare = content Shapes.tree.events := by
  have hbundles : ∀ b ∈ Shapes.context.bundles, b.descriptor.IsOrdinary := by decide +kernel
  have hvalue : ∀ s ∈ Shapes.value.scalars, s.IsFree ∧ s.IsMadeOf isDocumentChar := by
    decide +kernel
  have hname : (QName.mk "urn:shapes" "shape").IsOrdinary := by decide +kernel
  have hresult : (Shapes.context.marshalType ⟨none, none⟩ Shapes.value ⟨"urn:shapes", "shape"⟩
      Shapes.shape).result = .ok (.ofEvents Shapes.tree.events) := by decide +kernel
  have hnone : Settings.default.converters = [] := rfl
  refine ⟨hbundles, hvalue, hname, hresult, ?_⟩
  obtain ⟨text, htext, hiff, hlegible, hcontent⟩ := parse_marshalType hnone hbundles
    (fun s hs ↦ (hvalue s hs).1) hname hresult
  obtain ⟨parsed, hparsed⟩ := hiff.mpr (hlegible fun s hs ↦ (hvalue s hs).2)
  exact ⟨text, parsed, htext, hparsed, by simpa using hcontent parsed hparsed⟩

/-- A text with a control character, which nothing keeps from being written, makes a document that
cannot be read. -/
theorem not_parse_marshalType : ¬ ∀ (settings : Settings) (bundles : List Bundle)
    (options : Options) (value : Value) (name : QName) (declared : BindingName)
    (stream : EventStream) (text : String), settings.converters = [] →
    (∀ b ∈ bundles, b.descriptor.IsOrdinary) → name.IsOrdinary →
    ((make settings bundles).marshalType options value name declared).result = .ok stream →
    ((make settings bundles).marshalType options value name declared).raised = [] →
    stream.toXml = .ok text → ∃ parsed, EventStream.parse text = .ok parsed := by
  intro h
  have hrefused : EventStream.parse "<note>a\u0001b</note>" =
      .error (.structural .malformedDocument none) := by rfl
  obtain ⟨parsed, hparsed⟩ := h .default [] ⟨none, none⟩ (.ofString "a\u0001b") ⟨"", "note"⟩
    ⟨⟨"String"⟩, .ofSchema "string"⟩
    (.ofEvents [.opening ⟨"", "note"⟩ [] [], .text "a\u0001b", .closing ⟨"", "note"⟩])
    "<note>a\u0001b</note>" rfl (by simp) (by decide +kernel) (by decide +kernel)
    (by decide +kernel) (by decide +kernel)
  rw [hrefused] at hparsed
  cases hparsed

end Context

end XmlBinding

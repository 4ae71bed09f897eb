import Mathlib.Control.Monad.Basic
import XmlBinding.Proofs.Binding.Encoded

/-!
# Descriptors read a second time

Descriptors are read more leniently than they are written, so the text that a descriptor was read
from need not be the text that it is written as. What is read from the second text is the same
descriptor, exactly if its qualified names are read back from what they are written as. Names in a
namespace always are: the braces keep their parts apart, and the blanks around them have been cut.
A name that was read from empty braces, as in `{} a` or `{}{b}a`, is written without them and may
change.
-/

namespace XmlBinding

open Json Text

/-! ### Names -/

/-- The name is what some text is read as. -/
def QName.IsRead (q : QName) : Prop := ∃ text, ofClark text = .ok q

/-- A name in a namespace is written as the text that it was read from, less the blanks around. -/
theorem QName.IsRead.isClark {q : QName} (h : q.IsRead) (huri : q.uri ≠ "") : q.IsClark := by
  obtain ⟨text, hread⟩ := h
  suffices htext : q.clark.toList = trim text.toList by
    rw [QName.IsClark, ofClark, htext, trim_trim]
    exact hread
  unfold ofClark ofTrimmed at hread
  split at hread
  · cases hread
  · next rest htrim =>
    split at hread
    · cases hread
    · cases hread
    · next uri localPart _ hsplit =>
      obtain ⟨-, rfl⟩ := splitFirst_eq_some_iff.mp hsplit
      obtain rfl := Except.ok.inj hread
      simp [clark, huri, htrim]
  · obtain rfl := Except.ok.inj hread
    exact absurd rfl huri

example : (QName.unqualified " a").IsRead ∧ ¬ (QName.unqualified " a").IsClark :=
  ⟨⟨"\x7b\x7d a", by decide +kernel⟩, by decide +kernel⟩

private theorem QName.isRead_of_ofJson? {v : Json} {q : QName} (h : ofJson? v = some q) :
    q.IsRead := by
  obtain ⟨text, -, hread⟩ := Option.bind_eq_some_iff.mp h
  refine ⟨text, ?_⟩
  cases hq : ofClark text with
  | error e => simp [hq, Except.toOption] at hread
  | ok other => simpa [hq, Except.toOption] using hread

private theorem QName.ofJson?_toJson_iff {q : QName} : ofJson? q.toJson = some q ↔ q.IsClark := by
  refine ⟨fun h ↦ ?_, ofJson?_toJson⟩
  change (ofClark q.clark).toOption = some q at h
  unfold IsClark
  cases hq : ofClark q.clark with
  | error e => simp [hq, Except.toOption] at h
  | ok other => simpa [hq, Except.toOption] using h

/-! ### Members -/

namespace Json

/-- The known members of an object are its members. -/
theorem eq_of_record?_object {names : List String} {members known : List (String × Json)}
    (h : record? names (.object members) = some known) : known = members := by
  simp only [record?] at h
  split at h
  · exact (Option.some.inj h).symm
  · cases h

private theorem exists_of_required? {α : Type} {read? : Json → Option α} {name : String}
    {members : List (String × Json)} {a : α} (h : required? read? name members = some a) :
    ∃ v, read? v = some a := by
  obtain ⟨v, -, hread⟩ := Option.bind_eq_some_iff.mp h
  exact ⟨v, hread⟩

private theorem exists_of_optional? {α : Type} {read? : Json → Option α} {missing : α}
    {name : String}
    {members : List (String × Json)} {a : α} (h : optional? missing read? name members = some a) :
    a = missing ∨ ∃ v, read? v = some a := by
  unfold optional? at h
  split at h
  · exact .inl (Option.some.inj h).symm
  · exact .inr ⟨_, h⟩

private theorem exists_of_nullable? {α : Type} {read? : Json → Option α} {v : Json} {a : α}
    (h : nullable? read? v = some (some a)) : ∃ w, read? w = some a := by
  unfold nullable? at h
  split at h
  · cases h
  · exact ⟨v, by simpa using h⟩

/-- Every item of a list was read from an item of the array. -/
theorem exists_of_items? {α : Type} {read? : Json → Option α} {v : Json} {as : List α}
    (h : items? read? v = some as) : ∀ a ∈ as, ∃ w, read? w = some a := by
  unfold items? at h
  split at h
  · next items =>
    induction items generalizing as with
    | nil =>
      obtain rfl := Option.some.inj h
      simp
    | cons w items ih =>
      simp only [List.mapM_cons, Option.bind_eq_bind, Option.bind_eq_some_iff] at h
      obtain ⟨a, ha, rest, hrest, hcons⟩ := h
      obtain rfl := Option.some.inj hcons
      exact List.forall_mem_cons.mpr ⟨⟨w, ha⟩, ih hrest⟩
  · cases h

/-- If the items are read back together, each of them is. -/
theorem items?_map_iff {α : Type} {read? : Json → Option α} (toJson : α → Json) {as : List α} :
    items? read? (.array (as.map toJson)) = some as ↔ ∀ a ∈ as, read? (toJson a) = some a := by
  refine ⟨fun h ↦ ?_, items?_map toJson⟩
  rw [items?, List.mapM_map] at h
  induction as with
  | nil => simp
  | cons a as ih =>
    simp only [List.mapM_cons, Option.bind_eq_bind, Option.bind_eq_some_iff] at h
    obtain ⟨b, hb, rest, hrest, hcons⟩ := h
    obtain ⟨rfl, rfl⟩ := List.cons.inj (Option.some.inj hcons)
    exact List.forall_mem_cons.mpr ⟨hb, ih hrest⟩

end Json

/-! ### What a record was read from -/

private theorem BindingName.schema_of_ofMembers? {members : List (String × Json)} {n : BindingName}
    (h : ofMembers? members = some n) :
    required? QName.ofJson? "schema" members = some n.schema := by
  simp only [ofMembers?, Option.bind_eq_bind, Option.bind_eq_some_iff] at h
  obtain ⟨native, -, schema, hschema, hname⟩ := h
  obtain rfl := Option.some.inj hname
  exact hschema

private theorem BindingName.of_ofJson? {v : Json} {n : BindingName} (h : ofJson? v = some n) :
    ∃ members, record? memberNames v = some members ∧
      required? QName.ofJson? "schema" members = some n.schema := by
  obtain ⟨members, hmembers, hname⟩ := Option.bind_eq_some_iff.mp h
  exact ⟨members, hmembers, schema_of_ofMembers? hname⟩

private theorem Property.of_ofJson? {v : Json} {p : Property} (h : ofJson? v = some p) :
    ∃ members,
      record? ["name", "qname", "type", "attribute", "multiple", "nillable", "default"] v =
        some members ∧
      required? QName.ofJson? "qname" members = some p.qname ∧
      required? BindingName.ofJson? "type" members = some p.type := by
  simp only [ofJson?, Option.bind_eq_bind, Option.bind_eq_some_iff] at h
  obtain ⟨members, hmembers, _, -, _, hqname, _, htype, _, -, _, -, _, -, _, -, hp⟩ := h
  obtain rfl := Option.some.inj hp
  exact ⟨members, hmembers, hqname, htype⟩

private theorem BindingKind.of_ofMembers? {word : KindWord} {v : Json} {kind : BindingKind}
    (h : ofMembers? word v = some kind) :
    match kind with
    | .builtin _ => True
    | .byName base properties => ∃ members, record? ["base", "properties"] v = some members ∧
        base? members = some base ∧
        required? (items? Property.ofJson?) "properties" members = some properties
    | .list item itemElement => ∃ members, record? ["item", "item_element"] v = some members ∧
        required? BindingName.ofJson? "item" members = some item ∧
        required? QName.ofJson? "item_element" members = some itemElement
    | .polymorphic base subtypes => ∃ members, record? ["base", "subtypes"] v = some members ∧
        base? members = some base ∧
        optional? [] (items? BindingName.ofJson?) "subtypes" members = some subtypes := by
  cases word <;>
    simp only [ofMembers?, Option.bind_eq_bind, Option.bind_eq_some_iff] at h
  case builtin =>
    obtain ⟨_, -, _, -, hkind⟩ := h
    obtain rfl := Option.some.inj hkind
    trivial
  case byName | list | polymorphic =>
    obtain ⟨members, hmembers, first, hfirst, second, hsecond, hkind⟩ := h
    obtain rfl := Option.some.inj hkind
    exact ⟨members, hmembers, hfirst, hsecond⟩

private theorem BindingType.of_ofMembers? {members : List (String × Json)} {t : BindingType}
    (h : ofMembers? members = some t) :
    required? QName.ofJson? "schema" members = some t.name.schema ∧
      ∃ word, required? KindWord.ofJson? "kind" members = some word ∧
        BindingKind.ofMembers? word (.object members) = some t.kind := by
  simp only [ofMembers?, Option.bind_eq_bind, Option.bind_eq_some_iff] at h
  obtain ⟨known, hknown, name, hname, word, hword, kind, hkind, ht⟩ := h
  obtain rfl := eq_of_record?_object hknown
  obtain rfl := Option.some.inj ht
  exact ⟨BindingName.schema_of_ofMembers? hname, word, hword, hkind⟩

private theorem BindingEntry.of_ofJson? {members : List (String × Json)} {e : BindingEntry}
    (h : ofJson? (.object members) = some e) :
    BindingType.ofMembers? (members.filter fun m ↦ !flagNames.contains m.1) = some e.type := by
  simp only [ofJson?, Option.bind_eq_bind, Option.bind_eq_some_iff] at h
  obtain ⟨_, -, _, -, type, htype, _, -, _, -, he⟩ := h
  obtain rfl := Option.some.inj he
  exact htype

private theorem ElementBinding.of_ofJson? {v : Json} {b : ElementBinding} (h : ofJson? v = some b) :
    ∃ members, record? ["element", "type"] v = some members ∧
      required? QName.ofJson? "element" members = some b.element ∧
      required? BindingName.ofJson? "type" members = some b.type := by
  simp only [ofJson?, Option.bind_eq_bind, Option.bind_eq_some_iff] at h
  obtain ⟨members, hmembers, _, helement, _, htype, hb⟩ := h
  obtain rfl := Option.some.inj hb
  exact ⟨members, hmembers, helement, htype⟩

private theorem Descriptor.of_ofJson? {v : Json} {d : Descriptor} (h : ofJson? v = some d) :
    ∃ members, record? ["bindings", "elements"] v = some members ∧
      optional? [] (items? BindingEntry.ofJson?) "bindings" members = some d.bindings ∧
      optional? [] (items? ElementBinding.ofJson?) "elements" members = some d.elements := by
  simp only [ofJson?, Option.bind_eq_bind, Option.bind_eq_some_iff] at h
  obtain ⟨members, hmembers, _, hbindings, _, helements, hd⟩ := h
  obtain rfl := Option.some.inj hd
  exact ⟨members, hmembers, hbindings, helements⟩

/-! ### All names were read from texts -/

private theorem BindingKind.forall_qnames_byName {P : QName → Prop} {base : Option BindingName}
    {properties : List Property} (hbase : ∀ b ∈ base, P b.schema)
    (hproperties : ∀ p ∈ properties, P p.qname ∧ P p.type.schema) :
    ∀ q ∈ (BindingKind.byName base properties).qnames, P q := by
  intro q hq
  obtain hq | hq := List.mem_append.mp hq
  · obtain ⟨b, hb, rfl⟩ := List.mem_map.mp hq
    exact hbase b (Option.mem_toList.mp hb)
  · obtain ⟨p, hp, hq⟩ := List.mem_flatMap.mp hq
    obtain rfl | rfl : q = p.qname ∨ q = p.type.schema := by simpa using hq
    · exact (hproperties p hp).1
    · exact (hproperties p hp).2

private theorem BindingKind.forall_qnames_polymorphic {P : QName → Prop} {base : Option BindingName}
    {subtypes : List BindingName} (hbase : ∀ b ∈ base, P b.schema)
    (hsubtypes : ∀ n ∈ subtypes, P n.schema) :
    ∀ q ∈ (BindingKind.polymorphic base subtypes).qnames, P q := by
  intro q hq
  obtain hq | hq := List.mem_append.mp hq
  · obtain ⟨b, hb, rfl⟩ := List.mem_map.mp hq
    exact hbase b (Option.mem_toList.mp hb)
  · obtain ⟨n, hn, rfl⟩ := List.mem_map.mp hq
    exact hsubtypes n hn

private theorem Descriptor.forall_qnames {P : QName → Prop} {d : Descriptor}
    (hbindings : ∀ e ∈ d.bindings, ∀ q ∈ e.type.name.schema :: e.type.kind.qnames, P q)
    (helements : ∀ b ∈ d.elements, P b.element ∧ P b.type.schema) : ∀ q ∈ d.qnames, P q := by
  intro q hq
  obtain hq | hq := List.mem_append.mp hq
  · obtain ⟨e, he, hq⟩ := List.mem_flatMap.mp hq
    exact hbindings e he q hq
  · obtain ⟨b, hb, hq⟩ := List.mem_flatMap.mp hq
    obtain rfl | rfl : q = b.element ∨ q = b.type.schema := by simpa using hq
    · exact (helements b hb).1
    · exact (helements b hb).2

private theorem QName.isRead_of_required? {name : String} {members : List (String × Json)}
    {q : QName} (h : required? ofJson? name members = some q) : q.IsRead := by
  obtain ⟨v, hv⟩ := exists_of_required? h
  exact isRead_of_ofJson? hv

private theorem BindingName.isRead {v : Json} {n : BindingName} (h : ofJson? v = some n) :
    n.schema.IsRead := by
  obtain ⟨members, -, hschema⟩ := of_ofJson? h
  exact QName.isRead_of_required? hschema

private theorem BindingName.isRead_of_required? {name : String} {members : List (String × Json)}
    {n : BindingName} (h : required? ofJson? name members = some n) : n.schema.IsRead := by
  obtain ⟨v, hv⟩ := exists_of_required? h
  exact isRead hv

private theorem Property.isRead {v : Json} {p : Property} (h : ofJson? v = some p) :
    p.qname.IsRead ∧ p.type.schema.IsRead := by
  obtain ⟨members, -, hqname, htype⟩ := of_ofJson? h
  exact ⟨QName.isRead_of_required? hqname, BindingName.isRead_of_required? htype⟩

private theorem BindingKind.isRead_base {members : List (String × Json)} {base : Option BindingName}
    (h : base? members = some base) : ∀ b ∈ base, b.schema.IsRead := by
  rintro b rfl
  obtain hnone | ⟨v, hv⟩ := exists_of_optional? h
  · cases hnone
  · obtain ⟨w, hw⟩ := exists_of_nullable? hv
    exact BindingName.isRead hw

private theorem BindingKind.isRead {word : KindWord} {v : Json} {kind : BindingKind}
    (h : ofMembers? word v = some kind) : ∀ q ∈ kind.qnames, q.IsRead := by
  have hparts := of_ofMembers? h
  cases kind with
  | builtin space => simp [qnames]
  | byName base properties =>
    obtain ⟨members, -, hbase, hproperties⟩ := hparts
    obtain ⟨items, hitems⟩ := exists_of_required? hproperties
    have hread (p : Property) (hp : p ∈ properties) : p.qname.IsRead ∧ p.type.schema.IsRead := by
      obtain ⟨w, hw⟩ := exists_of_items? hitems p hp
      exact Property.isRead hw
    exact forall_qnames_byName (isRead_base hbase) hread
  | list item itemElement =>
    obtain ⟨members, -, hitem, helement⟩ := hparts
    simpa [qnames] using
      ⟨BindingName.isRead_of_required? hitem, QName.isRead_of_required? helement⟩
  | polymorphic base subtypes =>
    obtain ⟨members, -, hbase, hsubtypes⟩ := hparts
    have hread (n : BindingName) (hn : n ∈ subtypes) : n.schema.IsRead := by
      obtain rfl | ⟨items, hitems⟩ := exists_of_optional? hsubtypes
      · cases hn
      · obtain ⟨w, hw⟩ := exists_of_items? hitems n hn
        exact BindingName.isRead hw
    exact forall_qnames_polymorphic (isRead_base hbase) hread

private theorem BindingType.isRead {members : List (String × Json)} {t : BindingType}
    (h : ofMembers? members = some t) : ∀ q ∈ t.name.schema :: t.kind.qnames, q.IsRead := by
  obtain ⟨hname, word, -, hkind⟩ := of_ofMembers? h
  exact List.forall_mem_cons.mpr ⟨QName.isRead_of_required? hname, BindingKind.isRead hkind⟩

private theorem BindingEntry.isRead {v : Json} {e : BindingEntry} (h : ofJson? v = some e) :
    ∀ q ∈ e.type.name.schema :: e.type.kind.qnames, q.IsRead := by
  cases v with
  | object members => exact BindingType.isRead (of_ofJson? h)
  | null | bool | number | string | array | unread => cases h

private theorem ElementBinding.isRead {v : Json} {b : ElementBinding} (h : ofJson? v = some b) :
    b.element.IsRead ∧ b.type.schema.IsRead := by
  obtain ⟨members, -, helement, htype⟩ := of_ofJson? h
  exact ⟨QName.isRead_of_required? helement, BindingName.isRead_of_required? htype⟩

/-- Every qualified name of a descriptor that was read is what some text is read as. -/
theorem Descriptor.isRead {v : Json} {d : Descriptor} (h : ofJson? v = some d) :
    ∀ q ∈ d.qnames, q.IsRead := by
  obtain ⟨members, -, hbindings, helements⟩ := of_ofJson? h
  refine forall_qnames (fun e he ↦ ?_) fun b hb ↦ ?_
  · obtain hnil | ⟨items, hitems⟩ := exists_of_optional? hbindings
    · simp [hnil] at he
    · obtain ⟨w, hw⟩ := exists_of_items? hitems e he
      exact BindingEntry.isRead hw
  · obtain hnil | ⟨items, hitems⟩ := exists_of_optional? helements
    · simp [hnil] at hb
    · obtain ⟨w, hw⟩ := exists_of_items? hitems b hb
      exact ElementBinding.isRead hw

/-! ### Only what is read back as it is written is kept -/

private theorem BindingName.ofJson?_toJson_iff {n : BindingName} :
    ofJson? n.toJson = some n ↔ n.schema.IsClark := by
  refine ⟨fun h ↦ ?_, ofJson?_toJson⟩
  obtain ⟨members, hmembers, hschema⟩ := of_ofJson? h
  obtain rfl := eq_of_record?_object hmembers
  rw [required?_eq QName.ofJson? (v := n.schema.toJson) (by simp [valuesOf_cons])] at hschema
  exact QName.ofJson?_toJson_iff.mp hschema

private theorem Property.ofJson?_toJson_iff {p : Property} :
    ofJson? p.toJson = some p ↔ p.qname.IsClark ∧ p.type.schema.IsClark := by
  refine ⟨fun h ↦ ?_, fun h ↦ ofJson?_toJson h.1 h.2⟩
  obtain ⟨members, hmembers, hqname, htype⟩ := of_ofJson? h
  obtain rfl : members = p.members := eq_of_record?_object hmembers
  rw [required?_eq QName.ofJson? (v := p.qname.toJson)
    (by simp [Property.members, valuesOf_cons])] at hqname
  rw [required?_eq BindingName.ofJson? (v := p.type.toJson)
    (by simp [Property.members, valuesOf_cons])] at htype
  exact ⟨QName.ofJson?_toJson_iff.mp hqname, BindingName.ofJson?_toJson_iff.mp htype⟩

private theorem BindingKind.isClark_base {base : Option BindingName}
    {members : List (String × Json)}
    (hvalues : valuesOf "base" members = base.toList.map BindingName.toJson)
    (h : base? members = some base) : ∀ b ∈ base, b.schema.IsClark := by
  rintro b rfl
  have hread : (BindingName.ofJson? b.toJson).map some = some (some b) := by
    simpa [base?, optional?, hvalues, nullable?, BindingName.toJson] using h
  exact BindingName.ofJson?_toJson_iff.mp (by simpa using hread)

private theorem BindingKind.isClark_of_ofMembers? {word : KindWord} {name : BindingName}
    {kind : BindingKind}
    (h : ofMembers? word (.object (BindingType.members ⟨name, kind⟩)) = some kind) :
    ∀ q ∈ kind.qnames, q.IsClark := by
  have hparts := of_ofMembers? h
  cases kind with
  | builtin space => simp [qnames]
  | byName base properties =>
    obtain ⟨members, hmembers, hbase, hproperties⟩ := hparts
    obtain rfl := eq_of_record?_object hmembers
    have hbases := isClark_base
      (by simp [BindingType.members, BindingKind.members, valuesOf_cons]) hbase
    rw [required?_eq _ (v := .array (properties.map Property.toJson))
      (by simp [BindingType.members, BindingKind.members, valuesOf_cons]),
      items?_map_iff Property.toJson] at hproperties
    have hread (p : Property) (hp : p ∈ properties) : p.qname.IsClark ∧ p.type.schema.IsClark :=
      Property.ofJson?_toJson_iff.mp (hproperties p hp)
    exact forall_qnames_byName hbases hread
  | list item itemElement =>
    obtain ⟨members, hmembers, hitem, helement⟩ := hparts
    obtain rfl := eq_of_record?_object hmembers
    rw [required?_eq _ (v := item.toJson)
      (by simp [BindingType.members, BindingKind.members, valuesOf_cons])] at hitem
    rw [required?_eq _ (v := itemElement.toJson)
      (by simp [BindingType.members, BindingKind.members, valuesOf_cons])] at helement
    simpa [qnames] using
      ⟨BindingName.ofJson?_toJson_iff.mp hitem, QName.ofJson?_toJson_iff.mp helement⟩
  | polymorphic base subtypes =>
    obtain ⟨members, hmembers, hbase, hsubtypes⟩ := hparts
    obtain rfl := eq_of_record?_object hmembers
    have hbases := isClark_base
      (by cases subtypes <;> simp [BindingType.members, BindingKind.members, valuesOf_cons]) hbase
    have hread : ∀ n ∈ subtypes, n.schema.IsClark := by
      cases subtypes with
      | nil => simp
      | cons n subtypes =>
        have hitems : items? BindingName.ofJson? (.array ((n :: subtypes).map BindingName.toJson)) =
            some (n :: subtypes) := by
          simpa [optional?, BindingType.members, BindingKind.members, valuesOf_cons] using hsubtypes
        exact fun m hm ↦ BindingName.ofJson?_toJson_iff.mp
          ((items?_map_iff BindingName.toJson).mp hitems m hm)
    exact forall_qnames_polymorphic hbases hread

private theorem BindingType.isClark_of_ofMembers? {t : BindingType}
    (h : ofMembers? t.members = some t) : ∀ q ∈ t.name.schema :: t.kind.qnames, q.IsClark := by
  obtain ⟨hschema, word, -, hkind⟩ := of_ofMembers? h
  have hvalues : valuesOf "schema" t.members = [t.name.schema.toJson] := by
    obtain ⟨name, kind⟩ := t
    rcases kind with _ | _ | _ | ⟨_, _ | _⟩ <;>
      simp [members, BindingKind.members, valuesOf_cons]
  rw [required?_eq _ hvalues] at hschema
  exact List.forall_mem_cons.mpr
    ⟨QName.ofJson?_toJson_iff.mp hschema, BindingKind.isClark_of_ofMembers? hkind⟩

private theorem BindingEntry.isClark_of_ofJson? {e : BindingEntry} (h : ofJson? e.toJson = some e) :
    ∀ q ∈ e.type.name.schema :: e.type.kind.qnames, q.IsClark := by
  have htype := of_ofJson? h
  rw [BindingType.filter_members] at htype
  exact BindingType.isClark_of_ofMembers? htype

private theorem ElementBinding.isClark_of_ofJson? {b : ElementBinding}
    (h : ofJson? b.toJson = some b) : b.element.IsClark ∧ b.type.schema.IsClark := by
  obtain ⟨members, hmembers, helement, htype⟩ := of_ofJson? h
  obtain rfl := eq_of_record?_object hmembers
  rw [required?_eq QName.ofJson? (v := b.element.toJson) (by simp [valuesOf_cons])] at helement
  rw [required?_eq BindingName.ofJson? (v := b.type.toJson) (by simp [valuesOf_cons])] at htype
  exact ⟨QName.ofJson?_toJson_iff.mp helement, BindingName.ofJson?_toJson_iff.mp htype⟩

/-- A descriptor is read back from its value exactly if all of its names are. -/
theorem Descriptor.ofJson?_toJson_iff {d : Descriptor} :
    ofJson? d.toJson = some d ↔ d.IsClark := by
  refine ⟨fun h ↦ ?_, ofJson?_toJson⟩
  obtain ⟨members, hmembers, hbindings, helements⟩ := of_ofJson? h
  obtain rfl := eq_of_record?_object hmembers
  simp only [optional?, valuesOf_cons, valuesOf_nil, String.reduceEq, if_true, if_false,
    items?_map_iff] at hbindings helements
  exact forall_qnames (fun e he ↦ BindingEntry.isClark_of_ofJson? (hbindings e he))
    fun b hb ↦ ElementBinding.isClark_of_ofJson? (helements b hb)

/-! ### Texts -/

/-- A text is read as the descriptor that the value in it stands for. -/
theorem Descriptor.parse_eq_ok_iff {text : String} {d : Descriptor} :
    parse text = .ok d ↔ (Json.parse? text).bind ofJson? = some d := by
  unfold parse
  split
  · next other h => simp [h]
  · next h => simp [h]

/-- A descriptor is read back from the text that it is written as exactly if its qualified names are
read back from what they are written as. Of a descriptor that was itself read from a text, only the
names in no namespace have to be. -/
theorem Descriptor.parse_toText_iff :
    (∀ d : Descriptor, parse d.toText = .ok d ↔ d.IsClark) ∧
      ∀ (text : String) (d : Descriptor), parse text = .ok d →
        (parse d.toText = .ok d ↔ ∀ q ∈ d.qnames, q.uri = "" → q.IsClark) := by
  have hback (d : Descriptor) : parse d.toText = .ok d ↔ d.IsClark := by
    rw [parse_eq_ok_iff, toText, parse?_pretty d.plain_toJson.1, Option.bind_some,
      ofJson?_toJson_iff]
  refine ⟨hback, fun text d h ↦ (hback d).trans ⟨fun hclark q hq _ ↦ hclark q hq, fun hnames ↦ ?_⟩⟩
  obtain ⟨v, -, hv⟩ := Option.bind_eq_some_iff.mp (parse_eq_ok_iff.mp h)
  intro q hq
  by_cases huri : q.uri = ""
  · exact hnames q hq huri
  · exact (isRead hv q hq).isClark huri

/-- A text with blanks around a name, an array for a record and an unknown member. -/
def Descriptor.noteText : String :=
  "\x7b\"version\": 1, \"elements\": [[\"note\", [\"Note\", \" \x7burn:a\x7dNote\"]]]\x7d"

/-- The descriptor that is read from `noteText`. -/
def Descriptor.note : Descriptor := ⟨[], [⟨.unqualified "note", ⟨⟨"Note"⟩, ⟨"urn:a", "Note"⟩⟩⟩]⟩

/-- The descriptor of `noteText` is written in another text, and read back from that one. -/
theorem Descriptor.parse_toText_iff_note :
    parse noteText = .ok note ∧ note.toText ≠ noteText ∧ parse note.toText = .ok note := by
  have hread : parse noteText = .ok note := by decide +kernel
  exact ⟨hread, by decide +kernel, (parse_toText_iff.2 noteText note hread).mpr (by decide)⟩

end XmlBinding

import Mathlib.Data.Option.Basic
import XmlBinding.Binding.Decode
import XmlBinding.Binding.Encode
import XmlBinding.Proofs.Json.Printed

/-!
# Encoded descriptors are decoded

A descriptor that is written as JSON is read back as it is, provided that its qualified names are
read back from what they are written as. Nothing else is asked of it: identifiers, field names and
defaults may be any texts, since JSON texts can hold them all.
-/

namespace XmlBinding

namespace Json

/-! ### Members -/

/-- No members have no values. -/
@[simp] theorem valuesOf_nil (name : String) : valuesOf name [] = [] := rfl

/-- The first member adds its value to those of its own name. -/
theorem valuesOf_cons (name : String) (m : String × Json) (members : List (String × Json)) :
    valuesOf name (m :: members) =
      if m.1 = name then m.2 :: valuesOf name members else valuesOf name members := by
  by_cases h : m.1 = name <;> simp [valuesOf, h]

/-- The values of a name are those among the first members and then those among the others. -/
@[simp] theorem valuesOf_append (name : String) (members more : List (String × Json)) :
    valuesOf name (members ++ more) = valuesOf name members ++ valuesOf name more :=
  List.filterMap_append

/-- A flag that is set is there as its member, and one that is not set is not there. -/
@[simp] theorem valuesOf_flagMember (name other : String) (flag : Bool) :
    valuesOf name (flagMember other flag) = if other = name ∧ flag then [.bool true] else [] := by
  cases flag <;> simp [flagMember, valuesOf_cons]

/-- An option is there as its member if it has a value. -/
@[simp] theorem valuesOf_optionalMember {α : Type} (name other : String) (toJson : α → Json)
    (a : Option α) :
    valuesOf name (optionalMember other toJson a) =
      if other = name then a.toList.map toJson else [] := by
  cases a <;> simp [optionalMember, valuesOf_cons]

/-- An object is a record if no known member is there twice. -/
theorem record?_object {names : List String} {members : List (String × Json)}
    (h : ∀ name ∈ names, (valuesOf name members).length ≤ 1) :
    record? names (.object members) = some members := by
  simpa [record?] using h

/-- What must be there is read from its only member. -/
theorem required?_eq {α : Type} (read? : Json → Option α) {name : String} {v : Json}
    {members : List (String × Json)} (h : valuesOf name members = [v]) :
    required? read? name members = read? v := by
  simp [required?, h]

/-- A flag is read from its member, or from the lack of one. -/
private theorem optional?_flag {name : String} {flag : Bool} {members : List (String × Json)}
    (h : valuesOf name members = if flag then [.bool true] else []) :
    optional? false flag? name members = some flag := by
  cases flag <;> simp [optional?, h, flag?]

/-- An optional value is read from its member, or from the lack of one. -/
theorem optional?_nullable {α : Type} {read? : Json → Option α} (toJson : α → Json) {name : String}
    {a : Option α} {members : List (String × Json)}
    (h : valuesOf name members = a.toList.map toJson)
    (hread : ∀ b ∈ a, nullable? read? (toJson b) = some (some b)) :
    optional? none (nullable? read?) name members = some a := by
  cases a with
  | none => simp [optional?, h]
  | some b => simpa [optional?, h] using hread b rfl

/-- Items are read back one by one. -/
theorem items?_map {α : Type} {read? : Json → Option α} (toJson : α → Json) {as : List α}
    (h : ∀ a ∈ as, read? (toJson a) = some a) :
    items? read? (.array (as.map toJson)) = some as := by
  rw [items?, List.mapM_map]
  induction as with
  | nil => rfl
  | cons a as ih =>
    rw [List.mapM_cons, Function.comp_apply, h a List.mem_cons_self,
      ih fun b hb ↦ h b (List.mem_cons_of_mem a hb)]
    rfl

/-! ### Depth -/

/-- A value without numbers that nests no more than `n` arrays and objects. -/
def Plain (n : Nat) (v : Json) : Prop := v.all isPlain ∧ v.height ≤ n

/-- A string nests nothing. -/
theorem Plain.string (n : Nat) (s : String) : Plain n (.string s) := ⟨rfl, Nat.zero_le n⟩

private theorem Plain.bool (n : Nat) (b : Bool) : Plain n (.bool b) := ⟨rfl, Nat.zero_le n⟩

/-- An array nests one level more than its items. -/
theorem Plain.array {n : Nat} {items : List Json} (h : ∀ v ∈ items, Plain n v) :
    Plain (n + 1) (.array items) := by
  have hitems : allItems isPlain items ∧ heightOfItems items ≤ n := by
    induction items with
    | nil => exact ⟨rfl, Nat.zero_le n⟩
    | cons v items ih =>
      obtain ⟨hv, hheight⟩ := h v List.mem_cons_self
      obtain ⟨hall, hmax⟩ := ih fun w hw ↦ h w (List.mem_cons_of_mem v hw)
      exact ⟨by simp [allItems, hv, hall], Nat.max_le_of_le_of_le hheight hmax⟩
  exact ⟨by simp [all, isPlain, hitems.1], Nat.succ_le_succ hitems.2⟩

/-- An object nests one level more than the values of its members. -/
theorem Plain.object {n : Nat} {members : List (String × Json)} (h : ∀ m ∈ members, Plain n m.2) :
    Plain (n + 1) (.object members) := by
  have hmembers : allMembers isPlain members ∧ heightOfMembers members ≤ n := by
    induction members with
    | nil => exact ⟨rfl, Nat.zero_le n⟩
    | cons m members ih =>
      obtain ⟨hv, hheight⟩ := h m List.mem_cons_self
      obtain ⟨hall, hmax⟩ := ih fun w hw ↦ h w (List.mem_cons_of_mem m hw)
      exact ⟨by simp [allMembers, hv, hall], Nat.max_le_of_le_of_le hheight hmax⟩
  exact ⟨by simp [all, isPlain, hmembers.1], Nat.succ_le_succ hmembers.2⟩

private theorem Plain.of_mem_flagMember {n : Nat} {name : String} {flag : Bool} {m : String × Json}
    (h : m ∈ flagMember name flag) : Plain n m.2 := by
  cases flag
  · cases h
  · obtain rfl := List.mem_singleton.mp h
    exact .bool n true

private theorem Plain.of_mem_optionalMember {α : Type} {n : Nat} {name : String} {toJson : α → Json}
    {a : Option α} (ha : ∀ b, Plain n (toJson b)) {m : String × Json}
    (h : m ∈ optionalMember name toJson a) : Plain n m.2 := by
  cases a with
  | none => cases h
  | some b =>
    obtain rfl := List.mem_singleton.mp h
    exact ha b

mutual

/-- What is no number and has a meaning may stand in an entry. -/
private theorem all_hasMeaning {v : Json} (h : v.all isPlain) : v.all hasMeaning := by
  match v, h with
  | .null, _ | .bool _, _ | .string _, _ => rfl
  | .array items, h =>
    have hitems : allItems isPlain items := by simpa [all, isPlain] using h
    simpa [all, hasMeaning] using allItems_hasMeaning hitems
  | .object members, h =>
    have hmembers : allMembers isPlain members := by simpa [all, isPlain] using h
    simpa [all, hasMeaning] using allMembers_hasMeaning hmembers

private theorem allItems_hasMeaning {items : List Json} (h : allItems isPlain items) :
    allItems hasMeaning items := by
  match items, h with
  | [], _ => rfl
  | v :: items, h =>
    obtain ⟨hv, hitems⟩ : v.all isPlain ∧ allItems isPlain items := by simpa [allItems] using h
    simp [allItems, all_hasMeaning hv, allItems_hasMeaning hitems]

private theorem allMembers_hasMeaning {members : List (String × Json)}
    (h : allMembers isPlain members) : allMembers hasMeaning members := by
  match members, h with
  | [], _ => rfl
  | (_, v) :: members, h =>
    obtain ⟨hv, hmembers⟩ : v.all isPlain ∧ allMembers isPlain members := by
      simpa [allMembers] using h
    simp [allMembers, all_hasMeaning hv, allMembers_hasMeaning hmembers]

end

end Json

open Json

/-- The name is read back from what it is written as. -/
def QName.IsClark (q : QName) : Prop := ofClark q.clark = .ok q

instance (q : QName) : Decidable q.IsClark :=
  decidable_of_iff ((QName.ofClark q.clark).toOption = some q) <| by
    unfold QName.IsClark
    cases QName.ofClark q.clark <;> simp [Except.toOption]

/-- The qualified names of a layout. -/
def BindingKind.qnames : BindingKind → List QName
  | .builtin _ => []
  | .byName base properties =>
    base.toList.map (·.schema) ++ properties.flatMap fun p ↦ [p.qname, p.type.schema]
  | .list item itemElement => [item.schema, itemElement]
  | .polymorphic base subtypes => base.toList.map (·.schema) ++ subtypes.map (·.schema)

/-- The qualified names of a descriptor. -/
def Descriptor.qnames (d : Descriptor) : List QName :=
  d.bindings.flatMap (fun e ↦ e.type.name.schema :: e.type.kind.qnames) ++
    d.elements.flatMap fun b ↦ [b.element, b.type.schema]

/-- All qualified names of a descriptor are read back from what they are written as. -/
def Descriptor.IsClark (d : Descriptor) : Prop := ∀ q ∈ d.qnames, q.IsClark

instance (d : Descriptor) : Decidable d.IsClark := inferInstanceAs (Decidable (∀ q ∈ _, _))

/-- A name in Clark form is read back from its value. -/
theorem QName.ofJson?_toJson {q : QName} (h : q.IsClark) : ofJson? q.toJson = some q := by
  simp [ofJson?, toJson, text?, show ofClark q.clark = .ok q from h, Except.toOption]

/-- The name of a type is read back from its value, if its schema type is. -/
theorem BindingName.ofJson?_toJson {n : BindingName} (h : n.schema.IsClark) :
    ofJson? n.toJson = some n := by
  simp [ofJson?, toJson, record?, memberNames, ofMembers?, required?, valuesOf_cons,
    NativeId.ofJson?, text?, QName.ofJson?_toJson h]

/-- The members of a property. -/
def Property.members (p : Property) : List (String × Json) :=
  [("name", .string p.name), ("qname", p.qname.toJson), ("type", p.type.toJson)] ++
    flagMember "attribute" p.isAttribute ++ flagMember "multiple" p.isMultiple ++
    flagMember "nillable" p.isNillable ++ optionalMember "default" .string p.default

/-- A property is read back from its value, if its name and its type are. -/
theorem Property.ofJson?_toJson {p : Property} (hname : p.qname.IsClark)
    (htype : p.type.schema.IsClark) : ofJson? p.toJson = some p := by
  have hrecord : record? ["name", "qname", "type", "attribute", "multiple", "nillable", "default"]
      p.toJson = some p.members := by
    have hflag (b : Bool) : (if b then [Json.bool true] else []).length ≤ 1 := by cases b <;> simp
    exact record?_object (by simp [valuesOf_cons, hflag])
  have hattribute : optional? false flag? "attribute" p.members = some p.isAttribute :=
    optional?_flag (by simp [members, valuesOf_cons])
  have hmultiple : optional? false flag? "multiple" p.members = some p.isMultiple :=
    optional?_flag (by simp [members, valuesOf_cons])
  have hnillable : optional? false flag? "nillable" p.members = some p.isNillable :=
    optional?_flag (by simp [members, valuesOf_cons])
  have hdefault : optional? none (nullable? text?) "default" p.members = some p.default :=
    optional?_nullable .string (by simp [members, valuesOf_cons]) fun _ _ ↦ rfl
  have htext : required? text? "name" p.members = some p.name :=
    required?_eq text? (v := .string p.name) (by simp [members, valuesOf_cons])
  have hqname : required? QName.ofJson? "qname" p.members = some p.qname :=
    (required?_eq _ (by simp [members, valuesOf_cons])).trans (QName.ofJson?_toJson hname)
  have htype : required? BindingName.ofJson? "type" p.members = some p.type :=
    (required?_eq _ (by simp [members, valuesOf_cons])).trans (BindingName.ofJson?_toJson htype)
  simp [ofJson?, hrecord, htext, hqname, htype, hattribute, hmultiple, hnillable, hdefault]

private theorem LexicalSpace.ofSchemaName?_schemaName (space : LexicalSpace) :
    ofSchemaName? space.schemaName = some space := by
  rcases space with _ | ⟨⟨⟩⟩ | _ | _ | _ | ⟨⟨⟩⟩ | _ | _ | _ | _ | _ <;> rfl

/-- The word for a layout. -/
def BindingKind.word : BindingKind → KindWord
  | .builtin _ => .builtin
  | .byName _ _ => .byName
  | .list _ _ => .list
  | .polymorphic _ _ => .polymorphic

private theorem optional?_base {base : Option BindingName} {members : List (String × Json)}
    (h : ∀ b ∈ base, b.schema.IsClark)
    (hvalues : valuesOf "base" members = base.toList.map BindingName.toJson) :
    BindingKind.base? members = some base := by
  refine optional?_nullable BindingName.toJson hvalues fun b hb ↦ ?_
  have hread := BindingName.ofJson?_toJson (h b hb)
  change (BindingName.ofJson? b.toJson).map some = some (some b)
  rw [hread]
  rfl

/-- A layout is read back from the members of a type, the name of the type among them. -/
private theorem BindingKind.ofMembers?_members (name : BindingName) {kind : BindingKind}
    (h : ∀ q ∈ kind.qnames, q.IsClark) :
    ofMembers? kind.word (.object (BindingType.members ⟨name, kind⟩)) = some kind := by
  cases kind with
  | builtin space =>
    simp [word, ofMembers?, record?, BindingType.members, members, valuesOf_cons, required?, text?,
      LexicalSpace.ofSchemaName?_schemaName]
  | byName base properties =>
    have hrecord : record? ["base", "properties"]
        (.object (BindingType.members ⟨name, .byName base properties⟩)) =
          some (BindingType.members ⟨name, .byName base properties⟩) :=
      record?_object (by simp [BindingType.members, members, valuesOf_cons])
    have hbase : base? (BindingType.members ⟨name, .byName base properties⟩) = some base :=
      optional?_base (fun b hb ↦ h _ (List.mem_append_left _
        (List.mem_map_of_mem (Option.mem_toList.mpr hb))))
        (by simp [BindingType.members, members, valuesOf_cons])
    have hproperties : required? (items? Property.ofJson?) "properties"
        (BindingType.members ⟨name, .byName base properties⟩) = some properties := by
      refine (required?_eq _ (by simp [BindingType.members, members, valuesOf_cons])).trans
        (items?_map Property.toJson fun p hp ↦ ?_)
      have hnames (q : QName) (hq : q ∈ [p.qname, p.type.schema]) : q.IsClark :=
        h q (List.mem_append_right _ (List.mem_flatMap.mpr ⟨p, hp, hq⟩))
      exact Property.ofJson?_toJson (hnames _ (by simp)) (hnames _ (by simp))
    simp only [word, ofMembers?, hrecord, hbase, hproperties, Option.bind_eq_bind, Option.bind_some]
    rfl
  | list item itemElement =>
    have hitem := BindingName.ofJson?_toJson (h item.schema (by simp [qnames]))
    have helement := QName.ofJson?_toJson (h itemElement (by simp [qnames]))
    simp [word, ofMembers?, record?, BindingType.members, members, valuesOf_cons, required?,
      hitem, helement]
  | polymorphic base subtypes =>
    have hsubtypes : items? BindingName.ofJson? (.array (subtypes.map BindingName.toJson)) =
        some subtypes := items?_map BindingName.toJson fun n hn ↦
      BindingName.ofJson?_toJson (h _ (List.mem_append_right _ (List.mem_map_of_mem hn)))
    have hvalues : valuesOf "subtypes" (BindingType.members ⟨name, .polymorphic base subtypes⟩) =
        if subtypes.isEmpty then [] else [.array (subtypes.map BindingName.toJson)] := by
      cases subtypes <;> simp [BindingType.members, members, valuesOf_cons]
    have hbases : valuesOf "base" (BindingType.members ⟨name, .polymorphic base subtypes⟩) =
        base.toList.map BindingName.toJson := by
      cases subtypes <;> simp [BindingType.members, members, valuesOf_cons]
    have hrecord : record? ["base", "subtypes"]
        (.object (BindingType.members ⟨name, .polymorphic base subtypes⟩)) =
          some (BindingType.members ⟨name, .polymorphic base subtypes⟩) := by
      refine record?_object fun name hname ↦ ?_
      obtain rfl | rfl : name = "base" ∨ name = "subtypes" := by simpa using hname
      · simp [hbases]
      · rw [hvalues]
        split <;> simp
    have hbase : base? (BindingType.members ⟨name, .polymorphic base subtypes⟩) = some base :=
      optional?_base (fun b hb ↦ h _ (List.mem_append_left _
        (List.mem_map_of_mem (Option.mem_toList.mpr hb)))) hbases
    have hoptional : optional? [] (items? BindingName.ofJson?) "subtypes"
        (BindingType.members ⟨name, .polymorphic base subtypes⟩) = some subtypes := by
      rw [optional?, hvalues]
      cases subtypes with
      | nil => rfl
      | cons n subtypes => exact hsubtypes
    simp only [word, ofMembers?, hrecord, hbase, hoptional, Option.bind_eq_bind, Option.bind_some]
    rfl

private theorem BindingType.ofMembers?_members {t : BindingType} (hname : t.name.schema.IsClark)
    (hkind : ∀ q ∈ t.kind.qnames, q.IsClark) : ofMembers? t.members = some t := by
  obtain ⟨name, kind⟩ := t
  have hnative : valuesOf "native" (members ⟨name, kind⟩) = [.string name.native.text] := by
    rcases kind with _ | _ | _ | ⟨_, _ | _⟩ <;>
      simp [members, BindingKind.members, valuesOf_cons]
  have hschema : valuesOf "schema" (members ⟨name, kind⟩) = [name.schema.toJson] := by
    rcases kind with _ | _ | _ | ⟨_, _ | _⟩ <;>
      simp [members, BindingKind.members, valuesOf_cons]
  obtain ⟨word, hword, hread⟩ : ∃ word, valuesOf "kind" (members ⟨name, kind⟩) = [.string word] ∧
      KindWord.ofJson? (.string word) = some kind.word := by
    rcases kind with _ | _ | _ | ⟨_, _ | _⟩ <;>
      simp [members, BindingKind.members, valuesOf_cons] <;> rfl
  have hrecord : record? ("kind" :: BindingName.memberNames) (.object (members ⟨name, kind⟩)) =
      some (members ⟨name, kind⟩) :=
    record?_object (by simp [BindingName.memberNames, hnative, hschema, hword])
  have hmembers : BindingName.ofMembers? (members ⟨name, kind⟩) = some name := by
    simp [BindingName.ofMembers?, required?_eq _ hnative, required?_eq _ hschema, NativeId.ofJson?,
      text?, QName.ofJson?_toJson hname]
  simp only [ofMembers?, hrecord, hmembers, required?_eq _ hword, hread, Option.bind_eq_bind,
    Option.bind_some, BindingKind.ofMembers?_members name hkind]
  rfl

/-! ### Entries and descriptors -/

private theorem BindingName.plain_toJson (k : Nat) (n : BindingName) : Plain (k + 1) n.toJson :=
  .object (by simp [QName.toJson, Plain.string])

private theorem Property.plain_toJson (k : Nat) (p : Property) : Plain (k + 2) p.toJson := by
  refine .object fun m hm ↦ ?_
  simp only [List.mem_append, List.mem_cons, List.not_mem_nil, or_false] at hm
  obtain ((((rfl | rfl | rfl) | hflag) | hflag) | hflag) | hdefault := hm
  · exact .string _ p.name
  · exact .string _ p.qname.clark
  · exact p.type.plain_toJson k
  iterate 3 exact .of_mem_flagMember hflag
  exact .of_mem_optionalMember (.string _) hdefault

private theorem BindingKind.plain_members (kind : BindingKind) :
    ∀ m ∈ kind.members, Plain 3 m.2 := by
  intro m hm
  cases kind with
  | builtin space =>
    simp only [members, List.mem_cons, List.not_mem_nil, or_false] at hm
    obtain rfl | rfl := hm <;> exact .string _ _
  | byName base properties =>
    simp only [members, List.cons_append, List.mem_cons, List.mem_append, List.not_mem_nil,
      or_false] at hm
    obtain rfl | hbase | rfl := hm
    · exact .string _ _
    · exact .of_mem_optionalMember (BindingName.plain_toJson 2) hbase
    · exact .array (by simpa using fun p _ ↦ Property.plain_toJson 0 p)
  | list item itemElement =>
    simp only [members, List.mem_cons, List.not_mem_nil, or_false] at hm
    obtain rfl | rfl | rfl := hm
    · exact .string _ _
    · exact item.plain_toJson 2
    · exact .string _ _
  | polymorphic base subtypes =>
    simp only [members, List.cons_append, List.mem_cons, List.mem_append] at hm
    obtain rfl | hbase | hsubtypes := hm
    · exact .string _ _
    · exact .of_mem_optionalMember (BindingName.plain_toJson 2) hbase
    · split at hsubtypes
      · cases hsubtypes
      · obtain rfl := List.mem_singleton.mp hsubtypes
        exact .array (by simpa using fun n _ ↦ BindingName.plain_toJson 1 n)

private theorem BindingType.plain_members (t : BindingType) : ∀ m ∈ t.members, Plain 3 m.2 := by
  intro m hm
  simp only [members, List.mem_cons] at hm
  obtain rfl | rfl | hkind := hm
  · exact .string _ _
  · exact .string _ _
  · exact t.kind.plain_members m hkind

/-- No member of a type is taken for a flag of its entry. -/
theorem BindingType.not_flag_of_mem_members {t : BindingType} {m : String × Json}
    (h : m ∈ t.members) : m.1 ∉ BindingEntry.flagNames := by
  have hall : (t.members.map (·.1)).all (· ∉ BindingEntry.flagNames) := by
    obtain ⟨name, kind⟩ := t
    rcases kind with _ | ⟨_ | _, _⟩ | _ | ⟨_ | _, _ | _⟩ <;> rfl
  simpa using List.all_eq_true.mp hall m.1 (List.mem_map_of_mem h)

/-- Without its flags, an entry is its type. -/
theorem BindingType.filter_members (t : BindingType) (nativeDefault schemaDefault : Bool) :
    (t.members ++
        [("native_default", Json.bool nativeDefault),
          ("schema_default", .bool schemaDefault)]).filter
      (fun m ↦ !BindingEntry.flagNames.contains m.1) = t.members := by
  rw [List.filter_append, List.filter_eq_self.mpr fun m hm ↦ by
    simpa using not_flag_of_mem_members hm]
  exact List.append_nil _

private theorem BindingEntry.ofJson?_toJson {e : BindingEntry} (hname : e.type.name.schema.IsClark)
    (hkind : ∀ q ∈ e.type.kind.qnames, q.IsClark) : ofJson? e.toJson = some e := by
  let flags : List (String × Json) :=
    [("native_default", .bool e.nativeDefault), ("schema_default", .bool e.schemaDefault)]
  have hvalues (name : String) (hflag : name ∈ flagNames) :
      valuesOf name (e.type.members ++ flags) = valuesOf name flags := by
    have hnone : valuesOf name e.type.members = [] :=
      List.filterMap_eq_nil_iff.mpr fun m hm ↦ by
        have hne : m.1 ≠ name := by
          rintro rfl
          exact BindingType.not_flag_of_mem_members hm hflag
        simp [hne]
    rw [valuesOf_append, hnone, List.nil_append]
  have hnative := hvalues "native_default" (by decide)
  have hschema := hvalues "schema_default" (by decide)
  have hrecord : record? flagNames (.object (e.type.members ++ flags)) =
      some (e.type.members ++ flags) :=
    record?_object fun name hflag ↦ by
      obtain rfl | rfl : name = "native_default" ∨ name = "schema_default" := by
        simpa [flagNames] using hflag
      · rw [hnative]; exact Nat.le_refl 1
      · rw [hschema]; exact Nat.le_refl 1
  have hnativeDefault : optional? false flag? "native_default" (e.type.members ++ flags) =
      some e.nativeDefault := by
    rw [optional?, hnative]
    rfl
  have hschemaDefault : optional? false flag? "schema_default" (e.type.members ++ flags) =
      some e.schemaDefault := by
    rw [optional?, hschema]
    rfl
  have hrest : (e.type.members ++ flags).filter (fun m ↦ !flagNames.contains m.1) =
      e.type.members := e.type.filter_members e.nativeDefault e.schemaDefault
  have hguard : (e.type.members.all fun m ↦ m.2.all hasMeaning && m.2.height + 3 ≤ maxNesting) := by
    refine List.all_eq_true.mpr fun m hm ↦ ?_
    obtain ⟨hplain, hheight⟩ := e.type.plain_members m hm
    have hnesting : m.2.height + 3 ≤ maxNesting := by unfold maxNesting; omega
    simp [all_hasMeaning hplain, hnesting]
  change ofJson? (.object (e.type.members ++ flags)) = some e
  simp only [ofJson?, hrecord, hrest, hguard, BindingType.ofMembers?_members hname hkind,
    hnativeDefault, hschemaDefault, Option.bind_eq_bind, Option.bind_some]
  rfl

private theorem ElementBinding.ofJson?_toJson {b : ElementBinding} (helement : b.element.IsClark)
    (htype : b.type.schema.IsClark) : ofJson? b.toJson = some b := by
  simp [ofJson?, toJson, record?, valuesOf_cons, required?, QName.ofJson?_toJson helement,
    BindingName.ofJson?_toJson htype]

/-- A descriptor is read back from its value, if all of its names are. -/
theorem Descriptor.ofJson?_toJson {d : Descriptor} (h : d.IsClark) : ofJson? d.toJson = some d := by
  have hbindings : items? BindingEntry.ofJson? (.array (d.bindings.map BindingEntry.toJson)) =
      some d.bindings := items?_map BindingEntry.toJson fun e he ↦ by
    have hnames (q : QName) (hq : q ∈ e.type.name.schema :: e.type.kind.qnames) : q.IsClark :=
      h q (List.mem_append_left _ (List.mem_flatMap.mpr ⟨e, he, hq⟩))
    exact BindingEntry.ofJson?_toJson (hnames _ List.mem_cons_self) fun q hq ↦
      hnames q (List.mem_cons_of_mem _ hq)
  have helements : items? ElementBinding.ofJson? (.array (d.elements.map ElementBinding.toJson)) =
      some d.elements := items?_map ElementBinding.toJson fun b hb ↦ by
    have hnames (q : QName) (hq : q ∈ [b.element, b.type.schema]) : q.IsClark :=
      h q (List.mem_append_right _ (List.mem_flatMap.mpr ⟨b, hb, hq⟩))
    exact ElementBinding.ofJson?_toJson (hnames _ (by simp)) (hnames _ (by simp))
  simp [ofJson?, toJson, record?, valuesOf_cons, optional?, hbindings, helements]

private theorem BindingEntry.plain_toJson (e : BindingEntry) : Plain 4 e.toJson := by
  refine .object fun m hm ↦ ?_
  obtain htype | hflag := List.mem_append.mp hm
  · exact e.type.plain_members m htype
  · simp only [List.mem_cons, List.not_mem_nil, or_false] at hflag
    obtain rfl | rfl := hflag <;> exact .bool _ _

/-- The value of a descriptor nests six levels at most, which is within what a reader takes. -/
theorem Descriptor.plain_toJson (d : Descriptor) : Plain 6 d.toJson := by
  refine .object fun m hm ↦ ?_
  simp only [List.mem_cons, List.not_mem_nil, or_false] at hm
  obtain rfl | rfl := hm
  · exact .array (by simpa using fun e _ ↦ BindingEntry.plain_toJson e)
  · refine .array fun v hv ↦ ?_
    obtain ⟨b, -, rfl⟩ := List.mem_map.mp hv
    exact .object (by simp [QName.toJson, Plain.string, BindingName.plain_toJson])

/-- A descriptor is read back from its text. -/
theorem Descriptor.parse_toText {d : Descriptor} (h : d.IsClark) : parse d.toText = .ok d := by
  rw [parse, toText, parse?_pretty d.plain_toJson.1, Option.bind_some, ofJson?_toJson h]

end XmlBinding

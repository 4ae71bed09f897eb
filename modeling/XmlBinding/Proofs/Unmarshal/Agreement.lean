import XmlBinding.Proofs.Unmarshal.Lenient

/-!
# Steps that agree

Two steps agree on the events of two elements if both give the same and take just these events, or
if both fail on them. Steps that agree are run in step with each other (`Reading.Agree.bind`), so
that two calls are compared rule by rule, without a word on what they read. What elements are needed
for is little: what their attributes and prefixes say (`Opening.Alike`), their text if their type is
a simple one, and their children one by one (`Context.IsGenerated.agreeWithin_read`).
-/

namespace XmlBinding

open Event

/-- What is known where an element opens: its attributes, and the declarations in scope. -/
structure Opening where
  attributes : List Attribute
  scope : NamespaceScope

/-- The openings answer alike for every attribute and every prefix. -/
structure Opening.Alike (o o' : Opening) : Prop where
  attribute? (name : QName) :
    XmlBinding.attribute? o.attributes name = XmlBinding.attribute? o'.attributes name
  namespaceOf? (pre : String) : o.scope.namespaceOf? pre = o'.scope.namespaceOf? pre

/-- On the events of either, the calls give the same and take just these, or both fail. -/
def Scanning.Agree {α : Type} (m m' : Scanning α) (events events' : List Event) : Prop :=
  ∃ r, m.Settles events r ∧ m'.Settles events' r

namespace Reading

variable {α β : Type} {m m' : Reading α} {f f' : α → Reading β} {o o' : Opening}
  {events events' more more' content content' : List Event}

/-- Within elements that open so, the steps give the same on the events of either and take just
these, or both fail. -/
def Agree (m m' : Reading α) (o o' : Opening) (events events' : List Event) : Prop :=
  ∃ r, Settles m o.attributes o.scope events r ∧ Settles m' o'.attributes o'.scope events' r

/-- Within elements that open so, the steps give the same on the content of either and take just
that, or both fail. -/
def AgreeWithin (m m' : Reading α) (o o' : Opening) (content content' : List Event) : Prop :=
  ∃ r, SettlesWithin m o.attributes o.scope content r ∧
    SettlesWithin m' o'.attributes o'.scope content' r

/-! ### Rules -/

private theorem agree_of_consumes {a : α} (h : Consumes m o.attributes o.scope events a)
    (h' : Consumes m' o'.attributes o'.scope events' a) : Agree m m' o o' events events' :=
  ⟨some a, h, h'⟩

private theorem agree_pure (a : α) : Agree (pure a) (pure a) o o' [] [] :=
  agree_of_consumes (consumes_pure a) (consumes_pure a)

private theorem agree_report (problem problem' : Problem) :
    Agree (report problem) (report problem') o o' [] [] :=
  agree_of_consumes (consumes_report problem) (consumes_report problem')

private theorem agree_attribute? (h : o.Alike o') (name : QName) :
    Agree (attribute? name) (attribute? name) o o' [] [] :=
  agree_of_consumes (consumes_attribute? name) (h.attribute? name ▸ consumes_attribute? name)

/-- Two steps agree if the first ones do, and the second ones after whatever these give. -/
theorem Agree.bind (h : Agree m m' o o' events events')
    (hf : ∀ a, Agree (f a) (f' a) o o' more more') :
    Agree (m >>= f) (m' >>= f') o o' (events ++ more) (events' ++ more') := by
  obtain ⟨r, hm, hm'⟩ := h
  choose g hg hg' using hf
  exact ⟨r.bind g, hm.bind fun a _ ↦ hg a, hm'.bind fun a _ ↦ hg' a⟩

/-- Steps that take events, and ones that take nothing. -/
theorem Agree.bind_nil (h : Agree m m' o o' events events')
    (hf : ∀ a, Agree (f a) (f' a) o o' [] []) :
    Agree (m >>= f) (m' >>= f') o o' events events' := by
  have hall := h.bind hf
  rwa [List.append_nil, List.append_nil] at hall

private theorem Agree.within_nil (h : Agree m m' o o' [] [])
    (hf : ∀ a, AgreeWithin (f a) (f' a) o o' content content') :
    AgreeWithin (m >>= f) (m' >>= f') o o' content content' := by
  obtain ⟨r, hm, hm'⟩ := h
  choose g hg hg' using hf
  exact ⟨r.bind g, hm.within_nil fun a _ ↦ hg a, hm'.within_nil fun a _ ↦ hg' a⟩

private theorem AgreeWithin.bind (h : AgreeWithin m m' o o' content content')
    (hf : ∀ a, Agree (f a) (f' a) o o' [] []) :
    AgreeWithin (m >>= f) (m' >>= f') o o' content content' := by
  obtain ⟨r, hm, hm'⟩ := h
  choose g hg hg' using hf
  exact ⟨r.bind g, hm.bind fun a _ ↦ hg a, hm'.bind fun a _ ↦ hg' a⟩

/-- Steps that take nothing and give a value in front of steps that agree. -/
theorem Agree.after {a : α} (hm : Consumes m o.attributes o.scope [] a)
    (hm' : Consumes m' o'.attributes o'.scope [] a)
    (hf : Agree (f a) (f' a) o o' events events') :
    Agree (m >>= f) (m' >>= f') o o' events events' := by
  obtain ⟨r, hr, hr'⟩ := hf
  exact ⟨r, hm.settles hr, hm'.settles hr'⟩

/-- Steps that take nothing and give a value in front of steps that take content. -/
theorem AgreeWithin.after {a : α} (hm : Consumes m o.attributes o.scope [] a)
    (hm' : Consumes m' o'.attributes o'.scope [] a)
    (hf : AgreeWithin (f a) (f' a) o o' content content') :
    AgreeWithin (m >>= f) (m' >>= f') o o' content content' := by
  obtain ⟨r, hr, hr'⟩ := hf
  exact ⟨r, hm.settlesWithin hr, hm'.settlesWithin hr'⟩

private theorem agree_mapM {ι : Type} {f f' : ι → Reading α} (xs : List ι)
    (h : ∀ x, Agree (f x) (f' x) o o' [] []) : Agree (xs.mapM f) (xs.mapM f') o o' [] [] := by
  choose g hg hg' using h
  exact ⟨xs.mapM g, settles_mapM hg, settles_mapM hg'⟩

private theorem agreeWithin_text (hcontent : IsContent content) (hcontent' : IsContent content')
    (h : contentText content = contentText content') :
    AgreeWithin text text o o' content content' :=
  ⟨some (contentText content), empties_text hcontent, h ▸ empties_text hcontent'⟩

/-- Child elements are gathered alike if they are handled alike, one by one. -/
private theorem agreeWithin_gather {handle handle' : QName → Reading (List α)}
    (hcontent : IsContent content) (hcontent' : IsContent content')
    (h : List.Forall₂ (fun child child' ↦ ∃ name, child.head?.bind openedName? = some name ∧
      child'.head?.bind openedName? = some name ∧
      Agree (handle name) (handle' name) o o' child child') (children content)
      (children content')) :
    AgreeWithin (gather handle) (gather handle') o o' content content' := by
  -- What a pair of children gives is the same on both sides, which makes one row of results.
  have hrow : ∃ rs,
      List.Forall₂ (fun child r ↦ ∀ name, child.head?.bind openedName? = some name →
        Settles (handle name) o.attributes o.scope child r) (children content) rs ∧
      List.Forall₂ (fun child r ↦ ∀ name, child.head?.bind openedName? = some name →
        Settles (handle' name) o'.attributes o'.scope child r) (children content') rs := by
    generalize children content = row, children content' = row' at h
    induction h with
    | nil => exact ⟨[], .nil, .nil⟩
    | cons hfirst _ ih =>
      obtain ⟨rs, hrs, hrs'⟩ := ih
      obtain ⟨name, hn, hn', r, hr, hr'⟩ := hfirst
      refine ⟨r :: rs, .cons (fun own hown ↦ ?_) hrs, .cons (fun own hown ↦ ?_) hrs'⟩
      · cases hn.symm.trans hown
        exact hr
      · cases hn'.symm.trans hown
        exact hr'
  obtain ⟨rs, hrs, hrs'⟩ := hrow
  exact ⟨gathered rs, settlesWithin_gather hcontent hrs, settlesWithin_gather hcontent' hrs'⟩

/-- Elements are left alike behind their ends, where their content was read alike. -/
private theorem AgreeWithin.leave (h : AgreeWithin m m' o o' content content')
    (closing closing' : QName) :
    Agree (do
      let a ← m
      leave
      return a) (do
      let a ← m'
      leave
      return a) o o' (content ++ [.closing closing]) (content' ++ [.closing closing']) := by
  obtain ⟨r, hm, hm'⟩ := h
  exact ⟨r, hm.leave closing, hm'.leave closing'⟩

end Reading

namespace Context

open Reading

variable {c : Context} {strict : Bool} {child child' : BindingType → Reading Value} {o o' : Opening}
  {element element' content content' : List Event}

/-! ### Openings -/

private theorem marksNull_eq (h : o.Alike o') :
    marksNull o.attributes = marksNull o'.attributes := by
  unfold marksNull
  rw [h.attribute?]

variable (c)

/-- Alike openings choose the same type. -/
theorem typeRead?_eq (h : o.Alike o') (declared : Option BindingType) (name : QName) :
    c.typeRead? declared name o.attributes o.scope =
      c.typeRead? declared name o'.attributes o'.scope := by
  unfold typeRead? chosen? heeded?
  rw [h.attribute?, funext h.namespaceOf?]

private theorem refuses_eq (h : o.Alike o') (declared : Option BindingType) (name : QName) :
    c.refuses strict declared name o.attributes o.scope =
      c.refuses strict declared name o'.attributes o'.scope := by
  unfold refuses isMarkUnknown
  rw [typeRead?_eq c h]
  unfold chosen? heeded?
  rw [h.attribute?, funext h.namespaceOf?]

variable {c}

/-- Attributes of alike openings are read alike. -/
theorem agree_readAttribute (h : o.Alike o') (type : BindingType) (text : String) :
    Agree (type.readAttribute text) (type.readAttribute text) o o' [] [] := by
  refine agree_of_consumes (consumes_readAttribute type text) ?_
  have hvalue : type.valueOfText o.scope text = type.valueOfText o'.scope text := by
    unfold BindingType.valueOfText
    rw [funext h.namespaceOf?]
  rw [hvalue]
  exact consumes_readAttribute type text

/-! ### Names without a type -/

/-- A name has no type in either call. -/
theorem agree_unresolved (n n' : Nat) (missing : BindingName) :
    Agree ((c.readSession strict child n).unresolved missing)
      ((c.readSession strict child' n').unresolved missing) o o' [] [] :=
  ⟨_, settles_unresolved strict n missing, settles_unresolved strict n' missing⟩

/-- Elements are passed over alike after agreeing remarks. -/
theorem agree_skipped {α : Type} {remark remark' : Reading Unit}
    (h : Agree remark remark' o o' [] []) (he : IsElement element) (he' : IsElement element')
    (a : α) : Agree (do
      remark
      skipElement
      return a) (do
      remark'
      skipElement
      return a) o o' element element' :=
  h.bind fun _ ↦ agree_of_consumes ((consumes_skipElement he).bind_nil (consumes_pure a))
    ((consumes_skipElement he').bind_nil (consumes_pure a))

/-! ### Content -/

private theorem IsGenerated.agree_readAttribute (hc : c.IsGenerated) (h : o.Alike o') (n : Nat)
    (p : Property) :
    Agree (p.readAttribute (c.readSession strict child (n + 1)))
      (p.readAttribute (c.readSession strict child' (n + 1))) o o' [] [] := by
  unfold Property.readAttribute
  refine (agree_attribute? h p.qname).bind fun own ↦ ?_
  cases own.or p.default with
  | none => exact agree_pure none
  | some text =>
    dsimp only
    rw [readSession_catalog, readSession_catalog]
    cases ht : c.catalog.typeNamed? p.type with
    | none => exact (agree_unresolved _ _ _).bind fun _ ↦ agree_pure none
    | some type =>
      dsimp only
      rw [hc.reader?, hc.reader?, Catalog.typeNamed?_name ht, Option.map_some, Option.map_some]
      refine (Context.agree_readAttribute h type text).bind fun r ↦ ?_
      cases r with
      | ok value => exact agree_pure _
      | error cause => exact (agree_report _ _).bind fun _ ↦ agree_pure _

/-- Child elements of structures are read alike by the property of their name. -/
private theorem agree_readOccurrence (n n' : Nat) (owner : BindingName) (properties : List Property)
    (name : QName) (he : IsElement element) (he' : IsElement element')
    (hchild : ∀ p type, BindingType.elementProperty? properties name = some p →
      c.catalog.typeNamed? p.1.type = some type →
      Agree (child type) (child' type) o o' element element') :
    Agree (BindingType.readOccurrence (c.readSession strict child n) owner properties name)
      (BindingType.readOccurrence (c.readSession strict child' n') owner properties name) o o'
      element element' := by
  unfold BindingType.readOccurrence
  rw [readSession_catalog, readSession_catalog, readSession_child, readSession_child]
  cases hp : BindingType.elementProperty? properties name with
  | none => exact agree_skipped (agree_report _ _) he he' []
  | some p =>
    dsimp only
    cases ht : c.catalog.typeNamed? p.1.type with
    | none => exact agree_skipped (agree_unresolved n n' _) he he' []
    | some type => exact (hchild p type hp ht).bind_nil fun v ↦ agree_pure _

private theorem agree_readItem (n n' : Nat) (owner item : BindingName) (itemElement name : QName)
    (he : IsElement element) (he' : IsElement element')
    (hchild : ∀ type, name = itemElement → c.catalog.typeNamed? item = some type →
      Agree (child type) (child' type) o o' element element') :
    Agree (BindingType.readItem (c.readSession strict child n) owner item itemElement name)
      (BindingType.readItem (c.readSession strict child' n') owner item itemElement name) o o'
      element element' := by
  unfold BindingType.readItem
  rw [readSession_catalog, readSession_catalog, readSession_child, readSession_child]
  by_cases hname : name = itemElement
  · rw [if_neg (by simpa using hname), if_neg (by simpa using hname)]
    cases ht : c.catalog.typeNamed? item with
    | none => exact agree_skipped (agree_unresolved n n' _) he he' []
    | some type => exact (hchild type hname ht).bind_nil fun v ↦ agree_pure _
  · rw [if_pos hname, if_pos hname]
    exact agree_skipped (agree_report _ _) he he' []

end Context

/-- The type that a child element of the name is read with in content of the type, if it is read. -/
def BindingType.childType? (c : Catalog) (type : BindingType) (name : QName) : Option BindingType :=
  match type.kind with
  | .builtin _ => none
  | .byName _ properties =>
    (elementProperty? properties name).bind fun p ↦ c.typeNamed? p.1.type
  | .list item itemElement => if name = itemElement then c.typeNamed? item else none
  | .polymorphic _ _ => none

namespace Context

open Reading

variable {c : Context} {strict : Bool} {child child' : BindingType → Reading Value} {o o' : Opening}
  {content content' : List Event}

/-- Content is read alike if child elements are, one by one, and the text is the same if it is
read. -/
theorem IsGenerated.agreeWithin_read (hc : c.IsGenerated) (h : o.Alike o') (n : Nat)
    (hcontent : IsContent content) (hcontent' : IsContent content') {type : BindingType}
    (htext : type.isSimple = true → contentText content = contentText content')
    (hchildren : List.Forall₂ (fun element element' ↦ IsElement element ∧ IsElement element' ∧
      ∃ name, element.head?.bind openedName? = some name ∧
        element'.head?.bind openedName? = some name ∧
        ∀ own, type.childType? c.catalog name = some own →
          Agree (child own) (child' own) o o' element element') (children content)
      (children content')) :
    AgreeWithin (type.read (c.readSession strict child (n + 1)))
      (type.read (c.readSession strict child' (n + 1))) o o' content content' := by
  obtain ⟨own, kind⟩ := type
  cases kind with
  | builtin space =>
    refine (agreeWithin_text hcontent hcontent' (htext rfl)).bind fun text ↦ ?_
    refine (Context.agree_readAttribute h ⟨own, .builtin space⟩ text).bind fun r ↦ ?_
    cases r with
    | ok value => exact agree_pure _
    | error cause => exact (agree_report _ _).bind fun _ ↦ agree_pure _
  | byName base properties =>
    refine (agree_mapM _ fun p ↦ hc.agree_readAttribute h n p).within_nil fun attributes ↦ ?_
    refine (agreeWithin_gather hcontent hcontent' ?_).bind fun occurrences ↦ agree_pure _
    refine hchildren.imp fun element element' ⟨he, he', name, hn, hn', hchild⟩ ↦ ?_
    refine ⟨name, hn, hn', agree_readOccurrence _ _ _ _ _ he he' fun p type hp ht ↦ ?_⟩
    exact hchild type (by simp only [BindingType.childType?, hp, Option.bind_some, ht])
  | list item itemElement =>
    refine (agreeWithin_gather hcontent hcontent' ?_).bind fun items ↦ agree_pure _
    refine hchildren.imp fun element element' ⟨he, he', name, hn, hn', hchild⟩ ↦ ?_
    refine ⟨name, hn, hn', agree_readItem _ _ _ _ _ _ he he' fun type hitem ht ↦ ?_⟩
    exact hchild type (by simp only [BindingType.childType?, if_pos hitem, ht])
  | polymorphic base subtypes =>
    exact (agreeWithin_text hcontent hcontent' (htext rfl)).bind fun text ↦ agree_pure _

/-! ### Elements -/

/-- The value of either element is read alike: either without the content, or with it by the type
that the elements are read as. -/
private theorem IsGenerated.agree_readValue_cases (hc : c.IsGenerated) (h : o.Alike o')
    {declared : Option BindingType} {name : QName}
    (hread : ∀ type, c.readAs? declared name o.attributes o.scope = some type → ∀ n,
      AgreeWithin (type.read (c.readSession strict child (n + 1)))
        (type.read (c.readSession strict child' (n + 1))) o o' content content') :
    Agree (c.readValue (c.readSession strict child c.maxHandovers) declared name)
        (c.readValue (c.readSession strict child' c.maxHandovers) declared name) o o' [] [] ∨
      AgreeWithin (c.readValue (c.readSession strict child c.maxHandovers) declared name)
        (c.readValue (c.readSession strict child' c.maxHandovers) declared name) o o' content
        content' := by
  obtain ⟨n, hmax⟩ := c.maxHandovers_eq
  rw [hmax]
  unfold readValue
  have hnull := @consumes_isMarkedNull o.attributes o.scope
  have hnull' := @consumes_isMarkedNull o'.attributes o'.scope
  rw [← marksNull_eq h] at hnull'
  -- Up to the content, both calls come to the same type or end alike: openings decide it.
  cases hmark : marksNull o.attributes with
  | true =>
    rw [hmark] at hnull hnull'
    exact .inl ((agree_pure Value.null).after hnull hnull')
  | false =>
    rw [hmark] at hnull hnull'
    have htype := @settles_readType? c o.attributes o.scope declared child strict (n + 2) name
    have htype' := @settles_readType? c o'.attributes o'.scope declared child' strict (n + 2) name
    rw [← refuses_eq c h, ← typeRead?_eq c h] at htype'
    cases hrefuses : c.refuses strict declared name o.attributes o.scope with
    | true =>
      rw [hrefuses, if_pos rfl] at htype htype'
      exact .inl (Agree.after hnull hnull' ⟨none, Fails.bind htype, Fails.bind htype'⟩)
    | false =>
      rw [hrefuses, if_neg Bool.false_ne_true] at htype htype'
      cases hchosen : c.typeRead? declared name o.attributes o.scope with
      | none =>
        rw [hchosen] at htype htype'
        exact .inl (((agree_pure Value.null).after htype htype').after hnull hnull')
      | some type =>
        rw [hchosen] at htype htype'
        have hreadAs : c.readAs? declared name o.attributes o.scope =
            c.catalog.typeNamed? type.name := by
          rw [readAs?, hmark, if_neg Bool.false_ne_true, hchosen, Option.bind_some]
        have hreader (child : BindingType → Reading Value) :=
          @IsGenerated.reader? c hc strict child (n + 1) type.name
        cases ht : c.catalog.typeNamed? type.name with
        | none =>
          refine .inl (Agree.after hnull hnull' (Agree.after htype htype' ?_))
          dsimp only
          rw [hreader, hreader, ht, Option.map_none, Option.map_none]
          cases declared with
          | none =>
            rw [typeNamed?_of_typeRead? hchosen] at ht
            cases ht
          | some declared => exact (agree_unresolved _ _ _).bind fun _ ↦ agree_pure Value.null
        | some type' =>
          refine .inr (AgreeWithin.after hnull hnull' (AgreeWithin.after htype htype' ?_))
          dsimp only
          rw [hreader, hreader, ht, Option.map_some, Option.map_some]
          exact hread type' (hreadAs.trans ht) n

/-- The bodies of elements are read alike from alike openings, if their content is read alike by the
type that they are read as. -/
theorem IsGenerated.agree_readBody (hc : c.IsGenerated) (h : o.Alike o') {depth depth' : Nat}
    (hcontent : IsContent content) (hcontent' : IsContent content')
    {declared : Option BindingType} {name : QName}
    (hread : ∀ type, c.readAs? declared name o.attributes o.scope = some type → ∀ n,
      AgreeWithin (type.read (c.readSession strict (c.readChild strict depth) (n + 1)))
        (type.read (c.readSession strict (c.readChild strict depth') (n + 1))) o o' content
        content') (closing closing' : QName) :
    Agree (c.readBody strict depth declared name) (c.readBody strict depth' declared name) o o'
      (content ++ [.closing closing]) (content' ++ [.closing closing']) := by
  rcases hc.agree_readValue_cases h hread with hvalue | hvalue
  · refine hvalue.bind fun v ↦ ?_
    exact agree_of_consumes ((consumes_leave hcontent closing).bind_nil (consumes_pure v))
      ((consumes_leave hcontent' closing').bind_nil (consumes_pure v))
  · exact hvalue.leave closing closing'

/-- Elements are read alike if their bodies are. -/
theorem agree_readElement {outer outer' : NamespaceScope} {depth depth' : Nat} {name : QName}
    {attributes attributes' : List Attribute} {declarations declarations' : List Declaration}
    {declared : Option BindingType} {events events' : List Event}
    (h : Agree (c.readBody strict depth declared name) (c.readBody strict depth' declared name)
      ⟨attributes, outer.push declarations⟩ ⟨attributes', outer'.push declarations'⟩ events
      events') :
    Scanning.Agree (c.readElement strict (depth + 1) outer declared)
      (c.readElement strict (depth' + 1) outer' declared)
      (.opening name attributes declarations :: events)
      (.opening name attributes' declarations' :: events') := by
  obtain ⟨r, hr, hr'⟩ := h
  exact ⟨r, settles_readElement hr, settles_readElement hr'⟩

end Context

end XmlBinding

import XmlBinding.Proofs.Context.Order
import XmlBinding.Proofs.Unmarshal.Agreement
import XmlBinding.Proofs.Unmarshal.Fieldwise

/-!
# Documents that are cut into events in different ways

Two sequences of events say the same if their elements open alike, one by one, and the texts around
them are the same once adjacent events of text are joined (`Event.texts`). Blank text does not count
where an element is read as a structure or a list. What is read of a declared type is then the same
(`Context.unmarshalType_congr`): the calls are compared by rules for steps that agree, and the
elements of the documents by an induction on what relates them. Where two lists of a structure share
a field, one document alone may be read as two values.
-/

namespace XmlBinding

/-! ### Texts -/

namespace Event

/-- The texts in front of the elements, between them and behind them, adjacent events of text being
joined. `depth` counts the open elements, whose texts are their own. -/
def textsFrom : (depth : Nat) → List Event → List String
  | _, [] => [""]
  | 0, .text s :: rest => (s ++ (textsFrom 0 rest).headD "") :: (textsFrom 0 rest).tail
  | 0, .opening _ _ _ :: rest => "" :: textsFrom 1 rest
  | 0, .closing _ :: _ => [""]
  | depth + 1, .text _ :: rest => textsFrom (depth + 1) rest
  | depth + 1, .opening _ _ _ :: rest => textsFrom (depth + 2) rest
  | depth + 1, .closing _ :: rest => textsFrom depth rest

/-- The texts in the content of an element: one in front of its first child, and one behind each
child. -/
def texts (content : List Event) : List String := textsFrom 0 content

private theorem textContent_eq_join (depth : Nat) (xs : List LocatedEvent) :
    (textContent depth xs).1 = String.join (textsFrom depth (xs.map (·.event))) := by
  induction xs generalizing depth with
  | nil => cases depth <;> rfl
  | cons e xs ih =>
    obtain ⟨event, l⟩ := e
    cases event with
    | opening name attributes declarations =>
      cases depth with
      | zero => exact (ih 1).trans (String.empty_append.symm.trans (String.join_cons ..).symm)
      | succ depth => exact ih (depth + 2)
    | text s =>
      cases depth with
      | zero =>
        change s ++ (textContent 0 xs).1 = String.join ((s ++ _) :: _)
        rw [ih, String.join_cons]
        cases textsFrom 0 (xs.map (·.event)) with
        | nil => exact (congrArg (· ++ "") String.append_empty).symm
        | cons t ts => rw [List.headD_cons, List.tail_cons, String.join_cons, String.append_assoc]
      | succ depth => exact ih (depth + 1)
    | closing name =>
      cases depth with
      | zero => rfl
      | succ depth => exact ih depth

private theorem contentText_eq_join (content : List Event) :
    Reading.contentText content = String.join (texts content) := by
  rw [Reading.contentText, textContent_eq_join, List.map_map]
  exact congrArg (fun events ↦ String.join (textsFrom 0 events)) (List.map_id content)

end Event

open Event

/-- The texts say the same in content that is read as the type, if it is read at all: they are the
same, or the type does not take them as text and both are blank. -/
def SameText (type : Option BindingType) (s s' : String) : Prop :=
  s = s' ∨ type.any (!·.isSimple) = true ∧ Text.trimmed s = "" ∧ Text.trimmed s' = ""

/-- Texts that a type takes as its own say the same only if they are. -/
private theorem SameText.eq_of_isSimple {type : BindingType} {ss ss' : List String}
    (h : List.Forall₂ (SameText (some type)) ss ss') (hsimple : type.isSimple = true) :
    ss = ss' := by
  refine (congrFun₂ List.forall₂_eq_eq_eq ss ss').mp (h.imp fun s s' hs ↦ ?_)
  rcases hs with hs | ⟨hnot, -⟩
  · exact hs
  · rw [Option.any_some, hsimple] at hnot
    cases hnot

namespace Context

variable (c : Context)

/-- The declared type of a child element, if content of the type has a place for it. -/
def childDeclared? (type : Option BindingType) (child : List Event) : Option BindingType :=
  type.bind fun type ↦ (child.head?.bind openedName?).bind (type.childType? c.catalog)

/-- Two elements within given declarations, of a declared type if they are to be read, say the same
for the context: they open alike, and by the type that they are read as their texts say the same and
so do their children. -/
inductive SameElement : (declared : Option BindingType) → (outer outer' : NamespaceScope) →
    (element element' : List Event) → Prop where
  | intro {declared type : Option BindingType} {outer outer' : NamespaceScope} {name : QName}
    {attributes attributes' : List Attribute} {declarations declarations' : List Declaration}
    {content content' : List Event} {closing closing' : QName}
    (opening : Opening.Alike ⟨attributes, outer.push declarations⟩
      ⟨attributes', outer'.push declarations'⟩)
    (readAs : (declared.bind fun declared ↦
      c.readAs? (some declared) name attributes (outer.push declarations)) = type)
    (texts : List.Forall₂ (SameText type) (texts content) (texts content'))
    (length : (children content).length = (children content').length)
    (children : ∀ child child', (child, child') ∈ (children content).zip (children content') →
      SameElement (c.childDeclared? type child) (outer.push declarations)
        (outer'.push declarations') child child') :
    SameElement declared outer outer' (elementOf name attributes declarations content closing)
      (elementOf name attributes' declarations' content' closing')

/-- Two balanced documents say the same for a declared type: their elements do, one by one. -/
structure SameDocument (declared : BindingName) (s s' : EventStream) : Prop where
  balanced : IsContent s.events
  balanced' : IsContent s'.events
  elements : List.Forall₂ (c.SameElement (c.catalog.typeNamed? declared) .empty .empty)
    (children s.events) (children s'.events)

variable {c} {strict : Bool}

/-! ### Elements -/

private theorem SameElement.exists_name {declared : Option BindingType}
    {outer outer' : NamespaceScope}
    {element element' : List Event} (h : c.SameElement declared outer outer' element element') :
    ∃ name, element.head?.bind openedName? = some name ∧
      element'.head?.bind openedName? = some name := by
  cases h with
  | intro => exact ⟨_, rfl, rfl⟩

private theorem sameElement_refl {element : List Event} (he : IsElement element)
    (declared : Option BindingType) (outer : NamespaceScope) :
    c.SameElement declared outer outer element element := by
  -- The induction is on a bound of the length, as children are shorter than their element.
  generalize hn : element.length = n
  induction n using Nat.strongRecOn generalizing element declared outer with
  | ind n ih =>
    obtain ⟨name, attributes, declarations, content, closing, rfl, hcontent⟩ :=
      isElement_iff.mp he
    refine .intro ⟨fun _ ↦ rfl, fun _ ↦ rfl⟩ rfl (List.forall₂_same.mpr fun _ _ ↦ .inl rfl) rfl
      fun child child' hpair ↦ ?_
    obtain ⟨hmem, -⟩ := List.of_mem_zip hpair
    obtain rfl : child = child' := by
      rw [List.zip_eq_zipWith, List.zipWith_self] at hpair
      obtain ⟨x, -, hx⟩ := List.mem_map.mp hpair
      exact (Prod.mk.inj hx).1.symm.trans (Prod.mk.inj hx).2
    have hshort := length_le_of_mem_children hcontent hmem
    simp only [List.length_cons, List.length_append, List.length_nil] at hn
    exact ih child.length (by omega) (isElement_of_mem_children hcontent hmem) _ _ rfl

/-- A document says the same as itself. -/
theorem sameDocument_refl {s : EventStream} (h : IsContent s.events) (declared : BindingName) :
    c.SameDocument declared s s :=
  ⟨h, h, List.forall₂_same.mpr fun _ hmem ↦
    sameElement_refl (isElement_of_mem_children h hmem) _ _⟩

/-- Child elements are read alike where they stand if they are by themselves. -/
private theorem agree_readChild {o o' : Opening} {depth depth' : Nat} {type : BindingType}
    {element element' : List Event}
    (h : Scanning.Agree (c.readElement strict depth o.scope (some type))
      (c.readElement strict depth' o'.scope (some type)) element element') :
    Reading.Agree (c.readChild strict depth type) (c.readChild strict depth' type) o o' element
      element' := by
  obtain ⟨r, hr, hr'⟩ := h
  refine ⟨r, ?_, ?_⟩
  · cases r with
    | none => exact fun _ ↦ hr
    | some v => exact fun _ ↦ hr
  · cases r with
    | none => exact fun _ ↦ hr'
    | some v => exact fun _ ↦ hr'

private theorem IsGenerated.agree_of_sameElement (hc : c.IsGenerated)
    {declared : Option BindingType} {outer outer' : NamespaceScope} {element element' : List Event}
    (h : c.SameElement declared outer outer' element element') (he : IsElement element)
    (he' : IsElement element') {type : BindingType} (htype : declared = some type)
    {depth depth' : Nat} (hd : element.length ≤ depth) (hd' : element'.length ≤ depth') :
    Scanning.Agree (c.readElement strict depth outer (some type))
      (c.readElement strict depth' outer' (some type)) element element' := by
  -- The induction is on what relates the elements; their types are told from the outside in.
  induction h generalizing type depth depth' with
  | @intro declared read outer outer' name attributes attributes' declarations declarations' content
      content' closing closing' hopening hread htexts hlength hchildren ih =>
    subst htype
    have hcontent := isElement_opening_iff.mp he
    have hcontent' := isElement_opening_iff.mp he'
    simp only [elementOf, List.length_cons, List.length_append, List.length_nil] at hd hd'
    obtain ⟨depth, rfl⟩ := Nat.exists_eq_add_one_of_ne_zero (Nat.ne_zero_of_lt hd)
    obtain ⟨depth', rfl⟩ := Nat.exists_eq_add_one_of_ne_zero (Nat.ne_zero_of_lt hd')
    refine agree_readElement (hc.agree_readBody hopening hcontent hcontent' ?_ closing closing')
    intro own hown n
    obtain rfl : read = some own := hread.symm.trans hown
    refine hc.agreeWithin_read hopening n hcontent hcontent' (fun hsimple ↦ ?_) ?_
    · rw [contentText_eq_join, contentText_eq_join, SameText.eq_of_isSimple htexts hsimple]
    · refine List.forall₂_iff_zip.mpr ⟨hlength, fun {child child'} hpair ↦ ?_⟩
      obtain ⟨hmem, hmem'⟩ := List.of_mem_zip hpair
      have hchild := isElement_of_mem_children hcontent hmem
      have hchild' := isElement_of_mem_children hcontent' hmem'
      have hshort := length_le_of_mem_children hcontent hmem
      have hshort' := length_le_of_mem_children hcontent' hmem'
      obtain ⟨name', hn, hn'⟩ := (hchildren child child' hpair).exists_name
      refine ⟨hchild, hchild', name', hn, hn', fun type' htype' ↦ agree_readChild ?_⟩
      refine ih child child' hpair hchild hchild' ?_ (by omega) (by omega)
      rw [childDeclared?, Option.bind_some, hn, Option.bind_some, htype']

/-! ### Documents -/

/-- Text in front of an element does not count for it. -/
theorem run_readElement_texts {texts : List LocatedEvent} (ht : ∀ e ∈ texts, e.isText = true)
    (depth : Nat) (outer : NamespaceScope) (declared : Option BindingType)
    (events : List LocatedEvent) (diagnostics : List Diagnostic) :
    (c.readElement strict (depth + 1) outer declared).run.run ⟨texts ++ events, diagnostics⟩ =
      (c.readElement strict (depth + 1) outer declared).run.run ⟨events, diagnostics⟩ := by
  unfold readElement
  rw [XmlBinding.run_bind, XmlBinding.run_bind]
  change ((get >>= _ : Scanning Value)).run.run ⟨(texts ++ events).dropWhile (·.isText), _⟩ = _
  rw [List.dropWhile_append_of_pos ht]
  rfl

private theorem root_cases {xs : List LocatedEvent} (h : IsContent (xs.map (·.event))) :
    (children (xs.map (·.event)) = [] ∧ ∀ e ∈ xs, e.isText = true) ∨
      ∃ texts element behind more, xs = texts ++ (element ++ behind) ∧
        (∀ e ∈ texts, e.isText = true) ∧
        children (xs.map (·.event)) = element.map (·.event) :: more := by
  induction xs with
  | nil => exact .inl ⟨rfl, by simp⟩
  | cons e xs ih =>
    obtain ⟨event, l⟩ := e
    cases event with
    | text s =>
      rcases ih h with ⟨hnone, ht⟩ | ⟨texts, element, behind, more, rfl, ht, hmore⟩
      · exact .inl ⟨hnone, List.forall_mem_cons.mpr ⟨rfl, ht⟩⟩
      · exact .inr ⟨⟨.text s, l⟩ :: texts, element, behind, more, rfl,
          List.forall_mem_cons.mpr ⟨rfl, ht⟩, hmore⟩
    | opening name attributes declarations =>
      obtain ⟨content, closing, more, hxs, hcontent, -⟩ := IsContent.of_opening h
      obtain ⟨ys, l', zs, rfl, rfl, rfl⟩ := Reading.exists_of_map_closing hxs
      refine .inr ⟨[],
        ⟨.opening name attributes declarations, l⟩ :: (ys ++ [⟨.closing closing, l'⟩]), zs,
        children (zs.map (·.event)), by simp, by simp, ?_⟩
      rw [List.map_cons, hxs, children_element hcontent]
      simp
    | closing name => exact h.elim

/-- A document is read from its first event on. -/
theorem result_readRoot (s : EventStream) (declared : Option BindingType) :
    (Outcome.ofScanning (c.readRoot strict declared) s).result =
      ((c.readElement strict s.entries.length .empty declared).run.run ⟨s.entries, []⟩).1 := rfl

private theorem readRoot_of_text {s : EventStream} (h : ∀ e ∈ s.entries, e.isText = true)
    (declared : Option BindingType) :
    (Outcome.ofScanning (c.readRoot strict declared) s).result.toOption = none := by
  rw [result_readRoot]
  cases hs : s.entries with
  | nil => rfl
  | cons e xs =>
    have hdrop : (e :: xs).dropWhile (·.isText) = [] := by
      rw [← List.append_nil (e :: xs), List.dropWhile_append_of_pos (hs ▸ h), List.dropWhile_nil]
    rw [List.length_cons, run_readElement_of_not_opening (by rw [hdrop]; simp)]
    rfl

private theorem readRoot_of_settles {s : EventStream} {declared : Option BindingType}
    {r : Option Value}
    {texts element behind : List LocatedEvent} (hs : s.entries = texts ++ (element ++ behind))
    (ht : ∀ e ∈ texts, e.isText = true) (he : IsElement (element.map (·.event)))
    (h : (c.readElement strict s.entries.length .empty declared).Settles
      (element.map (·.event)) r) :
    (Outcome.ofScanning (c.readRoot strict declared) s).result.toOption = r := by
  obtain ⟨depth, hdepth⟩ : ∃ depth, s.entries.length = depth + 1 := by
    obtain ⟨name, attributes, declarations, content, closing, hevents, -⟩ := isElement_iff.mp he
    obtain ⟨first, inner, rfl, -, -⟩ := List.map_eq_cons_iff.mp hevents
    rw [hs, List.length_append]
    exact ⟨_, rfl⟩
  rw [result_readRoot]
  rw [hdepth] at h ⊢
  rw [hs, run_readElement_texts ht]
  cases r with
  | none =>
    rcases hrun : (c.readElement strict (depth + 1) .empty declared).run.run
      ⟨element ++ behind, []⟩ with ⟨_ | v, cursor⟩
    · rfl
    · exact absurd hrun (h element behind [] v cursor rfl)
  | some v =>
    obtain ⟨diagnostics, hg⟩ := h element behind [] rfl
    exact congrArg (·.1.toOption) hg

/-- Documents that say the same are read alike. -/
theorem IsGenerated.toOption_unmarshalType (hc : c.IsGenerated) (options : Options)
    {declared : BindingName} {s s' : EventStream} (hs : c.SameDocument declared s s') :
    (c.unmarshalType options declared s).result.toOption =
      (c.unmarshalType options declared s').result.toOption := by
  obtain ⟨hbalanced, hbalanced', helements⟩ := hs
  have hlength {s : EventStream} {texts element behind : List LocatedEvent}
      (h : s.entries = texts ++ (element ++ behind)) :
      (element.map (·.event)).length ≤ s.entries.length := by
    rw [h, List.length_map, List.length_append, List.length_append]
    omega
  unfold unmarshalType unmarshalDeclared
  cases htype : c.catalog.typeNamed? declared with
  | none => rfl
  | some type =>
    dsimp only
    rw [htype] at helements
    rcases root_cases hbalanced with ⟨hnone, ht⟩ |
      ⟨texts, element, behind, more, hentries, ht, hmore⟩
    · have hnone' : children s'.events = [] := by
        rw [EventStream.events, hnone] at helements
        exact List.forall₂_nil_left_iff.mp helements
      rcases root_cases hbalanced' with ⟨-, ht'⟩ | ⟨_, _, _, _, -, -, hmore'⟩
      · rw [readRoot_of_text ht, readRoot_of_text ht']
      · cases hnone'.symm.trans hmore'
    · rcases root_cases hbalanced' with ⟨hnone', -⟩ |
        ⟨texts', element', behind', more', hentries', ht', hmore'⟩
      · rw [EventStream.events, EventStream.events, hmore, hnone'] at helements
        cases helements
      · rw [EventStream.events, EventStream.events, hmore, hmore'] at helements
        have hroot := (List.forall₂_cons.mp helements).1
        have he := isElement_of_mem_children hbalanced (hmore ▸ List.mem_cons_self)
        have he' := isElement_of_mem_children hbalanced' (hmore' ▸ List.mem_cons_self)
        obtain ⟨r, hr, hr'⟩ := hc.agree_of_sameElement hroot he he' rfl (hlength hentries)
          (hlength hentries')
        rw [readRoot_of_settles hentries ht he hr, readRoot_of_settles hentries' ht' he' hr']

/-- Whether a document is read as a value of a declared type is the same for all documents that say
the same: it does not matter how text is cut into events, where blank text stands in structures and
lists, which declarations bind the prefixes, or where the events began. Nor does the order in which
the calls set lists. The value is the same too if the orders are, or if lists have fields of
different names. -/
theorem unmarshalType_congr {settings : Settings} (h : settings.converters = [])
    (bundles : List Bundle) (order : ListOrder) (options : Options) {declared : BindingName}
    {s s' : EventStream} (hs : (make settings bundles).SameDocument declared s s') :
    let c := make settings bundles
    let c' := c.inOrder order
    (c.unmarshalType options declared s).result.isOk =
        (c'.unmarshalType options declared s').result.isOk ∧
      (order = c.order ∨ c.NamesLists →
        (c.unmarshalType options declared s).result.toOption =
          (c'.unmarshalType options declared s').result.toOption) := by
  intro c c'
  have hc : c.IsGenerated := isGenerated_make h bundles
  have hsame := hc.toOption_unmarshalType options hs
  have hisOk (r : Except Error Value) : r.isOk = r.toOption.isSome := by cases r <;> rfl
  constructor
  · rw [← Outcome.isOk_forget (c'.unmarshalType options declared s'), hc.forget_unmarshalType,
      Outcome.isOk_forget, hisOk, hisOk, hsame]
  · rintro (rfl | hn)
    · exact hsame
    · rw [hc.unmarshalType_inOrder options hn]
      exact hsame

end Context

namespace Shapes

/-- A prefix for names. -/
def prefixOfNames : Declaration := ⟨"q", "urn:names"⟩

/-- A label with a name, as it is put together event by event. -/
def pieces : List Event :=
  elementOf ⟨"urn:shapes", "label"⟩ [] [] [.text "q:", .text "", .text "name"] root

/-- The label with its name in one piece, and with the prefix declared once more. -/
def whole : List Event :=
  elementOf ⟨"urn:shapes", "label"⟩ [] [prefixOfNames] [.text "q:name"] root

/-- A shape with such content. -/
def withContent (content : List Event) : List Event :=
  elementOf root [] [prefixOfNames] content root

/-- The label in one piece, indented. -/
def indented : List Event := .text "\n" :: .text "  " :: (whole ++ [.text "\n"])

/-- The shapes say the same. -/
theorem sameDocument_indented :
    context.SameDocument shape (.ofEvents (withContent pieces))
      (.ofEvents (withContent indented)) := by
  have hlabel : context.SameElement (some (.builtin name .qname))
      (NamespaceScope.empty.push [prefixOfNames]) (NamespaceScope.empty.push [prefixOfNames])
      pieces whole := by
    refine .intro ⟨fun _ ↦ rfl, fun pre ↦ ?_⟩ rfl (.cons (.inl rfl) .nil) rfl ?_
    · by_cases h : prefixOfNames.pre = pre <;> simp [NamespaceScope.namespaceOf?, h]
    · intro child child' h
      change (child, child') ∈ [] at h
      cases h
  have hroot : context.SameElement (some (.byName shape properties)) .empty .empty
      (withContent pieces) (withContent indented) := by
    have hread : ((some (BindingType.byName shape properties)).bind fun declared ↦
        context.readAs? (some declared) root [] (NamespaceScope.empty.push [prefixOfNames])) =
          some (.byName shape properties) := by decide +kernel
    refine .intro ⟨fun _ ↦ rfl, fun _ ↦ rfl⟩ hread ?_ rfl fun child child' h ↦ ?_
    · exact .cons (.inr (by decide +kernel)) (.cons (.inr (by decide +kernel)) .nil)
    · change (child, child') ∈ [(pieces, whole)] at h
      cases List.mem_singleton.mp h
      have htype : context.childDeclared? (some (.byName shape properties)) pieces =
          some (.builtin name .qname) := by decide +kernel
      rw [htype]
      exact hlabel
  have htype : context.catalog.typeNamed? shape = some (.byName shape properties) := by
    decide +kernel
  refine ⟨rfl, rfl, .cons ?_ .nil⟩
  rw [htype]
  exact hroot

end Shapes

/-- A shape is read as the same value if it is indented, in whichever order lists are set. -/
theorem Context.unmarshalType_congr_indented :
    let s := EventStream.ofEvents (Shapes.withContent Shapes.pieces)
    let s' := EventStream.ofEvents (Shapes.withContent Shapes.indented)
    Settings.default.converters = [] ∧ Shapes.context.SameDocument Shapes.shape s s' ∧
      Shapes.context.NamesLists ∧
      (Shapes.context.unmarshalType ⟨none, none⟩ Shapes.shape s).result.isOk = true ∧
      (Shapes.context.unmarshalType ⟨none, none⟩ Shapes.shape s).result.toOption =
        ((Shapes.context.inOrder .reversed).unmarshalType ⟨none, none⟩ Shapes.shape
          s').result.toOption := by
  intro s s'
  have hnone : Settings.default.converters = [] := rfl
  have hn : Shapes.context.NamesLists := namesLists_of_types (by decide +kernel)
  exact ⟨hnone, Shapes.sameDocument_indented, hn, by decide +kernel,
    (unmarshalType_congr hnone _ .reversed _ Shapes.sameDocument_indented).2 (.inr hn)⟩

/-- A figure of an edge and a corner is read as one of them or as the other one, though it is the
same document. -/
theorem Context.not_unmarshalType_congr : ¬ ∀ (settings : Settings) (bundles : List Bundle)
    (order : ListOrder) (options : Options) (declared : BindingName) (s s' : EventStream),
    settings.converters = [] → (make settings bundles).SameDocument declared s s' →
    ((make settings bundles).unmarshalType options declared s).result.toOption =
      (((make settings bundles).inOrder order).unmarshalType options declared
        s').result.toOption := by
  intro h
  have hbalanced : IsContent Shapes.outline.events := rfl
  have hsame := h .default [Shapes.figures] .reversed ⟨some false, none⟩ Shapes.figure
    Shapes.outline Shapes.outline rfl (sameDocument_refl hbalanced _)
  obtain ⟨hfirst, hsecond⟩ := Shapes.scalars_outline false
  rw [hsame, hsecond] at hfirst
  exact absurd hfirst (by decide)

end XmlBinding

import XmlBinding.Proofs.Document.Nesting
import XmlBinding.Proofs.Document.Written

/-!
# A writer writes faithfully

The tags that a writer has open are nested: each resolves within those around it and would be ended
under the prefix with which it began. Every start tag that is written keeps them so
(`Writer.exists_tag_writeOpening`), and from the single events it follows by induction that
everything a writer accepts is written faithfully (`Writer.writeAll_faithful`).
-/

namespace XmlBinding

/-! ### Nested tags -/

namespace NamespaceScope

/-- The scope of the declarations of some open tags, the innermost first. -/
def ofTags (tags : List StartTag) : NamespaceScope := ⟨tags.map fun t ↦ t.declarations.reverse⟩

end NamespaceScope

open NamespaceScope

/-- Open tags, the innermost first, each of which resolves within those around it, and would be
ended under the prefix with which it began. -/
inductive Nested : List StartTag → Prop
  | nil : Nested []
  | cons {tag : StartTag} {outer : List StartTag} (around : Nested outer)
      (proper : (ofTags (tag :: outer)).Proper)
      (element : (ofTags (tag :: outer)).ElementPrefix tag.name.uri tag.pre)
      (resolves : tag.Resolves outer) : Nested (tag :: outer)

namespace Nested

variable {tags : List StartTag}

private theorem proper (h : Nested tags) : (ofTags tags).Proper := by
  cases h with
  | nil => exact proper_empty
  | cons _ proper _ _ => exact proper

/-- None of nested tags declares a prefix twice. -/
theorem distinct (h : Nested tags) : ∀ t ∈ tags, (t.declarations.map (·.pre)).Nodup := by
  induction h with
  | nil => simp
  | cons _ _ _ resolves ih => exact List.forall_mem_cons.mpr ⟨resolves.distinct, ih⟩

/-- Within nested tags every prefix that the events declare means what they declare it for. -/
private theorem kept (h : Nested tags) (pre uri : String) (hpre : pre ≠ "")
    (hd : declared? (tags.map StartTag.given) pre = some uri) :
    declared? (tags.map StartTag.declarations) pre = some uri := by
  cases h with
  | nil => cases hd
  | cons _ _ _ resolves => exact resolves.kept pre uri hpre hd

private theorem latest?_eq (h : Nested tags) (pre : String) :
    (ofTags tags).latest? pre = declared? (tags.map StartTag.declarations) pre := by
  refine latest?_eq_declared? ?_ ?_ pre
  · rw [List.map_map]
    rfl
  · intro ds hds
    obtain ⟨t, ht, rfl⟩ := List.mem_map.mp hds
    exact h.distinct t ht

end Nested

/-! ### Start tags -/

/-- A prefix is unbound on a tag if the tag does not declare it and it is unbound around the tag. -/
theorem NamespaceScope.latest?_push_eq_none_iff {s : NamespaceScope} {ds : List Declaration}
    {pre : String} :
    (s.push ds).latest? pre = none ↔ pre ∉ ds.map (·.pre) ∧ s.latest? pre = none := by
  simp only [latest?_eq_none_iff, declarations_push, List.map_append, List.map_reverse,
    List.mem_append, List.mem_reverse, not_or]

/-- What a tag declares besides does not matter to a prefix that it leaves alone. -/
private theorem NamespaceScope.latest?_push_append {s : NamespaceScope}
    {given added : List Declaration} {pre : String} (h : pre ∉ added.map (·.pre)) :
    (s.push (given ++ added)).latest? pre = (s.push given).latest? pre := by
  have hnone : added.reverse.find? (·.pre = pre) = none := by
    rw [List.find?_eq_none]
    intro d hd hp
    exact h (List.mem_map.mpr ⟨d, List.mem_reverse.mp hd, by simpa using hp⟩)
  unfold latest?
  rw [declarations_push, declarations_push, List.reverse_append, List.append_assoc,
    List.find?_append, hnone, Option.none_or]

/-- What is chosen for a tag within a scope: prefixes that resolve, and declarations besides that
either take the default namespace back or bind what was unbound. -/
structure StartTag.Chosen (tag : StartTag) (outer : NamespaceScope) : Prop where
  given : (tag.given.map (·.pre)).Nodup
  added : (tag.added.map (·.pre)).Nodup
  proper : (outer.push tag.declarations).Proper
  /-- The prefix is the one that the end tag will have. -/
  element : (outer.push tag.declarations).ElementPrefix tag.name.uri tag.pre
  resolved : if tag.pre = "" then
      ((outer.push tag.declarations).latest? "").getD "" = tag.name.uri
    else (outer.push tag.declarations).latest? tag.pre = some tag.name.uri
  attributes : ∀ a ∈ tag.attributes, if a.2.name.uri = "" then a.1 = ""
    else a.1 ≠ "" ∧ (outer.push tag.declarations).latest? a.1 = some a.2.name.uri
  /-- What is declared besides takes the default namespace back, which the event does not declare,
  or binds a generated prefix that was unbound. -/
  fresh : ∀ d ∈ tag.added, (d = ⟨"", ""⟩ ∧ "" ∉ tag.given.map (·.pre)) ∨
    ((∃ n, d.pre = generatedPrefix n) ∧ d.uri ≠ "" ∧
      (d.uri = tag.name.uri ∨ ∃ a ∈ tag.attributes, d.uri = a.2.name.uri)) ∧
      (outer.push tag.given).latest? d.pre = none

namespace StartTag.Chosen

variable {tag : StartTag} {outer : NamespaceScope}

private theorem distinct (h : tag.Chosen outer) : (tag.declarations.map (·.pre)).Nodup := by
  rw [declarations, List.map_append, List.nodup_append]
  refine ⟨h.given, h.added, ?_⟩
  rintro pre hpre _ hpre' rfl
  obtain ⟨d, hd, rfl⟩ := List.mem_map.mp hpre'
  rcases h.fresh d hd with ⟨rfl, hnot⟩ | ⟨-, hnone⟩
  · exact hnot hpre
  · exact (latest?_push_eq_none_iff.mp hnone).1 hpre

/-- A prefix that is bound before anything is declared besides keeps its meaning. -/
private theorem latest?_eq (h : tag.Chosen outer) {pre uri : String} (hpre : pre ≠ "")
    (hbefore : (outer.push tag.given).latest? pre = some uri) :
    (outer.push tag.declarations).latest? pre = some uri := by
  have hnot : pre ∉ tag.added.map (·.pre) := by
    intro hm
    obtain ⟨d, hd, rfl⟩ := List.mem_map.mp hm
    rcases h.fresh d hd with ⟨rfl, -⟩ | ⟨-, hnone⟩
    · exact hpre rfl
    · rw [hnone] at hbefore
      cases hbefore
  rw [declarations, latest?_push_append hnot, hbefore]

private theorem nested {around : List StartTag} (h : tag.Chosen (ofTags around))
    (haround : Nested around) : Nested (tag :: around) := by
  have hlatest (ds : List Declaration) (hds : (ds.map (·.pre)).Nodup) (pre : String) :
      ((ofTags around).push ds).latest? pre =
        declared? (ds :: around.map StartTag.declarations) pre := by
    refine latest?_eq_declared? ?_ (List.forall_mem_cons.mpr ⟨hds, ?_⟩) pre
    · rw [List.map_cons, List.map_map]
      rfl
    · intro ds hds
      obtain ⟨t, ht, rfl⟩ := List.mem_map.mp hds
      exact haround.distinct t ht
  refine .cons haround h.proper h.element ⟨h.distinct, ?_, ?_, ?_, ?_⟩
  · simpa only [List.map_cons, hlatest _ h.distinct] using h.resolved
  · simpa only [List.map_cons, hlatest _ h.distinct] using h.attributes
  · intro pre uri hpre hd
    rw [List.map_cons, ← hlatest _ h.distinct]
    apply h.latest?_eq hpre
    rw [hlatest _ h.given, declared?_cons]
    rw [List.map_cons, declared?_cons] at hd
    cases hf : tag.given.find? (·.pre = pre) with
    | some d => simpa [hf] using hd
    | none =>
      rw [hf] at hd
      simpa using haround.kept pre uri hpre (by simpa using hd)
  · intro d hd
    rcases h.fresh d hd with ⟨rfl, -⟩ | ⟨hd, -⟩
    · exact .inl rfl
    · exact .inr hd

end StartTag.Chosen

namespace Writer

section Opening

variable {outer : NamespaceScope} {name : QName} {attributes : List Attribute}
  {given added : List Declaration} {w w' : Writer} {c : Choice} {prefixes : List String}

/-- What is declared for the attributes of a tag is new to the tag and to the scope around it. -/
private theorem ElementChosen.fresh_of_attributesChosen
    (helement : w.ElementChosen outer given name.uri c)
    (hattributes : c.writer.AttributesChosen outer (given ++ c.declaration.toList) attributes
      prefixes added w') : ∀ d ∈ added,
    d.pre ∉ (given ++ c.declaration.toList).map (·.pre) ∧ outer.latest? d.pre = none := by
  intro d hd
  rw [← latest?_push_eq_none_iff, ← helement.scope]
  exact (hattributes.generated d hd).2.1

/-- What comes of the name of an element and then of its attributes is what is chosen for the
tag. -/
private theorem ElementChosen.chosen (hgiven : (given.map (·.pre)).Nodup)
    (hscope : w.scope = outer.push given) (helement : w.ElementChosen outer given name.uri c)
    (hattributes : c.writer.AttributesChosen outer (given ++ c.declaration.toList) attributes
      prefixes added w') :
    StartTag.Chosen
      ⟨c.pre, name, given, c.declaration.toList ++ added, prefixes.zip attributes⟩ outer := by
  have hfresh := helement.fresh_of_attributesChosen hattributes
  have hpush : outer.push (given ++ (c.declaration.toList ++ added)) = w'.scope := by
    rw [hattributes.scope, List.append_assoc]
  constructor
  · exact hgiven
  · rw [List.map_append, List.nodup_append]
    refine ⟨?_, hattributes.distinct, ?_⟩
    · cases c.declaration <;> simp
    · rintro _ hd _ hadded rfl
      obtain ⟨d, hmem, rfl⟩ := List.mem_map.mp hadded
      apply (hfresh d hmem).1
      rw [List.map_append]
      exact List.mem_append_right _ hd
  · simpa only [StartTag.declarations, hpush] using hattributes.proper
  · simpa only [StartTag.declarations, hpush] using hattributes.element _ _ helement.element
  · have hresolved := helement.resolved
    simp only [StartTag.declarations, hpush]
    split
    · next hempty =>
      rw [if_pos hempty] at hresolved
      rw [hattributes.others _ hattributes.empty_not_mem, hresolved]
    · next hempty =>
      rw [if_neg hempty] at hresolved
      rw [hattributes.others _ (hattributes.not_mem_of_latest? hresolved), hresolved]
  · simpa only [StartTag.declarations, hpush] using hattributes.resolved
  · intro d hd
    rcases List.mem_append.mp hd with hd | hd
    · rcases helement.added d (Option.mem_toList.mp hd) with hback | ⟨hgen, hu, hname, hnone⟩
      · exact .inl hback
      · rw [hscope] at hnone
        exact .inr ⟨⟨hgen, hu, .inl hname⟩, hnone⟩
    · obtain ⟨hgen, -, hu, a, ha, hname⟩ := hattributes.generated d hd
      rw [← List.map_snd_zip hattributes.length.ge] at ha
      obtain ⟨b, hb, rfl⟩ := List.mem_map.mp ha
      obtain ⟨hnot, hnone⟩ := hfresh d hd
      rw [List.map_append, List.mem_append, not_or] at hnot
      exact .inr ⟨⟨hgen, hu, .inr ⟨b, hb, hname⟩⟩, latest?_push_eq_none_iff.mpr ⟨hnot.1, hnone⟩⟩

end Opening

/-- A start tag is written with prefixes that resolve, and then stands open within the others. -/
theorem exists_tag_writeOpening {w : Writer} {outer : List StartTag} (houter : Nested outer)
    (hscope : w.scope = ofTags outer) {name : QName} {attributes : List Attribute}
    {given : List Declaration}
    (hproper : (Event.opening name attributes given).DeclaresProperly) :
    ∃ tag : StartTag, tag.event = .opening name attributes given ∧ Nested (tag :: outer) ∧
      (w.writeOpening name attributes given).1 = w.pendingText ++ tag.text ∧
      (w.writeOpening name attributes given).2.scope = ofTags (tag :: outer) := by
  obtain ⟨hnodup, hx, hbound, hdefault⟩ := hproper
  let w₀ : Writer := { w with scope := w.scope.push given }
  have hscope₀ : w₀.scope = (ofTags outer).push given := by rw [← hscope]
  have hproper₀ : w₀.scope.Proper := by
    rw [hscope₀]
    exact houter.proper.push hx hbound
  have helement := elementChosen_chooseForElement hscope₀ hproper₀ hdefault
  obtain ⟨prefixes, added, w', hchoose, hattributes⟩ :=
    attributesChosen_chooseForAttributes helement.scope helement.proper attributes
  have hchosen := helement.chosen hnodup hscope₀ hattributes
  let c := w₀.chooseForElement name.uri
  let tag : StartTag :=
    ⟨c.pre, name, given, c.declaration.toList ++ added, prefixes.zip attributes⟩
  have hzip : List.zipWith attributeText prefixes attributes =
      tag.attributes.map fun a ↦ attributeText a.1 a.2 :=
    List.map_uncurry_zip_eq_zipWith.symm
  have hwrite : w.writeOpening name attributes given =
      (w.pendingText ++ tag.text, { w' with opened := name :: w.opened, pending := true }) := by
    unfold writeOpening
    dsimp only
    rw [hchoose]
    simp only [StartTag.text, hzip, String.append_assoc, StartTag.declarations, List.append_assoc]
    rfl
  refine ⟨tag, ?_, hchosen.nested houter, ?_, ?_⟩
  · rw [StartTag.event, List.map_snd_zip hattributes.length.ge]
  · rw [hwrite]
  · rw [hwrite]
    change w'.scope = (ofTags outer).push tag.declarations
    rw [hattributes.scope, List.append_assoc]
    rfl

/-! ### Rows of events -/

/-- Events are written if the first one is and then the others. -/
theorem writeAll_cons_eq_ok {w : Writer} {e : Event} {rest : List Event} {text : String}
    {last : Writer} (h : w.writeAll (e :: rest) = .ok (text, last)) :
    ∃ (here more : String) (w' : Writer), w.write e = (.ok here, w') ∧
      w'.writeAll rest = .ok (more, last) ∧ text = here ++ more := by
  rw [writeAll] at h
  split at h
  · cases h
  · next here w' hwrite =>
    cases hrest : w'.writeAll rest with
    | error error =>
      rw [hrest] at h
      cases h
    | ok r =>
      rw [hrest] at h
      cases h
      exact ⟨here, r.1, w', hwrite, hrest, rfl⟩

/-- A writer has some tags open, the innermost first. -/
structure HasOpen (w : Writer) (tags : List StartTag) : Prop where
  opened : w.opened = tags.map (·.name)
  scope : w.scope = ofTags tags
  nested : Nested tags
  /-- Only a tag that is open can lack its end. -/
  pending : w.pending = true → tags ≠ []

/-- Nothing is open at first. -/
theorem hasOpen_initial : initial.HasOpen [] := ⟨rfl, rfl, .nil, fun h ↦ absurd h (by decide)⟩

/-- What a writer writes for events, the end that the innermost tag still lacks included: this end
is settled by what follows it. -/
inductive Writes (w : Writer) : List StartTag → List Event → String → Prop
  | settled {tags : List StartTag} {events : List Event} {ws : List Written}
      (ended : w.pending = false) (faithful : Faithful tags events ws) :
      Writes w tags events (Written.joined ws)
  | pending {tag : StartTag} {outer : List StartTag} {events : List Event} {ws : List Written}
      (empty : Bool) (lacking : w.pending = true)
      (faithful : Faithful outer (tag.event :: events) (.startTag tag empty :: ws)) :
      Writes w (tag :: outer) events ((if empty then "/>" else ">") ++ Written.joined ws)

namespace HasOpen

variable {w : Writer} {tags : List StartTag}

/-- Whatever is written as its own tag or text lets the innermost tag end as a start tag. -/
theorem writes (h : w.HasOpen tags) {events : List Event} {ws : List Written}
    (hf : Faithful tags events ws) : w.Writes tags events (w.pendingText ++ Written.joined ws) := by
  unfold pendingText
  cases hp : w.pending with
  | false =>
    rw [if_neg (by decide), String.empty_append]
    exact .settled hp hf
  | true =>
    cases h.nested with
    | nil => exact absurd rfl (h.pending hp)
    | cons _ _ _ resolves =>
      exact .pending false hp (.opening resolves hf)

private theorem text (h : w.HasOpen tags) : { w with pending := false }.HasOpen tags :=
  ⟨h.opened, h.scope, h.nested, fun hp ↦ absurd hp Bool.false_ne_true⟩

private theorem opening (h : w.HasOpen tags) {name : QName} {attributes : List Attribute}
    {given : List Declaration}
    (hproper : (Event.opening name attributes given).DeclaresProperly) :
    ∃ tag : StartTag, tag.event = .opening name attributes given ∧
      (w.writeOpening name attributes given).1 = w.pendingText ++ tag.text ∧
      (w.writeOpening name attributes given).2.HasOpen (tag :: tags) := by
  obtain ⟨tag, hevent, hnested, htext, hscope⟩ := exists_tag_writeOpening h.nested h.scope hproper
  have hname : tag.name = name := by
    unfold StartTag.event at hevent
    injection hevent
  refine ⟨tag, hevent, htext, ?_, hscope, hnested, fun _ ↦ List.cons_ne_nil tag tags⟩
  rw [opened_writeOpening, h.opened, List.map_cons, hname]

/-- The innermost tag is ended by its own end or under its own name. -/
theorem closing {tag : StartTag} (h : w.HasOpen (tag :: tags)) :
    (w.writeClosing tag.name).1 = (if w.pending then "/>"
      else (Written.endTag tag.pre tag.name.localPart).toString) ∧
      (w.writeClosing tag.name).2.HasOpen tags := by
  cases h.nested with
  | cons around _ element _ =>
    constructor
    · unfold writeClosing
      rw [← h.scope] at element
      rw [closingPrefix_eq element]
      rfl
    · refine ⟨?_, ?_, around, fun hp ↦ absurd hp (by simp [writeClosing])⟩
      · change w.opened.tail = _
        rw [h.opened]
        rfl
      · change w.scope.pop = _
        rw [h.scope]
        rfl

section Behind

variable {w' : Writer} {tag : StartTag} {rest : List Event} {behind : String}

private theorem writes_text (h : w.HasOpen tags) (hended : w'.pending = false)
    (hbehind : w'.Writes tags rest behind) (s : String) :
    w.Writes tags (.text s :: rest) (w.pendingText ++ escape false s ++ behind) := by
  cases hbehind with
  | settled _ faithful =>
    have hfaithful : Faithful tags (.text s :: rest) _ := .text s faithful
    simpa [Written.toString, String.append_assoc] using h.writes hfaithful
  | pending _ lacking _ => exact absurd (hended.symm.trans lacking) Bool.false_ne_true

private theorem writes_opening (h : w.HasOpen tags) (hlacks : w'.pending = true)
    (hbehind : w'.Writes (tag :: tags) rest behind) :
    w.Writes tags (tag.event :: rest) (w.pendingText ++ tag.text ++ behind) := by
  cases hbehind with
  | settled ended _ => exact absurd (ended.symm.trans hlacks) Bool.false_ne_true
  | pending empty _ faithful =>
    simpa [Written.toString, String.append_assoc] using h.writes faithful

/-- What stands behind an end is put behind what is written for it. -/
private theorem writes_closing (h : w.HasOpen (tag :: tags)) (hended : w'.pending = false)
    (hbehind : w'.Writes tags rest behind) :
    w.Writes (tag :: tags) (.closing tag.name :: rest)
      ((w.writeClosing tag.name).1 ++ behind) := by
  rw [h.closing.1]
  cases hbehind with
  | settled _ faithful =>
    cases hp : w.pending with
    | true =>
      cases h.nested with
      | cons _ _ _ resolves => exact .pending true hp (.empty resolves faithful)
    | false =>
      rw [if_neg Bool.false_ne_true, ← Written.joined_cons]
      exact .settled hp (.closing faithful)
  | pending _ lacking _ => exact absurd (hended.symm.trans lacking) Bool.false_ne_true

end Behind

/-- One event: what stands behind it is put behind what is written for it. -/
theorem write (h : w.HasOpen tags) {e : Event} (hproper : e.DeclaresProperly) {here : String}
    {w' : Writer} (hw : w.write e = (.ok here, w')) :
    ∃ tags', w'.HasOpen tags' ∧ ∀ rest behind, w'.Writes tags' rest behind →
      w.Writes tags (e :: rest) (here ++ behind) := by
  cases e with
  | text s =>
    cases hw
    exact ⟨tags, h.text, fun rest behind hbehind ↦ h.writes_text rfl hbehind s⟩
  | opening name attributes given =>
    obtain ⟨tag, hevent, htext, hopen⟩ := h.opening hproper
    have hwrite : w.write (.opening name attributes given) =
        (.ok (w.writeOpening name attributes given).1, (w.writeOpening name attributes given).2) :=
      rfl
    rw [hwrite, htext] at hw
    cases hw
    refine ⟨tag :: tags, hopen, fun rest behind hbehind ↦ ?_⟩
    rw [← hevent]
    exact h.writes_opening rfl hbehind
  | closing name =>
    cases tags with
    | nil =>
      rw [Writer.write, h.opened] at hw
      cases hw
    | cons tag outer =>
      rw [Writer.write, h.opened, List.map_cons] at hw
      dsimp only at hw
      split at hw
      · next hname =>
        subst hname
        cases hw
        exact ⟨outer, h.closing.2, fun rest behind hbehind ↦ h.writes_closing rfl hbehind⟩
      · cases hw

/-- A row of events: what is written for them is faithful to them within the open tags. -/
theorem writeAll {events : List Event} (h : w.HasOpen tags)
    (hproper : ∀ e ∈ events, e.DeclaresProperly) {text : String} {last : Writer}
    (hw : w.writeAll events = .ok (text, last)) :
    w.Writes tags events (text ++ last.pendingText) ∧ ∃ left, last.HasOpen left := by
  induction events generalizing w tags text with
  | nil =>
    obtain ⟨rfl, rfl⟩ : "" = text ∧ w = last := by simpa [Writer.writeAll] using hw
    refine ⟨?_, tags, h⟩
    simpa using h.writes .nil
  | cons e rest ih =>
    rw [List.forall_mem_cons] at hproper
    obtain ⟨here, more, w', hwrite, hmore, rfl⟩ := writeAll_cons_eq_ok hw
    obtain ⟨tags', hopen, hbehind⟩ := h.write hproper.1 hwrite
    obtain ⟨hwrites, hlast⟩ := ih hopen hproper.2 hmore
    rw [String.append_assoc]
    exact ⟨hbehind rest _ hwrites, hlast⟩

end HasOpen

/-- What a writer accepts it writes faithfully, if the events declare properly. -/
theorem writeAll_faithful {events : List Event} (hproper : ∀ e ∈ events, e.DeclaresProperly)
    {text : String} {last : Writer} (hw : initial.writeAll events = .ok (text, last)) :
    ∃ ws, text ++ last.pendingText = Written.joined ws ∧ Faithful [] events ws := by
  have h := (hasOpen_initial.writeAll hproper hw).1
  generalize text ++ last.pendingText = all at h
  cases h with
  | settled _ faithful => exact ⟨_, rfl, faithful⟩

/-- Default namespaces that are taken back and declared anew, a prefix that hides another one, and
generated prefixes on an element and on its attribute. -/
def mixedEvents : List Event :=
  [.opening ⟨"urn:a", "list"⟩ [⟨⟨"urn:b", "kind"⟩, "x"⟩] [⟨"", "urn:a"⟩, ⟨"p", "urn:b"⟩],
    .opening ⟨"", "item"⟩ [⟨⟨"", "id"⟩, "1"⟩] [],
    .opening ⟨"urn:c", "part"⟩ [⟨⟨"urn:c", "unit"⟩, "m"⟩] [],
    .closing ⟨"urn:c", "part"⟩,
    .text "t",
    .closing ⟨"", "item"⟩,
    .opening ⟨"urn:b", "note"⟩ [⟨⟨"urn:b", "kind"⟩, "y"⟩] [⟨"p", "urn:d"⟩, ⟨"", "urn:b"⟩],
    .closing ⟨"urn:b", "note"⟩,
    .closing ⟨"urn:a", "list"⟩]

/-- What is written for `mixedEvents`. -/
def mixedText : String :=
  "<list xmlns=\"urn:a\" xmlns:p=\"urn:b\" p:kind=\"x\">" ++
    "<item xmlns=\"\" id=\"1\"><ns1:part xmlns:ns1=\"urn:c\" ns1:unit=\"m\"/>t</item>" ++
    "<note xmlns:p=\"urn:d\" xmlns=\"urn:b\" xmlns:ns2=\"urn:b\" ns2:kind=\"y\"/></list>"

/-- The tags of `mixedText` say what `mixedEvents` do. -/
theorem writeAll_faithful_mixed :
    (∀ e ∈ mixedEvents, e.DeclaresProperly) ∧
      initial.writeAll mixedEvents = .ok (mixedText, ⟨.empty, [], false, 2⟩) ∧
      ∃ ws, mixedText ++ "" = Written.joined ws ∧ Faithful [] mixedEvents ws := by
  have hproper : ∀ e ∈ mixedEvents, e.DeclaresProperly := by decide +kernel
  have hwrite : initial.writeAll mixedEvents = .ok (mixedText, ⟨.empty, [], false, 2⟩) := by
    decide +kernel
  exact ⟨hproper, hwrite, writeAll_faithful hproper hwrite⟩

end Writer

end XmlBinding

import XmlBinding.Proofs.Document.Markup.Lexer
import XmlBinding.Proofs.Document.Resolution

/-!
# What is read is a document

`Parses` says how tokens nest into events, token by token. Events that are read complete a document
(`Parses.completes`), and as their names and values come from legible tokens and from declarations
that were allowed, they can be written down again (`Parses.isReadable`).
-/

namespace XmlBinding.Markup

/-! ### Nesting -/

/-- Tokens nest into events within some open elements. -/
inductive Parses : List OpenElement → Bool → List Token → List Event → Prop
  | done : Parses [] true [] []
  /-- A comment or a processing instruction is passed over. -/
  | aside {opened : List OpenElement} {rooted : Bool} {tokens : List Token} {events : List Event}
      (rest : Parses opened rooted tokens events) : Parses opened rooted (.aside :: tokens) events
  /-- White space outside the root is passed over. -/
  | layout {rooted : Bool} {value : List Char} {tokens : List Token} {events : List Event}
      (rest : Parses [] rooted tokens events) : Parses [] rooted (.text value true :: tokens) events
  | text {opened : List OpenElement} {rooted : Bool} {value : List Char} {layout : Bool}
      {tokens : List Token} {events : List Event} (within : opened ≠ [])
      (rest : Parses opened rooted tokens events) :
      Parses opened rooted (.text value layout :: tokens) (.text (String.ofList value) :: events)
  /-- An end tag closes the innermost element. -/
  | endTag {e : OpenElement} {outer : List OpenElement} {rooted : Bool} {tokens : List Token}
      {events : List Event} (rest : Parses outer rooted tokens events) :
      Parses (e :: outer) rooted (.endTag e.tag :: tokens) (.closing e.name :: events)
  | startTag {opened : List OpenElement} {rooted : Bool} {tag : TagName}
      {attributes : List TagAttribute} {e : OpenElement} {resolved : List Attribute}
      {declarations : List Declaration} {tokens : List Token} {events : List Event}
      (root : opened = [] → rooted = false)
      (opens : openElement? (around opened) tag attributes = some (e, resolved, declarations))
      (rest : Parses (e :: opened) true tokens events) :
      Parses opened rooted (.startTag tag attributes false :: tokens)
        (.opening e.name resolved declarations :: events)
  /-- A tag without content opens an element and closes it. -/
  | emptyTag {opened : List OpenElement} {rooted : Bool} {tag : TagName}
      {attributes : List TagAttribute} {e : OpenElement} {resolved : List Attribute}
      {declarations : List Declaration} {tokens : List Token} {events : List Event}
      (root : opened = [] → rooted = false)
      (opens : openElement? (around opened) tag attributes = some (e, resolved, declarations))
      (rest : Parses opened true tokens events) :
      Parses opened rooted (.startTag tag attributes true :: tokens)
        (.opening e.name resolved declarations :: .closing e.name :: events)

/-- What is nested into events parses as these. -/
theorem parses_of_nest? {opened : List OpenElement} {rooted : Bool}
    {located : List LocatedToken} {entries : List LocatedEvent}
    (h : nest? opened rooted located = some entries) :
    Parses opened rooted (located.map (·.token)) (entries.map (·.event)) := by
  induction located generalizing opened rooted entries with
  | nil =>
    rw [nest?] at h
    split at h
    · next hdone =>
      cases h
      rw [Bool.and_eq_true, List.isEmpty_iff] at hdone
      rw [hdone.1, hdone.2]
      exact .done
    · cases h
  | cons t rest ih =>
    obtain ⟨token, location⟩ := t
    cases token with
    | aside => exact .aside (ih h)
    | text value layout =>
      rw [nest?] at h
      split at h
      · next hempty =>
        rw [List.isEmpty_iff] at hempty
        subst hempty
        split at h
        · next hlayout =>
          subst hlayout
          exact .layout (ih h)
        · cases h
      · next hopened =>
        obtain ⟨more, hmore, h⟩ := Option.bind_eq_some_iff.mp h
        cases h
        exact .text (by simpa using hopened) (ih hmore)
    | endTag tag =>
      cases opened with
      | nil => cases h
      | cons innermost outer =>
        rw [nest?] at h
        split at h
        · next htag =>
          obtain ⟨more, hmore, h⟩ := Option.bind_eq_some_iff.mp h
          cases h
          rw [← htag]
          exact .endTag (ih hmore)
        · cases h
    | startTag tag attributes empty =>
      rw [nest?] at h
      split at h
      · cases h
      · next hroot =>
        have hfirst : opened = [] → rooted = false := by
          rintro rfl
          simpa using hroot
        obtain ⟨⟨e, resolved, declarations⟩, hopen, h⟩ := Option.bind_eq_some_iff.mp h
        dsimp only at h
        cases empty with
        | true =>
          obtain ⟨more, hmore, h⟩ := Option.bind_eq_some_iff.mp h
          cases h
          exact .emptyTag hfirst hopen (ih hmore)
        | false =>
          obtain ⟨more, hmore, h⟩ := Option.bind_eq_some_iff.mp h
          cases h
          exact .startTag hfirst hopen (ih hmore)

namespace Parses

variable {opened : List OpenElement} {rooted : Bool} {tokens : List Token} {events : List Event}

/-- Events that are read complete a document. -/
theorem completes (h : Parses opened rooted tokens events) :
    Completes rooted (opened.map (·.name)) events := by
  induction h with
  | done => exact ⟨rfl, rfl⟩
  | aside _ ih => exact ih
  | layout _ ih => exact ih
  | text within _ ih => exact ⟨by simpa using within, ih⟩
  | endTag _ ih => exact ⟨rfl, ih⟩
  | startTag root _ _ ih => exact ⟨fun h ↦ root (List.map_eq_nil_iff.mp h), ih⟩
  | emptyTag root _ _ ih => exact ⟨fun h ↦ root (List.map_eq_nil_iff.mp h), rfl, ih⟩

/-- Every start tag that is read is one that can be resolved. -/
theorem exists_openElement? (h : Parses opened rooted tokens events) {tag : TagName}
    {attributes : List TagAttribute} {empty : Bool}
    (hmem : .startTag tag attributes empty ∈ tokens) :
    ∃ scope r, openElement? scope tag attributes = some r := by
  induction h with
  | done => cases hmem
  | aside _ ih => exact ih (by simpa using hmem)
  | layout _ ih => exact ih (by simpa using hmem)
  | text _ _ ih => exact ih (by simpa using hmem)
  | endTag _ ih => exact ih (by simpa using hmem)
  | startTag _ opens _ ih =>
    rcases List.mem_cons.mp hmem with heq | hmem
    · cases heq
      exact ⟨_, _, opens⟩
    · exact ih hmem
  | emptyTag _ opens _ ih =>
    rcases List.mem_cons.mp hmem with heq | hmem
    · cases heq
      exact ⟨_, _, opens⟩
    · exact ih hmem

end Parses

/-! ### Resolved tags -/

/-- What a start tag that is read consists of. -/
structure Opened (around : List Declaration) (tag : TagName) (attributes : List TagAttribute)
    (e : OpenElement) (resolved : List Attribute) (declarations : List Declaration) : Prop where
  /-- Its declarations are allowed, and in scope before those around it. -/
  own : ∃ own, ownDeclarations? [] attributes = some own ∧ e.scope = inScope own around ∧
    declarations = own.filter fun d ↦ !around.contains d
  name : ∃ uri, lookUp? e.scope (String.ofList tag.pre) = some uri ∧
    e.name = ⟨uri.getD "", String.ofList tag.localPart⟩
  /-- Its attributes are resolved, and no two of them are the same. -/
  attributes : ∃ found, resolveAttributes? e.scope attributes = some found ∧
    distinct found = true ∧ resolved = found.map (·.2)

/-- A start tag that is read consists of resolved parts. -/
theorem opened_of_openElement? {around : List Declaration} {tag : TagName}
    {attributes : List TagAttribute} {e : OpenElement} {resolved : List Attribute}
    {declarations : List Declaration}
    (h : openElement? around tag attributes = some (e, resolved, declarations)) :
    Opened around tag attributes e resolved declarations := by
  obtain ⟨_, -, h⟩ := Option.bind_eq_some_iff.mp h
  obtain ⟨own, hown, h⟩ := Option.bind_eq_some_iff.mp h
  obtain ⟨found, hfound, h⟩ := Option.bind_eq_some_iff.mp h
  obtain ⟨_, hdistinct, h⟩ := Option.bind_eq_some_iff.mp h
  obtain ⟨uri, huri, h⟩ := Option.bind_eq_some_iff.mp h
  cases h
  exact ⟨⟨own, hown, rfl, rfl⟩, ⟨uri, huri, rfl⟩, ⟨found, hfound, of_guard hdistinct, rfl⟩⟩

/-- A declaration that a reader lets pass. -/
structure Allowed (d : Declaration) : Prop where
  legible : d.IsLegible
  /-- Its prefix is not the one that needs no declaration. -/
  pre : d.pre ≠ "xml"
  uri : ¬ IsReservedUri d.uri

private theorem isLegible_of_declaration? {a : TagAttribute} (ha : a.IsProper) {d : Declaration}
    (h : a.declaration? = some d) : d.IsLegible := by
  unfold TagAttribute.declaration? at h
  split at h
  · cases h
    exact ⟨.inr (by simpa using ha.name.localPart), ha.value⟩
  · split at h
    · cases h
      exact ⟨.inl rfl, ha.value⟩
    · cases h

/-- The declarations of a tag that is read are allowed. -/
theorem allowed_of_ownDeclarations? {own all : List Declaration} {attributes : List TagAttribute}
    (hattributes : ∀ a ∈ attributes, a.IsProper) (hown : ∀ d ∈ own, Allowed d)
    (h : ownDeclarations? own attributes = some all) : ∀ d ∈ all, Allowed d := by
  induction attributes generalizing own with
  | nil =>
    cases h
    exact hown
  | cons a rest ih =>
    rw [List.forall_mem_cons] at hattributes
    rw [ownDeclarations?] at h
    split at h
    · exact ih hattributes.2 hown h
    · next d hd =>
      split at h
      · cases h
      · next hmay =>
        refine ih hattributes.2 ?_ h
        split
        · exact hown
        · next hxml =>
          have hmay : mayDeclare own d = true := by simpa using hmay
          simp only [mayDeclare, Bool.and_eq_true, decide_eq_true_eq] at hmay
          intro e he
          rcases List.mem_append.mp he with he | he
          · exact hown e he
          · obtain rfl := List.mem_singleton.mp he
            refine ⟨isLegible_of_declaration? hattributes.1 hd, hxml, not_or.mpr ⟨?_, hmay.1.1⟩⟩
            intro huri
            have hsame := hmay.1.2
            simp [hxml, huri] at hsame

/-- What is in scope on a tag is declared on it or around it. -/
private theorem mem_or_mem_of_mem_inScope {own around : List Declaration} {d : Declaration}
    (h : d ∈ inScope own around) : d ∈ own ∨ d ∈ around := by
  unfold inScope at h
  split at h
  · exact .inr h
  · next hown =>
    clear hown
    induction around generalizing own with
    | nil => exact .inl h
    | cons e rest ih =>
      rw [List.foldl_cons] at h
      rcases ih h with h | h
      · unfold extend at h
        split at h
        · exact .inl h
        · rcases List.mem_append.mp h with h | h
          · exact .inl h
          · exact .inr (List.mem_cons.mpr (.inl (List.mem_singleton.mp h)))
      · exact .inr (List.mem_cons_of_mem e h)

/-- A namespace that is looked up is declared, or there is none. -/
theorem exists_of_lookUp? {scope : List Declaration} {pre : String} {uri : Option String}
    (h : lookUp? scope pre = some uri) :
    uri = none ∧ pre = "" ∨ ∃ d ∈ scope, d.pre = pre ∧ uri = some d.uri := by
  unfold lookUp? at h
  split at h
  · next d hd =>
    cases h
    exact .inr ⟨d, List.mem_of_find?_eq_some hd, by simpa using List.find?_some hd, rfl⟩
  · split at h
    · next hpre =>
      cases h
      exact .inl ⟨rfl, hpre⟩
    · cases h

/-- What is in scope is allowed, and only the empty prefix is ever taken back. -/
def SoundScope (scope : List Declaration) : Prop :=
  ∀ d ∈ scope, Allowed d ∧ (d.pre ≠ "" → d.uri ≠ "")

/-- An attribute that a reader resolves. -/
structure ResolvedAttribute (uri : Option String) (a : Attribute) : Prop where
  legible : a.IsLegible
  localPart : a.name.localPart ≠ "xmlns"
  /-- Its namespace is the one that is found, or none. -/
  source : a.name.uri = uri.getD ""
  free : a.name.uri ≠ declarationUri
  proper : uri ≠ some ""

private theorem attributeNamespace?_sound {scope : List Declaration} (hscope : SoundScope scope)
    {pre : String} {uri : Option String} (h : attributeNamespace? scope pre = some uri) :
    (uri.getD "").toList.all isDocumentChar = true ∧ uri.getD "" ≠ declarationUri ∧
      uri ≠ some "" := by
  unfold attributeNamespace? at h
  split at h
  · cases h
    exact ⟨by decide, by decide, by decide⟩
  · split at h
    · cases h
      exact ⟨by decide, by decide, by decide⟩
    · next hpre =>
      rcases exists_of_lookUp? h with ⟨rfl, hempty⟩ | ⟨d, hd, rfl, rfl⟩
      · exact absurd hempty hpre
      · obtain ⟨hallowed, hbound⟩ := hscope d hd
        exact ⟨hallowed.legible.uri, (not_or.mp hallowed.uri).2, fun h ↦
          hbound hpre (Option.some.inj h)⟩

private theorem resolveAttributes?_sound {scope : List Declaration} (hscope : SoundScope scope)
    {attributes : List TagAttribute} (hattributes : ∀ a ∈ attributes, a.IsProper)
    {found : List (Option String × Attribute)}
    (h : resolveAttributes? scope attributes = some found) :
    ∀ f ∈ found, ResolvedAttribute f.1 f.2 := by
  induction attributes generalizing found with
  | nil =>
    cases h
    simp
  | cons a rest ih =>
    rw [List.forall_mem_cons] at hattributes
    rw [resolveAttributes?] at h
    split at h
    · exact ih hattributes.2 h
    · next hnone =>
      obtain ⟨uri, huri, h⟩ := Option.bind_eq_some_iff.mp h
      obtain ⟨more, hmore, h⟩ := Option.bind_eq_some_iff.mp h
      cases h
      obtain ⟨hlegible, hfree, hproper⟩ := attributeNamespace?_sound hscope huri
      refine List.forall_mem_cons.mpr ⟨⟨⟨⟨hlegible, ?_⟩, hattributes.1.value⟩, ?_, rfl, hfree,
        hproper⟩, ih hattributes.2 hmore⟩
      · simpa using hattributes.1.name.localPart
      · intro hxmlns
        have hlocal : a.name.localPart = "xmlns".toList := by
          rw [← hxmlns, String.toList_ofList]
        unfold TagAttribute.declaration? at hnone
        split at hnone
        · cases hnone
        · split at hnone
          · cases hnone
          · next hnot => exact hnot hlocal

private theorem nodup_of_distinct {found : List (Option String × Attribute)}
    (hfound : ∀ f ∈ found, ResolvedAttribute f.1 f.2) (h : distinct found = true) :
    ((found.map (·.2)).map (·.name)).Nodup := by
  induction found with
  | nil => simp
  | cons f rest ih =>
    rw [List.forall_mem_cons] at hfound
    rw [distinct, Bool.and_eq_true] at h
    rw [List.map_cons, List.map_cons, List.nodup_cons]
    refine ⟨fun hmem ↦ ?_, ih hfound.2 h.2⟩
    obtain ⟨a, ha, hname⟩ := List.mem_map.mp hmem
    obtain ⟨g, hg, rfl⟩ := List.mem_map.mp ha
    have hnone := h.1
    simp only [Bool.not_eq_true', List.any_eq_false] at hnone
    apply hnone g hg
    have huri := congrArg QName.uri hname
    rw [(hfound.2 g hg).source, hfound.1.source] at huri
    have hlocal := congrArg QName.localPart hname
    have hsame : g.1 = f.1 := by
      have hg' := (hfound.2 g hg).proper
      have hf' := hfound.1.proper
      cases hgu : g.1 <;> cases hfu : f.1 <;> simp_all
    simp [hsame, hlocal]

end XmlBinding.Markup

namespace XmlBinding

open Markup

/-- An event that a reader gives. Only the namespace of the prefix `xml` is left to an attribute of
what is reserved. -/
def Event.IsReadable : Event → Prop
  | .opening name attributes declarations => name.IsLegible ∧ ¬ IsReservedUri name.uri ∧
      (∀ a ∈ attributes, a.IsLegible ∧ a.name.localPart ≠ "xmlns" ∧ a.name.uri ≠ declarationUri) ∧
      (attributes.map (·.name)).Nodup ∧ ∀ d ∈ declarations, Allowed d
  | .text s => s.toList.all isDocumentChar = true
  | .closing _ => True

namespace Markup

variable {around : List Declaration} {tag : TagName} {attributes : List TagAttribute}
  {e : OpenElement} {resolved : List Attribute} {declarations : List Declaration}

private theorem Opened.allowed (h : Opened around tag attributes e resolved declarations)
    (hattributes : ∀ a ∈ attributes, a.IsProper) : ∀ d ∈ declarations, Allowed d := by
  obtain ⟨own, hown, -, rfl⟩ := h.own
  intro d hd
  exact allowed_of_ownDeclarations? hattributes (by simp) hown d (List.mem_filter.mp hd).1

/-- The scope of an element stays sound if its tag takes no prefix back. -/
private theorem Opened.soundScope (h : Opened around tag attributes e resolved declarations)
    (hattributes : ∀ a ∈ attributes, a.IsProper) (haround : SoundScope around)
    (hbound : ∀ d ∈ declarations, d.pre ≠ "" → d.uri ≠ "") : SoundScope e.scope := by
  obtain ⟨own, hown, hscope, rfl⟩ := h.own
  have hallowed := allowed_of_ownDeclarations? hattributes (by simp) hown
  intro d hd
  rw [hscope] at hd
  rcases mem_or_mem_of_mem_inScope hd with hd | hd
  · by_cases hin : d ∈ around
    · exact haround d hin
    · exact ⟨hallowed d hd, hbound d (List.mem_filter.mpr ⟨hd, by simpa using hin⟩)⟩
  · exact haround d hd

private theorem Opened.isReadable (h : Opened around tag attributes e resolved declarations)
    (htag : tag.IsProper) (hattributes : ∀ a ∈ attributes, a.IsProper)
    (hscope : SoundScope e.scope) : (Event.opening e.name resolved declarations).IsReadable := by
  obtain ⟨uri, huri, hname⟩ := h.name
  obtain ⟨found, hfound, hdistinct, rfl⟩ := h.attributes
  have hread := resolveAttributes?_sound hscope hattributes hfound
  have helement : (uri.getD "").toList.all isDocumentChar = true ∧
      ¬ IsReservedUri (uri.getD "") := by
    rcases exists_of_lookUp? huri with ⟨rfl, -⟩ | ⟨d, hd, -, rfl⟩
    · exact ⟨by decide, by decide⟩
    · exact ⟨(hscope d hd).1.legible.uri, (hscope d hd).1.uri⟩
  refine ⟨?_, ?_, ?_, nodup_of_distinct hread hdistinct, h.allowed hattributes⟩
  · rw [hname]
    exact ⟨helement.1, by simpa using htag.localPart⟩
  · rw [hname]
    exact helement.2
  · intro a ha
    obtain ⟨f, hf, rfl⟩ := List.mem_map.mp ha
    exact ⟨(hread f hf).legible, (hread f hf).localPart, (hread f hf).free⟩

/-- Events that are read are readable, if none of them takes a prefix back. -/
theorem Parses.isReadable {opened : List OpenElement} {rooted : Bool} {tokens : List Token}
    {events : List Event} (h : Parses opened rooted tokens events)
    (htokens : ∀ t ∈ tokens, t.IsLegible) (hproper : ∀ e ∈ events, e.DeclaresProperly)
    (hopened : ∀ e ∈ opened, SoundScope e.scope) : ∀ e ∈ events, e.IsReadable := by
  have haround {opened : List OpenElement} (hopened : ∀ e ∈ opened, SoundScope e.scope) :
      SoundScope (around opened) := by
    cases opened with
    | nil => exact fun d hd ↦ absurd hd List.not_mem_nil
    | cons e outer => exact hopened e List.mem_cons_self
  induction h with
  | done => simp
  | aside _ ih => exact ih (List.forall_mem_cons.mp htokens).2 hproper hopened
  | layout _ ih => exact ih (List.forall_mem_cons.mp htokens).2 hproper hopened
  | text _ _ ih =>
    rw [List.forall_mem_cons] at htokens hproper
    refine List.forall_mem_cons.mpr ⟨?_, ih htokens.2 hproper.2 hopened⟩
    rw [Event.IsReadable, String.toList_ofList]
    exact htokens.1
  | endTag _ ih =>
    rw [List.forall_mem_cons] at htokens hproper hopened
    exact List.forall_mem_cons.mpr ⟨trivial, ih htokens.2 hproper.2 hopened.2⟩
  | startTag _ opens _ ih =>
    rw [List.forall_mem_cons] at htokens hproper
    obtain ⟨htag, hattributes⟩ := htokens.1
    have ho := opened_of_openElement? opens
    have hscope := ho.soundScope hattributes (haround hopened) hproper.1.2.2.1
    exact List.forall_mem_cons.mpr ⟨ho.isReadable htag hattributes hscope,
      ih htokens.2 hproper.2 (List.forall_mem_cons.mpr ⟨hscope, hopened⟩)⟩
  | emptyTag _ opens _ ih =>
    rw [List.forall_mem_cons] at htokens hproper
    rw [List.forall_mem_cons] at hproper
    obtain ⟨htag, hattributes⟩ := htokens.1
    have ho := opened_of_openElement? opens
    have hscope := ho.soundScope hattributes (haround hopened) hproper.1.2.2.1
    exact List.forall_mem_cons.mpr ⟨ho.isReadable htag hattributes hscope,
      List.forall_mem_cons.mpr ⟨trivial, ih htokens.2 hproper.2.2 hopened⟩⟩

end Markup

end XmlBinding

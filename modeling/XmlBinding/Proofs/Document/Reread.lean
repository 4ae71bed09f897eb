import XmlBinding.Proofs.Document.ReadBack
import XmlBinding.Proofs.Document.Reading

/-!
# What is read is written and read again

Every document that is read is written. Its text is read again, with the same content, unless an
attribute is in the namespace of the prefix `xml`: a writer knows no prefix for that namespace and
declares a generated one, which no document may do (`EventStream.parse_toXml_of_parse`).
-/

namespace XmlBinding

open Markup

/-! ### Reserved namespaces -/

private theorem Markup.mayDeclare_of_ownDeclarations? {own all : List Declaration}
    {attributes : List TagAttribute} (h : ownDeclarations? own attributes = some all)
    {a : TagAttribute} (ha : a ∈ attributes) {d : Declaration} (hd : a.declaration? = some d) :
    ∃ before, mayDeclare before d = true := by
  induction attributes generalizing own with
  | nil => cases ha
  | cons b rest ih =>
    rw [ownDeclarations?] at h
    rcases List.mem_cons.mp ha with rfl | ha
    · rw [hd] at h
      dsimp only at h
      split at h
      · cases h
      · next hmay => exact ⟨own, by simpa using hmay⟩
    · split at h
      · exact ih h ha
      · split at h
        · cases h
        · exact ih h ha

private theorem Written.mem_tokensFrom {ws : List Written} {tag : StartTag} {empty : Bool}
    (h : .startTag tag empty ∈ ws) (held : List Char) :
    Token.startTag tag.tagName tag.tagAttributes empty ∈ tokensFrom held ws := by
  induction ws generalizing held with
  | nil => cases h
  | cons w rest ih =>
    rcases List.mem_cons.mp h with rfl | hrest
    · exact List.mem_append_right _ List.mem_cons_self
    · cases w with
      | text s => exact ih hrest _
      | startTag _ _ => exact List.mem_append_right _ (List.mem_cons_of_mem _ (ih hrest []))
      | endTag _ _ => exact List.mem_append_right _ (List.mem_cons_of_mem _ (ih hrest []))

/-- A tag that resolves within tags without a declaration for the namespace of the prefix `xml`, and
declares no other prefix for it, declares none and has no attribute in it. -/
private theorem StartTag.Resolves.ne_xmlUri {tag : StartTag} {outer : List StartTag}
    (h : tag.Resolves outer) (hevent : tag.event.DeclaresProperly)
    (houter : ∀ t ∈ outer, ∀ d ∈ t.declarations, d.uri ≠ QName.xmlUri)
    (hdeclares : ∀ d ∈ tag.declarations, d.pre ≠ "xml" → d.uri ≠ QName.xmlUri) :
    (∀ d ∈ tag.declarations, d.uri ≠ QName.xmlUri) ∧
      ∀ a ∈ tag.event.attributes, a.name.uri ≠ QName.xmlUri := by
  have hpre : ∀ d ∈ tag.declarations, d.pre ≠ "xml" :=
    h.forall_declarations hevent.2.1 (by decide) fun n _ _ ↦
      NamespaceScope.generatedPrefix_ne_xml n
  have hown : ∀ d ∈ tag.declarations, d.uri ≠ QName.xmlUri :=
    fun d hd ↦ hdeclares d hd (hpre d hd)
  refine ⟨hown, fun a ha ↦ ?_⟩
  obtain ⟨b, hb, rfl⟩ := List.mem_map.mp ha
  have hattribute := h.attributes b hb
  split at hattribute
  · next hempty =>
    rw [hempty]
    decide
  · obtain ⟨t, ht, d, hd, -, huri⟩ := exists_of_declared? hattribute.2
    rw [← huri]
    exact List.forall_mem_cons.mpr ⟨hown, houter⟩ t ht d hd

/-- If no tag that is written declares a prefix for the namespace of the prefix `xml`, no attribute
is in it. -/
theorem Faithful.attribute_ne_xmlUri {opened : List StartTag} {events : List Event}
    {ws : List Written} (h : Faithful opened events ws)
    (hproper : ∀ e ∈ events, e.DeclaresProperly)
    (hopened : ∀ t ∈ opened, ∀ d ∈ t.declarations, d.uri ≠ QName.xmlUri)
    (hws : ∀ tag empty, .startTag tag empty ∈ ws → ∀ d ∈ tag.declarations, d.pre ≠ "xml" →
      d.uri ≠ QName.xmlUri) :
    ∀ e ∈ events, ∀ a ∈ e.attributes, a.name.uri ≠ QName.xmlUri := by
  induction h with
  | nil => simp
  | text s _ ih =>
    rw [List.forall_mem_cons] at hproper
    refine List.forall_mem_cons.mpr ⟨by simp [Event.attributes], ih hproper.2 hopened ?_⟩
    exact fun tag empty hmem ↦ hws tag empty (List.mem_cons_of_mem _ hmem)
  | opening resolves _ ih =>
    rw [List.forall_mem_cons] at hproper
    obtain ⟨hown, hattributes⟩ :=
      resolves.ne_xmlUri hproper.1 hopened (hws _ _ List.mem_cons_self)
    refine List.forall_mem_cons.mpr ⟨hattributes,
      ih hproper.2 (List.forall_mem_cons.mpr ⟨hown, hopened⟩) ?_⟩
    exact fun tag empty hmem ↦ hws tag empty (List.mem_cons_of_mem _ hmem)
  | empty resolves _ ih =>
    rw [List.forall_mem_cons, List.forall_mem_cons] at hproper
    obtain ⟨-, hattributes⟩ :=
      resolves.ne_xmlUri hproper.1 hopened (hws _ _ List.mem_cons_self)
    refine List.forall_mem_cons.mpr ⟨hattributes, List.forall_mem_cons.mpr
      ⟨by simp [Event.attributes], ih hproper.2.2 hopened ?_⟩⟩
    exact fun tag empty hmem ↦ hws tag empty (List.mem_cons_of_mem _ hmem)
  | closing _ ih =>
    rw [List.forall_mem_cons] at hproper hopened
    refine List.forall_mem_cons.mpr ⟨by simp [Event.attributes], ih hproper.2 hopened.2 ?_⟩
    exact fun tag empty hmem ↦ hws tag empty (List.mem_cons_of_mem _ hmem)

/-! ### Readable events -/

namespace Event.IsReadable

variable {e : Event}

/-- Events that are read can be written down again. -/
theorem isLegible (h : e.IsReadable) : e.IsLegible := by
  cases e with
  | opening name attributes declarations =>
    obtain ⟨hname, -, hattributes, -, hdeclarations⟩ := h
    exact ⟨hname, fun a ha ↦ (hattributes a ha).1, fun d hd ↦ (hdeclarations d hd).legible⟩
  | text s => exact h
  | closing name => trivial

/-- No attribute that is read can be taken for a declaration. -/
theorem avoidsXmlns (h : e.IsReadable) : e.AvoidsXmlns := by
  cases e with
  | opening name attributes declarations => exact fun a ha ↦ (h.2.2.1 a ha).2.1
  | text s => simp [Event.AvoidsXmlns, Event.attributes]
  | closing name => simp [Event.AvoidsXmlns, Event.attributes]

/-- Events that are read keep to the rules for namespaces, but for attributes in the namespace of
the prefix `xml` and declarations of the prefix `xmlns`. -/
theorem isConforming (h : e.IsReadable) (hxml : ∀ a ∈ e.attributes, a.name.uri ≠ QName.xmlUri)
    (hxmlns : ∀ d ∈ e.declarations, d.pre ≠ "xmlns") : e.IsConforming := by
  cases e with
  | opening name attributes declarations =>
    obtain ⟨-, hname, hattributes, hnodup, hdeclarations⟩ := h
    exact ⟨hname, fun a ha ↦ not_or.mpr ⟨hxml a ha, (hattributes a ha).2.2⟩, hnodup,
      fun d hd ↦ ⟨⟨(hdeclarations d hd).pre, hxmlns d hd⟩, (hdeclarations d hd).uri⟩⟩
  | text s => trivial
  | closing name => trivial

end Event.IsReadable

namespace EventStream

/-- What is read comes from legible tokens. -/
theorem exists_parses {text : String} {s : EventStream} (h : parse text = .ok s) :
    ∃ located, (tokens? text.toList).map joinTexts = some located ∧
      (∀ t ∈ located.map (·.token), t.IsLegible) ∧
      Parses [] false (located.map (·.token)) s.events := by
  rw [parse] at h
  split at h
  · next found entries hread =>
    cases h
    obtain ⟨located, hlocated, hread⟩ := Option.bind_eq_some_iff.mp hread
    obtain ⟨nested, hnest, hread⟩ := Option.bind_eq_some_iff.mp hread
    cases hread
    refine ⟨joinTexts located, by rw [hlocated]; rfl, ?_, parses_of_nest? hnest⟩
    obtain ⟨body, -, htokens⟩ := Option.bind_eq_some_iff.mp hlocated
    have hlegible := joinTexts_legible (tokensWithin?_legible htokens)
    intro t ht
    obtain ⟨l, hl, rfl⟩ := List.mem_map.mp ht
    exact hlegible l hl
  · cases h

/-- The tags of what is written and read declare no prefix but `xml` for its namespace. -/
theorem declaration_ne_xmlUri {tag : StartTag} {empty : Bool} {ws : List Written}
    {s : EventStream} (hwritten : ∀ w ∈ .startTag tag empty :: ws, w.IsLegible)
    (h : parse (Written.joined (.startTag tag empty :: ws)) = .ok s) :
    ∀ t e, .startTag t e ∈ .startTag tag empty :: ws → ∀ d ∈ t.declarations, d.pre ≠ "xml" →
      d.uri ≠ QName.xmlUri := by
  obtain ⟨located, hlocated, htokens⟩ := exists_tokens?_joined hwritten
  obtain ⟨located', hlocated', -, hparses⟩ := exists_parses h
  rw [hlocated] at hlocated'
  obtain rfl := Option.some.inj hlocated'
  rw [htokens] at hparses
  intro t e hmem d hd hpre huri
  obtain ⟨scope, r, hopen⟩ := hparses.exists_openElement? (Written.mem_tokensFrom hmem [])
  obtain ⟨own, hown, -⟩ := (opened_of_openElement? hopen).own
  have hattribute : d.tagAttribute ∈ t.tagAttributes :=
    List.mem_append_left _ (List.mem_map_of_mem hd)
  obtain ⟨before, hmay⟩ :=
    mayDeclare_of_ownDeclarations? hown hattribute (declaration?_tagAttribute d)
  simp [mayDeclare, hpre, huri] at hmay

/-- Every document that is read is written. The text is read again exactly if no attribute is in the
namespace of the prefix `xml`, and then with the same content. This is said of documents whose
declarations are as they must be: no tag declares the default namespace twice, and none takes a
prefix back or declares the prefix `xmlns`. -/
theorem parse_toXml_of_parse {text : String} {s : EventStream} (h : parse text = .ok s) :
    ∃ written, s.toXml = .ok written ∧
      ((∀ e ∈ s.events, e.DeclaresProperly ∧ ∀ d ∈ e.declarations, d.pre ≠ "xmlns") →
        ((∃ again, parse written = .ok again) ↔
          ∀ e ∈ s.events, ∀ a ∈ e.attributes, a.name.uri ≠ QName.xmlUri) ∧
        ∀ again, parse written = .ok again → again.events.map Event.bare = content s.events) := by
  obtain ⟨located, -, hlegible, hparses⟩ := exists_parses h
  have hdocument : IsDocument s.events := hparses.completes
  obtain ⟨written, hwritten⟩ := exists_toXml hdocument
  refine ⟨written, hwritten, fun hdeclares ↦ ?_⟩
  have hproper : ∀ e ∈ s.events, e.DeclaresProperly := fun e he ↦ (hdeclares e he).1
  have hreadable := hparses.isReadable hlegible hproper (by simp)
  obtain ⟨ws, htext, hfaithful⟩ := exists_toXml_faithful hdocument hproper
  obtain rfl : written = Written.joined ws := Except.ok.inj (hwritten.symm.trans htext)
  have hlegible' : ∀ e ∈ s.events, e.IsLegible := fun e he ↦ (hreadable e he).isLegible
  have hback (hxml : ∀ e ∈ s.events, ∀ a ∈ e.attributes, a.name.uri ≠ QName.xmlUri) :
      ∃ again, parse (Written.joined ws) = .ok again ∧
        again.events.map Event.bare = content s.events :=
    hfaithful.parse hdocument hlegible'
      (fun e he ↦ (hreadable e he).isConforming (hxml e he) (hdeclares e he).2)
      fun e he ↦ (hreadable e he).avoidsXmlns
  have hfree (again : EventStream) (hagain : parse (Written.joined ws) = .ok again) :
      ∀ e ∈ s.events, ∀ a ∈ e.attributes, a.name.uri ≠ QName.xmlUri := by
    have hlegible := hfaithful.isLegible hlegible' (by simp)
    obtain ⟨tag, empty, rest, rfl⟩ := hfaithful.exists_startTag hdocument
    exact hfaithful.attribute_ne_xmlUri hproper (by simp) (declaration_ne_xmlUri hlegible hagain)
  refine ⟨⟨fun ⟨again, hagain⟩ ↦ hfree again hagain, fun hxml ↦ ?_⟩, fun again hagain ↦ ?_⟩
  · obtain ⟨again, hagain, -⟩ := hback hxml
    exact ⟨again, hagain⟩
  · obtain ⟨again', hagain', hcontent⟩ := hback (hfree again hagain)
    obtain rfl := Except.ok.inj (hagain.symm.trans hagain')
    exact hcontent

/-- A document with a default namespace that is taken back, a comment, character data and a
reference. -/
def noteText : String :=
  "<note xmlns='urn:a'><!--x--><to xmlns='' p:k='1' xmlns:p='urn:b'>&lt;<![CDATA[&]]></to></note>"

/-- What `noteText` is read as. -/
def noteStream : EventStream :=
  ⟨[⟨.opening ⟨"urn:a", "note"⟩ [] [⟨"", "urn:a"⟩], some ⟨1, 1⟩⟩,
    ⟨.opening ⟨"", "to"⟩ [⟨⟨"urn:b", "k"⟩, "1"⟩] [⟨"", ""⟩, ⟨"p", "urn:b"⟩], some ⟨1, 29⟩⟩,
    ⟨.text "<&", some ⟨1, 66⟩⟩, ⟨.closing ⟨"", "to"⟩, none⟩, ⟨.closing ⟨"urn:a", "note"⟩, none⟩]⟩

/-- The document of `noteText` is written and read again. -/
theorem parse_toXml_of_parse_note :
    parse noteText = .ok noteStream ∧
      (∀ e ∈ noteStream.events, e.DeclaresProperly ∧ ∀ d ∈ e.declarations, d.pre ≠ "xmlns") ∧
      ∃ written again, noteStream.toXml = .ok written ∧ parse written = .ok again ∧
        again.events.map Event.bare = content noteStream.events := by
  have hread : parse noteText = .ok noteStream := by rfl
  have hdeclares : ∀ e ∈ noteStream.events,
      e.DeclaresProperly ∧ ∀ d ∈ e.declarations, d.pre ≠ "xmlns" := by decide +kernel
  have hxml : ∀ e ∈ noteStream.events, ∀ a ∈ e.attributes, a.name.uri ≠ QName.xmlUri := by
    decide +kernel
  obtain ⟨written, hwritten, hrest⟩ := parse_toXml_of_parse hread
  obtain ⟨again, hagain⟩ := (hrest hdeclares).1.mpr hxml
  exact ⟨hread, hdeclares, written, again, hwritten, hagain, (hrest hdeclares).2 again hagain⟩

/-- A reserved prefix, which needs no declaration, on an attribute. -/
def langText : String := "<a xml:lang='en'/>"

/-- What `langText` is read as. -/
def langStream : EventStream :=
  ⟨[⟨.opening ⟨"", "a"⟩ [⟨⟨QName.xmlUri, "lang"⟩, "en"⟩] [], some ⟨1, 1⟩⟩,
    ⟨.closing ⟨"", "a"⟩, none⟩]⟩

/-- What is written for `langStream`, which no reader takes. -/
def langWritten : String :=
  "<a xmlns:ns1=\"http://www.w3.org/XML/1998/namespace\" ns1:lang=\"en\"/>"

/-- Not every document that is read is read again once it is written. -/
theorem not_parse_toXml_of_parse : ¬ ∀ (text : String) (s : EventStream), parse text = .ok s →
    ∃ written again, s.toXml = .ok written ∧ parse written = .ok again ∧
      content again.events = content s.events := by
  intro h
  have hread : parse langText = .ok langStream := by rfl
  have htext : langStream.toXml = .ok langWritten := by decide +kernel
  have hrefused : parse langWritten = .error (.structural .malformedDocument none) := by rfl
  obtain ⟨written, again, hwritten, hagain, -⟩ := h langText langStream hread
  rw [htext] at hwritten
  cases hwritten
  rw [hrefused] at hagain
  cases hagain

end EventStream

end XmlBinding

import XmlBinding.Proofs.Document.Faithful
import XmlBinding.Proofs.Document.Legible

/-!
# What is written is read back

The tokens of what is written for events nest into the content of these events
(`Faithful.nests`), because the elements that a reader has open mirror the open tags. So a document
that can be written down is written and read back with the same content
(`EventStream.parse_toXml`).
-/

namespace XmlBinding

namespace Markup

/-! ### Nesting -/

/-- Tokens nest into some events, apart from declarations, wherever they stand. -/
def Nests (opened : List OpenElement) (rooted : Bool) (tokens : List Token)
    (events : List Event) : Prop :=
  ∀ located : List LocatedToken, located.map (·.token) = tokens →
    ∃ entries, nest? opened rooted located = some entries ∧
      entries.map (·.event.bare) = events

private theorem nests_nil : Nests [] true [] [] := by
  intro located h
  rw [List.map_eq_nil_iff] at h
  subst h
  exact ⟨[], rfl, rfl⟩

variable {opened : List OpenElement} {rooted : Bool} {tokens : List Token} {events : List Event}

/-- Text stands within an element. -/
theorem Nests.text (h : Nests opened rooted tokens events) (hopened : opened ≠ []) (s : String) :
    Nests opened rooted (Written.textTokens s.toList ++ tokens) (textEvents s ++ events) := by
  unfold Written.textTokens textEvents
  by_cases hs : s = ""
  · rw [if_pos (by simp [hs]), if_pos hs]
    exact h
  · rw [if_neg (by simpa using hs), if_neg hs]
    intro located hlocated
    obtain ⟨⟨token, location⟩, rest, rfl, rfl, hrest⟩ := List.map_eq_cons_iff.mp hlocated
    obtain ⟨entries, hnest, hentries⟩ := h rest hrest
    refine ⟨⟨.text s, some location⟩ :: entries, ?_, ?_⟩
    · rw [nest?, if_neg (by simpa using hopened), hnest, String.ofList_toList]
      rfl
    · rw [List.map_cons, hentries]
      rfl

private theorem Nests.endTag (h : Nests opened rooted tokens events) (e : OpenElement) :
    Nests (e :: opened) rooted (.endTag e.tag :: tokens) (.closing e.name :: events) := by
  intro located hlocated
  obtain ⟨⟨token, location⟩, rest, rfl, rfl, hrest⟩ := List.map_eq_cons_iff.mp hlocated
  obtain ⟨entries, hnest, hentries⟩ := h rest hrest
  refine ⟨⟨.closing e.name, none⟩ :: entries, ?_, ?_⟩
  · rw [nest?]
    simp only [if_true, hnest]
    rfl
  · rw [List.map_cons, hentries]
    rfl

/-- A tag is no second root if it is the first one or stands within another. -/
private theorem not_second_root (h : opened = [] → rooted = false) :
    ¬ (opened.isEmpty && rooted) = true := by
  cases opened with
  | nil => simp [h rfl]
  | cons e outer => simp

private theorem Nests.startTag {e : OpenElement} (h : Nests (e :: opened) true tokens events)
    (hroot : opened = [] → rooted = false) {tag : TagName} {attributes : List TagAttribute}
    {resolved : List Attribute} {declarations : List Declaration}
    (hopen : openElement? (around opened) tag attributes = some (e, resolved, declarations)) :
    Nests opened rooted (.startTag tag attributes false :: tokens)
      (.opening e.name resolved [] :: events) := by
  intro located hlocated
  obtain ⟨⟨token, location⟩, rest, rfl, rfl, hrest⟩ := List.map_eq_cons_iff.mp hlocated
  obtain ⟨entries, hnest, hentries⟩ := h rest hrest
  refine ⟨⟨.opening e.name resolved declarations, some location⟩ :: entries, ?_, ?_⟩
  · rw [nest?, if_neg (not_second_root hroot)]
    unfold around at hopen
    simp only [hopen, Option.bind_eq_bind, Option.bind_some, Bool.false_eq_true, if_false, hnest]
    rfl
  · rw [List.map_cons, hentries]
    rfl

private theorem Nests.emptyTag {e : OpenElement} (h : Nests opened true tokens events)
    (hroot : opened = [] → rooted = false) {tag : TagName} {attributes : List TagAttribute}
    {resolved : List Attribute} {declarations : List Declaration}
    (hopen : openElement? (around opened) tag attributes = some (e, resolved, declarations)) :
    Nests opened rooted (.startTag tag attributes true :: tokens)
      (.opening e.name resolved [] :: .closing e.name :: events) := by
  intro located hlocated
  obtain ⟨⟨token, location⟩, rest, rfl, rfl, hrest⟩ := List.map_eq_cons_iff.mp hlocated
  obtain ⟨entries, hnest, hentries⟩ := h rest hrest
  refine ⟨⟨.opening e.name resolved declarations, some location⟩ :: ⟨.closing e.name, none⟩ ::
    entries, ?_, ?_⟩
  · rw [nest?, if_neg (not_second_root hroot)]
    unfold around at hopen
    simp only [hopen, hnest]
    rfl
  · rw [List.map_cons, List.map_cons, hentries]
    rfl

/-! ### Open elements -/

/-- The elements that a reader has open are those of the open tags, and what is in scope on them is
what the tags declare. -/
inductive Mirrors : List OpenElement → List StartTag → Prop
  | nil : Mirrors [] []
  /-- An element of a tag is open within others. -/
  | cons {outer : List OpenElement} {tags : List StartTag} {tag : StartTag}
      {scope : List Declaration} (rest : Mirrors outer tags)
      (inForce : InForce scope (tag :: tags)) :
      Mirrors (⟨tag.tagName, tag.name, scope⟩ :: outer) (tag :: tags)

/-- What is in scope around the next element is what the open tags declare. -/
private theorem Mirrors.inForce_around {opened : List OpenElement} {tags : List StartTag}
    (h : Mirrors opened tags) : InForce (around opened) tags := by
  cases h with
  | nil => exact inForce_nil
  | cons _ inForce => exact inForce

/-- No tag is open where no element is. -/
theorem Mirrors.eq_nil_iff {opened : List OpenElement} {tags : List StartTag}
    (h : Mirrors opened tags) : opened = [] ↔ tags = [] := by
  cases h <;> simp

private theorem Mirrors.nests_held {opened : List OpenElement} {tags : List StartTag}
    (h : Mirrors opened tags) {held : String} (hheld : tags = [] → held = "") {rooted : Bool}
    {tokens : List Token} {events : List Event} (hn : Nests opened rooted tokens events) :
    Nests opened rooted (Written.textTokens held.toList ++ tokens) (textEvents held ++ events) := by
  by_cases hempty : held = ""
  · rw [hempty]
    exact hn
  · exact hn.text (fun hnil ↦ hempty (hheld (h.eq_nil_iff.mp hnil))) held

private theorem Mirrors.openElement? {opened : List OpenElement} {outer : List StartTag}
    (h : Mirrors opened outer) {tag : StartTag} (hresolves : tag.Resolves outer)
    (hfree : ∀ t ∈ tag :: outer, ∀ d ∈ t.declarations, d.IsFree)
    (hconforming : tag.event.IsConforming) (hxmlns : tag.event.AvoidsXmlns) :
    ∃ scope declarations, Markup.openElement? (around opened) tag.tagName tag.tagAttributes =
        some (⟨tag.tagName, tag.name, scope⟩, tag.attributes.map (·.2), declarations) ∧
      Mirrors (⟨tag.tagName, tag.name, scope⟩ :: opened) (tag :: outer) := by
  obtain ⟨declarations, hopen⟩ :=
    openElement?_tag hresolves h.inForce_around hfree hconforming hxmlns
  exact ⟨_, declarations, hopen, .cons h (h.inForce_around.cons tag)⟩

end Markup

/-! ### Documents -/

open Markup

/-- The tokens of what is written within open tags nest into the content of the events. -/
theorem Faithful.nests {tags : List StartTag} {events : List Event} {ws : List Written}
    (h : Faithful tags events ws) {opened : List OpenElement} (hmirrors : Mirrors opened tags)
    {rooted : Bool} (hcompletes : Completes rooted (tags.map (·.name)) events)
    (hfree : ∀ t ∈ tags, ∀ d ∈ t.declarations, d.IsFree)
    (hconforming : ∀ e ∈ events, e.IsConforming) (hxmlns : ∀ e ∈ events, e.AvoidsXmlns)
    (held : String) (hheld : tags = [] → held = "") :
    Nests opened rooted (Written.tokensFrom held.toList ws) (contentFrom held events) := by
  induction h generalizing opened rooted held with
  | @nil tags =>
    obtain ⟨hnil, rfl⟩ := hcompletes
    rw [List.map_eq_nil_iff] at hnil
    rw [hheld hnil, hmirrors.eq_nil_iff.mpr hnil]
    exact nests_nil
  | @text tags _ _ s _ ih =>
    obtain ⟨hne, hcompletes⟩ := hcompletes
    rw [List.forall_mem_cons] at hconforming hxmlns
    have hrest := ih hmirrors hcompletes hfree hconforming.2 hxmlns.2 (held ++ s)
      fun h ↦ absurd (by rw [h]; rfl) hne
    rw [String.toList_append] at hrest
    exact hrest
  | @opening tags tag _ _ resolves _ ih =>
    obtain ⟨hroot, hcompletes⟩ := hcompletes
    rw [List.forall_mem_cons] at hconforming hxmlns
    have hinner := List.forall_mem_cons.mpr ⟨resolves.isFree hconforming.1, hfree⟩
    obtain ⟨scope, declarations, hopen, hmirrors'⟩ :=
      hmirrors.openElement? resolves hinner hconforming.1 hxmlns.1
    have hrest := ih hmirrors' hcompletes hinner hconforming.2 hxmlns.2 "" fun _ ↦ rfl
    refine hmirrors.nests_held hheld (hrest.startTag (fun h ↦ hroot ?_) hopen)
    rw [hmirrors.eq_nil_iff.mp h]
    rfl
  | @empty tags tag _ _ resolves _ ih =>
    obtain ⟨hroot, -, hcompletes⟩ := hcompletes
    rw [List.forall_mem_cons, List.forall_mem_cons] at hconforming hxmlns
    have hinner := List.forall_mem_cons.mpr ⟨resolves.isFree hconforming.1, hfree⟩
    obtain ⟨scope, declarations, hopen, -⟩ :=
      hmirrors.openElement? resolves hinner hconforming.1 hxmlns.1
    have hrest := ih hmirrors hcompletes hfree hconforming.2.2 hxmlns.2.2 "" fun _ ↦ rfl
    refine hmirrors.nests_held hheld (hrest.emptyTag (fun h ↦ hroot ?_) hopen)
    rw [hmirrors.eq_nil_iff.mp h]
    rfl
  | @closing tags tag _ _ _ ih =>
    obtain ⟨-, hcompletes⟩ := hcompletes
    rw [List.forall_mem_cons] at hconforming hxmlns hfree
    cases hmirrors with
    | cons rest inForce =>
      have hrest := ih rest hcompletes hfree.2 hconforming.2 hxmlns.2 "" fun _ ↦ rfl
      exact (hrest.endTag _).text (List.cons_ne_nil _ _) held

/-- What is written for a document begins with a start tag. -/
theorem Faithful.exists_startTag {events : List Event} {ws : List Written}
    (h : Faithful [] events ws) (hdocument : IsDocument events) :
    ∃ tag empty rest, ws = .startTag tag empty :: rest := by
  cases h with
  | nil => exact absurd hdocument.2 Bool.false_ne_true
  | text s _ => exact absurd rfl hdocument.1
  | opening _ _ => exact ⟨_, _, _, rfl⟩
  | empty _ _ => exact ⟨_, _, _, rfl⟩

/-- A document that is written faithfully is read back. -/
theorem Faithful.parse {events : List Event} {ws : List Written} (h : Faithful [] events ws)
    (hdocument : IsDocument events) (hlegible : ∀ e ∈ events, e.IsLegible)
    (hconforming : ∀ e ∈ events, e.IsConforming) (hxmlns : ∀ e ∈ events, e.AvoidsXmlns) :
    ∃ parsed, EventStream.parse (Written.joined ws) = .ok parsed ∧
      parsed.events.map Event.bare = content events := by
  have hnests := h.nests .nil hdocument (by simp) hconforming hxmlns "" fun _ ↦ rfl
  have hwritten := h.isLegible hlegible (by simp)
  obtain ⟨tag, empty, rest, rfl⟩ := h.exists_startTag hdocument
  obtain ⟨located, hlocated, htokens⟩ := exists_tokens?_joined hwritten
  obtain ⟨entries, hentries, hevents⟩ := hnests located htokens
  refine ⟨⟨entries⟩, ?_, ?_⟩
  · obtain ⟨found, hfound, rfl⟩ := Option.map_eq_some_iff.mp hlocated
    rw [EventStream.parse, read?, hfound]
    simp only [Option.bind_eq_bind, Option.bind_some, hentries]
    rfl
  · change _ = contentFrom "" events
    rw [← hevents]
    simp [EventStream.events]

namespace EventStream

/-- A stream is what its writer writes if it leaves nothing open. -/
theorem toXml_of_writeAll {s : EventStream} {text : String} {last : Writer}
    (hwrite : Writer.initial.writeAll s.events = .ok (text, last)) (hlast : last.opened = []) :
    s.toXml = .ok text := by
  have hfinish : last.finish = .ok () := by
    unfold Writer.finish
    rw [hlast]
  unfold toXml
  rw [hwrite]
  change (last.finish >>= fun _ ↦ pure text) = .ok text
  rw [hfinish]
  rfl

/-- A document is written in full. -/
theorem exists_toXml {s : EventStream} (hdocument : IsDocument s.events) :
    ∃ text, s.toXml = .ok text := by
  obtain ⟨text, last, hwrite, hlast⟩ := exists_writeAll_of_completes
    (show Completes false Writer.initial.opened s.events from hdocument)
  exact ⟨text, toXml_of_writeAll hwrite hlast⟩

/-- A document is written in full, and faithfully if its events declare properly. -/
theorem exists_toXml_faithful {s : EventStream} (hdocument : IsDocument s.events)
    (hproper : ∀ e ∈ s.events, e.DeclaresProperly) :
    ∃ ws, s.toXml = .ok (Written.joined ws) ∧ Faithful [] s.events ws := by
  obtain ⟨text, last, hwrite, hlast⟩ := exists_writeAll_of_completes
    (show Completes false Writer.initial.opened s.events from hdocument)
  obtain ⟨hwrites, left, hleft⟩ := Writer.hasOpen_initial.writeAll hproper hwrite
  have hended : last.pendingText = "" := by
    unfold Writer.pendingText
    rw [if_neg]
    intro hp
    have hopened := hleft.opened
    rw [hlast, eq_comm, List.map_eq_nil_iff] at hopened
    exact hleft.pending hp hopened
  have htext := toXml_of_writeAll hwrite hlast
  rw [hended, String.append_empty] at hwrites
  cases hwrites with
  | settled _ faithful => exact ⟨_, htext, faithful⟩

/-- A document that can be written down is written and read back with the same content. -/
theorem parse_toXml {s : EventStream} (hdocument : IsDocument s.events)
    (hlegible : ∀ e ∈ s.events, e.IsLegible) (hconforming : ∀ e ∈ s.events, e.IsConforming)
    (hxmlns : ∀ e ∈ s.events, e.AvoidsXmlns) (hproper : ∀ e ∈ s.events, e.DeclaresProperly) :
    ∃ text parsed, s.toXml = .ok text ∧ parse text = .ok parsed ∧
      parsed.events.map Event.bare = content s.events := by
  obtain ⟨ws, htext, hfaithful⟩ := exists_toXml_faithful hdocument hproper
  obtain ⟨parsed, hparsed, hcontent⟩ := hfaithful.parse hdocument hlegible hconforming hxmlns
  exact ⟨_, parsed, htext, hparsed, hcontent⟩

/-- Text in pieces, with markup, a line end and white space that a reader would normalize, and
elements in three namespaces, one of them without a prefix of its own. -/
def mixedDocument : EventStream :=
  ofEvents [.opening ⟨"urn:a", "list"⟩ [⟨⟨"urn:b", "kind"⟩, "\t<\"&\n"⟩] [⟨"", "urn:a"⟩],
    .text "a]]>", .text "\r\n", .text "",
    .opening ⟨"", "item"⟩ [⟨⟨"", "id"⟩, "1"⟩] [⟨"p", "urn:b"⟩],
    .opening ⟨"urn:b", "note"⟩ [] [], .text "", .closing ⟨"urn:b", "note"⟩,
    .closing ⟨"", "item"⟩,
    .text "&", .text "z",
    .closing ⟨"urn:a", "list"⟩]

/-- The content of `mixedDocument`. -/
def mixedContent : List Event :=
  [.opening ⟨"urn:a", "list"⟩ [⟨⟨"urn:b", "kind"⟩, "\t<\"&\n"⟩] [],
    .text "a]]>\r\n",
    .opening ⟨"", "item"⟩ [⟨⟨"", "id"⟩, "1"⟩] [],
    .opening ⟨"urn:b", "note"⟩ [] [], .closing ⟨"urn:b", "note"⟩,
    .closing ⟨"", "item"⟩,
    .text "&z",
    .closing ⟨"urn:a", "list"⟩]

/-- The document is read back with its texts joined. -/
theorem parse_toXml_mixed :
    IsDocument mixedDocument.events ∧ (∀ e ∈ mixedDocument.events, e.IsLegible) ∧
      (∀ e ∈ mixedDocument.events, e.IsConforming) ∧
      (∀ e ∈ mixedDocument.events, e.AvoidsXmlns) ∧
      (∀ e ∈ mixedDocument.events, e.DeclaresProperly) ∧
      content mixedDocument.events = mixedContent ∧
      ∃ text parsed, mixedDocument.toXml = .ok text ∧ parse text = .ok parsed ∧
        parsed.events.map Event.bare = content mixedDocument.events := by
  have hdocument : IsDocument mixedDocument.events := by decide +kernel
  have hlegible : ∀ e ∈ mixedDocument.events, e.IsLegible := by decide +kernel
  have hconforming : ∀ e ∈ mixedDocument.events, e.IsConforming := by decide +kernel
  have hxmlns : ∀ e ∈ mixedDocument.events, e.AvoidsXmlns := by decide +kernel
  have hproper : ∀ e ∈ mixedDocument.events, e.DeclaresProperly := by decide +kernel
  exact ⟨hdocument, hlegible, hconforming, hxmlns, hproper, by decide +kernel,
    parse_toXml hdocument hlegible hconforming hxmlns hproper⟩

/-- An attribute that is named like a declaration, in a namespace. -/
def xmlnsDocument : EventStream :=
  ofEvents [.opening ⟨"", "a"⟩ [⟨⟨"urn:a", "xmlns"⟩, "v"⟩] [], .closing ⟨"", "a"⟩]

/-- It is not enough that no attribute without a namespace is named `xmlns`: behind any prefix that
name is taken for a declaration of the default namespace. -/
theorem not_parse_toXml : ¬ ∀ s : EventStream, IsDocument s.events →
    (∀ e ∈ s.events, e.IsLegible) → (∀ e ∈ s.events, e.IsConforming) →
    (∀ e ∈ s.events, ∀ a ∈ e.attributes, a.name ≠ .unqualified "xmlns") →
    (∀ e ∈ s.events, e.DeclaresProperly) →
    ∃ text parsed, s.toXml = .ok text ∧ parse text = .ok parsed ∧
      parsed.events.map Event.bare = content s.events := by
  intro h
  have hwritten : xmlnsDocument.toXml = .ok "<a xmlns:ns1=\"urn:a\" ns1:xmlns=\"v\"/>" := by
    rfl
  have hread : (parse "<a xmlns:ns1=\"urn:a\" ns1:xmlns=\"v\"/>").map (·.events.map Event.bare) =
      .ok [.opening ⟨"v", "a"⟩ [] [], .closing ⟨"v", "a"⟩] := by
    rfl
  obtain ⟨text, parsed, htext, hparsed, hcontent⟩ := h xmlnsDocument (by decide +kernel)
    (by decide +kernel) (by decide +kernel) (by decide +kernel) (by decide +kernel)
  rw [hwritten] at htext
  cases htext
  rw [hparsed] at hread
  have hnot : content xmlnsDocument.events ≠
      [.opening ⟨"v", "a"⟩ [] [], .closing ⟨"v", "a"⟩] := by decide +kernel
  exact hnot (hcontent.symm.trans (Except.ok.inj hread))

end EventStream

end XmlBinding

import XmlBinding.Proofs.Document.Markup.Checked
import XmlBinding.Proofs.Document.ReadBack

/-!
# Documents are readable by their characters

Escaping hides no character that a document may not hold. So whether what is written for a document
can be read is seen from its characters alone, if its names and namespaces are in order
(`EventStream.parse_toXml_iff`).
-/

namespace XmlBinding

open Markup

/-! ### Characters that are read -/

/-- A text that is read holds only characters that a document may hold. -/
private theorem EventStream.all_isDocumentChar_of_parse {text : String} {s : EventStream}
    (h : parse text = .ok s) : text.toList.all isDocumentChar = true := by
  unfold parse at h
  split at h
  · next tokens entries hread =>
    obtain ⟨located, hlocated, -⟩ := Option.bind_eq_some_iff.mp hread
    exact tokens?_checked hlocated
  · cases h

/-! ### Characters that are written -/

/-- A document may hold a character if it may hold what the character is escaped as. -/
private theorem Markup.Escapes.isDocumentChar {inAttribute : Bool} {c : Char} {e : List Char}
    (h : Escapes inAttribute c e) (he : e.all Markup.isDocumentChar = true) :
    Markup.isDocumentChar c = true := by
  cases h with
  | literal plain kept => simpa using he
  | reference body refers => exact isDocumentChar_of_referredChar? refers.1

/-- A document may hold a text if it may hold the escaped one. -/
theorem Markup.all_isDocumentChar_of_escaped {inAttribute : Bool} {cs : List Char}
    (h : (escaped inAttribute cs).all isDocumentChar = true) : cs.all isDocumentChar = true := by
  induction cs with
  | nil => rfl
  | cons c cs ih =>
    rw [escaped_cons, List.all_append, Bool.and_eq_true] at h
    rw [List.all_cons, (escapes_escapeChar inAttribute c).isDocumentChar h.1, ih h.2]
    rfl

/-- A document may hold the value of an attribute if it may hold the attribute. -/
private theorem Markup.TagAttribute.all_isDocumentChar_value {a : TagAttribute}
    (h : a.characters.all isDocumentChar = true) : a.value.toList.all isDocumentChar = true := by
  simp only [characters, List.all_cons, List.all_append, Bool.and_eq_true] at h
  exact all_isDocumentChar_of_escaped h.2.2.2.2.1

/-- A document may hold the values on a tag if it may hold the tag. -/
private theorem StartTag.all_isDocumentChar_value {tag : StartTag} {empty : Bool}
    (h : (Written.startTag tag empty).toString.toList.all isDocumentChar = true) :
    ∀ a ∈ tag.tagAttributes, a.value.toList.all isDocumentChar = true := by
  intro a ha
  rw [toList_startTag] at h
  apply TagAttribute.all_isDocumentChar_value
  rw [List.all_eq_true] at h ⊢
  intro c hc
  apply h c
  simp only [startTagCharacters, List.mem_cons, List.mem_append, List.mem_flatMap]
  exact .inr (.inl (.inr ⟨a, ha, hc⟩))

/-! ### Characters of events -/

/-- The names in an event can be written down, and its texts are made of characters with a
property. -/
def Event.IsMadeOf (p : Char → Bool) : Event → Prop
  | .opening name attributes declarations => name.IsLegible ∧
      (∀ a ∈ attributes, a.name.IsLegible ∧ a.value.toList.all p = true) ∧
      ∀ d ∈ declarations, (d.pre = "" ∨ IsNamePart d.pre.toList) ∧ d.uri.toList.all p = true
  | .text s => s.toList.all p = true
  | .closing _ => True

/-- An event that is made of what a document may hold can be written down. -/
theorem Event.IsMadeOf.isLegible {e : Event} (h : e.IsMadeOf isDocumentChar) : e.IsLegible := by
  cases e with
  | opening name attributes declarations =>
    exact ⟨h.1, fun a ha ↦ ⟨(h.2.1 a ha).1, (h.2.1 a ha).2⟩,
      fun d hd ↦ ⟨(h.2.2 d hd).1, (h.2.2 d hd).2⟩⟩
  | text s => exact h
  | closing name => trivial

/-- The event of a tag can be written down if a document may hold the tag. -/
private theorem StartTag.isLegible_event {tag : StartTag} {empty : Bool} {p : Char → Bool}
    (hmade : tag.event.IsMadeOf p)
    (h : (Written.startTag tag empty).toString.toList.all isDocumentChar = true) :
    tag.event.IsLegible := by
  have hvalue := all_isDocumentChar_value h
  refine ⟨hmade.1, fun a ha ↦ ⟨(hmade.2.1 a ha).1, ?_⟩, fun d hd ↦ ⟨(hmade.2.2 d hd).1, ?_⟩⟩
  · obtain ⟨b, hb, rfl⟩ := List.mem_map.mp ha
    exact hvalue _ (List.mem_append_right _ (List.mem_map_of_mem hb))
  · exact hvalue _ (List.mem_append_left _ (List.mem_map_of_mem (List.mem_append_left _ hd)))

/-- Events can be written down if a document may hold what is written for them. -/
private theorem Faithful.isLegible_of_joined {opened : List StartTag} {events : List Event}
    {ws : List Written} (h : Faithful opened events ws) {p : Char → Bool}
    (hmade : ∀ e ∈ events, e.IsMadeOf p)
    (hws : (Written.joined ws).toList.all isDocumentChar = true) : ∀ e ∈ events, e.IsLegible := by
  induction h with
  | nil => simp
  | text s _ ih =>
    rw [List.forall_mem_cons] at hmade
    rw [Written.joined_cons, String.toList_append, List.all_append, Bool.and_eq_true] at hws
    refine List.forall_mem_cons.mpr ⟨?_, ih hmade.2 hws.2⟩
    have hs : (escape false s).toList.all isDocumentChar = true := hws.1
    rw [toList_escape] at hs
    exact all_isDocumentChar_of_escaped hs
  | opening _ _ ih =>
    rw [List.forall_mem_cons] at hmade
    rw [Written.joined_cons, String.toList_append, List.all_append, Bool.and_eq_true] at hws
    exact List.forall_mem_cons.mpr ⟨StartTag.isLegible_event hmade.1 hws.1, ih hmade.2 hws.2⟩
  | empty _ _ ih =>
    rw [List.forall_mem_cons, List.forall_mem_cons] at hmade
    rw [Written.joined_cons, String.toList_append, List.all_append, Bool.and_eq_true] at hws
    exact List.forall_mem_cons.mpr ⟨StartTag.isLegible_event hmade.1 hws.1,
      List.forall_mem_cons.mpr ⟨trivial, ih hmade.2.2 hws.2⟩⟩
  | closing _ ih =>
    rw [List.forall_mem_cons] at hmade
    rw [Written.joined_cons, String.toList_append, List.all_append, Bool.and_eq_true] at hws
    exact List.forall_mem_cons.mpr ⟨trivial, ih hmade.2 hws.2⟩

/-! ### Documents -/

/-- A document whose names and namespaces are in order is written. The text is read exactly if a
document may hold all of its characters, as it may if it may hold those of the events, and then with
the same content. -/
theorem EventStream.parse_toXml_iff {s : EventStream} (hdocument : IsDocument s.events)
    {p : Char → Bool} (hmade : ∀ e ∈ s.events, e.IsMadeOf p)
    (hconforming : ∀ e ∈ s.events, e.IsConforming) (hxmlns : ∀ e ∈ s.events, e.AvoidsXmlns)
    (hproper : ∀ e ∈ s.events, e.DeclaresProperly) :
    ∃ text, s.toXml = .ok text ∧
      ((∃ parsed, parse text = .ok parsed) ↔ text.toList.all isDocumentChar = true) ∧
      ((∀ e ∈ s.events, e.IsLegible) → text.toList.all isDocumentChar = true) ∧
      ∀ parsed, parse text = .ok parsed → parsed.events.map Event.bare = content s.events := by
  obtain ⟨ws, htext, hfaithful⟩ := exists_toXml_faithful hdocument hproper
  have hread (hlegible : ∀ e ∈ s.events, e.IsLegible) :
      ∃ parsed, parse (Written.joined ws) = .ok parsed ∧
        parsed.events.map Event.bare = content s.events :=
    hfaithful.parse hdocument hlegible hconforming hxmlns
  have hlegible (hall : (Written.joined ws).toList.all isDocumentChar = true) :
      ∀ e ∈ s.events, e.IsLegible := hfaithful.isLegible_of_joined hmade hall
  refine ⟨_, htext, ⟨fun ⟨parsed, hparsed⟩ ↦ all_isDocumentChar_of_parse hparsed, fun hall ↦ ?_⟩,
    fun hevents ↦ ?_, fun parsed hparsed ↦ ?_⟩
  · obtain ⟨parsed, hparsed, -⟩ := hread (hlegible hall)
    exact ⟨parsed, hparsed⟩
  · obtain ⟨parsed, hparsed, -⟩ := hread hevents
    exact all_isDocumentChar_of_parse hparsed
  · obtain ⟨parsed', hparsed', hcontent⟩ := hread (hlegible (all_isDocumentChar_of_parse hparsed))
    obtain rfl := Except.ok.inj (hparsed.symm.trans hparsed')
    exact hcontent

end XmlBinding

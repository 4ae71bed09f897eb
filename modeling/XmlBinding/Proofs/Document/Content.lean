import XmlBinding.Proofs.Document.Markup.Tag
import XmlBinding.Proofs.Document.Nesting

/-!
# Documents and their content

Which events make a document (`IsDocument`), which of them can stand in one (`Event.IsLegible` for
their characters, `Event.IsConforming` for their namespaces), and what of them a reader gets to see
(`content`): the elements with their attributes and the text between the tags, not how the text was
cut into events and where namespaces were declared.
-/

namespace XmlBinding

open Markup

/-! ### Documents -/

/-- Events complete a document in which some elements are open, the innermost first: they close
these and no others, and nothing but the root stands outside an element. `rooted` tells whether the
root has been there. -/
def Completes (rooted : Bool) (opened : List QName) : List Event → Prop
  | [] => opened = [] ∧ rooted = true
  | .opening name _ _ :: rest =>
    (opened = [] → rooted = false) ∧ Completes true (name :: opened) rest
  | .text _ :: rest => opened ≠ [] ∧ Completes rooted opened rest
  | .closing name :: rest => opened.head? = some name ∧ Completes rooted opened.tail rest

instance decidableCompletes (rooted : Bool) (opened : List QName) : (events : List Event) →
    Decidable (Completes rooted opened events)
  | [] => inferInstanceAs (Decidable (opened = [] ∧ rooted = true))
  | .opening name _ _ :: rest =>
    have := decidableCompletes true (name :: opened) rest
    inferInstanceAs (Decidable ((opened = [] → rooted = false) ∧
      Completes true (name :: opened) rest))
  | .text _ :: rest =>
    have := decidableCompletes rooted opened rest
    inferInstanceAs (Decidable (opened ≠ [] ∧ Completes rooted opened rest))
  | .closing name :: rest =>
    have := decidableCompletes rooted opened.tail rest
    inferInstanceAs (Decidable (opened.head? = some name ∧ Completes rooted opened.tail rest))

/-- Events are one root element and nothing outside it. -/
def IsDocument (events : List Event) : Prop := Completes false [] events

instance (events : List Event) : Decidable (IsDocument events) :=
  decidableCompletes false [] events

/-- A writer accepts what completes a document in which its elements are open. -/
theorem exists_writeAll_of_completes {w : Writer} {rooted : Bool} {events : List Event}
    (h : Completes rooted w.opened events) :
    ∃ text last, w.writeAll events = .ok (text, last) ∧ last.opened = [] := by
  induction events generalizing w rooted with
  | nil => exact ⟨"", w, rfl, h.1⟩
  | cons e rest ih =>
    have hstep (here : String) (w' : Writer) (hwrite : w.write e = (.ok here, w')) (rooted' : Bool)
        (hrest : Completes rooted' w'.opened rest) :
        ∃ text last, w.writeAll (e :: rest) = .ok (text, last) ∧ last.opened = [] := by
      obtain ⟨text, last, hmore, hlast⟩ := ih hrest
      refine ⟨here ++ text, last, ?_, hlast⟩
      rw [Writer.writeAll, hwrite]
      dsimp only
      rw [hmore]
      rfl
    cases e with
    | opening name attributes declarations => exact hstep _ _ rfl true h.2
    | text s => exact hstep _ _ rfl rooted h.2
    | closing name =>
      obtain ⟨hhead, hrest⟩ := h
      refine hstep (w.writeClosing name).1 (w.writeClosing name).2 ?_ rooted hrest
      obtain ⟨outer, hopened⟩ := List.head?_eq_some_iff.mp hhead
      rw [Writer.write, hopened]
      exact if_pos rfl

/-! ### What can stand in a document -/

/-- A name that can be written down. -/
structure QName.IsLegible (n : QName) : Prop where
  uri : n.uri.toList.all isDocumentChar = true
  localPart : IsNamePart n.localPart.toList

instance (n : QName) : Decidable n.IsLegible :=
  decidable_of_iff (n.uri.toList.all isDocumentChar = true ∧ IsNamePart n.localPart.toList)
    ⟨fun h ↦ ⟨h.1, h.2⟩, fun h ↦ ⟨h.1, h.2⟩⟩

/-- An attribute that can be written down. -/
structure Attribute.IsLegible (a : Attribute) : Prop where
  name : a.name.IsLegible
  value : a.value.toList.all isDocumentChar = true

instance (a : Attribute) : Decidable a.IsLegible :=
  decidable_of_iff (a.name.IsLegible ∧ a.value.toList.all isDocumentChar = true)
    ⟨fun h ↦ ⟨h.1, h.2⟩, fun h ↦ ⟨h.1, h.2⟩⟩

/-- A declaration that can be written down. -/
structure Declaration.IsLegible (d : Declaration) : Prop where
  pre : d.pre = "" ∨ IsNamePart d.pre.toList
  uri : d.uri.toList.all isDocumentChar = true

instance (d : Declaration) : Decidable d.IsLegible :=
  decidable_of_iff ((d.pre = "" ∨ IsNamePart d.pre.toList) ∧ d.uri.toList.all isDocumentChar = true)
    ⟨fun h ↦ ⟨h.1, h.2⟩, fun h ↦ ⟨h.1, h.2⟩⟩

/-- An event that can be written down. -/
def Event.IsLegible : Event → Prop
  | .opening name attributes declarations => name.IsLegible ∧ (∀ a ∈ attributes, a.IsLegible) ∧
      ∀ d ∈ declarations, d.IsLegible
  | .text s => s.toList.all isDocumentChar = true
  | .closing _ => True

instance (e : Event) : Decidable e.IsLegible :=
  match e with
  | .opening name attributes declarations => inferInstanceAs (Decidable (name.IsLegible ∧
      (∀ a ∈ attributes, a.IsLegible) ∧ ∀ d ∈ declarations, d.IsLegible))
  | .text s => inferInstanceAs (Decidable (s.toList.all isDocumentChar = true))
  | .closing _ => .isTrue trivial

/-- A namespace that has its own prefix, which no document may declare another one for. -/
def IsReservedUri (uri : String) : Prop := uri = QName.xmlUri ∨ uri = declarationUri

instance (uri : String) : Decidable (IsReservedUri uri) :=
  inferInstanceAs (Decidable (_ ∨ _))

/-- A declaration that no reserved prefix and no reserved namespace is in. -/
structure Declaration.IsFree (d : Declaration) : Prop where
  pre : d.pre ≠ "xml" ∧ d.pre ≠ "xmlns"
  uri : ¬ IsReservedUri d.uri

instance (d : Declaration) : Decidable d.IsFree :=
  decidable_of_iff ((d.pre ≠ "xml" ∧ d.pre ≠ "xmlns") ∧ ¬ IsReservedUri d.uri)
    ⟨fun h ↦ ⟨h.1, h.2⟩, fun h ↦ ⟨h.1, h.2⟩⟩

/-- The attributes of an event. -/
def Event.attributes : Event → List Attribute
  | .opening _ attributes _ => attributes
  | _ => []

/-- The declarations of an event. -/
def Event.declarations : Event → List Declaration
  | .opening _ _ declarations => declarations
  | _ => []

/-- No attribute of the event can be taken for a declaration, whatever its prefix. -/
def Event.AvoidsXmlns (e : Event) : Prop := ∀ a ∈ e.attributes, a.name.localPart ≠ "xmlns"

instance (e : Event) : Decidable e.AvoidsXmlns :=
  inferInstanceAs (Decidable (∀ a ∈ e.attributes, a.name.localPart ≠ "xmlns"))

/-- An event that keeps to the rules for namespaces: nothing of it is reserved, and no two
attributes have the same name. -/
def Event.IsConforming : Event → Prop
  | .opening name attributes declarations => ¬ IsReservedUri name.uri ∧
      (∀ a ∈ attributes, ¬ IsReservedUri a.name.uri) ∧
      (attributes.map (·.name)).Nodup ∧ ∀ d ∈ declarations, d.IsFree
  | _ => True

instance (e : Event) : Decidable e.IsConforming :=
  match e with
  | .opening name attributes declarations => inferInstanceAs (Decidable (¬ IsReservedUri name.uri ∧
      (∀ a ∈ attributes, ¬ IsReservedUri a.name.uri) ∧
      (attributes.map (·.name)).Nodup ∧ ∀ d ∈ declarations, d.IsFree))
  | .text _ => .isTrue trivial
  | .closing _ => .isTrue trivial

/-! ### What a reader sees -/

/-- The event without its declarations. -/
def Event.bare : Event → Event
  | .opening name attributes _ => .opening name attributes []
  | e => e

/-- The event of a text, if that is not empty. -/
def textEvents (s : String) : List Event := if s = "" then [] else [.text s]

/-- The content of events that stand behind some text. -/
def contentFrom (held : String) : List Event → List Event
  | [] => textEvents held
  | .text s :: rest => contentFrom (held ++ s) rest
  | e :: rest => textEvents held ++ e.bare :: contentFrom "" rest

/-- The content of events: neighbouring texts made one, empty texts and declarations left out. -/
def content (events : List Event) : List Event := contentFrom "" events

end XmlBinding

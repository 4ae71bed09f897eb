import XmlBinding.Document.Tree
import XmlBinding.Document.Writer

/-!
# Properly nested events

A writer refuses no event of a tree: it has the same elements open behind the tree as before it, so
that every closing meets the element that it closes. A document of one element is therefore written
in full.
-/

namespace XmlBinding

namespace Writer

/-- The writer writes the events and goes on with what follows, with the same elements open. -/
def Accepts (w : Writer) (events : List Event) : Prop :=
  ∃ (text : String) (w' : Writer), w'.opened = w.opened ∧
    ∀ rest, w.writeAll (events ++ rest) =
      (w'.writeAll rest).map fun (more, last) ↦ (text ++ more, last)

private theorem accepts_nil (w : Writer) : w.Accepts [] := by
  refine ⟨"", w, rfl, fun rest ↦ ?_⟩
  rw [List.nil_append]
  cases w.writeAll rest with
  | error e => rfl
  | ok p => simp [Except.map]

private theorem map_append (a b : String) (r : Except Error (String × Writer)) :
    (r.map fun (more, last) ↦ (b ++ more, last)).map (fun (more, last) ↦ (a ++ more, last)) =
      r.map fun (more, last) ↦ (a ++ b ++ more, last) := by
  cases r with
  | error e => rfl
  | ok p => simp [Except.map, String.append_assoc]

/-- Events are accepted if those before and those behind are, whatever is written in between. -/
private theorem Accepts.append {w : Writer} {xs ys : List Event} (hx : w.Accepts xs)
    (hy : ∀ w' : Writer, w'.opened = w.opened → w'.Accepts ys) : w.Accepts (xs ++ ys) := by
  obtain ⟨text, w₁, hopened, hwrite⟩ := hx
  obtain ⟨text', w₂, hopened', hwrite'⟩ := hy w₁ hopened
  refine ⟨text ++ text', w₂, hopened'.trans hopened, fun rest ↦ ?_⟩
  rw [List.append_assoc, hwrite, hwrite', map_append]

private theorem accepts_text (w : Writer) (s : String) : w.Accepts [.text s] :=
  ⟨w.pendingText ++ escape false s, { w with pending := false }, rfl, fun _ ↦ rfl⟩

/-- The state after a start tag has its element open. -/
theorem opened_writeOpening (w : Writer) (name : QName) (attributes : List Attribute)
    (declarations : List Declaration) :
    (w.writeOpening name attributes declarations).2.opened = name :: w.opened := rfl

private theorem accepts_element (w : Writer) (name : QName) (attributes : List Attribute)
    (declarations : List Declaration) {events : List Event}
    (h : ∀ w' : Writer, w'.Accepts events) :
    w.Accepts (.opening name attributes declarations :: (events ++ [.closing name])) := by
  obtain ⟨text, w₁, hopened, hwrite⟩ := h (w.writeOpening name attributes declarations).2
  rw [opened_writeOpening] at hopened
  refine ⟨(w.writeOpening name attributes declarations).1 ++ text ++ (w₁.writeClosing name).1,
    (w₁.writeClosing name).2, ?_, fun rest ↦ ?_⟩
  · change w₁.opened.tail = w.opened
    rw [hopened]
    rfl
  · have hclose : w₁.writeAll (.closing name :: rest) =
        ((w₁.writeClosing name).2.writeAll rest).map fun (more, last) ↦
          ((w₁.writeClosing name).1 ++ more, last) := by
      rw [writeAll, write, hopened]
      simp only [if_pos]
    rw [List.cons_append, List.append_assoc, writeAll, write]
    dsimp only
    rw [hwrite, List.singleton_append, hclose, map_append, map_append, String.append_assoc]

end Writer

namespace Tree

mutual

private theorem accepts_events (t : Tree) (w : Writer) : w.Accepts t.events := by
  cases t with
  | text s => exact w.accepts_text s
  | element name attributes declarations content =>
    rw [events]
    exact w.accepts_element name attributes declarations fun w' ↦ accepts_eventsOfAll content w'

private theorem accepts_eventsOfAll (ts : List Tree) (w : Writer) : w.Accepts (eventsOfAll ts) := by
  cases ts with
  | nil => exact w.accepts_nil
  | cons t rest =>
    rw [eventsOfAll]
    exact (accepts_events t w).append fun w' _ ↦ accepts_eventsOfAll rest w'

end

/-- The events of a tree are written in full. -/
theorem isOk_toXml (t : Tree) : ∃ text, (EventStream.ofEvents t.events).toXml = .ok text := by
  obtain ⟨text, w, hopened, hwrite⟩ := t.accepts_events .initial
  have hall := hwrite []
  rw [List.append_nil] at hall
  refine ⟨text ++ "", ?_⟩
  unfold EventStream.toXml
  rw [EventStream.events_ofEvents, hall]
  have hfinish : w.finish = .ok () := by
    unfold Writer.finish
    rw [hopened]
    rfl
  change (w.finish >>= fun _ ↦ pure (text ++ "")) = .ok (text ++ "")
  rw [hfinish]
  rfl

end Tree

end XmlBinding

import XmlBinding.Proofs.Document.Balance
import XmlBinding.Proofs.Document.ReadBack

/-!
# What a writer certifies in the end

A writer may be given more events after it has refused some (`Writer.writeEach`). A closing that it
refuses while nothing is open leaves it as it was; one that it refuses while another element is the
innermost takes that element off the open ones, although its start tag is left without an end. At
the end no element is open, so that every start tag that was written has its end tag just if no
closing was refused in the second way (`Writer.finish_writeEach`).
-/

namespace XmlBinding

open Event

/-! ### Events that close what is open -/

namespace Tree

mutual

private theorem depthBehind_events (t : Tree) : depthBehind t.events = 0 := by
  cases t with
  | text s => rfl
  | element name attributes declarations content =>
    rw [events, depthBehind_cons, depthBehind_append, depthBehind_eventsOfAll content]
    rfl

/-- The events of trees close what they open. -/
theorem depthBehind_eventsOfAll (ts : List Tree) : depthBehind (eventsOfAll ts) = 0 := by
  cases ts with
  | nil => rfl
  | cons t rest =>
    rw [eventsOfAll, depthBehind_append, depthBehind_events t, depthBehind_eventsOfAll rest]
    rfl

end

/-- Behind the trees on the way, the events close the open elements one by one, each under its own
name. -/
def Closes : (opened : List QName) → List Event → Prop
  | [], events => ∃ trees, events = eventsOfAll trees
  | name :: outer, events =>
    ∃ trees rest, events = eventsOfAll trees ++ .closing name :: rest ∧ Closes outer rest

/-- One more tree in front of what closes the open elements. -/
theorem Closes.cons {opened : List QName} {rest : List Event} (h : Closes opened rest) (t : Tree) :
    Closes opened (t.events ++ rest) := by
  cases opened with
  | nil =>
    obtain ⟨trees, rfl⟩ := h
    exact ⟨t :: trees, rfl⟩
  | cons name outer =>
    obtain ⟨trees, behind, rfl, hbehind⟩ := h
    exact ⟨t :: trees, behind, (List.append_assoc _ _ _).symm, hbehind⟩

/-- An element that is opened in front of what closes it is a tree in front of the rest. -/
private theorem Closes.opening {opened : List QName} {name : QName} {rest : List Event}
    (h : Closes (name :: opened) rest) (attributes : List Attribute)
    (declarations : List Declaration) :
    Closes opened (.opening name attributes declarations :: rest) := by
  obtain ⟨content, behind, rfl, hbehind⟩ := h
  have helement := hbehind.cons (.element name attributes declarations content)
  rw [events, List.cons_append, List.append_assoc] at helement
  exact helement

end Tree

namespace Writer

/-- What a writer answers to an event, and what it does to the open elements. -/
inductive Answers (w : Writer) : Event → Except Error String → Writer → Prop
  /-- A start tag is written, and its element is the innermost. -/
  | opening {w' : Writer} (name : QName) (attributes : List Attribute)
      (declarations : List Declaration) (text : String) (opened : w'.opened = name :: w.opened) :
      Answers w (.opening name attributes declarations) (.ok text) w'
  | text {w' : Writer} (s text : String) (opened : w'.opened = w.opened) :
      Answers w (.text s) (.ok text) w'
  | closing {w' : Writer} (name : QName) (text : String) (opened : w.opened = name :: w'.opened) :
      Answers w (.closing name) (.ok text) w'
  | unmatched (name : QName) (opened : w.opened = []) :
      Answers w (.closing name) (.error (.structural (.unmatchedClosing name) none)) w
  /-- Another element is the innermost; it is open no longer, and nothing else changes. -/
  | mismatched (name innermost : QName) (outer : List QName)
      (opened : w.opened = innermost :: outer) (other : innermost ≠ name) :
      Answers w (.closing name) (.error (.structural (.mismatchedClosing name innermost) none))
        { w with opened := outer }

/-- This is what a writer answers to an event. -/
theorem answers_write (w : Writer) (e : Event) : w.Answers e (w.write e).1 (w.write e).2 := by
  cases e with
  | opening name attributes declarations => exact .opening name attributes declarations _ rfl
  | text s => exact .text s _ rfl
  | closing name =>
    unfold write
    cases hopened : w.opened with
    | nil => exact .unmatched name hopened
    | cons innermost outer =>
      dsimp only
      by_cases hname : innermost = name
      · rw [if_pos hname]
        refine .closing name _ ?_
        change w.opened = name :: w.opened.tail
        rw [hopened, hname, List.tail_cons]
      · rw [if_neg hname]
        exact .mismatched name innermost outer hopened hname

/-- What is written in full, so that nothing is open in the end, closes all elements that were open
before. -/
theorem closes_of_writeAll {w last : Writer} {events : List Event} {text : String}
    (h : w.writeAll events = .ok (text, last)) (hlast : last.opened = []) :
    Tree.Closes w.opened events := by
  induction events generalizing w text with
  | nil =>
    cases h
    rw [hlast]
    exact ⟨[], rfl⟩
  | cons e rest ih =>
    obtain ⟨here, more, w', hwrite, hmore, -⟩ := writeAll_cons_eq_ok h
    have hrest := ih hmore
    have hstep := w.answers_write e
    rw [hwrite] at hstep
    cases hstep with
    | opening name attributes declarations _ opened =>
      rw [opened] at hrest
      exact hrest.opening attributes declarations
    | text s _ opened =>
      rw [opened] at hrest
      exact hrest.cons (.text s)
    | closing name _ opened =>
      rw [opened]
      exact ⟨[], rest, rfl, hrest⟩

/-! ### Going on after refusals -/

/-- Write events one by one, going on behind those that are refused: every event with what came of
it, and the writer in the end. -/
def writeEach (w : Writer) : List Event → List (Event × Except Error String) × Writer
  | [] => ([], w)
  | e :: rest =>
    let (answer, w') := w.write e
    let (answers, last) := w'.writeEach rest
    ((e, answer) :: answers, last)

/-- The events that were written. -/
def accepted (answers : List (Event × Except Error String)) : List Event :=
  (answers.filter (·.2.isOk)).map (·.1)

/-- The text that was written. -/
def writtenText (answers : List (Event × Except Error String)) : String :=
  String.join (answers.map fun a ↦ a.2.toOption.getD "")

/-- The event was refused as the closing of another element than the innermost. -/
def isMismatch : Except Error String → Bool
  | .error (.structural (.mismatchedClosing _ _) _) => true
  | _ => false

/-- The number of closings that were refused while another element was the innermost. -/
def mismatches (answers : List (Event × Except Error String)) : Nat :=
  answers.countP (isMismatch ·.2)

section

variable (e : Event) (text : String) (error : Error)
  (answers : List (Event × Except Error String))

@[simp] private theorem accepted_cons_ok :
    accepted ((e, .ok text) :: answers) = e :: accepted answers := by
  simp [accepted, Except.isOk, Except.toBool]

@[simp] private theorem accepted_cons_error :
    accepted ((e, .error error) :: answers) = accepted answers := by
  simp [accepted, Except.isOk, Except.toBool]

@[simp] private theorem writtenText_cons_ok :
    writtenText ((e, .ok text) :: answers) = text ++ writtenText answers := by
  rw [writtenText, List.map_cons, String.join_cons]
  rfl

@[simp] private theorem writtenText_cons_error :
    writtenText ((e, .error error) :: answers) = writtenText answers := by
  rw [writtenText, List.map_cons, String.join_cons]
  exact String.empty_append

@[simp] private theorem mismatches_cons (answer : Except Error String) :
    mismatches ((e, answer) :: answers) = mismatches answers + (isMismatch answer).toNat := by
  cases h : isMismatch answer <;> simp [mismatches, h]

end

@[simp] private theorem writeEach_cons (w : Writer) (e : Event) (rest : List Event) :
    w.writeEach (e :: rest) =
      ((e, (w.write e).1) :: ((w.write e).2.writeEach rest).1, ((w.write e).2.writeEach rest).2) :=
  rfl

/-- The start tags that are written, less the end tags, are those of the open elements, and one more
for every closing that was refused while another element was the innermost. -/
theorem depthBehind_writeEach (w : Writer) (events : List Event) :
    depthBehind (accepted (w.writeEach events).1) + w.opened.length =
      (w.writeEach events).2.opened.length + mismatches (w.writeEach events).1 := by
  induction events generalizing w with
  | nil => simp [writeEach, accepted, mismatches]
  | cons e rest ih =>
    have hrest := ih (w.write e).2
    rw [writeEach_cons]
    have hstep := w.answers_write e
    generalize (w.write e).1 = answer at hstep ⊢
    generalize (w.write e).2 = w' at hstep hrest ⊢
    dsimp only
    cases hstep with
    | opening name attributes declarations text opened =>
      rw [opened] at hrest
      simp [isMismatch, deepening] at hrest ⊢
      omega
    | text s text opened =>
      rw [opened] at hrest
      simp [isMismatch, deepening] at hrest ⊢
      omega
    | closing name text opened =>
      rw [opened]
      simp [isMismatch, deepening] at hrest ⊢
      omega
    | unmatched name opened => simpa [isMismatch] using hrest
    | mismatched name innermost outer opened other =>
      rw [opened]
      simp [isMismatch] at hrest ⊢
      omega

/-- Unless a closing was refused while another element was the innermost, the refused events leave
no trace: what was written is what is written for the others alone. -/
theorem writeAll_accepted {w : Writer} {events : List Event}
    (h : mismatches (w.writeEach events).1 = 0) :
    w.writeAll (accepted (w.writeEach events).1) =
      .ok (writtenText (w.writeEach events).1, (w.writeEach events).2) := by
  induction events generalizing w with
  | nil => rfl
  | cons e rest ih =>
    have hstep := w.answers_write e
    cases hwrite : w.write e with
    | mk answer w' =>
      simp only [writeEach_cons, hwrite] at h hstep ⊢
      rw [mismatches_cons] at h
      have hrest := ih (w := w') (by omega)
      cases answer with
      | ok text =>
        rw [accepted_cons_ok, writtenText_cons_ok, writeAll, hwrite]
        dsimp only
        rw [hrest]
        rfl
      | error error =>
        rw [accepted_cons_error, writtenText_cons_error]
        cases hstep with
        | unmatched name opened => exact hrest
        | mismatched name innermost outer opened other => simp [isMismatch] at h

/-- Nothing is open at the end just if it is found so. -/
theorem finish_eq_ok_iff {w : Writer} : w.finish = .ok () ↔ w.opened = [] := by
  unfold finish
  cases w.opened with
  | nil => simp
  | cons innermost outer => simp

/-- Where no element is found open at the end, as many start tags are left without an end tag as
closings were refused while another element was the innermost. If there was none, the tags are those
of whole trees, and of the stream of the events that were written. A closing that is refused while
nothing is open changes nothing; any other takes the innermost element off the open ones, and that
is all. -/
theorem finish_writeEach {events : List Event}
    (h : (initial.writeEach events).2.finish = .ok ()) :
    depthBehind (accepted (initial.writeEach events).1) =
        mismatches (initial.writeEach events).1 ∧
      ((∃ trees, accepted (initial.writeEach events).1 = Tree.eventsOfAll trees) ↔
        mismatches (initial.writeEach events).1 = 0) ∧
      (mismatches (initial.writeEach events).1 = 0 →
        (EventStream.ofEvents (accepted (initial.writeEach events).1)).toXml =
          .ok (writtenText (initial.writeEach events).1)) ∧
      ∀ (w : Writer) (name : QName) (error : Error), (w.write (.closing name)).1 = .error error →
        (w.write (.closing name)).2 =
          if w.opened = [] then w else { w with opened := w.opened.tail } := by
  have hopened : (initial.writeEach events).2.opened = [] := finish_eq_ok_iff.mp h
  have hdepth := initial.depthBehind_writeEach events
  rw [hopened] at hdepth
  have hcount : depthBehind (accepted (initial.writeEach events).1) =
      mismatches (initial.writeEach events).1 := by
    simpa [initial] using hdepth
  refine ⟨hcount, ⟨?_, fun hnone ↦ ?_⟩, fun hnone ↦ ?_, fun w name error hrefused ↦ ?_⟩
  · rintro ⟨trees, htrees⟩
    rw [htrees, Tree.depthBehind_eventsOfAll] at hcount
    omega
  · exact closes_of_writeAll (writeAll_accepted hnone) hopened
  · refine EventStream.toXml_of_writeAll ?_ hopened
    rw [EventStream.events_ofEvents]
    exact writeAll_accepted hnone
  · have hstep := w.answers_write (.closing name)
    rw [hrefused] at hstep
    generalize (w.write (.closing name)).2 = w' at hstep ⊢
    cases hstep with
    | unmatched _ opened => rw [if_pos opened]
    | mismatched _ innermost outer opened other => rw [if_neg (by simp [opened]), opened]; rfl

/-- A list with an item and a note in it, with closings for which nothing is open in front of it and
behind it. -/
def overclosedEvents : List Event :=
  [.closing ⟨"", "item"⟩,
    .opening ⟨"urn:a", "list"⟩ [⟨⟨"", "id"⟩, "1"⟩] [],
    .opening ⟨"", "item"⟩ [] [], .closing ⟨"", "item"⟩,
    .opening ⟨"urn:a", "note"⟩ [] [], .text "t", .closing ⟨"urn:a", "note"⟩,
    .closing ⟨"urn:a", "list"⟩,
    .closing ⟨"urn:a", "list"⟩, .text "t"]

/-- Closings that are refused where nothing is open leave the list as it would be without them. -/
theorem finish_writeEach_overclosed :
    (initial.writeEach overclosedEvents).2.finish = .ok () ∧
      mismatches (initial.writeEach overclosedEvents).1 = 0 ∧
      (∃ trees, accepted (initial.writeEach overclosedEvents).1 = Tree.eventsOfAll trees) ∧
      (EventStream.ofEvents (accepted (initial.writeEach overclosedEvents).1)).toXml = .ok
        "<ns1:list xmlns:ns1=\"urn:a\" id=\"1\"><item/><ns1:note>t</ns1:note></ns1:list>t" := by
  have hfinish : (initial.writeEach overclosedEvents).2.finish = .ok () := by decide +kernel
  have hnone : mismatches (initial.writeEach overclosedEvents).1 = 0 := by decide +kernel
  have htext : writtenText (initial.writeEach overclosedEvents).1 =
      "<ns1:list xmlns:ns1=\"urn:a\" id=\"1\"><item/><ns1:note>t</ns1:note></ns1:list>t" := by
    decide +kernel
  obtain ⟨-, hclosed, hwritten, -⟩ := finish_writeEach hfinish
  exact ⟨hfinish, hnone, hclosed.mpr hnone, htext ▸ hwritten hnone⟩

/-- An element is found closed at the end that was only taken off the open ones, by the closing of
another one that was refused: its start tag is written, and no end tag. -/
theorem not_finish_writeEach : ¬ ∀ events : List Event,
    (initial.writeEach events).2.finish = .ok () →
    ∃ trees, accepted (initial.writeEach events).1 = Tree.eventsOfAll trees := by
  intro h
  obtain ⟨trees, htrees⟩ := h [.opening ⟨"", "a"⟩ [] [], .closing ⟨"", "b"⟩] (by decide +kernel)
  have hdepth := Tree.depthBehind_eventsOfAll trees
  rw [← htrees] at hdepth
  exact absurd hdepth (by decide +kernel)

end Writer

end XmlBinding

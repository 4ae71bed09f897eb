import XmlBinding.Conversion.Input
import XmlBinding.Proofs.Conversion.Run
import XmlBinding.Proofs.Document.Balance

/-!
# What reading takes off the events

The steps that go through events count openings and closings. On balanced events each stops just at
the end that it looks for, whatever follows; on any others it stops there or at the very end of all
events. Either way it only ever takes events off the front.
-/

namespace XmlBinding

open Event

/-! ### Elements that are passed over -/

/-- Behind balanced events, the next closing ends one element more. -/
theorem afterClosings_append {depth : Nat} {xs : List LocatedEvent}
    (h : Balanced depth (xs.map (·.event))) (name : QName) (location : Option Location)
    (rest : List LocatedEvent) :
    afterClosings (depth + 1) (xs ++ ⟨.closing name, location⟩ :: rest) = rest := by
  induction xs generalizing depth with
  | nil =>
    have hd : depth = 0 := h
    subst hd
    simp only [List.nil_append, afterClosings]
  | cons e xs ih =>
    obtain ⟨event, l⟩ := e
    simp only [List.cons_append, afterClosings]
    cases event with
    | opening name attributes declarations => exact ih h
    | text s => exact ih h
    | closing name =>
      cases depth with
      | zero => exact h.elim
      | succ depth => exact ih h

/-- The open elements that are passed over go up to the closing of the last one, or to the end of
all events. While events are taken off, the count of open elements never falls below zero. -/
theorem exists_afterClosings (depth : Nat) (events : List LocatedEvent) :
    ∃ passed, events = passed ++ afterClosings depth events ∧
      (Balanced depth (passed.map (·.event)) ∨ afterClosings depth events = []) ∧
      ∀ part rest, passed = part ++ rest → 0 ≤ depth + depthBehind (part.map (·.event)) := by
  have hnone (part rest : List LocatedEvent) (h : [] = part ++ rest) :
      0 ≤ depth + depthBehind (part.map (·.event)) := by
    rw [(List.append_eq_nil_iff.mp h.symm).1, List.map_nil, depthBehind_nil]
    omega
  induction events generalizing depth with
  | nil => exact ⟨[], by cases depth <;> rfl, .inr (by cases depth <;> rfl), hnone⟩
  | cons e events ih =>
    cases depth with
    | zero => exact ⟨[], rfl, .inl rfl, hnone⟩
    | succ depth =>
      have hnext (depth' : Nat)
          (hafter : afterClosings (depth + 1) (e :: events) = afterClosings depth' events)
          (hcount : ((depth + 1 : Nat) : Int) + e.event.deepening = depth')
          (hb : ∀ xs, Balanced depth' xs → Balanced (depth + 1) (e.event :: xs)) :
          ∃ passed, e :: events = passed ++ afterClosings (depth + 1) (e :: events) ∧
            (Balanced (depth + 1) (passed.map (·.event)) ∨
              afterClosings (depth + 1) (e :: events) = []) ∧
            ∀ part rest, passed = part ++ rest →
              0 ≤ (depth + 1 : Nat) + depthBehind (part.map (·.event)) := by
        obtain ⟨passed, hpassed, hend, hcounts⟩ := ih depth' fun part rest h ↦ by
          rw [(List.append_eq_nil_iff.mp h.symm).1, List.map_nil, depthBehind_nil]
          omega
        rw [hafter]
        refine ⟨e :: passed, by rw [List.cons_append, ← hpassed], hend.imp_left fun h ↦ hb _ h,
          fun part rest h ↦ ?_⟩
        cases part with
        | nil =>
          rw [List.map_nil, depthBehind_nil]
          omega
        | cons e' part =>
          rw [List.cons_append, List.cons.injEq] at h
          have hpart := hcounts part rest h.2
          rw [List.map_cons, depthBehind_cons, ← h.1]
          omega
      obtain ⟨event, l⟩ := e
      cases event with
      | opening name attributes declarations =>
        exact hnext (depth + 2) rfl (by simp only [deepening]; omega) fun _ h ↦ h
      | text s => exact hnext (depth + 1) rfl (by simp only [deepening]; omega) fun _ h ↦ h
      | closing name => exact hnext depth rfl (by simp only [deepening]; omega) fun _ h ↦ h

/-! ### Text -/

/-- The text of an element reaches up to the end of its content. -/
theorem textContent_append {depth : Nat} {xs : List LocatedEvent}
    (h : Balanced depth (xs.map (·.event))) (name : QName) (location : Option Location)
    (rest : List LocatedEvent) :
    textContent depth (xs ++ ⟨.closing name, location⟩ :: rest) =
      ((textContent depth xs).1, ⟨.closing name, location⟩ :: rest) := by
  induction xs generalizing depth with
  | nil =>
    have hd : depth = 0 := h
    subst hd
    rfl
  | cons e xs ih =>
    obtain ⟨event, l⟩ := e
    rw [List.cons_append]
    cases event with
    | opening name attributes declarations =>
      simp only [textContent]
      exact ih h
    | text s =>
      cases depth with
      | zero =>
        simp only [textContent]
        rw [@ih 0 h]
      | succ depth =>
        simp only [textContent]
        exact ih h
    | closing name =>
      cases depth with
      | zero => exact h.elim
      | succ depth =>
        simp only [textContent]
        exact ih h

/-- The text of an element is a matter of the events alone, wherever they began. -/
theorem textContent_congr {depth : Nat} {xs ys : List LocatedEvent}
    (h : xs.map (·.event) = ys.map (·.event)) :
    (textContent depth xs).1 = (textContent depth ys).1 := by
  induction xs generalizing depth ys with
  | nil => rw [List.map_eq_nil_iff.mp h.symm]
  | cons e xs ih =>
    obtain ⟨event, l⟩ := e
    cases ys with
    | nil => cases h
    | cons e' ys =>
      obtain ⟨event', l'⟩ := e'
      rw [List.map_cons, List.map_cons, List.cons.injEq] at h
      obtain ⟨rfl, h⟩ := h
      cases event with
      | opening name attributes declarations =>
        simp only [textContent]
        exact ih h
      | text s =>
        cases depth with
        | zero =>
          simp only [textContent]
          rw [ih h]
        | succ depth =>
          simp only [textContent]
          exact ih h
      | closing name =>
        cases depth with
        | zero => rfl
        | succ depth =>
          simp only [textContent]
          exact ih h

/-- Text is read up to the closing of the element, or to the end of all events. -/
theorem exists_textContent (depth : Nat) (events : List LocatedEvent) :
    ∃ passed, events = passed ++ (textContent depth events).2 ∧
      (Balanced depth (passed.map (·.event)) ∨ (textContent depth events).2 = []) := by
  induction events generalizing depth with
  | nil => exact ⟨[], rfl, .inr rfl⟩
  | cons e events ih =>
    have hnext (depth' : Nat)
        (hafter : (textContent depth (e :: events)).2 = (textContent depth' events).2)
        (hb : ∀ xs, Balanced depth' xs → Balanced depth (e.event :: xs)) :
        ∃ passed, e :: events = passed ++ (textContent depth (e :: events)).2 ∧
          (Balanced depth (passed.map (·.event)) ∨ (textContent depth (e :: events)).2 = []) := by
      obtain ⟨passed, hpassed, hend⟩ := ih depth'
      rw [hafter]
      exact ⟨e :: passed, by rw [List.cons_append, ← hpassed], hend.imp_left fun h ↦ hb _ h⟩
    obtain ⟨event, l⟩ := e
    cases event with
    | opening name attributes declarations => exact hnext (depth + 1) rfl fun _ h ↦ h
    | text s =>
      cases depth with
      | zero => exact hnext 0 rfl fun _ h ↦ h
      | succ depth => exact hnext (depth + 1) rfl fun _ h ↦ h
    | closing name =>
      cases depth with
      | zero => exact ⟨[], rfl, .inl rfl⟩
      | succ depth => exact hnext depth rfl fun _ h ↦ h

/-! ### Steps -/

namespace Reading

variable {e : CurrentElement}

/-- Noting a problem goes on with the same events. -/
theorem gives_report (problem : Problem) (c : Cursor) :
    ∃ diagnostics, Reading.Gives (report problem) e c () ⟨c.rest, diagnostics⟩ := ⟨_, rfl⟩

/-- The next child is the next event that is not text, if that opens an element. -/
private theorem gives_nextChildFrom (events : List LocatedEvent) (c : Cursor) :
    ∃ diagnostics, Reading.Gives (nextChildFrom events) e c
      ((events.dropWhile (·.isText)).head?.bind (·.openedName?))
      ⟨events.dropWhile (·.isText), diagnostics⟩ := by
  induction events generalizing c with
  | nil => exact ⟨c.diagnostics, rfl⟩
  | cons event rest ih =>
    obtain ⟨event, location⟩ := event
    cases event with
    | opening name attributes declarations => exact ⟨c.diagnostics, rfl⟩
    | closing name => exact ⟨c.diagnostics, rfl⟩
    | text s =>
      -- Whether the text is noted or not, the search goes on behind it.
      have hnoted : ∃ diagnostics, Reading.Gives
          (if Text.trimmed s ≠ "" then report (.strayText (Text.trimmed s)) else pure ()) e
          ⟨⟨.text s, location⟩ :: rest, c.diagnostics⟩ ()
          ⟨⟨.text s, location⟩ :: rest, diagnostics⟩ := by
        split
        · exact gives_report _ _
        · exact ⟨_, gives_pure.mpr ⟨rfl, rfl⟩⟩
      obtain ⟨noted, hnoted⟩ := hnoted
      obtain ⟨diagnostics, hrest⟩ := ih ⟨⟨.text s, location⟩ :: rest, noted⟩
      refine ⟨diagnostics, gives_bind.mpr ⟨(), _, rfl, ?_⟩⟩
      have hboth : Reading.Gives ((if Text.trimmed s ≠ "" then
          report (.strayText (Text.trimmed s)) else pure ()) >>= fun _ ↦ nextChildFrom rest) e
          ⟨⟨.text s, location⟩ :: rest, c.diagnostics⟩ _ _ :=
        gives_bind.mpr ⟨(), _, hnoted, hrest⟩
      by_cases hblank : Text.trimmed s ≠ ""
      · simp only [if_pos hblank] at hboth ⊢
        exact hboth
      · simp only [if_neg hblank] at hboth ⊢
        exact hboth

/-- The next child is the next event that is not text, if that opens an element. -/
theorem gives_nextChild? (c : Cursor) :
    ∃ diagnostics, Reading.Gives nextChild? e c
      ((c.rest.dropWhile (·.isText)).head?.bind (·.openedName?))
      ⟨c.rest.dropWhile (·.isText), diagnostics⟩ := by
  obtain ⟨diagnostics, h⟩ := @gives_nextChildFrom e c.rest c
  exact ⟨diagnostics, gives_bind.mpr ⟨c, c, rfl, h⟩⟩

/-- Reading the text of an element always succeeds. -/
theorem gives_text (c : Cursor) :
    ∃ diagnostics, Reading.Gives text e c (textContent 0 c.rest).1
      ⟨(textContent 0 c.rest).2, diagnostics⟩ := by
  obtain ⟨events, met⟩ := c
  unfold text
  -- A first child element is noted, which leaves the events at hand to be read.
  cases hfirst : events.dropWhile (·.isText) with
  | nil =>
    refine ⟨met, gives_bind.mpr ⟨_, _, rfl, ?_⟩⟩
    simp only [hfirst]
    rfl
  | cons event rest =>
    cases hname : event.openedName? with
    | none =>
      refine ⟨met, gives_bind.mpr ⟨_, _, rfl, ?_⟩⟩
      simp only [hfirst, hname]
      rfl
    | some name =>
      obtain ⟨diagnostics, hnoted⟩ := @gives_report e (.elementInText name) ⟨event :: rest, met⟩
      refine ⟨diagnostics, gives_bind.mpr ⟨_, _, rfl, ?_⟩⟩
      simp only [hfirst, hname]
      exact gives_bind.mpr ⟨(), _, hnoted, rfl⟩

/-- An element is left just behind its closing; without one, everything is taken and that is an
error of structure. -/
theorem leaveFrom_cases (depth : Nat) (events : List LocatedEvent) (c : Cursor) :
    (∃ passed name location rest diagnostics,
      events = passed ++ ⟨.closing name, location⟩ :: rest ∧
        Balanced depth (passed.map (·.event)) ∧
        Reading.Gives (leaveFrom depth events) e c () ⟨rest, diagnostics⟩) ∨
    ∃ location diagnostics, ((leaveFrom depth events).run e).run.run c =
      (.error (.structural .unexpectedEnd location), ⟨[], diagnostics⟩) := by
  induction events generalizing depth c with
  | nil => exact .inr ⟨_, _, rfl⟩
  | cons event events ih =>
    obtain ⟨event, l⟩ := event
    -- Going on with one event less is as it was before, with that event put in front again.
    have hnext (depth' : Nat) (c' : Cursor)
        (hrun : ((leaveFrom depth (⟨event, l⟩ :: events)).run e).run.run c =
          ((leaveFrom depth' events).run e).run.run c')
        (hb : ∀ xs, Balanced depth' xs → Balanced depth (event :: xs)) :
        (∃ passed name location rest diagnostics,
          ⟨event, l⟩ :: events = passed ++ ⟨.closing name, location⟩ :: rest ∧
            Balanced depth (passed.map (·.event)) ∧
            Reading.Gives (leaveFrom depth (⟨event, l⟩ :: events)) e c () ⟨rest, diagnostics⟩) ∨
        ∃ location diagnostics, ((leaveFrom depth (⟨event, l⟩ :: events)).run e).run.run c =
          (.error (.structural .unexpectedEnd location), ⟨[], diagnostics⟩) := by
      rcases ih depth' c' with ⟨passed, name, location, rest, met, rfl, hbalanced, hgives⟩ |
        ⟨location, met, herror⟩
      · exact .inl ⟨⟨event, l⟩ :: passed, name, location, rest, met, rfl, hb _ hbalanced,
          hrun.trans hgives⟩
      · exact .inr ⟨location, met, hrun.trans herror⟩
    cases event with
    | opening name attributes declarations =>
      cases depth with
      | zero => exact hnext 1 _ rfl fun _ h ↦ h
      | succ depth => exact hnext (depth + 2) c rfl fun _ h ↦ h
    | text s => exact hnext depth c (by cases depth <;> rfl) fun _ h ↦ h
    | closing name =>
      cases depth with
      | zero => exact .inl ⟨[], name, l, events, c.diagnostics, rfl, rfl, rfl⟩
      | succ depth => exact hnext depth c rfl fun _ h ↦ h

end Reading

end XmlBinding

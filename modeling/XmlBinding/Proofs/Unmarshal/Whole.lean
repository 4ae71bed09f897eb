import XmlBinding.Proofs.Unmarshal.Passing

/-!
# Steps on whole elements

Where the events ahead are those of whole elements, what a step does to them can be said without a
word on where they began or what comes behind them: it takes just such events and gives a value
(`Reading.Consumes`), or it takes the content of the element at hand and stops in front of its end
(`Reading.Empties`).
-/

namespace XmlBinding

open Event

/-- The call gives the value and takes just such events off the front, whatever it notes. -/
def Scanning.Consumes {α : Type} (m : Scanning α) (events : List Event) (a : α) : Prop :=
  ∀ xs rest diagnostics, xs.map (·.event) = events → ∃ diagnostics',
    XmlBinding.Gives m ⟨xs ++ rest, diagnostics⟩ a ⟨rest, diagnostics'⟩

namespace Reading

variable {α β : Type} {attributes : List Attribute} {scope : NamespaceScope}
  {events content : List Event}

/-! ### Steps on given events -/

/-- Within an element of such attributes and declarations, the step gives the value and takes just
such events off the front, whatever it notes. -/
def Consumes (m : Reading α) (attributes : List Attribute) (scope : NamespaceScope)
    (events : List Event) (a : α) : Prop :=
  ∀ location xs rest diagnostics, xs.map (·.event) = events → ∃ diagnostics',
    Reading.Gives m ⟨attributes, location, scope⟩ ⟨xs ++ rest, diagnostics⟩ a ⟨rest, diagnostics'⟩

/-- The step gives the value and takes just such events, which are in front of a closing. -/
def Empties (m : Reading α) (attributes : List Attribute) (scope : NamespaceScope)
    (content : List Event) (a : α) : Prop :=
  ∀ location xs closing l rest diagnostics, xs.map (·.event) = content → ∃ diagnostics',
    Reading.Gives m ⟨attributes, location, scope⟩
      ⟨xs ++ ⟨.closing closing, l⟩ :: rest, diagnostics⟩ a
      ⟨⟨.closing closing, l⟩ :: rest, diagnostics'⟩

/-- A step that takes no event. -/
theorem consumes_nil {m : Reading α} {a : α}
    (h : ∀ location c, ∃ diagnostics,
      Reading.Gives m ⟨attributes, location, scope⟩ c a ⟨c.rest, diagnostics⟩) :
    Consumes m attributes scope [] a := by
  intro location xs rest diagnostics hxs
  rw [List.map_eq_nil_iff.mp hxs]
  exact h location ⟨rest, diagnostics⟩

/-- Returning a value. -/
theorem consumes_pure (a : α) : Consumes (pure a) attributes scope [] a :=
  consumes_nil fun _ c ↦ ⟨c.diagnostics, rfl⟩

/-- Noting a problem. -/
theorem consumes_report (problem : Problem) : Consumes (report problem) attributes scope [] () :=
  consumes_nil fun _ _ ↦ ⟨_, rfl⟩

/-- Asking for an attribute. -/
theorem consumes_attribute? (name : QName) :
    Consumes (attribute? name) attributes scope [] (XmlBinding.attribute? attributes name) :=
  consumes_nil fun _ c ↦ ⟨c.diagnostics, rfl⟩

/-- What is done with the current element may depend on where it began. -/
theorem consumes_current {f : CurrentElement → Reading α} {a : α}
    (h : ∀ location, Consumes (f ⟨attributes, location, scope⟩) attributes scope events a) :
    Consumes (current >>= f) attributes scope events a := by
  intro location xs rest diagnostics hxs
  obtain ⟨diagnostics', hg⟩ := h location location xs rest diagnostics hxs
  exact ⟨diagnostics', gives_bind.mpr ⟨_, _, rfl, hg⟩⟩

/-- Two steps take what the first takes and then what the second does. -/
theorem Consumes.bind {m : Reading α} {f : α → Reading β} {a : α} {b : β} {more : List Event}
    (hm : Consumes m attributes scope events a) (hf : Consumes (f a) attributes scope more b) :
    Consumes (m >>= f) attributes scope (events ++ more) b := by
  intro location xs rest diagnostics hxs
  obtain ⟨first, second, rfl, hfirst, hsecond⟩ := List.map_eq_append_iff.mp hxs
  obtain ⟨noted, hg⟩ := hm location first (second ++ rest) diagnostics hfirst
  obtain ⟨diagnostics', hg'⟩ := hf location second rest noted hsecond
  rw [List.append_assoc]
  exact ⟨diagnostics', gives_bind.mpr ⟨a, _, hg, hg'⟩⟩

/-- A step that takes events, and one that takes nothing. -/
theorem Consumes.bind_nil {m : Reading α} {f : α → Reading β} {a : α} {b : β}
    (hm : Consumes m attributes scope events a) (hf : Consumes (f a) attributes scope [] b) :
    Consumes (m >>= f) attributes scope events b := by
  have hall := hm.bind hf
  rwa [List.append_nil] at hall

/-- A step that takes nothing, and one that takes content. -/
theorem Consumes.empties {m : Reading α} {f : α → Reading β} {a : α} {b : β}
    (hm : Consumes m attributes scope [] a) (hf : Empties (f a) attributes scope content b) :
    Empties (m >>= f) attributes scope content b := by
  intro location xs closing l rest diagnostics hxs
  obtain ⟨noted, hg⟩ := hm location [] (xs ++ ⟨.closing closing, l⟩ :: rest) diagnostics rfl
  obtain ⟨diagnostics', hg'⟩ := hf location xs closing l rest noted hxs
  exact ⟨diagnostics', gives_bind.mpr ⟨a, _, hg, hg'⟩⟩

/-- A step that takes content, and one that takes nothing. -/
theorem Empties.bind {m : Reading α} {f : α → Reading β} {a : α} {b : β}
    (hm : Empties m attributes scope content a) (hf : Consumes (f a) attributes scope [] b) :
    Empties (m >>= f) attributes scope content b := by
  intro location xs closing l rest diagnostics hxs
  obtain ⟨noted, hg⟩ := hm location xs closing l rest diagnostics hxs
  obtain ⟨diagnostics', hg'⟩ := hf location [] (⟨.closing closing, l⟩ :: rest) noted rfl
  exact ⟨diagnostics', gives_bind.mpr ⟨a, _, hg, hg'⟩⟩

/-- A row of steps that take nothing. -/
theorem consumes_mapM {ι : Type} {f : ι → Reading α} {g : ι → α} {xs : List ι}
    (h : ∀ x, Consumes (f x) attributes scope [] (g x)) :
    Consumes (xs.mapM f) attributes scope [] (xs.map g) := by
  induction xs with
  | nil =>
    rw [List.mapM_nil]
    exact consumes_pure []
  | cons x xs ih =>
    rw [List.mapM_cons]
    exact (h x).bind (ih.bind (consumes_pure _))

/-! ### Content -/

/-- The text of content. -/
def contentText (content : List Event) : String := (textContent 0 (content.map (⟨·, none⟩))).1

/-- The text of an element is that of its content. -/
theorem empties_text (h : IsContent content) :
    Empties text attributes scope content (contentText content) := by
  intro location xs closing l rest diagnostics hxs
  obtain ⟨diagnostics', hg⟩ := @gives_text ⟨attributes, location, scope⟩
    ⟨xs ++ ⟨.closing closing, l⟩ :: rest, diagnostics⟩
  rw [textContent_append (hxs ▸ h)] at hg
  have htext : (textContent 0 xs).1 = contentText content := by
    refine textContent_congr ?_
    rw [hxs, List.map_map]
    exact (List.map_id content).symm
  rw [htext] at hg
  exact ⟨diagnostics', hg⟩

/-- Events that close an element, by the events before the closing and behind it. -/
theorem exists_of_map_closing {xs : List LocatedEvent} {content more : List Event} {closing : QName}
    (h : xs.map (·.event) = content ++ .closing closing :: more) :
    ∃ ys l zs, xs = ys ++ ⟨.closing closing, l⟩ :: zs ∧ ys.map (·.event) = content ∧
      zs.map (·.event) = more := by
  obtain ⟨ys, back, rfl, hys, hback⟩ := List.map_eq_append_iff.mp h
  obtain ⟨⟨event, l⟩, zs, rfl, hevent, hzs⟩ := List.map_eq_cons_iff.mp hback
  cases hevent
  exact ⟨ys, l, zs, rfl, hys, hzs⟩

/-- A child element is passed over with all that is in it. -/
theorem consumes_skipElement (h : IsElement events) :
    Consumes skipElement attributes scope events () := by
  intro location xs rest diagnostics hxs
  obtain ⟨name, own, declarations, content, closing, rfl, hcontent⟩ := isElement_iff.mp h
  obtain ⟨⟨event, l⟩, behind, rfl, hevent, hbehind⟩ := List.map_eq_cons_iff.mp hxs
  obtain ⟨ys, l', zs, rfl, hys, hzs⟩ := exists_of_map_closing hbehind
  cases hevent
  cases List.map_eq_nil_iff.mp hzs
  have hskip : afterElement (⟨.opening name own declarations, l⟩ ::
      (ys ++ ⟨.closing closing, l'⟩ :: rest)) = rest :=
    afterClosings_append (hys ▸ hcontent) closing l' rest
  have hg : Reading.Gives skipElement ⟨attributes, location, scope⟩
      ⟨⟨.opening name own declarations, l⟩ :: (ys ++ ⟨.closing closing, l'⟩ :: rest), diagnostics⟩
      () ⟨afterElement (⟨.opening name own declarations, l⟩ ::
        (ys ++ ⟨.closing closing, l'⟩ :: rest)), diagnostics⟩ := rfl
  rw [hskip] at hg
  rw [List.cons_append, List.append_assoc]
  exact ⟨diagnostics, hg⟩

/-- A child element is passed over after a remark. -/
theorem consumes_skipped {remark : Reading Unit} (hr : Consumes remark attributes scope [] ())
    (h : IsElement events) (a : α) :
    Consumes (do
      remark
      skipElement
      return a) attributes scope events a := by
  refine hr.bind ?_
  exact (consumes_skipElement h).bind_nil (consumes_pure a)

/-- Elements that are left over in the element at hand are left behind with it. -/
private theorem gives_leaveFrom {depth : Nat} {xs : List LocatedEvent}
    (h : Balanced depth (xs.map (·.event))) (e : CurrentElement) (closing : QName)
    (l : Option Location) (rest : List LocatedEvent) (c : Cursor) :
    ∃ diagnostics, Reading.Gives (leaveFrom depth (xs ++ ⟨.closing closing, l⟩ :: rest)) e c ()
      ⟨rest, diagnostics⟩ := by
  induction xs generalizing depth c with
  | nil =>
    have hd : depth = 0 := h
    subst hd
    exact ⟨c.diagnostics, rfl⟩
  | cons e xs ih =>
    obtain ⟨event, l'⟩ := e
    cases event with
    | opening name attributes declarations =>
      cases depth with
      | zero =>
        obtain ⟨diagnostics, hg⟩ := @ih 1 h ⟨_, _⟩
        exact ⟨diagnostics, hg⟩
      | succ depth => exact ih h c
    | text s =>
      cases depth with
      | zero => exact @ih 0 h c
      | succ depth => exact @ih (depth + 1) h c
    | closing name =>
      cases depth with
      | zero => exact h.elim
      | succ depth => exact ih h c

/-- The element at hand is left behind its content and its end. -/
theorem consumes_leave (h : IsContent content) (closing : QName) :
    Consumes leave attributes scope (content ++ [.closing closing]) () := by
  intro location xs rest diagnostics hxs
  obtain ⟨ys, l, zs, rfl, hys, hzs⟩ := exists_of_map_closing hxs
  cases List.map_eq_nil_iff.mp hzs
  rw [List.append_assoc]
  exact gives_leaveFrom (hys ▸ h) ⟨attributes, location, scope⟩ closing l rest _

private theorem run_nextChild? (e : CurrentElement) (c : Cursor) :
    (nextChild?.run e).run.run c = ((nextChildFrom c.rest).run e).run.run c := by
  unfold nextChild?
  rw [ReaderT.run_bind, run_bind]
  rfl

/-- The search for the next child goes on from its own events, wherever the cursor stood. -/
private theorem run_nextChildFrom (e : CurrentElement) (rest : List LocatedEvent) (c : Cursor) :
    ((nextChildFrom rest).run e).run.run c =
      ((nextChildFrom rest).run e).run.run ⟨rest, c.diagnostics⟩ := by
  cases rest <;> rfl

private theorem run_nextChild?_text (e : CurrentElement) (s : String) (l : Option Location)
    (rest : List LocatedEvent) (diagnostics : List Diagnostic) :
    ∃ diagnostics', (nextChild?.run e).run.run ⟨⟨.text s, l⟩ :: rest, diagnostics⟩ =
      (nextChild?.run e).run.run ⟨rest, diagnostics'⟩ := by
  have hstep : ∃ c : Cursor,
      ((nextChildFrom (⟨.text s, l⟩ :: rest)).run e).run.run ⟨⟨.text s, l⟩ :: rest, diagnostics⟩ =
        ((nextChildFrom rest).run e).run.run c := by
    rw [nextChildFrom]
    dsimp only
    by_cases hblank : Text.trimmed s ≠ ""
    · simp only [if_pos hblank]
      exact ⟨⟨⟨.text s, l⟩ :: rest,
        diagnostics ++ [⟨.strayText (Text.trimmed s), e.location.or l⟩]⟩, rfl⟩
    · simp only [if_neg hblank]
      exact ⟨⟨⟨.text s, l⟩ :: rest, diagnostics⟩, rfl⟩
  obtain ⟨c, hc⟩ := hstep
  refine ⟨c.diagnostics, ?_⟩
  rw [run_nextChild?, hc, run_nextChildFrom, run_nextChild?]

/-- The element at hand is left behind its end, where its content was read. -/
theorem Empties.leave {m : Reading α} {a : α} (h : Empties m attributes scope content a)
    (closing : QName) : Consumes (do
      let a ← m
      leave
      return a) attributes scope (content ++ [.closing closing]) a := by
  intro location xs rest diagnostics hxs
  obtain ⟨ys, l, zs, rfl, hys, hzs⟩ := exists_of_map_closing hxs
  cases List.map_eq_nil_iff.mp hzs
  rw [List.append_assoc]
  obtain ⟨diagnostics', hg⟩ := h location ys closing l rest diagnostics hys
  exact ⟨diagnostics', gives_bind.mpr ⟨a, _, hg, gives_bind.mpr ⟨(), _, rfl,
    gives_pure.mpr ⟨rfl, rfl⟩⟩⟩⟩

/-- Text between child elements does not count as one of them. -/
theorem run_gatherUpTo_text (handle : QName → Reading (List α)) (bound : Nat) (e : CurrentElement)
    (s : String) (l : Option Location) (rest : List LocatedEvent) (diagnostics : List Diagnostic) :
    ∃ diagnostics', ((gatherUpTo handle (bound + 1)).run e).run.run
        ⟨⟨.text s, l⟩ :: rest, diagnostics⟩ =
      ((gatherUpTo handle (bound + 1)).run e).run.run ⟨rest, diagnostics'⟩ := by
  obtain ⟨diagnostics', h⟩ := run_nextChild?_text e s l rest diagnostics
  refine ⟨diagnostics', ?_⟩
  unfold gatherUpTo
  rw [ReaderT.run_bind, run_bind, run_bind, h]

end Reading

end XmlBinding

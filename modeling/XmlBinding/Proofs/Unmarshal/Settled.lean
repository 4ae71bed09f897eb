import Mathlib.Data.List.Forall2
import XmlBinding.Proofs.Unmarshal.Whole

/-!
# Steps that whole elements settle

A strict call may fail in the midst of an element. Whether it does is settled by the events of the
element, like the value that it gives if it does not: `Reading.Settles` is `Reading.Consumes` with a
result that may be missing, and `Reading.SettlesWithin` is `Reading.Empties` with one. Results are
put together as the steps are: a row of child elements gives what each of them gives by itself, and
fails if one of them does (`Reading.settlesWithin_gather`).
-/

namespace XmlBinding

open Event

/-- The call fails on such events, whatever comes behind them. -/
def Scanning.Fails {α : Type} (m : Scanning α) (events : List Event) : Prop :=
  ∀ xs rest diagnostics a c, xs.map (·.event) = events →
    ¬ XmlBinding.Gives m ⟨xs ++ rest, diagnostics⟩ a c

/-- The call gives the result and takes just such events, or fails on them if there is none. -/
def Scanning.Settles {α : Type} (m : Scanning α) (events : List Event) : Option α → Prop
  | some a => m.Consumes events a
  | none => m.Fails events

namespace Reading

variable {α β : Type} {attributes : List Attribute} {scope : NamespaceScope}
  {events content : List Event}

/-! ### Failures -/

/-- Within an element of such attributes and declarations, the step fails on such events. -/
def Fails (m : Reading α) (attributes : List Attribute) (scope : NamespaceScope)
    (events : List Event) : Prop :=
  ∀ location xs rest diagnostics a c, xs.map (·.event) = events →
    ¬ Reading.Gives m ⟨attributes, location, scope⟩ ⟨xs ++ rest, diagnostics⟩ a c

/-- The step fails on such events in front of a closing. -/
def FailsWithin (m : Reading α) (attributes : List Attribute) (scope : NamespaceScope)
    (content : List Event) : Prop :=
  ∀ location xs closing l rest diagnostics a c, xs.map (·.event) = content →
    ¬ Reading.Gives m ⟨attributes, location, scope⟩
      ⟨xs ++ ⟨.closing closing, l⟩ :: rest, diagnostics⟩ a c

/-- The step gives the result and takes just such events, or fails on them if there is none. -/
def Settles (m : Reading α) (attributes : List Attribute) (scope : NamespaceScope)
    (events : List Event) : Option α → Prop
  | some a => Consumes m attributes scope events a
  | none => Fails m attributes scope events

/-- The step gives the result and takes just such events in front of a closing, or fails on them if
there is none. -/
def SettlesWithin (m : Reading α) (attributes : List Attribute) (scope : NamespaceScope)
    (content : List Event) : Option α → Prop
  | some a => Empties m attributes scope content a
  | none => FailsWithin m attributes scope content

/-- A step that gives one result gives no other. -/
theorem eq_of_gives {m : Reading α} {e : CurrentElement} {c c₁ c₂ : Cursor} {a b : α}
    (h : Reading.Gives m e c a c₁) (h' : Reading.Gives m e c b c₂) : b = a ∧ c₂ = c₁ := by
  have hrun : ((Except.ok a : Except Error α), c₁) = (.ok b, c₂) := h.symm.trans h'
  cases hrun
  exact ⟨rfl, rfl⟩

/-- An error that is thrown is a failure on all events. -/
theorem fails_throw (e : Error) : Fails (throw e : Reading α) attributes scope events :=
  fun _ _ _ _ _ _ _ ↦ not_gives_throw

/-! ### Two steps -/

/-- Two steps take what the first takes and then what the second does. -/
theorem Settles.bind {m : Reading α} {f : α → Reading β} {r : Option α} {g : α → Option β}
    {more : List Event} (hm : Settles m attributes scope events r)
    (hf : ∀ a ∈ r, Settles (f a) attributes scope more (g a)) :
    Settles (m >>= f) attributes scope (events ++ more) (r.bind g) := by
  cases r with
  | none =>
    intro location xs rest diagnostics b c hxs hg
    obtain ⟨first, second, rfl, hfirst, -⟩ := List.map_eq_append_iff.mp hxs
    obtain ⟨a, c₁, hg, -⟩ := gives_bind.mp hg
    rw [List.append_assoc] at hg
    exact hm location first _ diagnostics a c₁ hfirst hg
  | some a =>
    have hsecond := hf a rfl
    rw [Option.bind_some]
    cases hb : g a with
    | some b =>
      rw [hb] at hsecond
      exact Consumes.bind hm hsecond
    | none =>
      rw [hb] at hsecond
      intro location xs rest diagnostics b c hxs hg
      obtain ⟨first, second, rfl, hfirst, hmore⟩ := List.map_eq_append_iff.mp hxs
      obtain ⟨noted, hfirst⟩ := hm location first (second ++ rest) diagnostics hfirst
      rw [List.append_assoc] at hg
      obtain ⟨a', c₁, hg, hg'⟩ := gives_bind.mp hg
      obtain ⟨rfl, rfl⟩ := eq_of_gives hfirst hg
      exact hsecond location second rest noted b c hmore hg'

/-- A step that takes events, and one that takes nothing. -/
theorem Settles.bind_nil {m : Reading α} {f : α → Reading β} {r : Option α} {g : α → Option β}
    (hm : Settles m attributes scope events r)
    (hf : ∀ a ∈ r, Settles (f a) attributes scope [] (g a)) :
    Settles (m >>= f) attributes scope events (r.bind g) := by
  have hall := hm.bind hf
  rwa [List.append_nil] at hall

/-- A step that takes events, and one that takes content behind them. -/
theorem Settles.within {m : Reading α} {f : α → Reading β} {r : Option α} {g : α → Option β}
    (hm : Settles m attributes scope events r)
    (hf : ∀ a ∈ r, SettlesWithin (f a) attributes scope content (g a)) :
    SettlesWithin (m >>= f) attributes scope (events ++ content) (r.bind g) := by
  cases r with
  | none =>
    intro location xs closing l rest diagnostics b c hxs hg
    obtain ⟨first, second, rfl, hfirst, -⟩ := List.map_eq_append_iff.mp hxs
    obtain ⟨a, c₁, hg, -⟩ := gives_bind.mp hg
    rw [List.append_assoc] at hg
    exact hm location first _ diagnostics a c₁ hfirst hg
  | some a =>
    have hsecond := hf a rfl
    rw [Option.bind_some]
    cases hb : g a with
    | some b =>
      rw [hb] at hsecond
      intro location xs closing l rest diagnostics hxs
      obtain ⟨first, second, rfl, hfirst, hcontent⟩ := List.map_eq_append_iff.mp hxs
      obtain ⟨noted, hg⟩ := hm location first (second ++ ⟨.closing closing, l⟩ :: rest) diagnostics
        hfirst
      obtain ⟨diagnostics', hg'⟩ := hsecond location second closing l rest noted hcontent
      rw [List.append_assoc]
      exact ⟨diagnostics', gives_bind.mpr ⟨a, _, hg, hg'⟩⟩
    | none =>
      rw [hb] at hsecond
      intro location xs closing l rest diagnostics b c hxs hg
      obtain ⟨first, second, rfl, hfirst, hcontent⟩ := List.map_eq_append_iff.mp hxs
      obtain ⟨noted, hfirst⟩ := hm location first (second ++ ⟨.closing closing, l⟩ :: rest)
        diagnostics hfirst
      rw [List.append_assoc] at hg
      obtain ⟨a', c₁, hg, hg'⟩ := gives_bind.mp hg
      obtain ⟨rfl, rfl⟩ := eq_of_gives hfirst hg
      exact hsecond location second closing l rest noted b c hcontent hg'

/-- A step that takes nothing, and one that takes content. -/
theorem Settles.within_nil {m : Reading α} {f : α → Reading β} {r : Option α} {g : α → Option β}
    (hm : Settles m attributes scope [] r)
    (hf : ∀ a ∈ r, SettlesWithin (f a) attributes scope content (g a)) :
    SettlesWithin (m >>= f) attributes scope content (r.bind g) := hm.within hf

/-- A step that takes content, and one that takes nothing. -/
theorem SettlesWithin.bind {m : Reading α} {f : α → Reading β} {r : Option α} {g : α → Option β}
    (hm : SettlesWithin m attributes scope content r)
    (hf : ∀ a ∈ r, Settles (f a) attributes scope [] (g a)) :
    SettlesWithin (m >>= f) attributes scope content (r.bind g) := by
  cases r with
  | none =>
    intro location xs closing l rest diagnostics b c hxs hg
    obtain ⟨a, c₁, hg, -⟩ := gives_bind.mp hg
    exact hm location xs closing l rest diagnostics a c₁ hxs hg
  | some a =>
    have hsecond := hf a rfl
    rw [Option.bind_some]
    cases hb : g a with
    | some b =>
      rw [hb] at hsecond
      exact Empties.bind hm hsecond
    | none =>
      rw [hb] at hsecond
      intro location xs closing l rest diagnostics b c hxs hg
      obtain ⟨noted, hfirst⟩ := hm location xs closing l rest diagnostics hxs
      obtain ⟨a', c₁, hg, hg'⟩ := gives_bind.mp hg
      obtain ⟨rfl, rfl⟩ := eq_of_gives hfirst hg
      exact hsecond location [] (⟨.closing closing, l⟩ :: rest) noted b c rfl hg'

/-- A step that takes nothing and does not fail, and one that takes events. -/
theorem Consumes.settles {m : Reading α} {f : α → Reading β} {a : α} {r : Option β}
    (hm : Consumes m attributes scope [] a) (hf : Settles (f a) attributes scope events r) :
    Settles (m >>= f) attributes scope events r := by
  refine Settles.bind (r := some a) (g := fun _ ↦ r) hm ?_
  rintro _ ⟨⟩
  exact hf

/-- A step that takes nothing and does not fail, and one that takes content. -/
theorem Consumes.settlesWithin {m : Reading α} {f : α → Reading β} {a : α} {r : Option β}
    (hm : Consumes m attributes scope [] a) (hf : SettlesWithin (f a) attributes scope content r) :
    SettlesWithin (m >>= f) attributes scope content r := by
  refine Settles.within_nil (r := some a) (g := fun _ ↦ r) hm ?_
  rintro _ ⟨⟩
  exact hf

/-- Where a step fails, nothing comes of what was to come behind it. -/
theorem Fails.bind {m : Reading α} {f : α → Reading β} (hm : Fails m attributes scope events) :
    Fails (m >>= f) attributes scope events :=
  Settles.bind_nil (r := none) (g := fun _ ↦ none) hm fun _ h ↦ nomatch h

/-- What is done with the current element may depend on where it began. -/
theorem settles_current {f : CurrentElement → Reading α} {r : Option α}
    (h : ∀ location, Settles (f ⟨attributes, location, scope⟩) attributes scope events r) :
    Settles (current >>= f) attributes scope events r := by
  cases r with
  | some a => exact consumes_current h
  | none =>
    intro location xs rest diagnostics a c hxs hg
    obtain ⟨e, c₁, hcurrent, hg⟩ := gives_bind.mp hg
    cases hcurrent
    exact h location location xs rest diagnostics a c hxs hg

/-- A row of steps that take nothing. -/
theorem settles_mapM {ι : Type} {f : ι → Reading α} {g : ι → Option α} {xs : List ι}
    (h : ∀ x, Settles (f x) attributes scope [] (g x)) :
    Settles (xs.mapM f) attributes scope [] (xs.mapM g) := by
  induction xs with
  | nil =>
    rw [List.mapM_nil]
    exact consumes_pure []
  | cons x xs ih =>
    rw [List.mapM_cons, List.mapM_cons]
    refine (h x).bind_nil fun a _ ↦ ?_
    refine ih.bind_nil fun as _ ↦ ?_
    exact consumes_pure (a :: as)

/-- The element at hand is left behind its end, where its content was read. -/
theorem SettlesWithin.leave {m : Reading α} {r : Option α}
    (h : SettlesWithin m attributes scope content r) (closing : QName) : Settles (do
      let a ← m
      leave
      return a) attributes scope (content ++ [.closing closing]) r := by
  cases r with
  | some a => exact Empties.leave h closing
  | none =>
    intro location xs rest diagnostics a c hxs hg
    obtain ⟨ys, l, zs, rfl, hys, hzs⟩ := exists_of_map_closing hxs
    obtain ⟨b, c₁, hg, -⟩ := gives_bind.mp hg
    rw [List.append_assoc] at hg
    exact h location ys closing l _ diagnostics b c₁ hys hg

/-! ### Child elements -/

/-- What is gathered from what each child of a row gives, unless one of them gives nothing. -/
def gathered : List (Option (List α)) → Option (List α)
  | [] => some []
  | r :: rs => r.bind fun first ↦ (gathered rs).bind fun more ↦ some (first ++ more)

/-- A step that runs on such content like a step that settles its own settles it likewise. -/
private theorem settlesWithin_of_run {m : Reading α} {r : Option α}
    (h : ∀ e xs closing l rest diagnostics, xs.map (·.event) = content →
      ∃ (m' : Reading α) (ys : List LocatedEvent) (diagnostics' : List Diagnostic),
        SettlesWithin m' attributes scope (ys.map (·.event)) r ∧
        (m.run e).run.run ⟨xs ++ ⟨.closing closing, l⟩ :: rest, diagnostics⟩ =
          (m'.run e).run.run ⟨ys ++ ⟨.closing closing, l⟩ :: rest, diagnostics'⟩) :
    SettlesWithin m attributes scope content r := by
  cases r with
  | some a =>
    intro location xs closing l rest diagnostics hxs
    obtain ⟨m', ys, noted, hm, hrun⟩ := h ⟨attributes, location, scope⟩ xs closing l rest
      diagnostics hxs
    obtain ⟨diagnostics', hg⟩ := hm location ys closing l rest noted rfl
    exact ⟨diagnostics', hrun.trans hg⟩
  | none =>
    intro location xs closing l rest diagnostics a c hxs hg
    obtain ⟨m', ys, noted, hm, hrun⟩ := h ⟨attributes, location, scope⟩ xs closing l rest
      diagnostics hxs
    exact hm location ys closing l rest noted a c rfl (hrun.symm.trans hg)

private theorem run_gatherUpTo_opening (handle : QName → Reading (List α)) (bound : Nat)
    (e : CurrentElement) (name : QName) (own : List Attribute) (declarations : List Declaration)
    (l : Option Location) (rest : List LocatedEvent) (diagnostics : List Diagnostic) :
    ((gatherUpTo handle (bound + 1)).run e).run.run
        ⟨⟨.opening name own declarations, l⟩ :: rest, diagnostics⟩ =
      ((do
        let first ← handle name
        let more ← gatherUpTo handle bound
        return first ++ more : Reading (List α)).run e).run.run
        ⟨⟨.opening name own declarations, l⟩ :: rest, diagnostics⟩ := rfl

/-- Child elements that are handled each by itself give together what each gives, and fail if one of
them does. -/
theorem settlesWithin_gather {handle : QName → Reading (List α)} {rs : List (Option (List α))}
    (hcontent : IsContent content)
    (h : List.Forall₂ (fun child r ↦ ∀ name, child.head?.bind openedName? = some name →
      Settles (handle name) attributes scope child r) (children content) rs) :
    SettlesWithin (gather handle) attributes scope content (gathered rs) := by
  have hupTo (bound : Nat) (hb : content.length ≤ bound) :
      SettlesWithin (gatherUpTo handle (bound + 1)) attributes scope content (gathered rs) := by
    induction hcontent using IsContent.induction generalizing rs bound with
    | nil =>
      cases h
      intro location xs closing l rest diagnostics hxs
      rw [List.map_eq_nil_iff.mp hxs]
      exact ⟨diagnostics, rfl⟩
    | text s more hmore ih =>
      have hmore := ih h bound (Nat.le_of_succ_le hb)
      refine settlesWithin_of_run ?_
      intro e xs closing l rest diagnostics hxs
      obtain ⟨⟨event, l'⟩, ys, rfl, hevent, hys⟩ := List.map_eq_cons_iff.mp hxs
      cases hevent
      obtain ⟨noted, hrun⟩ := run_gatherUpTo_text handle bound e s l'
        (ys ++ ⟨.closing closing, l⟩ :: rest) diagnostics
      exact ⟨_, ys, noted, hys ▸ hmore, hrun⟩
    | element name own declarations inner innerClosing more hinner hmore _ ih =>
      rw [children_element hinner] at h
      obtain ⟨bound, rfl⟩ := Nat.exists_eq_add_one_of_ne_zero (Nat.ne_zero_of_lt hb)
      cases h with
      | cons hfirst hrest =>
        have hmany := ih hrest bound
          (by simp only [List.length_cons, List.length_append] at hb; omega)
        have hboth := (hfirst name rfl).within fun first _ ↦
          hmany.bind (g := fun more ↦ some (first ++ more)) fun more _ ↦
            consumes_pure (first ++ more)
        rw [List.cons_append, List.append_assoc] at hboth
        refine settlesWithin_of_run ?_
        intro e xs closing l rest diagnostics hxs
        obtain ⟨⟨event, l'⟩, ys, rfl, hevent, hys⟩ := List.map_eq_cons_iff.mp hxs
        cases hevent
        exact ⟨_, _, diagnostics, hxs ▸ hboth, run_gatherUpTo_opening ..⟩
  refine settlesWithin_of_run ?_
  intro e xs closing l rest diagnostics hxs
  have hlength : content.length ≤ xs.length + rest.length := by
    rw [← hxs, List.length_map]
    exact Nat.le_add_right _ _
  refine ⟨gatherUpTo handle (xs.length + rest.length + 1), xs, diagnostics, ?_, ?_⟩
  · rw [hxs]
    exact hupTo _ hlength
  unfold gather
  rw [ReaderT.run_bind, run_bind]
  change ((gatherUpTo handle (xs ++ ⟨.closing closing, l⟩ :: rest).length).run e).run.run _ = _
  rw [List.length_append, List.length_cons]
  rfl

private theorem gathered_map_some (values : List Event → List α) (row : List (List Event)) :
    gathered (row.map fun child ↦ some (values child)) = some (row.flatMap values) := by
  induction row with
  | nil => rfl
  | cons child row ih =>
    rw [List.map_cons, gathered, ih, List.flatMap_cons, Option.bind_some, Option.bind_some]

/-- Child elements that are handled each by itself give what each gives, in order, if none of them
fails. -/
theorem empties_gather {handle : QName → Reading (List α)} {values : List Event → List α}
    (hcontent : IsContent content)
    (h : ∀ child ∈ children content, ∀ name, child.head?.bind openedName? = some name →
      Consumes (handle name) attributes scope child (values child)) :
    Empties (gather handle) attributes scope content ((children content).flatMap values) := by
  have hrow : List.Forall₂ (fun child r ↦ ∀ name, child.head?.bind openedName? = some name →
      Settles (handle name) attributes scope child r) (children content)
      ((children content).map fun child ↦ some (values child)) :=
    List.forall₂_map_right_iff.mpr (List.forall₂_same.mpr h)
  have hall := settlesWithin_gather hcontent hrow
  rw [gathered_map_some] at hall
  exact hall

end Reading

end XmlBinding

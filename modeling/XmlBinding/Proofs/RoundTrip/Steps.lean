import Mathlib.Data.List.Forall2
import XmlBinding.Context.Unmarshal
import XmlBinding.Document.Tree
import XmlBinding.Proofs.Conversion.Run

/-!
# Steps that read a tree

How the steps of reading go through the events of trees: each takes the events of one part and
leaves those behind it, whatever they are, and notes nothing.
-/

namespace XmlBinding

/-! ### Rows -/

section Rows

variable {α β : Type} {R : α → β → Prop} {as : List α} {bs : List β}

/-- Where there is something for every item, there is a row of it. -/
theorem exists_forall₂ (h : ∀ a ∈ as, ∃ b, R a b) : ∃ bs, List.Forall₂ R as bs := by
  induction as with
  | nil => exact ⟨[], .nil⟩
  | cons a as ih =>
    obtain ⟨b, hb⟩ := h a List.mem_cons_self
    obtain ⟨bs, hbs⟩ := ih fun a ha ↦ h a (List.mem_cons_of_mem _ ha)
    exact ⟨b :: bs, .cons hb hbs⟩

/-- Every item of the first row has one in the second. -/
theorem exists_right_of_forall₂ (h : List.Forall₂ R as bs) {a : α} (ha : a ∈ as) :
    ∃ b ∈ bs, R a b := by
  induction h with
  | nil => cases ha
  | @cons a' b as bs hab _ ih =>
    cases List.mem_cons.mp ha with
    | inl he =>
      subst he
      exact ⟨b, List.mem_cons_self, hab⟩
    | inr hm =>
      obtain ⟨b', hb', hr⟩ := ih hm
      exact ⟨b', List.mem_cons_of_mem _ hb', hr⟩

/-- Every item of the second row has one in the first. -/
theorem exists_left_of_forall₂ (h : List.Forall₂ R as bs) {b : β} (hb : b ∈ bs) :
    ∃ a ∈ as, R a b :=
  exists_right_of_forall₂ (R := fun b a ↦ R a b) h.flip hb

end Rows

/-! ### Events of trees -/

/-- The events of a tree as they stand in a stream. -/
def Tree.entries (t : Tree) : List LocatedEvent := t.events.map (⟨·, none⟩)

/-- The events of trees as they stand in a stream. -/
def Tree.entriesOfAll (ts : List Tree) : List LocatedEvent := ts.flatMap Tree.entries

private theorem Tree.map_eventsOfAll (ts : List Tree) :
    (eventsOfAll ts).map (⟨·, none⟩) = entriesOfAll ts := by
  induction ts with
  | nil => rw [eventsOfAll, List.map_nil]; rfl
  | cons t rest ih =>
    rw [eventsOfAll, List.map_append, ih]
    rfl

/-- The events of an element: its opening, its content and its closing. -/
theorem Tree.entries_element (name : QName) (attributes : List Attribute)
    (declarations : List Declaration) (content : List Tree) :
    (Tree.element name attributes declarations content).entries =
      ⟨.opening name attributes declarations, none⟩ ::
        (entriesOfAll content ++ [⟨.closing name, none⟩]) := by
  rw [entries, events, List.map_cons, List.map_append, map_eventsOfAll]
  rfl

/-! ### Looking and taking -/

namespace Reading

variable {α β : Type} {e : CurrentElement}

/-- The step takes just the events off the front, and notes nothing. -/
def Takes (m : Reading α) (e : CurrentElement) (events : List LocatedEvent) (a : α) : Prop :=
  ∀ rest diagnostics,
    Reading.Gives m e ⟨events ++ rest, diagnostics⟩ a ⟨rest, diagnostics⟩

/-- The step takes just the events in front of the end of an element, and notes nothing. -/
def TakesContent (m : Reading α) (e : CurrentElement) (events : List LocatedEvent) (a : α) : Prop :=
  ∀ name rest diagnostics,
    Reading.Gives m e ⟨events ++ ⟨.closing name, none⟩ :: rest, diagnostics⟩ a
      ⟨⟨.closing name, none⟩ :: rest, diagnostics⟩

/-- The step only looks, at whatever there is. -/
def Looks (m : Reading α) (e : CurrentElement) (a : α) : Prop :=
  ∀ cursor, Reading.Gives m e cursor a cursor

/-- Returning a value is looking. -/
theorem looks_pure (a : α) : Looks (pure a) e a := fun _ ↦ gives_pure.mpr ⟨rfl, rfl⟩

/-- Looking twice is looking. -/
theorem Looks.bind {m : Reading α} {f : α → Reading β} {a : α} {b : β} (hm : Looks m e a)
    (hf : Looks (f a) e b) : Looks (m >>= f) e b :=
  fun cursor ↦ gives_bind.mpr ⟨a, cursor, hm cursor, hf cursor⟩

/-- Content may be read after looking. -/
theorem Looks.takesContent {m : Reading α} {f : α → Reading β} {a : α} {b : β}
    {events : List LocatedEvent} (hm : Looks m e a) (hf : TakesContent (f a) e events b) :
    TakesContent (m >>= f) e events b :=
  fun name rest diagnostics ↦ gives_bind.mpr ⟨a, _, hm _, hf name rest diagnostics⟩

/-- What was read may be looked at. -/
theorem TakesContent.looks {m : Reading α} {f : α → Reading β} {a : α} {b : β}
    {events : List LocatedEvent} (hm : TakesContent m e events a) (hf : Looks (f a) e b) :
    TakesContent (m >>= f) e events b :=
  fun name rest diagnostics ↦ gives_bind.mpr ⟨a, _, hm name rest diagnostics, hf _⟩

/-- An element may be looked at when it was read. -/
theorem Takes.looks {m : Reading α} {f : α → Reading β} {a : α} {b : β}
    {events : List LocatedEvent} (hm : Takes m e events a) (hf : Looks (f a) e b) :
    Takes (m >>= f) e events b :=
  fun rest diagnostics ↦ gives_bind.mpr ⟨a, _, hm rest diagnostics, hf _⟩

/-- Asking for the current element is looking. -/
theorem looks_current : Looks current e e := fun _ ↦ rfl

/-- Asking for an attribute is looking. -/
theorem looks_attribute? (name : QName) :
    Looks (attribute? name) e (XmlBinding.attribute? e.attributes name) :=
  looks_current.bind (looks_pure _)

/-- A row of steps that look is looking. -/
theorem looks_mapM {ι : Type} {f : ι → Reading α} {xs : List ι} {as : List α}
    (h : List.Forall₂ (fun x a ↦ Looks (f x) e a) xs as) : Looks (xs.mapM f) e as := by
  induction h with
  | nil =>
    rw [List.mapM_nil]
    exact looks_pure []
  | cons hfirst _ ih =>
    rw [List.mapM_cons]
    exact hfirst.bind (ih.bind (looks_pure _))

/-! ### Text -/

private theorem takesContent_text (text : String) :
    TakesContent Reading.text e
      (Tree.entriesOfAll (if text = "" then [] else [.text text])) text := by
  intro name rest diagnostics
  by_cases he : text = ""
  · subst he
    rfl
  · rw [if_neg he]
    change Reading.Gives Reading.text e
      ⟨⟨.text text, none⟩ :: ⟨.closing name, none⟩ :: rest, diagnostics⟩ text _
    refine gives_bind.mpr ⟨_, _, rfl, gives_bind.mpr ⟨(), _, rfl, ?_⟩⟩
    rw [String.append_empty]
    exact gives_pure.mpr ⟨rfl, rfl⟩

/-- The text of an element is read by the declarations in scope. -/
theorem takesContent_readContent {codec : Codec} {text : String} {s : Scalar}
    (h : codec.read e.scope.namespaceOf? text = .ok s) :
    TakesContent codec.readContent e
      (Tree.entriesOfAll (if text = "" then [] else [.text text])) (.scalar s) := by
  unfold Codec.readContent
  have hread : Looks (codec.readText text) e (.ok (.scalar s)) := by
    apply looks_current.bind
    rw [h]
    exact looks_pure _
  exact fun name rest diagnostics ↦ gives_bind.mpr ⟨text, _, takesContent_text text name rest _,
    gives_bind.mpr ⟨.ok (.scalar s), _, hread _, gives_pure.mpr ⟨rfl, rfl⟩⟩⟩

/-! ### Child elements -/

private theorem gives_nextChild?_opening {name : QName} {attributes : List Attribute}
    {declarations : List Declaration} {rest : List LocatedEvent} {diagnostics : List Diagnostic} :
    Reading.Gives nextChild? e
      ⟨⟨.opening name attributes declarations, none⟩ :: rest, diagnostics⟩ (some name)
      ⟨⟨.opening name attributes declarations, none⟩ :: rest, diagnostics⟩ := rfl

private theorem gives_nextChild?_closing {name : QName} {rest : List LocatedEvent}
    {diagnostics : List Diagnostic} :
    Reading.Gives nextChild? e ⟨⟨.closing name, none⟩ :: rest, diagnostics⟩ none
      ⟨⟨.closing name, none⟩ :: rest, diagnostics⟩ := rfl

/-- The element at hand is left at its end. -/
theorem gives_leave {name : QName} {rest : List LocatedEvent} {diagnostics : List Diagnostic} :
    Reading.Gives leave e ⟨⟨.closing name, none⟩ :: rest, diagnostics⟩ ()
      ⟨rest, diagnostics⟩ := rfl

/-- A child element is handled by giving one value. -/
def Handles (handle : QName → Reading (List α)) (e : CurrentElement) (t : Tree) (a : α) : Prop :=
  ∃ name attributes declarations content, t = .element name attributes declarations content ∧
    Takes (handle name) e t.entries [a]

/-- Child elements that are handled one by one give their values in order. -/
theorem takesContent_gather {handle : QName → Reading (List α)} {ts : List Tree} {as : List α}
    (h : List.Forall₂ (Handles handle e) ts as) :
    TakesContent (gather handle) e (Tree.entriesOfAll ts) as := by
  have hupTo (bound : Nat) (hb : ts.length < bound) :
      TakesContent (gatherUpTo handle bound) e (Tree.entriesOfAll ts) as := by
    induction h generalizing bound with
    | nil =>
      obtain ⟨bound, rfl⟩ := Nat.exists_eq_add_one_of_ne_zero (Nat.ne_of_gt hb)
      exact fun name rest diagnostics ↦ gives_bind.mpr ⟨none, _, gives_nextChild?_closing,
        gives_pure.mpr ⟨rfl, rfl⟩⟩
    | @cons t a ts as hfirst hrest ih =>
      obtain ⟨bound, rfl⟩ := Nat.exists_eq_add_one_of_ne_zero (Nat.ne_of_gt (Nat.zero_lt_of_lt hb))
      obtain ⟨child, attributes, declarations, content, rfl, htakes⟩ := hfirst
      intro name rest diagnostics
      have hmore := ih bound (by simpa using hb) name rest diagnostics
      have hone := htakes (Tree.entriesOfAll ts ++ ⟨.closing name, none⟩ :: rest) diagnostics
      have hall : Tree.entriesOfAll (.element child attributes declarations content :: ts) ++
            ⟨.closing name, none⟩ :: rest =
          (Tree.element child attributes declarations content).entries ++
            (Tree.entriesOfAll ts ++ ⟨.closing name, none⟩ :: rest) :=
        List.append_assoc _ _ _
      have hopen (more : List LocatedEvent) : Reading.Gives nextChild? e
          ⟨(Tree.element child attributes declarations content).entries ++ more, diagnostics⟩
          (some child)
          ⟨(Tree.element child attributes declarations content).entries ++ more, diagnostics⟩ := by
        rw [Tree.entries_element]
        exact gives_nextChild?_opening
      rw [hall]
      exact gives_bind.mpr ⟨some child, _, hopen _, gives_bind.mpr ⟨[a], _, hone,
        gives_bind.mpr ⟨as, _, hmore, gives_pure.mpr ⟨rfl, rfl⟩⟩⟩⟩
  have hlength : ts.length ≤ (Tree.entriesOfAll ts).length := by
    clear hupTo
    induction h with
    | nil => exact Nat.le_refl 0
    | @cons t a ts as hfirst hrest ih =>
      obtain ⟨child, attributes, declarations, content, rfl, -⟩ := hfirst
      rw [Tree.entriesOfAll, List.flatMap_cons, List.length_append, Tree.entries_element]
      simp only [List.length_cons, Tree.entriesOfAll] at ih ⊢
      omega
  intro name rest diagnostics
  refine gives_bind.mpr ⟨_, _, rfl, hupTo _ ?_ name rest diagnostics⟩
  simp only [List.length_append, List.length_cons]
  omega

end Reading

end XmlBinding

import XmlBinding.Document.Event

/-!
# Events that are balanced in depth

Reading a value counts openings and closings and does not look at the names of closings. An element
in this sense is a row of events that opens first and is open until its last event
(`Event.IsElement`). The count itself is `Event.Balanced`, which follows the events one by one.
`Event.children` cuts content into the elements that stand in it side by side; what may change about
content while the children of some names stay the same is `Event.Rearranges`.
-/

namespace XmlBinding.Event

/-! ### Depth -/

/-- By how much an event changes the number of open elements. -/
def deepening : Event → Int
  | .opening _ _ _ => 1
  | .text _ => 0
  | .closing _ => -1

/-- The number of openings in a row of events, less that of closings. -/
def depthBehind (events : List Event) : Int := events.foldr (fun e depth ↦ e.deepening + depth) 0

/-- Nothing is open behind no events. -/
@[simp] theorem depthBehind_nil : depthBehind [] = 0 := rfl

/-- The first event changes the depth behind all of them by its own share. -/
@[simp] theorem depthBehind_cons (e : Event) (events : List Event) :
    depthBehind (e :: events) = e.deepening + depthBehind events := rfl

/-- The depth behind two rows of events is the sum of theirs. -/
@[simp] theorem depthBehind_append (xs ys : List Event) :
    depthBehind (xs ++ ys) = depthBehind xs + depthBehind ys := by
  induction xs with
  | nil => simp
  | cons e xs ih => rw [List.cons_append, depthBehind_cons, depthBehind_cons, ih, Int.add_assoc]

/-- One element, whatever the names of its closings: it opens first, it is open as long as events of
it follow, and it is closed behind them. -/
structure IsElement (events : List Event) : Prop where
  opens : ∃ name attributes declarations rest,
    events = .opening name attributes declarations :: rest
  held : ∀ part rest, events = part ++ rest → part ≠ [] → rest ≠ [] → 0 < depthBehind part
  closed : depthBehind events = 0

/-- The events close just `depth` elements more than they open, and at no point more than that. -/
def Balanced : (depth : Nat) → List Event → Prop
  | depth, [] => depth = 0
  | depth, .opening _ _ _ :: rest => Balanced (depth + 1) rest
  | depth, .text _ :: rest => Balanced depth rest
  | 0, .closing _ :: _ => False
  | depth + 1, .closing _ :: rest => Balanced depth rest

/-- The events are the content of an element. -/
abbrev IsContent (events : List Event) : Prop := Balanced 0 events

private theorem balanced_iff {depth : Nat} {events : List Event} :
    Balanced depth events ↔
      (∀ part rest, events = part ++ rest → 0 ≤ depth + depthBehind part) ∧
        depth + depthBehind events = 0 := by
  induction events generalizing depth with
  | nil =>
    rw [Balanced]
    constructor
    · rintro rfl
      refine ⟨fun part rest h ↦ ?_, rfl⟩
      rw [(List.append_eq_nil_iff.mp h.symm).1]
      decide
    · rintro ⟨-, h⟩
      rw [depthBehind_nil] at h
      omega
  | cons e events ih =>
    -- What is said of the first parts of `e :: events` is said of those of `events`, one event on.
    have hparts : (∀ part rest, e :: events = part ++ rest → 0 ≤ depth + depthBehind part) ↔
        ∀ part rest, events = part ++ rest → 0 ≤ depth + (e.deepening + depthBehind part) := by
      constructor
      · intro h part rest he
        have hpart := h (e :: part) rest (by rw [he]; rfl)
        rwa [depthBehind_cons] at hpart
      · intro h part rest he
        cases part with
        | nil =>
          rw [depthBehind_nil]
          omega
        | cons e' part =>
          rw [List.cons_append] at he
          cases he
          rw [depthBehind_cons]
          exact h part rest rfl
    rw [hparts, depthBehind_cons]
    cases e with
    | opening name attributes declarations =>
      have hshift (n : Int) : (depth : Int) + (1 + n) = (depth + 1 : Nat) + n := by omega
      rw [Balanced, ih, deepening]
      simp only [hshift]
    | text s =>
      rw [Balanced, ih, deepening]
      simp only [Int.zero_add]
    | closing name =>
      cases depth with
      | zero =>
        rw [Balanced, deepening]
        refine ⟨False.elim, fun h ↦ ?_⟩
        have hfirst := h.1 [] events rfl
        rw [depthBehind_nil] at hfirst
        omega
      | succ depth =>
        have hshift (n : Int) : ((depth + 1 : Nat) : Int) + (-1 + n) = depth + n := by omega
        rw [Balanced, ih, deepening]
        simp only [hshift]

/-- What two rows of events close, they close together. -/
theorem Balanced.append {depth depth' : Nat} {xs ys : List Event} (hx : Balanced depth xs)
    (hy : Balanced depth' ys) : Balanced (depth + depth') (xs ++ ys) := by
  induction xs generalizing depth with
  | nil =>
    rw [Balanced] at hx
    rw [hx, Nat.zero_add]
    exact hy
  | cons e xs ih =>
    cases e with
    | opening name attributes declarations =>
      have h := ih hx
      rw [Nat.add_right_comm] at h
      rwa [List.cons_append, Balanced]
    | text s =>
      have h := ih hx
      rwa [List.cons_append, Balanced]
    | closing name =>
      cases depth with
      | zero => exact hx.elim
      | succ depth =>
        have h := ih hx
        rwa [List.cons_append, Nat.add_right_comm, Balanced]

/-- Where events close one element more, the closing of that one divides them. -/
theorem Balanced.split {depth depth' : Nat} {events : List Event}
    (h : Balanced (depth + depth' + 1) events) :
    ∃ xs name ys, events = xs ++ .closing name :: ys ∧ Balanced depth xs ∧ Balanced depth' ys := by
  induction events generalizing depth with
  | nil =>
    rw [Balanced] at h
    omega
  | cons e events ih =>
    cases e with
    | opening name attributes declarations =>
      rw [Balanced, show depth + depth' + 1 + 1 = depth + 1 + depth' + 1 by omega] at h
      obtain ⟨xs, closing, ys, rfl, hx, hy⟩ := ih h
      exact ⟨.opening name attributes declarations :: xs, closing, ys, rfl, hx, hy⟩
    | text s =>
      obtain ⟨xs, closing, ys, rfl, hx, hy⟩ := ih h
      exact ⟨.text s :: xs, closing, ys, rfl, hx, hy⟩
    | closing name =>
      cases depth with
      | zero =>
        rw [Nat.zero_add, Balanced] at h
        exact ⟨[], name, events, rfl, rfl, h⟩
      | succ depth =>
        rw [Nat.add_right_comm depth 1, Balanced] at h
        obtain ⟨xs, closing, ys, rfl, hx, hy⟩ := ih h
        exact ⟨.closing name :: xs, closing, ys, rfl, hx, hy⟩

/-! ### Elements and content -/

/-- An element is an opening, content, and a closing. -/
theorem isElement_iff {events : List Event} :
    IsElement events ↔ ∃ name attributes declarations content closing,
      events = .opening name attributes declarations :: (content ++ [.closing closing]) ∧
        IsContent content := by
  constructor
  · rintro ⟨⟨name, attributes, declarations, rest, rfl⟩, hopen, hclosed⟩
    rw [depthBehind_cons, deepening] at hclosed
    have hbalanced : Balanced 1 rest := by
      rw [balanced_iff]
      refine ⟨fun part behind he ↦ ?_, by omega⟩
      cases behind with
      | nil =>
        rw [List.append_nil] at he
        rw [← he]
        omega
      | cons e behind =>
        have hpart := hopen (.opening name attributes declarations :: part) (e :: behind)
          (by rw [he]; rfl) (List.cons_ne_nil _ _) (List.cons_ne_nil _ _)
        rw [depthBehind_cons, deepening] at hpart
        omega
    obtain ⟨content, closing, behind, rfl, hcontent, hbehind⟩ := @Balanced.split 0 0 rest hbalanced
    cases behind with
    | nil => exact ⟨name, attributes, declarations, content, closing, rfl, hcontent⟩
    | cons e behind =>
      -- What follows would stand behind an element that is closed already.
      have hpart := hopen (.opening name attributes declarations :: (content ++ [.closing closing]))
        (e :: behind) (by simp) (List.cons_ne_nil _ _) (List.cons_ne_nil _ _)
      have hzero := (balanced_iff.mp hcontent).2
      rw [depthBehind_cons, depthBehind_append, depthBehind_cons, depthBehind_nil, deepening,
        deepening] at hpart
      omega
  · rintro ⟨name, attributes, declarations, content, closing, rfl, hcontent⟩
    obtain ⟨hparts, hzero⟩ := balanced_iff.mp hcontent
    refine ⟨⟨_, _, _, _, rfl⟩, fun part rest he hpart hrest ↦ ?_, ?_⟩
    · obtain ⟨first, part, rfl⟩ := List.exists_cons_of_ne_nil hpart
      obtain ⟨more, last, rfl⟩ := (List.eq_nil_or_concat rest).resolve_left hrest
      rw [List.cons_append, List.cons.injEq, List.concat_eq_append, ← List.append_assoc] at he
      obtain ⟨rfl, he⟩ := he
      have hnonneg := hparts part more (List.append_inj' he rfl).1
      rw [depthBehind_cons, deepening]
      omega
    · rw [depthBehind_cons, depthBehind_append, depthBehind_cons, depthBehind_nil, deepening,
        deepening]
      omega

/-- What is between the opening and the last closing of an element is content. -/
theorem isElement_opening_iff {name closing : QName} {attributes : List Attribute}
    {declarations : List Declaration} {content : List Event} :
    IsElement (.opening name attributes declarations :: (content ++ [.closing closing])) ↔
      IsContent content := by
  refine isElement_iff.trans ⟨?_, fun h ↦ ⟨_, _, _, _, _, rfl, h⟩⟩
  rintro ⟨name', attributes', declarations', content', closing', he, hcontent⟩
  rw [List.cons.injEq] at he
  rw [(List.append_inj' he.2 rfl).1]
  exact hcontent

/-- An element is content. -/
theorem IsElement.isContent {events : List Event} (h : IsElement events) : IsContent events := by
  obtain ⟨name, attributes, declarations, content, closing, rfl, hcontent⟩ := isElement_iff.mp h
  exact @Balanced.append 0 1 content [.closing closing] hcontent rfl

/-- An element within content is followed by content. -/
theorem IsContent.of_opening {name : QName} {attributes : List Attribute}
    {declarations : List Declaration} {rest : List Event}
    (h : IsContent (.opening name attributes declarations :: rest)) :
    ∃ content closing behind, rest = content ++ .closing closing :: behind ∧ IsContent content ∧
      IsContent behind :=
  @Balanced.split 0 0 rest h

/-- Content is put together from texts and elements. -/
theorem IsContent.induction {motive : (events : List Event) → IsContent events → Prop}
    (nil : motive [] rfl)
    (text : ∀ s rest (h : IsContent rest), motive rest h → motive (.text s :: rest) h)
    (element : ∀ name attributes declarations content closing rest (hc : IsContent content)
      (hr : IsContent rest), motive content hc → motive rest hr →
      motive (.opening name attributes declarations :: (content ++ .closing closing :: rest))
        (@Balanced.append 0 1 content _ hc hr))
    {events : List Event} (h : IsContent events) : motive events h := by
  match events, h with
  | [], _ => exact nil
  | .text s :: rest, h =>
    have hrest : IsContent rest := h
    exact text s rest hrest (IsContent.induction nil text element hrest)
  | .opening name attributes declarations :: rest, h =>
    obtain ⟨content, closing, behind, rfl, hcontent, hbehind⟩ := h.of_opening
    exact element name attributes declarations content closing behind hcontent hbehind
      (IsContent.induction nil text element hcontent)
      (IsContent.induction nil text element hbehind)
termination_by events.length

/-! ### Child elements -/

/-- The name of the element that the event opens. -/
def openedName? : Event → Option QName
  | .opening name _ _ => some name
  | _ => none

/-- The elements that stand side by side up to the end of the content, each by its events. `child`
has those of the one at hand, of which `depth` elements are open. -/
def childrenFrom : (child : List Event) → (depth : Nat) → List Event → List (List Event)
  | _, _, [] => []
  | child, depth, .opening name attributes declarations :: rest =>
    childrenFrom (child ++ [.opening name attributes declarations]) (depth + 1) rest
  | _, 0, .text _ :: rest => childrenFrom [] 0 rest
  | child, depth + 1, .text s :: rest => childrenFrom (child ++ [.text s]) (depth + 1) rest
  | _, 0, .closing _ :: _ => []
  | child, 1, .closing name :: rest => (child ++ [.closing name]) :: childrenFrom [] 0 rest
  | child, depth + 2, .closing name :: rest =>
    childrenFrom (child ++ [.closing name]) (depth + 1) rest

/-- The child elements in the content of an element, each by its events. -/
def children (content : List Event) : List (List Event) := childrenFrom [] 0 content

private theorem childrenFrom_append {depth : Nat} {events : List Event} (h : Balanced depth events)
    (child : List Event) (closing : QName) (rest : List Event) :
    childrenFrom child (depth + 1) (events ++ .closing closing :: rest) =
      (child ++ events ++ [.closing closing]) :: children rest := by
  induction events generalizing depth child with
  | nil =>
    rw [Balanced] at h
    subst h
    rw [List.append_nil]
    rfl
  | cons e events ih =>
    cases e with
    | opening name attributes declarations =>
      rw [List.cons_append, childrenFrom, ih h]
      simp
    | text s =>
      rw [List.cons_append, childrenFrom, ih h]
      simp
    | closing name =>
      cases depth with
      | zero => exact h.elim
      | succ depth =>
        rw [List.cons_append, childrenFrom, ih h]
        simp

/-- An element is the first child of the content that begins with it. -/
theorem children_element {content : List Event} (h : IsContent content) (name closing : QName)
    (attributes : List Attribute) (declarations : List Declaration) (rest : List Event) :
    children (.opening name attributes declarations :: (content ++ .closing closing :: rest)) =
      (.opening name attributes declarations :: (content ++ [.closing closing])) ::
        children rest :=
  childrenFrom_append h _ closing rest

/-- The children in content are elements. -/
theorem isElement_of_mem_children {content : List Event} (h : IsContent content)
    {child : List Event} (hc : child ∈ children content) : IsElement child := by
  induction h using IsContent.induction with
  | nil => cases hc
  | text s rest hrest ih => exact ih hc
  | element name attributes declarations content closing rest hcontent hrest _ ih =>
    rw [children_element hcontent] at hc
    cases List.mem_cons.mp hc with
    | inl he =>
      rw [he]
      exact isElement_iff.mpr ⟨_, _, _, _, _, rfl, hcontent⟩
    | inr hm => exact ih hm

/-- A child has no more events than the content that it stands in. -/
theorem length_le_of_mem_children {content : List Event} (h : IsContent content)
    {child : List Event} (hc : child ∈ children content) : child.length ≤ content.length := by
  induction h using IsContent.induction with
  | nil => cases hc
  | text s rest hrest ih => exact Nat.le_succ_of_le (ih hc)
  | element name attributes declarations content closing rest hcontent hrest _ ih =>
    rw [children_element hcontent] at hc
    simp only [List.length_cons, List.length_append]
    cases List.mem_cons.mp hc with
    | inl he =>
      rw [he]
      simp only [List.length_cons, List.length_append, List.length_nil]
      omega
    | inr hm =>
      have hlength := ih hm
      omega

end XmlBinding.Event

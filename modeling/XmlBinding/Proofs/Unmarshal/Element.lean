import XmlBinding.Context.Unmarshal
import XmlBinding.Proofs.Conversion.Run

/-!
# Reading one element

An element is read by taking its opening and then running its body within it: its value, and what is
left of it. Both the depth of the recursion and the text in front of the element drop out of this
view (`Context.run_readElement`).
-/

namespace XmlBinding.Context

variable (c : Context)

/-- How child elements are read. -/
def readChild (strict : Bool) (depth : Nat) (type : BindingType) : Reading Value := do
  c.readElement strict depth (← Reading.current).scope (some type)

/-- How an element is read behind its opening. -/
def readBody (strict : Bool) (depth : Nat) (declared : Option BindingType) (name : QName) :
    Reading Value := do
  let value ← c.readValue (c.readSession strict (c.readChild strict depth) c.maxHandovers)
    declared name
  Reading.leave
  return value

/-! ### Sessions -/

section Sessions

variable (strict : Bool) (child : BindingType → Reading Value) (handovers : Nat)

/-- A reading call offers the catalog of its context. -/
@[simp] theorem readSession_catalog :
    (c.readSession strict child handovers).catalog = c.catalog := by
  cases handovers <;> rfl

/-- A reading call says whether it is strict. -/
@[simp] theorem readSession_strict : (c.readSession strict child handovers).strict = strict := by
  cases handovers <;> rfl

/-- A reading call offers to read child elements. -/
@[simp] theorem readSession_child : (c.readSession strict child handovers).child = child := by
  cases handovers <;> rfl

end Sessions

/-! ### Elements -/

variable {c} {texts rest : List LocatedEvent} {strict : Bool} {depth : Nat}
  {outer : NamespaceScope} {declared : Option BindingType} {diagnostics : List Diagnostic}

/-- Behind the opening of an element its body is read within it. -/
theorem run_readElement (ht : ∀ e ∈ texts, e.isText = true) (name : QName)
    (attributes : List Attribute) (declarations : List Declaration) (location : Option Location) :
    (c.readElement strict (depth + 1) outer declared).run.run
        ⟨texts ++ ⟨.opening name attributes declarations, location⟩ :: rest, diagnostics⟩ =
      ((c.readBody strict depth declared name).run
        ⟨attributes, location, outer.push declarations⟩).run.run ⟨rest, diagnostics⟩ := by
  have hdrop : (texts ++ ⟨.opening name attributes declarations, location⟩ :: rest).dropWhile
      (·.isText) = ⟨.opening name attributes declarations, location⟩ :: rest := by
    rw [List.dropWhile_append_of_pos ht]
    rfl
  unfold readElement
  rw [XmlBinding.run_bind]
  change ((get >>= _ : Scanning Value)).run.run
    ⟨(texts ++ ⟨.opening name attributes declarations, location⟩ :: rest).dropWhile (·.isText),
      diagnostics⟩ = _
  rw [hdrop]
  rfl

/-- Where no element opens behind texts, reading one fails at once. -/
theorem run_readElement_of_not_opening {events : List LocatedEvent}
    (h : ∀ e ∈ (events.dropWhile (·.isText)).head?, e.openedName? = none) :
    (c.readElement strict (depth + 1) outer declared).run.run ⟨events, diagnostics⟩ =
      (.error (.structural .expectedOpening
        (Cursor.location ⟨events.dropWhile (·.isText), diagnostics⟩)),
          ⟨events.dropWhile (·.isText), diagnostics⟩) := by
  unfold readElement
  rw [XmlBinding.run_bind]
  change ((get >>= _ : Scanning Value)).run.run ⟨events.dropWhile (·.isText), diagnostics⟩ = _
  cases hd : events.dropWhile (·.isText) with
  | nil => rfl
  | cons e rest =>
    obtain ⟨event, location⟩ := e
    rw [hd] at h
    cases event with
    | opening name attributes declarations => cases h _ rfl
    | text s => rfl
    | closing name => rfl

/-- Either an element opens behind texts, or there is none. -/
theorem opening_cases (events : List LocatedEvent) :
    (∃ texts name attributes declarations location rest,
      events = texts ++ ⟨.opening name attributes declarations, location⟩ :: rest ∧
        ∀ e ∈ texts, e.isText = true) ∨
      ∀ e ∈ (events.dropWhile (·.isText)).head?, e.openedName? = none := by
  cases hd : events.dropWhile (·.isText) with
  | nil => exact .inr (by simp)
  | cons e rest =>
    obtain ⟨event, location⟩ := e
    cases event with
    | opening name attributes declarations =>
      refine .inl ⟨events.takeWhile (·.isText), name, attributes, declarations, location, rest, ?_,
        fun e he ↦ List.all_eq_true.mp List.all_takeWhile e he⟩
      rw [← hd, List.takeWhile_append_dropWhile]
    | text s => exact .inr (by simp [LocatedEvent.openedName?])
    | closing name => exact .inr (by simp [LocatedEvent.openedName?])

end XmlBinding.Context

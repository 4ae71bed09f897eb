import XmlBinding.Conversion.Input
import XmlBinding.Conversion.Output

/-!
# Runs that succeed

`Gives` says that a step succeeds with a result and leaves a state behind. Each combinator has one
law that takes such a run apart, so that a run of a converter is opened step by step without
unfolding the monads below it.
-/

namespace XmlBinding

section Run

variable {ε σ α β : Type} {m : ExceptT ε (StateM σ) α}

/-- The second step runs from where the first ended, unless that one failed. -/
theorem run_bind (f : α → ExceptT ε (StateM σ) β) (s : σ) :
    (m >>= f).run.run s =
      match m.run.run s with
      | (.ok a, s₁) => (f a).run.run s₁
      | (.error e, s₁) => (.error e, s₁) := by
  simp only [ExceptT.run_bind, StateT.run_bind]
  generalize StateT.run m.run s = p
  obtain ⟨r, s₁⟩ := p
  cases r <;> rfl

/-- A failure is handled from where the step ended. -/
theorem run_tryCatch (handle : ε → ExceptT ε (StateM σ) α) (s : σ) :
    (ExceptT.tryCatch m handle).run.run s =
      match m.run.run s with
      | (.ok a, s₁) => (.ok a, s₁)
      | (.error e, s₁) => (handle e).run.run s₁ := by
  unfold ExceptT.tryCatch
  rw [ExceptT.run_mk]
  change ((m.run : StateM σ (Except ε α)) >>= _).run s = _
  rw [StateT.run_bind]
  rcases m.run.run s with ⟨r, s₁⟩
  cases r <;> rfl

/-- A row of calls that all succeed gives all their results. -/
theorem mapM_eq_ok {ι : Type} {f : ι → Except ε α} {g : ι → α} {xs : List ι}
    (h : ∀ x ∈ xs, f x = .ok (g x)) : xs.mapM f = .ok (xs.map g) := by
  induction xs with
  | nil => rfl
  | cons x xs ih =>
    rw [List.mapM_cons, h x List.mem_cons_self, ih fun y hy ↦ h y (List.mem_cons_of_mem x hy)]
    rfl

end Run

/-! ### Calls -/

/-- The step succeeds from a state with a result and leaves another state behind. -/
def Gives {σ α : Type} (m : ExceptT Error (StateM σ) α) (s : σ) (a : α) (s' : σ) : Prop :=
  m.run.run s = (.ok a, s')

section Gives

variable {σ α β : Type} {m : ExceptT Error (StateM σ) α} {s s' : σ}

/-- A step that returns a value changes nothing. -/
theorem gives_pure {a b : α} :
    Gives (pure a : ExceptT Error (StateM σ) α) s b s' ↔ b = a ∧ s' = s := by
  constructor
  · intro h
    cases h
    exact ⟨rfl, rfl⟩
  · rintro ⟨rfl, rfl⟩
    rfl

/-- A step that throws does not succeed. -/
theorem not_gives_throw {e : Error} {a : α} :
    ¬ Gives (throw e : ExceptT Error (StateM σ) α) s a s' := by
  intro h
  cases h

/-- Two steps succeed if the first does and the second does from where it ended. -/
theorem gives_bind {f : α → ExceptT Error (StateM σ) β} {b : β} :
    Gives (m >>= f) s b s' ↔ ∃ a s₁, Gives m s a s₁ ∧ Gives (f a) s₁ b s' := by
  unfold Gives
  simp only [ExceptT.run_bind, StateT.run_bind]
  generalize StateT.run m.run s = p
  obtain ⟨r, s₁⟩ := p
  cases r with
  | error e =>
    constructor
    · intro h
      cases h
    · rintro ⟨a, s₂, h, -⟩
      cases h
  | ok a =>
    constructor
    · intro h
      exact ⟨a, s₁, rfl, h⟩
    · rintro ⟨a', s₂, h, h'⟩
      cases h
      exact h'

end Gives

/-! ### Steps that fill a draft -/

namespace Drafting

variable {α β : Type} {m : Drafting α} {d d' : Draft} {log log' : WriteLog}

/-- The step succeeds from a draft and a log. -/
protected def Gives (m : Drafting α) (d : Draft) (log : WriteLog) (a : α) (d' : Draft)
    (log' : WriteLog) : Prop :=
  XmlBinding.Gives (m.run d) log (a, d') log'

/-- A step that returns a value changes nothing. -/
theorem gives_pure {a b : α} :
    Drafting.Gives (pure a) d log b d' log' ↔ b = a ∧ d' = d ∧ log' = log := by
  constructor
  · intro h
    cases h
    exact ⟨rfl, rfl, rfl⟩
  · rintro ⟨rfl, rfl, rfl⟩
    rfl

/-- A step that throws does not succeed. -/
theorem not_gives_throw {e : Error} {a : α} : ¬ Drafting.Gives (throw e) d log a d' log' := by
  intro h
  cases h

/-- Two steps succeed if the first does and the second does from where it ended. -/
theorem gives_bind {f : α → Drafting β} {b : β} :
    Drafting.Gives (m >>= f) d log b d' log' ↔
      ∃ a d₁ log₁, Drafting.Gives m d log a d₁ log₁ ∧
        Drafting.Gives (f a) d₁ log₁ b d' log' := by
  unfold Drafting.Gives
  rw [StateT.run_bind, XmlBinding.gives_bind]
  constructor
  · rintro ⟨⟨a, d₁⟩, log₁, h, h'⟩
    exact ⟨a, d₁, log₁, h, h'⟩
  · rintro ⟨a, d₁, log₁, h, h'⟩
    exact ⟨(a, d₁), log₁, h, h'⟩

/-- A step of the call leaves the draft as it is. -/
theorem gives_lift {w : Writing α} {a : α} :
    Drafting.Gives (liftM w) d log a d' log' ↔ XmlBinding.Gives w log a log' ∧ d' = d := by
  constructor
  · intro h
    have hb : XmlBinding.Gives (w >>= fun x ↦ pure (x, d)) log (a, d') log' := h
    obtain ⟨x, log₁, hx, hp⟩ := XmlBinding.gives_bind.mp hb
    obtain ⟨he, rfl⟩ := XmlBinding.gives_pure.mp hp
    cases he
    exact ⟨hx, rfl⟩
  · rintro ⟨h, rfl⟩
    have hb : XmlBinding.Gives (w >>= fun x ↦ pure (x, d')) log (a, d') log' :=
      XmlBinding.gives_bind.mpr ⟨a, log', h, XmlBinding.gives_pure.mpr ⟨rfl, rfl⟩⟩
    exact hb

/-- A step for every item: the first, then the others. -/
theorem gives_forM_cons {ι : Type} {f : ι → Drafting Unit} {x : ι} {xs : List ι} {u : Unit} :
    Drafting.Gives ((x :: xs).forM f) d log u d' log' ↔
      ∃ d₁ log₁, Drafting.Gives (f x) d log () d₁ log₁ ∧
        Drafting.Gives (xs.forM f) d₁ log₁ () d' log' := by
  change Drafting.Gives (f x >>= fun _ ↦ xs.forM f) d log u d' log' ↔ _
  rw [gives_bind]
  constructor
  · rintro ⟨⟨⟩, d₁, log₁, h⟩
    exact ⟨d₁, log₁, h⟩
  · rintro ⟨d₁, log₁, h⟩
    exact ⟨(), d₁, log₁, h⟩

/-- A step for no item changes nothing. -/
theorem gives_forM_nil {ι : Type} {f : ι → Drafting Unit} {u : Unit} :
    Drafting.Gives (([] : List ι).forM f) d log u d' log' ↔ d' = d ∧ log' = log := by
  change Drafting.Gives (pure ()) d log u d' log' ↔ _
  rw [gives_pure]
  simp

/-- Reading the draft. -/
theorem gives_getDraft {a : Draft} :
    Drafting.Gives (getThe Draft) d log a d' log' ↔ a = d ∧ d' = d ∧ log' = log := by
  constructor
  · intro h
    cases h
    exact ⟨rfl, rfl, rfl⟩
  · rintro ⟨rfl, rfl, rfl⟩
    rfl

/-- Changing the draft. -/
theorem gives_modifyDraft {f : Draft → Draft} {u : PUnit} :
    Drafting.Gives (modifyThe Draft f) d log u d' log' ↔ d' = f d ∧ log' = log := by
  constructor
  · intro h
    cases h
    exact ⟨rfl, rfl⟩
  · rintro ⟨rfl, rfl⟩
    rfl

/-- Noting a problem leaves the draft as it is. -/
theorem gives_report {problem : Problem} {u : Unit} :
    Drafting.Gives (report problem) d log u d' log' ↔
      d' = d ∧ log' = { log with diagnostics := log.diagnostics ++ [⟨problem, none⟩] } := by
  constructor
  · intro h
    cases h
    exact ⟨rfl, rfl⟩
  · rintro ⟨rfl, rfl⟩
    rfl

/-- Adding text adds a part unless the text is empty. -/
theorem gives_characters {text : String} {u : Unit} :
    Drafting.Gives (characters text) d log u d' log' ↔
      d' = (if text = "" then d else d.add (.text text)) ∧ log' = log := by
  unfold characters
  split
  · rw [gives_pure]
    simp
  · rw [gives_modifyDraft]

/-- A part that is made in the scope of the draft is added, if anything comes of it. -/
theorem gives_addMade (make : NamespaceScope → Writing (Option Tree)) {u : Unit}
    (h : Drafting.Gives (do
      let draft ← getThe Draft
      match ← make draft.scope with
      | some tree => modifyThe Draft (·.add tree)
      | none => return) d log u d' log') :
    ∃ out, XmlBinding.Gives (make d.scope) log out log' ∧ d' = out.elim d d.add := by
  obtain ⟨draft, d₁, log₁, hget, hmade⟩ := gives_bind.mp h
  obtain ⟨rfl, rfl, rfl⟩ := gives_getDraft.mp hget
  obtain ⟨out, d₂, log₂, hpart, hadd⟩ := gives_bind.mp hmade
  obtain ⟨hpart, rfl⟩ := gives_lift.mp hpart
  cases out with
  | none =>
    obtain ⟨-, rfl, rfl⟩ := gives_pure.mp hadd
    exact ⟨none, hpart, rfl⟩
  | some tree =>
    obtain ⟨rfl, rfl⟩ := gives_modifyDraft.mp hadd
    exact ⟨some tree, hpart, rfl⟩

end Drafting

/-! ### Steps within an element -/

namespace Reading

variable {α β : Type} {m : Reading α} {e : CurrentElement} {c c' : Cursor}

/-- The step succeeds within an element from a cursor. -/
protected def Gives (m : Reading α) (e : CurrentElement) (c : Cursor) (a : α) (c' : Cursor) :
    Prop :=
  XmlBinding.Gives (m.run e) c a c'

/-- A step that returns a value changes nothing. -/
theorem gives_pure {a b : α} : Reading.Gives (pure a) e c b c' ↔ b = a ∧ c' = c :=
  XmlBinding.gives_pure

/-- Two steps succeed if the first does and the second does from where it ended. -/
theorem gives_bind {f : α → Reading β} {b : β} :
    Reading.Gives (m >>= f) e c b c' ↔
      ∃ a c₁, Reading.Gives m e c a c₁ ∧ Reading.Gives (f a) e c₁ b c' := by
  unfold Reading.Gives
  rw [ReaderT.run_bind, XmlBinding.gives_bind]

end Reading

end XmlBinding

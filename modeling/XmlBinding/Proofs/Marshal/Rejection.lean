import XmlBinding.Proofs.Marshal.InStep
import XmlBinding.Proofs.RoundTrip.Writing

/-!
# Child elements with one problem

A value that has no text, or whose own type does not narrow the structure that is declared for it,
is rejected: it has no element, its parent stays as it is, and one problem is noted
(`Context.IsGenerated.rejects`). Whether a step notes just one problem follows from its parts, all
but one of which note none.
-/

namespace XmlBinding

/-! ### Steps with one problem -/

/-- From every log the step succeeds and notes just the given problem, and its result has a
property. -/
def Remarks {α : Type} (m : Writing α) (problem : Problem) (P : α → Prop) : Prop :=
  ∀ log, ∃ a log', Gives m log a log' ∧
    log'.diagnostics = log.diagnostics ++ [⟨problem, none⟩] ∧ P a

namespace Drafting

variable {α β : Type} {m : Drafting α} {problem : Problem} {P : α → Prop} {R : β → Prop}

/-- From every draft and log the step succeeds and notes just the given problem, and its result has
a property. -/
def Remarks (m : Drafting α) (problem : Problem) (P : α → Prop) : Prop :=
  ∀ d log, ∃ a d' log', Drafting.Gives m d log a d' log' ∧
    log'.diagnostics = log.diagnostics ++ [⟨problem, none⟩] ∧ P a

/-- Noting a problem is all there is to it. -/
theorem remarks_report (problem : Problem) : Remarks (report problem) problem fun _ ↦ True :=
  fun _ _ ↦ ⟨(), _, _, gives_report.mpr ⟨rfl, rfl⟩, rfl, trivial⟩

/-- The problem of the second step is the only one if the first has none. -/
theorem Quietly.remarks {f : α → Drafting β} (hm : Quietly m P)
    (hf : ∀ a, P a → Remarks (f a) problem R) : Remarks (m >>= f) problem R := by
  intro d log
  obtain ⟨a, d₁, log₁, hg, hlog, ha⟩ := hm d log
  obtain ⟨b, d', log', hg', hlog', hb⟩ := hf a ha d₁ log₁
  refine ⟨b, d', log', gives_bind.mpr ⟨a, d₁, log₁, hg, hg'⟩, ?_, hb⟩
  rw [hlog', hlog]

/-- The problem of the first step is the only one if the second has none. -/
theorem Remarks.quietly {f : α → Drafting β} (hm : Remarks m problem P)
    (hf : ∀ a, P a → Quietly (f a) R) : Remarks (m >>= f) problem R := by
  intro d log
  obtain ⟨a, d₁, log₁, hg, hlog, ha⟩ := hm d log
  obtain ⟨b, d', log', hg', hlog', hb⟩ := hf a ha d₁ log₁
  refine ⟨b, d', log', gives_bind.mpr ⟨a, d₁, log₁, hg, hg'⟩, ?_, hb⟩
  rw [hlog', hlog]

/-- The problem in filling an element is the only one in making it. -/
private theorem remarks_build {outer : NamespaceScope} {name : QName} {body : Drafting Bool}
    {kept : Bool} (h : Remarks body problem (· = kept)) :
    XmlBinding.Remarks (build outer name body) problem fun out ↦ out.isSome = kept := by
  intro log
  have hall : Remarks (prefixFor name.uri >>= fun _ ↦ body) problem (· = kept) :=
    (quietly_prefixFor _).remarks fun _ _ ↦ h
  obtain ⟨b, d', log', hg, hlog, rfl⟩ := hall (.start outer name) log
  refine ⟨_, log', XmlBinding.gives_bind.mpr
    ⟨(b, d'), log', hg, XmlBinding.gives_pure.mpr ⟨rfl, rfl⟩⟩, hlog, ?_⟩
  cases b <;> rfl

end Drafting

/-! ### Values without a text -/

/-- A type of text that refuses a value prints an error in place of it, and does nothing else. -/
private theorem BindingType.Refuses.print {t : BindingType} {value : Value} (h : t.Refuses value)
    (hs : t.isSimple = true) : ∃ cause, t.print value = Pure.pure (.error cause) := by
  unfold BindingType.isSimple at hs
  unfold BindingType.print
  cases hkind : t.kind with
  | builtin space =>
    obtain ⟨cause, hcause⟩ := h (t.name.codec space) (by rw [BindingType.codec?, hkind])
    refine ⟨cause, ?_⟩
    dsimp only
    rw [Codec.printText, hcause]
  | byName base properties =>
    rw [hkind] at hs
    cases hs
  | list item itemElement =>
    rw [hkind] at hs
    cases hs
  | polymorphic base subtypes => exact ⟨_, rfl⟩

namespace Context

open Drafting

variable {c : Context} {value : Value} {declared : BindingType} {problem : Problem}

/-- Filling an element with a value that has no text notes that, and keeps the element at the root
only. -/
private theorem remarks_fill_of_refuses {type : BindingType} (hs : type.isSimple = true)
    (h : type.Refuses value) (name : QName) : ∃ cause, ∀ (isRoot : Bool) (s : WriteSession),
      Drafting.Remarks (fill ⟨type.isSimple, type.print, type.write s⟩ isRoot name value)
        (.element name cause) (· = isRoot) := by
  obtain ⟨cause, hprint⟩ := h.print hs
  refine ⟨cause, fun isRoot s ↦ ?_⟩
  unfold fill
  rw [if_pos hs]
  dsimp only
  rw [hprint]
  exact (quietly_pure (P := (· = .error cause)) rfl).remarks fun r hr ↦ by
    subst hr
    exact (remarks_report _).quietly fun _ _ ↦ quietly_pure rfl

/-- The problem in filling the element of a value is the only one in making it. -/
theorem IsGenerated.remarks_element (hc : c.IsGenerated)
    (ht : c.catalog.typeNamed? declared.name = some declared) (hnull : value.isNull = false)
    {effective : Effective} (he : c.effectiveType value declared = .ok effective)
    {position : Position} {name : QName} {kept : Bool}
    (hfill : ∀ s, Drafting.Remarks
      (fill ⟨effective.type.isSimple, effective.type.print, effective.type.write s⟩ position.isRoot
        name value) problem (· = kept)) (strict : Bool) (depth : Nat) (outer : NamespaceScope) :
    XmlBinding.Remarks (c.element strict (depth + 1) outer position name value declared) problem
      fun out ↦ out.isSome = kept := by
  rw [element_succ c strict depth outer position name hnull]
  obtain ⟨n, hmax⟩ := c.maxHandovers_eq
  unfold valueElement
  rw [he, hmax]
  dsimp only
  rw [hc.writer?, typeNamed?_of_effectiveType ht he]
  apply remarks_build
  split
  · exact (quietly_markType _).remarks fun _ _ ↦ hfill _
  · exact hfill _

/-! ### Values that are rejected -/

/-- The value is rejected as a child: whatever the draft and the log are, the draft stays as it is,
and one error is noted. -/
def Rejects (c : Context) (strict : Bool) (depth : Nat) (name : QName) (value : Value)
    (declared : BindingType) (nillable : Bool) : Prop :=
  ∃ problem : Problem, problem.severity = .error ∧ ∀ d log, ∃ generated,
    Drafting.Gives (c.writeChild strict depth name value declared nillable) d log () d
      ⟨generated, log.diagnostics ++ [⟨problem, none⟩]⟩

/-- A child that is rejected adds nothing to the content of its parent. -/
theorem Rejects.length_content {strict : Bool} {depth : Nat} {name : QName} {nillable : Bool}
    (h : c.Rejects strict depth name value declared nillable) (d : Draft) (log : WriteLog) :
    (((c.writeChild strict depth name value declared nillable).run d).run.run log).1.toOption.map
      (·.2.content.length) = some d.content.length := by
  obtain ⟨problem, -, hrun⟩ := h
  obtain ⟨generated, hg⟩ := hrun d log
  unfold Drafting.Gives XmlBinding.Gives at hg
  rw [hg]
  rfl

/-- The element of a value that is left out is not made, and one error is noted, the same
everywhere. -/
theorem IsGenerated.remarks_of_leavesOut (hc : c.IsGenerated)
    (ht : c.catalog.typeNamed? declared.name = some declared) (hnull : value.isNull = false)
    (h : c.LeavesOut value declared) (name : QName) :
    ∃ problem : Problem, problem.severity = .error ∧ ∀ strict depth outer nillable,
      XmlBinding.Remarks (c.element strict (depth + 1) outer (.child nillable) name value declared)
        problem (· = none) := by
  unfold LeavesOut at h
  cases he : c.effectiveType value declared with
  | error found =>
    refine ⟨.notNarrowing name found.name declared.name, rfl, fun strict depth outer nillable ↦ ?_⟩
    rw [element_succ c strict depth outer _ name hnull]
    unfold valueElement
    rw [he]
    exact fun log ↦ ⟨none, _, rfl, rfl, rfl⟩
  | ok effective =>
    rw [he] at h
    obtain ⟨hs, hrefuses⟩ := h
    obtain ⟨cause, hfill⟩ := remarks_fill_of_refuses hs hrefuses name
    refine ⟨.element name cause, rfl, fun strict depth outer nillable log ↦ ?_⟩
    obtain ⟨out, log', hg, hlog, hout⟩ := hc.remarks_element ht hnull he
      (hfill (Position.child nillable).isRoot) strict depth outer log
    refine ⟨out, log', hg, hlog, ?_⟩
    cases out with
    | none => rfl
    | some tree => cases hout

/-- A child that gives an element from every log gives it to the draft of its parent. -/
theorem gives_writeChild {strict : Bool} {depth : Nat} {d : Draft} {log log' : WriteLog}
    {name : QName} {nillable : Bool} {out : Option Tree}
    (h : XmlBinding.Gives (c.element strict depth d.scope (.child nillable) name value declared) log
      out log') :
    Drafting.Gives (c.writeChild strict depth name value declared nillable) d log ()
      (out.elim d d.add) log' := by
  refine Drafting.gives_bind.mpr ⟨d, d, log, Drafting.gives_getDraft.mpr ⟨rfl, rfl, rfl⟩, ?_⟩
  refine Drafting.gives_bind.mpr ⟨out, d, log', Drafting.gives_lift.mpr ⟨h, rfl⟩, ?_⟩
  cases out with
  | none => exact Drafting.gives_pure.mpr ⟨rfl, rfl, rfl⟩
  | some tree => exact Drafting.gives_modifyDraft.mpr ⟨rfl, rfl⟩

/-- A value that is left out is rejected. -/
theorem IsGenerated.rejects (hc : c.IsGenerated)
    (ht : c.catalog.typeNamed? declared.name = some declared) (hnull : value.isNull = false)
    (h : c.LeavesOut value declared) (strict : Bool) (depth : Nat) (name : QName)
    (nillable : Bool) : c.Rejects strict (depth + 1) name value declared nillable := by
  obtain ⟨problem, hsevere, hremarks⟩ := hc.remarks_of_leavesOut ht hnull h name
  refine ⟨problem, hsevere, fun d log ↦ ?_⟩
  obtain ⟨out, ⟨generated, diagnostics⟩, hg, hlog, rfl⟩ :=
    hremarks strict depth d.scope nillable log
  dsimp only at hlog
  subst hlog
  exact ⟨generated, gives_writeChild hg⟩

end Context

end XmlBinding

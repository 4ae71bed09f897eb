import XmlBinding.Proofs.Context.Order
import XmlBinding.Proofs.Marshal.InStep
import XmlBinding.Proofs.Unmarshal.InStep

/-!
# Strict calls

A call may be told to end at a type without a binding. That is all that it changes: until the first
such type is met, the strict call and the lenient one run alike, and the strict one does not survive
it (`Hardens`). Calls that write and calls that read are taken apart alike. The two calls need not
set lists in the same order: what that changes is told in `Context.strict_hardens`.
-/

namespace XmlBinding

/-! ### Two runs -/

section Hardens

variable {σ α β : Type} {log : σ → List Diagnostic}

/-- From any state, the strict step runs as the lenient one does, unless that one notes that a
binding type is missing; then the strict step fails. -/
def Hardens (log : σ → List Diagnostic) (strict lenient : ExceptT Error (StateM σ) α) : Prop :=
  ∀ s, ∃ new, log (lenient.run.run s).2 = log s ++ new ∧
    ((∀ d ∈ new, d.problem.isResolution = false) → strict.run.run s = lenient.run.run s) ∧
    ((∃ d ∈ new, d.problem.isResolution = true) → ∃ error s', strict.run.run s = (.error error, s'))

/-- A step that notes no missing binding type does not depend on what is done about one. -/
theorem hardens_self {m : ExceptT Error (StateM σ) α}
    (h : ∀ s, ∃ new, log (m.run.run s).2 = log s ++ new ∧
      ∀ d ∈ new, d.problem.isResolution = false) : Hardens log m m := by
  intro s
  obtain ⟨new, hnew, hnone⟩ := h s
  refine ⟨new, hnew, fun _ ↦ rfl, fun ⟨d, hd, hr⟩ ↦ ?_⟩
  rw [hnone d hd] at hr
  cases hr

/-- A step that notes nothing. -/
theorem hardens_of_log_eq {m : ExceptT Error (StateM σ) α}
    (h : ∀ s, log (m.run.run s).2 = log s) : Hardens log m m :=
  hardens_self fun s ↦ ⟨[], by rw [h, List.append_nil], by simp⟩

/-- Steps one after the other: the first missing binding type ends the strict run. -/
theorem Hardens.bind {m m' : ExceptT Error (StateM σ) α} {f f' : α → ExceptT Error (StateM σ) β}
    (hm : Hardens log m m') (hf : ∀ a, Hardens log (f a) (f' a)) :
    Hardens log (m >>= f) (m' >>= f') := by
  intro s
  obtain ⟨new, hnew, hsame, hfails⟩ := hm s
  -- Whatever the second step notes, the strict run is over if the first one met a missing type.
  have hover (h : ∃ d ∈ new, d.problem.isResolution = true) :
      ∃ error s', (m >>= f).run.run s = (.error error, s') := by
    obtain ⟨error, s', herror⟩ := hfails h
    exact ⟨error, s', by rw [run_bind, herror]⟩
  rcases hfirst : m'.run.run s with ⟨r, s₁⟩
  rw [hfirst] at hnew hsame
  cases r with
  | error error =>
    have hrun : (m' >>= f').run.run s = (.error error, s₁) := by rw [run_bind, hfirst]
    rw [hrun]
    refine ⟨new, hnew, fun hnone ↦ ?_, hover⟩
    rw [run_bind, hsame hnone]
  | ok a =>
    have hrun : (m' >>= f').run.run s = (f' a).run.run s₁ := by rw [run_bind, hfirst]
    rw [hrun]
    obtain ⟨more, hmore, hsame', hfails'⟩ := hf a s₁
    refine ⟨new ++ more, by rw [hmore, hnew, List.append_assoc], fun hnone ↦ ?_, ?_⟩
    · rw [run_bind, hsame fun d hd ↦ hnone d (List.mem_append_left _ hd)]
      exact hsame' fun d hd ↦ hnone d (List.mem_append_right _ hd)
    · rintro ⟨d, hd, hr⟩
      by_cases hany : ∃ d ∈ new, d.problem.isResolution = true
      · exact hover hany
      · have hnone : ∀ d ∈ new, d.problem.isResolution = false :=
          fun d hd ↦ Bool.eq_false_iff.mpr fun h ↦ hany ⟨d, hd, h⟩
        rw [run_bind, hsame hnone]
        refine hfails' ⟨d, (List.mem_append.mp hd).resolve_left fun hn ↦ ?_, hr⟩
        exact hany ⟨d, hn, hr⟩

end Hardens

/-! ### Reading -/

namespace Reading

variable {α β : Type}

/-- Strict and lenient reading within any element. -/
protected def Hardens (strict lenient : Reading α) : Prop :=
  ∀ e, XmlBinding.Hardens Cursor.diagnostics (strict.run e) (lenient.run e)

/-- Steps one after the other. -/
theorem Hardens.bind {m m' : Reading α} {f f' : α → Reading β} (hm : Reading.Hardens m m')
    (hf : ∀ a, Reading.Hardens (f a) (f' a)) : Reading.Hardens (m >>= f) (m' >>= f') := by
  intro e
  rw [ReaderT.run_bind, ReaderT.run_bind]
  exact (hm e).bind fun a ↦ hf a e

/-- A step that notes nothing. -/
theorem hardens_of_diagnostics_eq {m : Reading α}
    (h : ∀ e c, ((m.run e).run.run c).2.diagnostics = c.diagnostics) : Reading.Hardens m m :=
  fun e ↦ hardens_of_log_eq (h e)

/-- Noting a problem that is not for want of a binding type. -/
theorem hardens_report {problem : Problem} (h : problem.isResolution = false) :
    Reading.Hardens (report problem) (report problem) := fun e ↦ hardens_self fun c ↦
  ⟨[⟨problem, e.location.or c.location⟩], rfl, by simp [h]⟩

/-- Going on with given events. -/
theorem hardens_goOn (rest : List LocatedEvent) : Reading.Hardens (goOn rest) (goOn rest) :=
  hardens_of_diagnostics_eq fun _ _ ↦ rfl

/-- Asking for the cursor. -/
theorem hardens_cursor : Reading.Hardens (getThe Cursor) (getThe Cursor) :=
  hardens_of_diagnostics_eq fun _ _ ↦ rfl

/-- Returning a value. -/
theorem hardens_pure (a : α) : Reading.Hardens (pure a) (pure a) :=
  hardens_of_diagnostics_eq fun _ _ ↦ rfl

/-- Failing. -/
theorem hardens_throw (error : Error) :
    Reading.Hardens (throw error : Reading α) (throw error) :=
  hardens_of_diagnostics_eq fun _ _ ↦ rfl

private theorem hardens_text : Reading.Hardens text text := by
  refine hardens_cursor.bind fun c ↦ ?_
  dsimp only
  split
  · exact (hardens_goOn _).bind fun _ ↦ hardens_pure _
  · split
    · refine Hardens.bind ((hardens_goOn _).bind fun _ ↦ hardens_report rfl) fun _ ↦ ?_
      exact (hardens_goOn _).bind fun _ ↦ hardens_pure _
    · exact (hardens_goOn _).bind fun _ ↦ hardens_pure _

private theorem hardens_nextChildFrom (events : List LocatedEvent) :
    Reading.Hardens (nextChildFrom events) (nextChildFrom events) := by
  induction events with
  | nil => exact (hardens_goOn []).bind fun _ ↦ hardens_pure none
  | cons e rest ih =>
    obtain ⟨event, location⟩ := e
    refine (hardens_goOn _).bind fun _ ↦ ?_
    cases event with
    | opening name attributes declarations => exact hardens_pure _
    | closing name => exact hardens_pure none
    | text s =>
      dsimp only
      split
      · exact (hardens_report rfl).bind fun _ ↦ ih
      · exact ih

private theorem hardens_leaveFrom (depth : Nat) (events : List LocatedEvent) :
    Reading.Hardens (leaveFrom depth events) (leaveFrom depth events) := by
  induction events generalizing depth with
  | nil =>
    refine (hardens_goOn []).bind fun _ ↦ ?_
    exact Hardens.bind (hardens_of_diagnostics_eq fun _ _ ↦ rfl) fun _ ↦ hardens_throw _
  | cons e rest ih =>
    obtain ⟨event, location⟩ := e
    cases event with
    | opening name attributes declarations =>
      cases depth with
      | zero => exact (hardens_goOn _).bind fun _ ↦ (hardens_report rfl).bind fun _ ↦ ih 1
      | succ depth => exact ih (depth + 2)
    | text s =>
      cases depth with
      | zero => exact ih 0
      | succ depth => exact ih (depth + 1)
    | closing name =>
      cases depth with
      | zero => exact hardens_goOn rest
      | succ depth => exact ih depth

private theorem inStep_hardens {child child' : BindingType → Reading Value}
    (h : ∀ type, Reading.Hardens (child type) (child' type)) :
    Reading.InStep Reading.Hardens true false child child' where
  pure := hardens_pure
  bind := Hardens.bind
  current := hardens_of_diagnostics_eq fun _ _ ↦ rfl
  cursor := hardens_cursor
  report _ hp := hardens_report hp
  text := hardens_text
  nextChild? := hardens_cursor.bind fun c ↦ hardens_nextChildFrom c.rest
  skipElement := hardens_of_diagnostics_eq fun _ _ ↦ rfl
  missing error problem hp := fun e c ↦
    ⟨[⟨problem, e.location.or c.location⟩], rfl, by simp [hp], fun _ ↦ ⟨error, c, rfl⟩⟩
  child := h

end Reading

namespace Context

variable {c : Context}

/-- A strict call reads an element as a lenient one does, up to the first missing binding type. -/
private theorem IsGenerated.hardens_readElement (hc : c.IsGenerated) (depth : Nat)
    (outer : NamespaceScope) (declared : Option BindingType) :
    Hardens Cursor.diagnostics (c.readElement true depth outer declared)
      (c.readElement false depth outer declared) := by
  induction depth generalizing outer declared with
  | zero => exact hardens_of_log_eq fun _ ↦ rfl
  | succ depth ih =>
    have hchild (type : BindingType) :
        Reading.Hardens (c.readChild true depth type) (c.readChild false depth type) :=
      fun e ↦ ih e.scope (some type)
    have hbody (name : QName) : Reading.Hardens (c.readBody true depth declared name)
        (c.readBody false depth declared name) := by
      refine (hc.inStep_readValue (Reading.inStep_hardens hchild) name
        fun _ _ error ↦ Reading.hardens_throw error).bind fun v ↦ ?_
      refine Reading.Hardens.bind ?_ fun _ ↦ Reading.hardens_pure v
      exact Reading.hardens_cursor.bind fun cursor ↦ Reading.hardens_leaveFrom 0 cursor.rest
    rintro ⟨events, diagnostics⟩
    rcases opening_cases events with
      ⟨texts, name, attributes, declarations, location, rest, rfl, ht⟩ | hnone
    · rw [run_readElement ht, run_readElement ht]
      exact hbody name _ _
    · rw [run_readElement_of_not_opening hnone, run_readElement_of_not_opening hnone]
      exact ⟨[], by simp, fun _ ↦ rfl, by simp⟩

/-- A strict call reads a document as a lenient one does, up to the first missing binding type. -/
theorem IsGenerated.hardens_readRoot (hc : c.IsGenerated) (declared : Option BindingType) :
    Hardens Cursor.diagnostics (c.readRoot true declared) (c.readRoot false declared) :=
  Hardens.bind (hardens_of_log_eq fun _ ↦ rfl) fun cursor ↦
    hc.hardens_readElement cursor.rest.length .empty declared

/-! ### Writing -/

private theorem inStep_hardens : Writing.InStep (Hardens WriteLog.diagnostics) true false where
  pure _ := hardens_of_log_eq fun _ ↦ rfl
  bind := Hardens.bind
  log := hardens_of_log_eq fun _ ↦ rfl
  number _ := hardens_of_log_eq fun _ ↦ rfl
  note problem hp := hardens_self fun _ ↦ ⟨[⟨problem, none⟩], rfl, by simp [hp]⟩
  missing name := fun log ↦
    ⟨[⟨.unresolvedType name, none⟩], rfl, by simp [Problem.isResolution],
      fun _ ↦ ⟨.unresolvedType name, log, rfl⟩⟩

/-- A strict call makes the root of a document as a lenient one does, up to the first missing
binding type. -/
private theorem IsGenerated.hardens_root (hc : c.IsGenerated) (marked : Bool) (depth : Nat)
    (outer : NamespaceScope) (name : QName) (value : Value) (declared : BindingType) :
    Hardens WriteLog.diagnostics
      (c.element true (depth + 1) outer (.root marked) name value declared)
      (c.element false (depth + 1) outer (.root marked) name value declared) := by
  cases hv : value.isNull with
  | true =>
    unfold element
    rw [if_pos hv, if_pos hv]
    exact inStep_hardens.nullElement outer name
  | false =>
    rw [element_succ c true depth outer _ name hv, element_succ c false depth outer _ name hv]
    obtain ⟨n, hmax⟩ := c.maxHandovers_eq
    rw [hmax]
    unfold valueElement
    cases c.effectiveType value declared with
    | error found => exact hardens_of_log_eq fun _ ↦ rfl
    | ok effective =>
      dsimp only
      rw [hc.writer?, hc.writer?]
      cases c.catalog.typeNamed? effective.type.name with
      | none => exact hardens_of_log_eq fun _ ↦ rfl
      | some type =>
        refine hc.inStep_build inStep_hardens ?_ n effective type outer _ name value
        exact steps_writeChild inStep_hardens (hc.inStep_element inStep_hardens depth)

/-- A strict call makes a document as a lenient one does, up to the first missing binding type. -/
theorem IsGenerated.hardens_document (hc : c.IsGenerated) (marked : Bool) (name : QName)
    (value : Value) (declared : BindingType) :
    Hardens WriteLog.diagnostics (c.document true marked name value declared)
      (c.document false marked name value declared) :=
  (hc.hardens_root marked value.height .empty name value declared).bind fun _ ↦
    hardens_of_log_eq fun _ ↦ rfl

end Context

/-! ### Calls -/

/-- What a strict call comes to, given what the same call comes to if it is lenient. -/
structure Outcome.Hardens {α : Type} (strict lenient : Outcome α) : Prop where
  /-- The strict call succeeds if the lenient one does and misses no binding type. -/
  succeeds : (∃ a, strict.result = .ok a) ↔
    (∃ a, lenient.result = .ok a) ∧ ∀ d ∈ lenient.raised, d.problem.isResolution = false
  /-- Then both have the same result, and raise the same diagnostics in the same order. -/
  same (a : α) (h : strict.result = .ok a) :
    lenient.result = .ok a ∧ strict.raised = lenient.raised
  /-- If the lenient call fails and misses no binding type, the strict one fails alike. -/
  fails (error : Error) (h : lenient.result = .error error)
    (hnone : ∀ d ∈ lenient.raised, d.problem.isResolution = false) : strict.result = .error error

namespace Outcome

variable {α : Type}

/-- What comes of two calls that are the same unless a binding type is missing. -/
theorem hardens_of {strict lenient : Outcome α}
    (hsame : (∀ d ∈ lenient.raised, d.problem.isResolution = false) → strict = lenient)
    (hfails : (∃ d ∈ lenient.raised, d.problem.isResolution = true) →
      ∃ error, strict.result = .error error) : strict.Hardens lenient := by
  have hclean (a : α) (ha : strict.result = .ok a) :
      ∀ d ∈ lenient.raised, d.problem.isResolution = false := by
    refine fun d hd ↦ Bool.eq_false_iff.mpr fun hr ↦ ?_
    obtain ⟨error, herror⟩ := hfails ⟨d, hd, hr⟩
    rw [ha] at herror
    cases herror
  refine ⟨⟨?_, ?_⟩, ?_, ?_⟩
  · rintro ⟨a, ha⟩
    have hnone := hclean a ha
    rw [hsame hnone] at ha
    exact ⟨⟨a, ha⟩, hnone⟩
  · rintro ⟨⟨a, ha⟩, hnone⟩
    exact ⟨a, by rw [hsame hnone, ha]⟩
  · intro a ha
    have he := hsame (hclean a ha)
    rw [he] at ha ⊢
    exact ⟨ha, rfl⟩
  · intro error herror hnone
    rw [hsame hnone, herror]

/-- What comes of steps that write. -/
theorem hardens_ofWriting {w w' : Writing α} (h : XmlBinding.Hardens WriteLog.diagnostics w w') :
    (ofWriting w).Hardens (ofWriting w') := by
  obtain ⟨new, hnew, hsame, hfails⟩ := h ⟨0, []⟩
  have hraised : (ofWriting w').raised = new := hnew
  refine hardens_of (fun hnone ↦ ?_) fun hany ↦ ?_
  · rw [hraised] at hnone
    unfold ofWriting
    rw [hsame hnone]
  · rw [hraised] at hany
    obtain ⟨error, log, herror⟩ := hfails hany
    exact ⟨error, congrArg Prod.fst herror⟩

/-- What comes of steps that read. -/
theorem hardens_ofScanning {m m' : Scanning α} (h : XmlBinding.Hardens Cursor.diagnostics m m')
    (document : EventStream) :
    (ofScanning m document).Hardens (ofScanning m' document) := by
  obtain ⟨new, hnew, hsame, hfails⟩ := h ⟨document.entries, []⟩
  have hraised : (ofScanning m' document).raised = new := hnew
  refine hardens_of (fun hnone ↦ ?_) fun hany ↦ ?_
  · rw [hraised] at hnone
    unfold ofScanning
    rw [hsame hnone]
  · rw [hraised] at hany
    obtain ⟨error, cursor, herror⟩ := hfails hany
    exact ⟨error, congrArg Prod.fst herror⟩

end Outcome

/-- A call that differs from another one only as a strict one does, does so whatever it returns. -/
theorem Outcome.Hardens.forget {α : Type} {strict lenient : Outcome α}
    (h : strict.Hardens lenient) : strict.forget.Hardens lenient.forget := by
  have hok (o : Outcome α) : (∃ u, o.forget.result = .ok u) ↔ ∃ a, o.result = .ok a := by
    unfold Outcome.forget
    cases o.result with
    | ok a => exact ⟨fun _ ↦ ⟨a, rfl⟩, fun _ ↦ ⟨(), rfl⟩⟩
    | error error => exact ⟨fun ⟨_, he⟩ ↦ (nomatch he), fun ⟨_, he⟩ ↦ (nomatch he)⟩
  refine ⟨?_, fun u hu ↦ ?_, fun error herror hnone ↦ ?_⟩
  · rw [hok, hok]
    exact h.succeeds
  · obtain ⟨a, ha⟩ := (hok strict).mp ⟨u, hu⟩
    obtain ⟨hlenient, hraised⟩ := h.same a ha
    exact ⟨congrArg (Except.map fun _ ↦ ()) hlenient, hraised⟩
  · have hlenient : lenient.result = .error error := by
      unfold Outcome.forget at herror
      cases hr : lenient.result with
      | ok a =>
        rw [hr] at herror
        cases herror
      | error found =>
        rw [hr] at herror
        cases herror
        rfl
    exact congrArg (Except.map fun _ ↦ ()) (h.fails error hlenient hnone)

namespace Context

section Calls

variable {c : Context} {on off : Options}

/-- A strict call that writes a value of a declared type. -/
theorem IsGenerated.hardens_marshalType (hc : c.IsGenerated) (hon : c.isStrict on = true)
    (hoff : c.isStrict off = false) (value : Value) (name : QName) (declared : BindingName) :
    (c.marshalType on value name declared).Hardens (c.marshalType off value name declared) := by
  unfold marshalType
  rw [hon, hoff]
  refine Outcome.hardens_ofWriting ?_
  unfold marshalDeclared
  split
  · exact hc.hardens_document false name value _
  · exact hardens_of_log_eq fun _ ↦ rfl

/-- A strict call that writes a value by its own type. -/
theorem IsGenerated.hardens_marshal (hc : c.IsGenerated) (hon : c.isStrict on = true)
    (hoff : c.isStrict off = false) (value : Value) :
    (c.marshal on value).Hardens (c.marshal off value) := by
  unfold marshal
  rw [hon, hoff]
  refine Outcome.hardens_ofWriting ?_
  unfold marshalDetected
  split
  · exact hardens_of_log_eq fun _ ↦ rfl
  · split
    · exact hardens_of_log_eq fun _ ↦ rfl
    · split
      · exact hardens_of_log_eq fun _ ↦ rfl
      · split
        · exact hc.hardens_document false _ value _
        · exact hc.hardens_document true _ value _

/-- A strict call that reads a document of a declared type. -/
theorem IsGenerated.hardens_unmarshalType (hc : c.IsGenerated) (hon : c.isStrict on = true)
    (hoff : c.isStrict off = false) (declared : BindingName) (document : EventStream) :
    (c.unmarshalType on declared document).Hardens (c.unmarshalType off declared document) := by
  unfold unmarshalType
  rw [hon, hoff]
  refine Outcome.hardens_ofScanning ?_ document
  unfold unmarshalDeclared
  split
  · exact hc.hardens_readRoot (some _)
  · exact hardens_of_log_eq fun _ ↦ rfl

/-- A strict call that reads a document by its root element. -/
theorem IsGenerated.hardens_unmarshal (hc : c.IsGenerated) (hon : c.isStrict on = true)
    (hoff : c.isStrict off = false) (document : EventStream) :
    (c.unmarshal on document).Hardens (c.unmarshal off document) := by
  unfold unmarshal
  rw [hon, hoff]
  exact Outcome.hardens_ofScanning (hc.hardens_readRoot none) document

end Calls

/-- A strict call differs from a lenient one only in that it fails where that one notes a missing
binding type, whichever way it writes or reads. The order in which either call sets lists may be
another one: it shows in nothing but the value that is read, and there neither if the orders are the
same nor if lists have fields of different names. -/
theorem strict_hardens {settings : Settings} (h : settings.converters = [])
    (bundles : List Bundle) (order : ListOrder) {on off : Options}
    (hon : (make settings bundles).isStrict on = true)
    (hoff : (make settings bundles).isStrict off = false) :
    let c := make settings bundles
    let c' := c.inOrder order
    (∀ value name declared,
      (c.marshalType on value name declared).Hardens (c'.marshalType off value name declared)) ∧
    (∀ value, (c.marshal on value).Hardens (c'.marshal off value)) ∧
    (∀ declared document, (c.unmarshalType on declared document).forget.Hardens
      (c'.unmarshalType off declared document).forget) ∧
    (∀ document, (c.unmarshal on document).forget.Hardens (c'.unmarshal off document).forget) ∧
    (order = c.order ∨ c.NamesLists →
      (∀ declared document, (c.unmarshalType on declared document).Hardens
        (c'.unmarshalType off declared document)) ∧
      ∀ document, (c.unmarshal on document).Hardens (c'.unmarshal off document)) := by
  intro c c'
  have hc : c.IsGenerated := isGenerated_make h bundles
  refine ⟨fun value name declared ↦ ?_, fun value ↦ ?_, fun declared document ↦ ?_,
    fun document ↦ ?_, fun hn ↦ ?_⟩
  · rw [marshalType_inOrder]
    exact hc.hardens_marshalType hon hoff value name declared
  · rw [marshal_inOrder]
    exact hc.hardens_marshal hon hoff value
  · rw [hc.forget_unmarshalType]
    exact (hc.hardens_unmarshalType hon hoff declared document).forget
  · rw [hc.forget_unmarshal]
    exact (hc.hardens_unmarshal hon hoff document).forget
  · rcases hn with rfl | hn
    · exact ⟨hc.hardens_unmarshalType hon hoff, hc.hardens_unmarshal hon hoff⟩
    · refine ⟨fun declared document ↦ ?_, fun document ↦ ?_⟩
      · rw [hc.unmarshalType_inOrder off hn]
        exact hc.hardens_unmarshalType hon hoff declared document
      · rw [hc.unmarshal_inOrder off hn]
        exact hc.hardens_unmarshal hon hoff document

end Context

/-- The document of a shape that is marked with a type that there is not. -/
def Shapes.estranged : EventStream :=
  .ofEvents
    [.opening ⟨"urn:shapes", "shape"⟩ [⟨.typeMarker, "s:Square"⟩] [⟨"s", "urn:shapes"⟩],
      .closing ⟨"urn:shapes", "shape"⟩]

/-- A shape that is marked with a type that there is not is read as a shape by a lenient call, and
not at all by a strict one, in whichever order they set lists. -/
theorem Context.strict_hardens_shapes :
    Settings.default.converters = [] ∧ Shapes.context.isStrict ⟨some true, none⟩ = true ∧
      Shapes.context.isStrict ⟨some false, none⟩ = false ∧ Shapes.context.NamesLists ∧
      (Shapes.context.unmarshalType ⟨some true, none⟩ Shapes.shape Shapes.estranged).Hardens
        ((Shapes.context.inOrder .reversed).unmarshalType ⟨some false, none⟩ Shapes.shape
          Shapes.estranged) ∧
      (Shapes.context.unmarshalType ⟨some false, none⟩ Shapes.shape
        Shapes.estranged).result.isOk = true ∧
      (Shapes.context.unmarshalType ⟨some true, none⟩ Shapes.shape
        Shapes.estranged).result.isOk = false := by
  have hnone : Settings.default.converters = [] := rfl
  have hn : Shapes.context.NamesLists := namesLists_of_types (by decide +kernel)
  have hreads := (@strict_hardens .default hnone [⟨none, Shapes.descriptor, [], []⟩] .reversed
    ⟨some true, none⟩ ⟨some false, none⟩ rfl rfl).2.2.2.2 (.inr hn)
  exact ⟨hnone, rfl, rfl, hn, hreads.1 Shapes.shape Shapes.estranged, by decide +kernel,
    by decide +kernel⟩

/-- A figure of an edge and a corner is read as one of them by a strict call, and as the other one
by a lenient call that sets lists in another order, though no binding type is missing. -/
theorem Context.not_strict_hardens : ¬ ∀ (settings : Settings) (bundles : List Bundle)
    (order : ListOrder) (on off : Options) (declared : BindingName) (document : EventStream),
    settings.converters = [] → (make settings bundles).isStrict on = true →
    (make settings bundles).isStrict off = false →
    ((make settings bundles).unmarshalType on declared document).Hardens
      (((make settings bundles).inOrder order).unmarshalType off declared document) := by
  intro h
  have hsame := (h .default [Shapes.figures] .reversed ⟨some true, none⟩ ⟨some false, none⟩
    Shapes.figure Shapes.outline rfl rfl rfl).same
  obtain ⟨hstrict, -⟩ := Shapes.scalars_outline true
  obtain ⟨-, hlenient⟩ := Shapes.scalars_outline false
  cases hread : ((make .default [Shapes.figures]).unmarshalType ⟨some true, none⟩ Shapes.figure
    Shapes.outline).result with
  | error error =>
    rw [hread] at hstrict
    cases hstrict
  | ok value =>
    rw [hread] at hstrict
    rw [(hsame value hread).1] at hlenient
    exact absurd (hstrict.symm.trans hlenient) (by decide)

end XmlBinding

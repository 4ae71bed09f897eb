import XmlBinding.Proofs.Unmarshal.Element
import XmlBinding.Proofs.Unmarshal.InStep
import XmlBinding.Proofs.Unmarshal.Passing
import XmlBinding.Proofs.Unmarshal.Soundness

/-!
# How far reading goes

Of whatever events there are, reading an element takes text and one element, or it fails. The bounds
on the recursion and on the number of child elements follow the number of events, and as every step
takes events off the front, neither of them is ever felt: `Reading.Agrees` compares runs that only
differ in their bounds.
-/

namespace XmlBinding

open Event

/-- The error is about the structure of the document. -/
def Error.IsStructural (error : Error) : Prop :=
  ∃ fault location, error = .structural fault location

namespace Reading

variable {α β : Type} {strict : Bool} {bound : Nat}

/-! ### Steps that take content -/

/-- However the step ends, it only took events off the front: content, or all that there were, if it
succeeds. Where a missing type is no error, it fails on account of structure alone. -/
def Disciplined (strict : Bool) (m : Reading α) : Prop :=
  ∀ e c r c', (m.run e).run.run c = (r, c') → ∃ passed, c.rest = passed ++ c'.rest ∧
    (∀ a, r = .ok a → IsContent (passed.map (·.event)) ∨ c'.rest = []) ∧
    ∀ error, r = .error error → strict = false → error.IsStructural

/-- What a step took that always succeeds. -/
theorem disciplined_of_gives {m : Reading α}
    (h : ∀ e c, ∃ a c' passed, Reading.Gives m e c a c' ∧ c.rest = passed ++ c'.rest ∧
      (IsContent (passed.map (·.event)) ∨ c'.rest = [])) : Disciplined strict m := by
  intro e c r c' hrun
  obtain ⟨a, c₁, passed, hgives, hpassed, hcontent⟩ := h e c
  cases hrun.symm.trans hgives
  exact ⟨passed, hpassed, fun _ _ ↦ hcontent, by simp⟩

private theorem disciplined_of_stays {m : Reading α}
    (h : ∀ e c, ∃ a diagnostics, Reading.Gives m e c a ⟨c.rest, diagnostics⟩) :
    Disciplined strict m :=
  disciplined_of_gives fun e c ↦
    have ⟨a, diagnostics, hgives⟩ := h e c
    ⟨a, ⟨c.rest, diagnostics⟩, [], hgives, rfl, .inl rfl⟩

/-- Two steps take what the first took and then what the second did. -/
private theorem Disciplined.bind {m : Reading α} {f : α → Reading β} (hm : Disciplined strict m)
    (hf : ∀ a, Disciplined strict (f a)) : Disciplined strict (m >>= f) := by
  intro e c r c' hrun
  rw [ReaderT.run_bind, run_bind] at hrun
  rcases hfirst : (m.run e).run.run c with ⟨r₁, c₁⟩
  rw [hfirst] at hrun
  obtain ⟨passed, hpassed, hok, herror⟩ := hm e c r₁ c₁ hfirst
  cases r₁ with
  | error error =>
    cases hrun
    exact ⟨passed, hpassed, by simp, fun _ he ↦ herror _ (by cases he; rfl)⟩
  | ok a =>
    obtain ⟨more, hmore, hok', herror'⟩ := hf a e c₁ r c' hrun
    refine ⟨passed ++ more, by rw [hpassed, hmore, List.append_assoc], fun b hb ↦ ?_, herror'⟩
    rcases hok a rfl with hcontent | hend
    · rcases hok' b hb with hcontent' | hend'
      · rw [List.map_append]
        exact .inl (@Balanced.append 0 0 _ _ hcontent hcontent')
      · exact .inr hend'
    · rw [hend] at hmore
      exact .inr (List.append_eq_nil_iff.mp hmore.symm).2

private theorem disciplined_text : Disciplined strict text := disciplined_of_gives fun e c ↦ by
  obtain ⟨diagnostics, hgives⟩ := @gives_text e c
  obtain ⟨passed, hpassed, hend⟩ := exists_textContent 0 c.rest
  exact ⟨_, _, passed, hgives, hpassed, hend⟩

/-- Texts side by side are content. -/
theorem isContent_texts {texts : List LocatedEvent} (h : ∀ e ∈ texts, e.isText = true) :
    IsContent (texts.map (·.event)) := by
  induction texts with
  | nil => rfl
  | cons e texts ih =>
    obtain ⟨event, location⟩ := e
    have htext := h _ List.mem_cons_self
    cases event with
    | opening name attributes declarations => cases htext
    | closing name => cases htext
    | text s => exact ih fun e he ↦ h e (List.mem_cons_of_mem _ he)

private theorem disciplined_nextChild? :
    Disciplined strict nextChild? := disciplined_of_gives fun e c ↦ by
  obtain ⟨diagnostics, hgives⟩ := @gives_nextChild? e c
  refine ⟨_, _, c.rest.takeWhile (·.isText), hgives, List.takeWhile_append_dropWhile.symm, .inl ?_⟩
  exact isContent_texts fun e he ↦ List.all_eq_true.mp List.all_takeWhile e he

/-- Of the events that are passed over with an element, never more are closings than openings, at no
point on the way. -/
theorem exists_afterElement (events : List LocatedEvent) :
    ∃ passed, events = passed ++ afterElement events ∧
      (IsContent (passed.map (·.event)) ∨ afterElement events = []) ∧
      ∀ part rest, passed = part ++ rest → 0 ≤ depthBehind (part.map (·.event)) := by
  have hnone (part rest : List LocatedEvent) (h : [] = part ++ rest) :
      0 ≤ depthBehind (part.map (·.event)) := by
    have hpart : part = [] := (List.append_eq_nil_iff.mp h.symm).1
    subst hpart
    exact Int.le_refl 0
  match events with
  | [] => exact ⟨[], rfl, .inl rfl, hnone⟩
  | ⟨.text _, _⟩ :: _ => exact ⟨[], rfl, .inl rfl, hnone⟩
  | ⟨.closing _, _⟩ :: _ => exact ⟨[], rfl, .inl rfl, hnone⟩
  | ⟨.opening name attributes declarations, location⟩ :: rest =>
    obtain ⟨passed, hpassed, hend, hcounts⟩ := exists_afterClosings 1 rest
    refine ⟨⟨.opening name attributes declarations, location⟩ :: passed,
      congrArg (_ :: ·) hpassed, hend, fun part behind h ↦ ?_⟩
    cases part with
    | nil => exact Int.le_refl 0
    | cons e part =>
      rw [List.cons_append, List.cons.injEq] at h
      have hpart := hcounts part behind h.2
      rw [List.map_cons, depthBehind_cons, ← h.1, deepening]
      omega

private theorem disciplined_skipElement : Disciplined strict skipElement :=
  disciplined_of_gives fun _ c ↦
    have ⟨passed, hpassed, hend, _⟩ := exists_afterElement c.rest
    ⟨(), ⟨afterElement c.rest, c.diagnostics⟩, passed, rfl, hpassed, hend⟩

/-! ### Runs that only differ in their bounds -/

/-- From any cursor with no more events than that, both steps run alike. -/
def Agrees (bound : Nat) (m m' : Reading α) : Prop :=
  ∀ e c, c.rest.length ≤ bound → (m.run e).run.run c = (m'.run e).run.run c

/-- Steps agree one after the other, as the first leaves no more events than there were. -/
theorem Agrees.bind {m m' : Reading α} {f f' : α → Reading β} (hd : Disciplined strict m)
    (hm : Agrees bound m m') (hf : ∀ a, Agrees bound (f a) (f' a)) :
    Agrees bound (m >>= f) (m' >>= f') := by
  intro e c hc
  rw [ReaderT.run_bind, ReaderT.run_bind, run_bind, run_bind, ← hm e c hc]
  rcases hfirst : (m.run e).run.run c with ⟨r, c₁⟩
  cases r with
  | error error => rfl
  | ok a =>
    obtain ⟨passed, hpassed, -⟩ := hd e c _ c₁ hfirst
    refine hf a e c₁ (Nat.le_trans ?_ hc)
    rw [hpassed, List.length_append]
    exact Nat.le_add_left _ _

/-- Both steps run alike, and keep to what they may take. -/
structure BothDisciplined (bound : Nat) (strict : Bool) (m m' : Reading α) : Prop where
  agrees : Agrees bound m m'
  disciplined : Disciplined strict m

/-- A step runs like itself. -/
theorem Disciplined.both {m : Reading α} (h : Disciplined strict m) :
    BothDisciplined bound strict m m := ⟨fun _ _ _ ↦ rfl, h⟩

/-- Sessions that read children alike are in step. -/
theorem inStep_bothDisciplined {child child' : BindingType → Reading Value}
    (h : ∀ type, BothDisciplined bound strict (child type) (child' type)) :
    Reading.InStep (BothDisciplined bound strict) strict strict child child' where
  pure a := (disciplined_of_stays fun _ c ↦ ⟨a, c.diagnostics, rfl⟩).both
  bind hm hf := ⟨hm.agrees.bind hm.disciplined fun a ↦ (hf a).agrees,
    hm.disciplined.bind fun a ↦ (hf a).disciplined⟩
  current := (disciplined_of_stays fun e c ↦ ⟨e, c.diagnostics, rfl⟩).both
  cursor := (disciplined_of_stays fun _ c ↦ ⟨c, c.diagnostics, rfl⟩).both
  report problem _ := (disciplined_of_stays fun _ _ ↦ ⟨(), _, rfl⟩).both
  text := disciplined_text.both
  nextChild? := disciplined_nextChild?.both
  skipElement := disciplined_skipElement.both
  missing error problem _ := by
    cases strict with
    | false => exact (disciplined_of_stays fun _ _ ↦ ⟨(), _, rfl⟩).both
    | true =>
      refine Disciplined.both fun e c r c' hrun ↦ ?_
      cases hrun
      exact ⟨[], rfl, by simp, by simp⟩
  child := h

/-! ### What comes next -/

/-- However a step ends, whatever is done next is done within the same element, from the cursor that
the step left behind. -/
theorem run_observing {m : Reading α} {next : Except Error α → Reading β} {e : CurrentElement}
    {c c' : Cursor} {r : Except Error α} (h : (m.run e).run.run c = (r, c')) :
    ((observing m >>= next).run e).run.run c = ((next r).run e).run.run c' := by
  have hobserved : ((observing m).run e).run.run c = (.ok r, c') := by
    change (ExceptT.tryCatch (m.run e >>= fun a ↦ pure (Except.ok a)) fun error ↦
      pure (Except.error error) : Scanning (Except Error α)).run.run c = _
    rw [run_tryCatch, run_bind, h]
    cases r <;> rfl
  rw [ReaderT.run_bind, run_bind, hobserved]

/-! ### The number of child elements -/

/-- Where an element opens, handling it takes at least one event. -/
def Advances (handle : QName → Reading (List α)) : Prop :=
  ∀ name e c a c', (c.rest.head?.bind (·.openedName?)).isSome = true →
    Reading.Gives (handle name) e c a c' → c'.rest.length < c.rest.length

/-- No bound on the number of child elements is felt that is at least the number of events. -/
theorem run_gatherUpTo {handle : QName → Reading (List α)} (h : Advances handle)
    (e : CurrentElement) (c : Cursor) (bound bound' : Nat) (hb : c.rest.length ≤ bound)
    (hb' : c.rest.length ≤ bound') :
    ((gatherUpTo handle bound).run e).run.run c = ((gatherUpTo handle bound').run e).run.run c := by
  induction bound generalizing bound' c with
  | zero =>
    obtain ⟨events, diagnostics⟩ := c
    have hnil : events = [] := List.eq_nil_of_length_eq_zero (Nat.le_zero.mp hb)
    subst hnil
    cases bound' <;> rfl
  | succ bound ih =>
    cases bound' with
    | zero =>
      obtain ⟨events, diagnostics⟩ := c
      have hnil : events = [] := List.eq_nil_of_length_eq_zero (Nat.le_zero.mp hb')
      subst hnil
      rfl
    | succ bound' =>
      obtain ⟨diagnostics, hnext⟩ := @gives_nextChild? e c
      have hlength : (c.rest.dropWhile (·.isText)).length ≤ c.rest.length :=
        (List.dropWhile_sublist _).length_le
      unfold gatherUpTo
      rw [ReaderT.run_bind, ReaderT.run_bind, run_bind, run_bind, hnext]
      dsimp only
      cases hname : (c.rest.dropWhile (·.isText)).head?.bind (·.openedName?) with
      | none => rfl
      | some name =>
        dsimp only
        rw [ReaderT.run_bind, ReaderT.run_bind, run_bind, run_bind]
        rcases hfirst : ((handle name).run e).run.run ⟨c.rest.dropWhile (·.isText), diagnostics⟩
          with ⟨r, c₁⟩
        cases r with
        | error error => rfl
        | ok first =>
          have hless := h name e _ first c₁ (by rw [hname]; rfl) hfirst
          dsimp only at hless ⊢
          rw [ReaderT.run_bind, ReaderT.run_bind, run_bind, run_bind,
            ih c₁ bound' (by omega) (by omega)]

end Reading

namespace Context

open Reading

variable {c : Context} {strict : Bool} {depth bound : Nat}

/-! ### Elements -/

/-- What is left of the events when reading an element has ended one way or the other: an element
behind texts was taken if there is a value. -/
structure TakesElement (strict : Bool) (before : List LocatedEvent) (r : Except Error Value)
    (after : List LocatedEvent) : Prop where
  taken (v : Value) (h : r = .ok v) : ∃ texts element, before = texts ++ element ++ after ∧
    (∀ e ∈ texts, e.isText = true) ∧ IsElement (element.map (·.event))
  suffix : ∃ passed, before = passed ++ after
  /-- Where a missing type is no error, only the structure of the events is to blame. -/
  structural (error : Error) (h : r = .error error) (hs : strict = false) : error.IsStructural

/-- A child element is content. -/
theorem TakesElement.disciplined {before after : List LocatedEvent} {r : Except Error Value}
    (h : TakesElement strict before r after) : ∃ passed, before = passed ++ after ∧
      (∀ v, r = .ok v → IsContent (passed.map (·.event)) ∨ after = []) ∧
      ∀ error, r = .error error → strict = false → error.IsStructural := by
  cases r with
  | error error =>
    obtain ⟨passed, hpassed⟩ := h.suffix
    exact ⟨passed, hpassed, by simp, h.structural⟩
  | ok v =>
    obtain ⟨texts, element, hbefore, htexts, helement⟩ := h.taken v rfl
    refine ⟨texts ++ element, hbefore, fun _ _ ↦ .inl ?_, h.structural⟩
    rw [List.map_append]
    exact @Balanced.append 0 0 _ _ (isContent_texts htexts) helement.isContent

private theorem IsGenerated.disciplined_readValue (hc : c.IsGenerated)
    {child : BindingType → Reading Value} (h : ∀ type, Disciplined strict (child type))
    (declared : BindingType) (name : QName) :
    Disciplined strict
      (c.readValue (c.readSession strict child c.maxHandovers) (some declared) name) := by
  have hboth (type : BindingType) : BothDisciplined 0 strict (child type) (child type) :=
    (h type).both
  have hstep := inStep_bothDisciplined hboth
  refine (hc.inStep_readValue hstep name fun hnone ↦ ?_).disciplined
  cases hnone

private theorem IsGenerated.readBody_takes (hc : c.IsGenerated)
    (h : ∀ type, Disciplined strict (c.readChild strict depth type)) {declared : BindingType}
    {name : QName} {e : CurrentElement} {cursor after : Cursor} {r : Except Error Value}
    (hrun : ((c.readBody strict depth (some declared) name).run e).run.run cursor = (r, after)) :
    (∀ v, r = .ok v → ∃ content closing location,
      cursor.rest = content ++ ⟨.closing closing, location⟩ :: after.rest ∧
        IsContent (content.map (·.event))) ∧
      (∃ passed, cursor.rest = passed ++ after.rest) ∧
      ∀ error, r = .error error → strict = false → error.IsStructural := by
  unfold readBody at hrun
  rw [ReaderT.run_bind, run_bind] at hrun
  rcases hvalue : ((c.readValue (c.readSession strict (c.readChild strict depth) c.maxHandovers)
    (some declared) name).run e).run.run cursor with ⟨r₁, c₁⟩
  rw [hvalue] at hrun
  obtain ⟨passed, hpassed, hok, herror⟩ := hc.disciplined_readValue h declared name e cursor r₁ c₁
    hvalue
  cases r₁ with
  | error error =>
    cases hrun
    exact ⟨by simp, ⟨passed, hpassed⟩, fun _ he ↦ herror _ (by cases he; rfl)⟩
  | ok v =>
    dsimp only at hrun
    rw [ReaderT.run_bind, run_bind] at hrun
    rcases @leaveFrom_cases e 0 c₁.rest c₁ with
      ⟨left, closing, location, rest, diagnostics, hleft, hbalanced, hgives⟩ |
      ⟨location, diagnostics, hend⟩
    · have hleave : (leave.run e).run.run c₁ = (.ok (), ⟨rest, diagnostics⟩) := hgives
      rw [hleave] at hrun
      cases hrun
      rw [hleft] at hpassed
      refine ⟨fun _ _ ↦ ⟨passed ++ left, closing, location, by rw [hpassed, List.append_assoc], ?_⟩,
        ⟨passed ++ (left ++ [⟨.closing closing, location⟩]), by simp [hpassed]⟩, by simp⟩
      rcases hok v rfl with hcontent | hnil
      · rw [List.map_append]
        exact @Balanced.append 0 0 _ _ hcontent hbalanced
      · rw [hnil] at hleft
        cases (List.append_eq_nil_iff.mp hleft.symm).2
    · have hleave : (leave.run e).run.run c₁ =
          (.error (.structural .unexpectedEnd location), ⟨[], diagnostics⟩) := hend
      rw [hleave] at hrun
      cases hrun
      exact ⟨by simp, ⟨cursor.rest, (List.append_nil _).symm⟩, fun _ he _ ↦
        ⟨_, _, (Except.error.inj he).symm⟩⟩

/-- Reading an element of a declared type takes texts and one element, or fails. -/
theorem IsGenerated.readElement_takes (hc : c.IsGenerated) {outer : NamespaceScope}
    {declared : BindingType} {cursor after : Cursor} {r : Except Error Value}
    (hrun : (c.readElement strict depth outer (some declared)).run.run cursor = (r, after)) :
    TakesElement strict cursor.rest r after.rest := by
  induction depth generalizing outer declared cursor after r with
  | zero =>
    cases hrun
    exact ⟨by simp, ⟨[], rfl⟩, fun _ he _ ↦ ⟨_, _, (Except.error.inj he).symm⟩⟩
  | succ depth ih =>
    have hchild (type : BindingType) : Disciplined strict (c.readChild strict depth type) :=
      fun e cursor r after hrun ↦ (ih hrun).disciplined
    obtain ⟨events, diagnostics⟩ := cursor
    rcases opening_cases events with
      ⟨texts, name, attributes, declarations, location, rest, rfl, ht⟩ | hnone
    · rw [run_readElement ht] at hrun
      obtain ⟨htaken, ⟨passed, hpassed⟩, hstructural⟩ := hc.readBody_takes hchild hrun
      dsimp only at htaken hpassed
      refine ⟨fun v hv ↦ ?_, ⟨texts ++ ⟨.opening name attributes declarations, location⟩ :: passed,
        by simp [hpassed]⟩, hstructural⟩
      obtain ⟨content, closing, location', hrest, hcontent⟩ := htaken v hv
      refine ⟨texts, ⟨.opening name attributes declarations, location⟩ ::
        (content ++ [⟨.closing closing, location'⟩]), by simp [hrest], ht, ?_⟩
      exact isElement_iff.mpr ⟨name, attributes, declarations, content.map (·.event), closing,
        by simp, hcontent⟩
    · rw [run_readElement_of_not_opening hnone] at hrun
      cases hrun
      exact ⟨by simp, ⟨events.takeWhile (·.isText), List.takeWhile_append_dropWhile.symm⟩,
        fun _ he _ ↦ ⟨_, _, (Except.error.inj he).symm⟩⟩

/-- From events that are no more than either bound on the depth, reading an element does not depend
on the bound. -/
theorem IsGenerated.readElement_agrees (hc : c.IsGenerated) {bound depth depth' : Nat}
    {outer : NamespaceScope} {declared : BindingType} {cursor : Cursor}
    (hb : cursor.rest.length ≤ bound) (hd : bound ≤ depth) (hd' : bound ≤ depth') :
    (c.readElement strict depth outer (some declared)).run.run cursor =
      (c.readElement strict depth' outer (some declared)).run.run cursor := by
  obtain ⟨events, diagnostics⟩ := cursor
  induction bound generalizing depth depth' outer declared events diagnostics with
  | zero =>
    have hnil : events = [] := List.eq_nil_of_length_eq_zero (Nat.le_zero.mp hb)
    subst hnil
    have hnone (depth : Nat) : (c.readElement strict depth outer (some declared)).run.run
        ⟨[], diagnostics⟩ = (.error (.structural .expectedOpening none), ⟨[], diagnostics⟩) := by
      cases depth with
      | zero => rfl
      | succ depth => exact run_readElement_of_not_opening (by simp)
    rw [hnone, hnone]
  | succ bound ih =>
    obtain ⟨depth, rfl⟩ := Nat.exists_eq_add_one_of_ne_zero (Nat.ne_zero_of_lt hd)
    obtain ⟨depth', rfl⟩ := Nat.exists_eq_add_one_of_ne_zero (Nat.ne_zero_of_lt hd')
    rcases opening_cases events with
      ⟨texts, name, attributes, declarations, location, rest, rfl, ht⟩ | hnone
    · have hboth (type : BindingType) : BothDisciplined bound strict
          (c.readChild strict depth type) (c.readChild strict depth' type) := by
        refine ⟨fun e cursor hcursor ↦ ?_, fun e cursor r after hrun ↦
          (hc.readElement_takes hrun).disciplined⟩
        exact ih (by omega) (by omega) cursor.rest cursor.diagnostics hcursor
      have hvalue := hc.inStep_readValue (inStep_bothDisciplined hboth)
        name (@Option.some_ne_none _ declared · |>.elim)
      have hbody : Agrees bound (c.readBody strict depth (some declared) name)
          (c.readBody strict depth' (some declared) name) :=
        hvalue.agrees.bind hvalue.disciplined fun _ _ _ _ ↦ rfl
      rw [run_readElement ht, run_readElement ht]
      refine hbody _ _ ?_
      simp only [List.length_append, List.length_cons] at hb ⊢
      omega
    · rw [run_readElement_of_not_opening hnone, run_readElement_of_not_opening hnone]

/-! ### Loops over child elements -/

/-- A child element that is read has at least one event. -/
theorem IsGenerated.readChild_advances (hc : c.IsGenerated) {type : BindingType}
    {e : CurrentElement} {cursor after : Cursor} {v : Value}
    (h : Reading.Gives (c.readChild strict depth type) e cursor v after) :
    after.rest.length < cursor.rest.length := by
  obtain ⟨texts, element, hrest, -, helement⟩ := (hc.readElement_takes h).taken v rfl
  obtain ⟨name, attributes, declarations, rest, hne⟩ := helement.opens
  have hlength := congrArg List.length hne
  simp only [List.length_map, List.length_cons] at hlength
  rw [hrest, List.length_append, List.length_append]
  omega

private theorem skipElement_advances {e : CurrentElement} {cursor after : Cursor} {u : Unit}
    (ho : (cursor.rest.head?.bind (·.openedName?)).isSome = true)
    (h : Reading.Gives skipElement e cursor u after) :
    after.rest.length < cursor.rest.length := by
  cases h
  obtain ⟨events, diagnostics⟩ := cursor
  cases events with
  | nil => cases ho
  | cons first rest =>
    obtain ⟨passed, hpassed, -⟩ := exists_afterClosings 1 rest
    have hlength := congrArg List.length hpassed
    rw [List.length_append] at hlength
    simp only [List.head?_cons, Option.bind_some] at ho
    simp only [afterElement, ho, if_true, List.length_cons]
    omega

/-- A child that is passed over after a remark takes events. -/
theorem remark_skipElement_advances {remark : Reading Unit}
    (hremark : ∀ e c u c', Reading.Gives remark e c u c' → c'.rest = c.rest) {results : List α}
    {e : CurrentElement} {cursor after : Cursor} {a : List α}
    (ho : (cursor.rest.head?.bind (·.openedName?)).isSome = true)
    (h : Reading.Gives (do
      remark
      skipElement
      return results) e cursor a after) :
    after.rest.length < cursor.rest.length := by
  obtain ⟨⟨⟩, c₁, hnoted, h⟩ := Reading.gives_bind.mp h
  obtain ⟨⟨⟩, c₂, hskip, h⟩ := Reading.gives_bind.mp h
  obtain ⟨-, rfl⟩ := Reading.gives_pure.mp h
  have hrest := hremark _ _ _ _ hnoted
  rw [← hrest] at ho ⊢
  exact skipElement_advances ho hskip

/-- Noting a problem leaves the events as they are. -/
theorem rest_of_report {problem : Problem} {e : CurrentElement} {cursor after : Cursor} {u : Unit}
    (h : Reading.Gives (report problem) e cursor u after) : after.rest = cursor.rest := by
  cases h
  rfl

/-- Meeting a name without a type leaves the events as they are, unless it is an error. -/
theorem rest_of_unresolved {s : ReadSession} {missing : BindingName} {e : CurrentElement}
    {cursor after : Cursor} {u : Unit}
    (h : Reading.Gives (s.unresolved missing) e cursor u after) : after.rest = cursor.rest := by
  unfold ReadSession.unresolved at h
  split at h
  · exact absurd h XmlBinding.not_gives_throw
  · exact rest_of_report h

/-- Reading a child by its property takes events. -/
theorem IsGenerated.readOccurrence_advances (hc : c.IsGenerated) (handovers : Nat)
    (name : BindingName) (properties : List Property) :
    Advances (BindingType.readOccurrence
      (c.readSession strict (c.readChild strict depth) handovers) name properties) := by
  intro next e cursor a after ho h
  unfold BindingType.readOccurrence at h
  split at h
  · exact remark_skipElement_advances (fun _ _ _ _ ↦ rest_of_report) ho h
  · split at h
    · obtain ⟨v, c₁, hchild, h⟩ := Reading.gives_bind.mp h
      obtain ⟨-, rfl⟩ := Reading.gives_pure.mp h
      rw [readSession_child] at hchild
      exact hc.readChild_advances hchild
    · exact remark_skipElement_advances (fun _ _ _ _ ↦ rest_of_unresolved) ho h

/-- Reading a child as an item of a list takes events. -/
theorem IsGenerated.readItem_advances (hc : c.IsGenerated) (handovers : Nat)
    (name item : BindingName) (itemElement : QName) :
    Advances (BindingType.readItem
      (c.readSession strict (c.readChild strict depth) handovers) name item itemElement) := by
  intro next e cursor a after ho h
  unfold BindingType.readItem at h
  split at h
  · exact remark_skipElement_advances (fun _ _ _ _ ↦ rest_of_report) ho h
  · split at h
    · obtain ⟨v, c₁, hchild, h⟩ := Reading.gives_bind.mp h
      obtain ⟨-, rfl⟩ := Reading.gives_pure.mp h
      rw [readSession_child] at hchild
      exact hc.readChild_advances hchild
    · exact remark_skipElement_advances (fun _ _ _ _ ↦ rest_of_unresolved) ho h

/-! ### What reading keeps to -/

/-- What reading an element of a declared type within given declarations keeps to, whatever the
events; `result` is its result and `after` the cursor that it leaves. -/
structure ReadsWithin (c : Context) (strict : Bool) (outer : NamespaceScope)
    (declared : BindingType) (cursor : Cursor) (result : Except Error Value) (after : Cursor) :
    Prop where
  /-- It ends: no bound on the depth that is at least the number of events is ever met. -/
  ends (depth : Nat) (h : cursor.rest.length ≤ depth) :
    (c.readElement strict depth outer (some declared)).run.run cursor = (result, after)
  /-- It takes texts and one element, or only some of the events, and fails. -/
  takes : TakesElement strict cursor.rest result after.rest
  /-- It fails if no element that opens behind texts is complete. -/
  fails (h : ∀ texts element rest, cursor.rest = texts ++ element ++ rest →
    (∀ e ∈ texts, e.isText = true) → ¬ IsElement (element.map (·.event))) :
    ∃ error, result = .error error
  /-- Whatever is done next, and be it that the failure is handled, is done within the element
  around, with its attributes and declarations. -/
  returns {β : Type} (e : CurrentElement) (he : e.scope = outer) (depth : Nat)
    (h : cursor.rest.length ≤ depth) (next : Except Error Value → Reading β) :
    ((observing (c.readChild strict depth declared) >>= next).run e).run.run cursor =
      ((next result).run e).run.run after

/-- Handling the child elements of a structure or a list ends for want of events, and not because of
a bound on their number. -/
structure HandlesChildren (c : Context) (strict : Bool) (depth handovers : Nat)
    (e : CurrentElement) (cursor : Cursor) (bound : Nat) : Prop where
  structures (name : BindingName) (properties : List Property) :
    let handle := BindingType.readOccurrence
      (c.readSession strict (c.readChild strict depth) handovers) name properties
    ((gatherUpTo handle bound).run e).run.run cursor = ((gather handle).run e).run.run cursor
  lists (name item : BindingName) (itemElement : QName) :
    let handle := BindingType.readItem
      (c.readSession strict (c.readChild strict depth) handovers) name item itemElement
    ((gatherUpTo handle bound).run e).run.run cursor = ((gather handle).run e).run.run cursor

/-- Of whatever events, reading an element takes texts and just one element, or it fails, within
bounds that are never met; passing over an element never counts below zero. -/
theorem readElement_within {settings : Settings} (h : settings.converters = [])
    (bundles : List Bundle) (strict : Bool) :
    (∀ outer declared cursor, ∃ result after,
      (make settings bundles).ReadsWithin strict outer declared cursor result after) ∧
    (∀ depth handovers e cursor bound, cursor.rest.length ≤ bound →
      (make settings bundles).HandlesChildren strict depth handovers e cursor bound) ∧
    ∀ events : List LocatedEvent, ∃ passed, events = passed ++ afterElement events ∧
      ∀ part rest, passed = part ++ rest → 0 ≤ depthBehind (part.map (·.event)) := by
  have hc := isGenerated_make h bundles
  refine ⟨fun outer declared cursor ↦ ?_, fun depth handovers e cursor bound hb ↦ ?_,
    fun events ↦ ?_⟩
  · rcases hrun : ((make settings bundles).readElement strict cursor.rest.length outer
      (some declared)).run.run cursor with ⟨result, after⟩
    have hends (depth : Nat) (hd : cursor.rest.length ≤ depth) :
        ((make settings bundles).readElement strict depth outer (some declared)).run.run cursor =
          (result, after) :=
      (hc.readElement_agrees (Nat.le_refl _) hd (Nat.le_refl _)).trans hrun
    have htakes := hc.readElement_takes hrun
    refine ⟨result, after, hends, htakes, fun hnone ↦ ?_, fun e he depth hd next ↦ ?_⟩
    · cases result with
      | error error => exact ⟨error, rfl⟩
      | ok v =>
        obtain ⟨texts, element, hrest, htexts, helement⟩ := htakes.taken v rfl
        exact absurd helement (hnone texts element after.rest hrest htexts)
    · subst he
      exact run_observing (hends depth hd)
  · exact ⟨fun name properties ↦ run_gatherUpTo (hc.readOccurrence_advances handovers _ _) e cursor
        bound _ hb (Nat.le_refl _),
      fun name item itemElement ↦ run_gatherUpTo (hc.readItem_advances handovers _ _ _) e cursor
        bound _ hb (Nat.le_refl _)⟩
  · obtain ⟨passed, hpassed, -, hcounts⟩ := exists_afterElement events
    exact ⟨passed, hpassed, hcounts⟩

/-- A document of a shape that ends too early is no element, which is an error of structure. -/
theorem readElement_within_truncated :
    Settings.default.converters = [] ∧ ∃ error after,
      Shapes.context.ReadsWithin false .empty (.byName Shapes.shape Shapes.properties)
        ⟨Shapes.careless.entries.dropLast, []⟩ (.error error) after ∧ error.IsStructural := by
  have hnone : Settings.default.converters = [] := rfl
  obtain ⟨result, after, h⟩ := (readElement_within hnone [⟨none, Shapes.descriptor, [], []⟩]
    false).1 .empty (.byName Shapes.shape Shapes.properties)
      ⟨Shapes.careless.entries.dropLast, []⟩
  have hfails : ((Shapes.context.readElement false 6 .empty
      (some (.byName Shapes.shape Shapes.properties))).run.run
        ⟨Shapes.careless.entries.dropLast, []⟩).1.isOk = false := by decide +kernel
  cases result with
  | ok v =>
    have hends := h.ends 6 (by decide)
    change (Shapes.context.readElement false 6 .empty _).run.run _ = _ at hends
    rw [hends] at hfails
    cases hfails
  | error error => exact ⟨hnone, error, after, h, h.takes.structural error rfl rfl⟩

end Context

end XmlBinding

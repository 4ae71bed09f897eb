import XmlBinding.Proofs.Marshal.Content

/-!
# Written elements render their values

Every element that marshalling makes renders its value, and what it leaves out is left out for a
reason. Within one element the converters put in what they should as long as child elements do, so
that the depth of the recursion is an induction over child elements.
-/

namespace XmlBinding

namespace Context

variable {c : Context} {d d₁ d' : Draft} {log log' : WriteLog}

/-- The type that a value is written with has a binding if the declared one has. -/
theorem typeNamed?_of_effectiveType {value : Value} {declared : BindingType}
    {effective : Effective} (ht : c.catalog.typeNamed? declared.name = some declared)
    (h : c.effectiveType value declared = .ok effective) :
    c.catalog.typeNamed? effective.type.name = some effective.type := by
  have hplain : c.catalog.typeNamed? ((c.polymorphicBase? declared).getD declared).name =
      some ((c.polymorphicBase? declared).getD declared) := by
    unfold polymorphicBase?
    split
    · next base _ _ =>
      cases hb : c.catalog.typeNamed? base with
      | none => exact ht
      | some type => exact Catalog.typeNamed?_name hb
    · exact ht
  unfold effectiveType at h
  dsimp only at h
  cases hn : c.narrowed? value declared with
  | none =>
    rw [hn] at h
    cases h
    exact hplain
  | some found =>
    have hfound : c.catalog.typeNamed? found.name = some found := by
      unfold narrowed? at hn
      split at hn
      · obtain ⟨name, -, hname⟩ := Option.bind_eq_some_iff.mp hn
        exact Catalog.typeNamed?_name hname
      · cases hn
    rw [hn] at h
    dsimp only at h
    split at h
    · cases h
      exact hplain
    · split at h
      · cases h
        exact hfound
      · split at h
        · cases h
        · cases h
          exact hplain

/-- An element is made from an empty draft: the prefix of its name, then what fills it. -/
theorem gives_build {outer : NamespaceScope} {name : QName} {body : Drafting Bool}
    {out : Option Tree}
    (h : XmlBinding.Gives (Drafting.build outer name body) log out log') :
    ∃ pre d₁ log₁ kept d', Drafting.Gives (Drafting.prefixFor name.uri) (.start outer name) log pre
      d₁ log₁ ∧ Drafting.Gives body d₁ log₁ kept d' log' ∧
      out = if kept then some d'.toTree else none := by
  obtain ⟨⟨kept, d'⟩, log₁, hrun, h⟩ := XmlBinding.gives_bind.mp h
  obtain ⟨rfl, rfl⟩ := XmlBinding.gives_pure.mp h
  have hbody : Drafting.Gives (Drafting.prefixFor name.uri >>= fun _ ↦ body) (.start outer name)
      log kept d' log' := hrun
  obtain ⟨pre, d₁, log₁, hpre, hbody⟩ := Drafting.gives_bind.mp hbody
  exact ⟨pre, d₁, log₁, kept, d', hpre, hbody, rfl⟩

/-- What grows from an empty draft with the prefix of its name opens an element. -/
theorem opens_of_prefixFor {outer : NamespaceScope} {name : QName} {pre : String}
    (ho : outer.Clear)
    (h : Drafting.Gives (Drafting.prefixFor name.uri) (.start outer name) log pre d₁ log') :
    (Draft.start outer name).Grows [] d₁ ∧
      ∀ d' added, d₁.Grows added d' → outer.Opens name d'.declarations := by
  have hstart : (Draft.start outer name).scope.Clear :=
    ho.congr (by rw [Draft.declarations_scope]; rfl)
  obtain ⟨hgrow, -, hp⟩ := Drafting.prefixFor_grows hstart h
  refine ⟨hgrow, fun d' added hgrow' ↦ ?_⟩
  have hscope : outer.push d'.declarations = d'.scope := by
    rw [Draft.scope, (hgrow.trans hgrow').outer]
    rfl
  constructor
  · rw [hscope]
    exact hgrow'.clear
  · rw [hscope]
    cases hp with
    | inl hp => exact .inl hp.1
    | inr hp => exact .inr (List.mem_map.mpr ⟨_, hgrow'.declared _ hp.2, rfl⟩)

/-- A mark is one attribute, whose text resolves to the name of the type. -/
private theorem markType_grows {type : BindingType} (hd : d.scope.Clear)
    (h : Drafting.Gives (markType type) d log () d' log') :
    ∃ marks, d.Grows marks d' ∧ Marks d'.scope true type.name.schema marks := by
  unfold markType at h
  obtain ⟨text, d₁, log₁, hname, hadd⟩ := Drafting.gives_bind.mp h
  obtain ⟨hgrow, -, hresolve⟩ := Drafting.lexicalName_grows hd hname
  obtain ⟨hgrow', -⟩ := Drafting.addAttribute_grows hgrow.clear hadd
  refine ⟨_, hgrow.trans hgrow', ?_⟩
  rw [Marks, if_pos rfl]
  exact ⟨text, rfl, fun hl ↦ hgrow'.clear.resolve_mono hgrow'.declared (hresolve hl)⟩

private theorem Marks.mono {s s' : NamespaceScope} {marked : Bool} {schema : QName}
    {marks : List Attribute} (h : Marks s marked schema marks) (hs : s'.Clear)
    (hss : ∀ e ∈ s.declarations, e ∈ s'.declarations) : Marks s' marked schema marks := by
  unfold Marks at h ⊢
  split
  · next hm =>
    rw [if_pos hm] at h
    obtain ⟨text, rfl, hresolve⟩ := h
    exact ⟨text, rfl, fun hl ↦ hs.resolve_mono hss (hresolve hl)⟩
  · next hm =>
    rw [if_neg hm] at h
    exact h

/-- What becomes of a value: an element that renders it, or nothing, for a reason. -/
def Answers (c : Context) (position : Position) (outer : NamespaceScope) (name : QName)
    (value : Value) (declared : BindingType) : Option Tree → Prop
  | some tree => c.Renders position outer name value declared tree
  | none => position.isRoot = false ∧
      if value.isNull then position.writesNull = false else c.LeavesOut value declared

private theorem nullElement_answers {outer : NamespaceScope} {position : Position} {name : QName}
    {declared : BindingType} {out : Option Tree} (ho : outer.Clear)
    (hp : position.writesNull = true)
    (h : XmlBinding.Gives (nullElement outer name) log out log') :
    c.Answers position outer name .null declared out := by
  obtain ⟨pre, d₁, log₁, kept, d', hpre, hbody, rfl⟩ := gives_build h
  obtain ⟨hgrow, hopens⟩ := opens_of_prefixFor ho hpre
  obtain ⟨⟨⟩, d₂, log₂, hadd, hbody⟩ := Drafting.gives_bind.mp hbody
  obtain ⟨rfl, rfl, rfl⟩ := Drafting.gives_pure.mp hbody
  obtain ⟨hgrow', -⟩ := Drafting.addAttribute_grows hgrow.clear hadd
  have hall := hgrow.trans hgrow'
  have htree : d'.toTree = .element name [⟨.nilMarker, "true"⟩] d'.declarations [] := by
    rw [Draft.toTree, hall.name, hall.attributes, hall.content]
    rfl
  change c.Renders position outer name .null declared d'.toTree
  rw [htree]
  exact .null (hopens d' _ hgrow') hp

/-- A draft that has everything an element shows of a value renders it. -/
private theorem renders_of_fills {outer : NamespaceScope} {position : Position} {name : QName}
    {value : Value} {declared : BindingType} {effective : Effective} {marks : List Attribute}
    (hnull : value.isNull = false) (he : c.effectiveType value declared = .ok effective)
    (hgrow : (Draft.start outer name).Grows marks d)
    (hopens : ∀ d' added, d.Grows added d' → outer.Opens name d'.declarations)
    (hmarks : Marks d.scope (effective.marked || position.isMarked) effective.type.name.schema
      marks)
    (hfills : c.Fills position.isRoot effective.type value d d') :
    c.Renders position outer name value declared d'.toTree := by
  obtain ⟨shown, texts, d₁, hasked, hgrow₁, hshow, htexts, children, hparts, rfl, homit, hren⟩ :=
    hfills
  have hall := hgrow.trans hgrow₁
  have hscope : d₁.scope = outer.push d₁.declarations := by
    rw [Draft.scope, hall.outer]
    rfl
  have htree : ({ d₁ with content := d₁.content ++ texts ++
        (children.map Prod.snd).reduceOption } : Draft).toTree =
      .element name (marks ++ (shown.map Prod.snd).reduceOption) d₁.declarations
        (texts ++ (children.map Prod.snd).reduceOption) := by
    rw [Draft.toTree, hall.name, hall.attributes, hall.content]
    rfl
  rw [htree]
  rw [hscope] at hshow htexts
  have hmarks₁ := hmarks.mono hgrow₁.clear hgrow₁.declared
  rw [hscope] at hmarks₁
  refine .made (hopens d₁ _ hgrow₁) hnull he hmarks₁ hasked hshow htexts hparts homit ?_ ?_
  · intro child hm tree htree
    obtain ⟨type, ht, -⟩ := hren child hm tree htree
    rw [ht]
    rfl
  · intro child hm tree htree type ht
    obtain ⟨type', ht', hr⟩ := hren child hm tree htree
    rw [ht] at ht'
    cases ht'
    rw [← hscope]
    exact hr

/-- A value that is not null becomes an element that renders it, if the session's child elements
do. -/
private theorem IsGenerated.valueElement_answers (hc : c.IsGenerated) {strict : Bool} {height : Nat}
    {child : QName → Value → BindingType → Bool → Drafting Unit}
    (hs : ∀ n, c.Serves height (c.writeSession strict child (n + 1))) {outer : NamespaceScope}
    {position : Position} {name : QName} {value : Value} {declared : BindingType}
    {out : Option Tree} (ho : outer.Clear) (hv : value.height ≤ height)
    (hnull : value.isNull = false) (ht : c.catalog.typeNamed? declared.name = some declared)
    (h : XmlBinding.Gives (c.valueElement (c.writeSession strict child c.maxHandovers) outer
      position name value declared) log out log') :
    c.Answers position outer name value declared out := by
  obtain ⟨n, hn⟩ := c.maxHandovers_eq
  unfold valueElement at h
  rw [hn] at h
  cases he : c.effectiveType value declared with
  | error found =>
    rw [he] at h
    dsimp only at h
    split at h
    · exact absurd h XmlBinding.not_gives_throw
    · next hroot =>
      obtain ⟨⟨⟩, log₁, -, h⟩ := XmlBinding.gives_bind.mp h
      obtain ⟨rfl, rfl⟩ := XmlBinding.gives_pure.mp h
      refine ⟨by simpa using hroot, ?_⟩
      rw [if_neg (by rw [hnull]; decide), LeavesOut, he]
      trivial
  | ok effective =>
    rw [he] at h
    dsimp only at h
    rw [hc.writer?, typeNamed?_of_effectiveType ht he] at h
    obtain ⟨pre, d₁, log₁, kept, d', hpre, hbody, rfl⟩ := gives_build h
    obtain ⟨hgrow, hopens⟩ := opens_of_prefixFor ho hpre
    have hmarked : ∃ marks d₂ log₂, d₁.Grows marks d₂ ∧
        Marks d₂.scope (effective.marked || position.isMarked) effective.type.name.schema marks ∧
        Drafting.Gives (fill ⟨effective.type.isSimple, effective.type.print,
          effective.type.write (c.writeSession strict child (n + 1))⟩ position.isRoot name value)
          d₂ log₂ kept d' log' := by
      split at hbody
      · next hm =>
        obtain ⟨⟨⟩, d₂, log₂, hmark, hbody⟩ := Drafting.gives_bind.mp hbody
        obtain ⟨marks, hgrow', hmarks⟩ := markType_grows hgrow.clear hmark
        refine ⟨marks, d₂, log₂, hgrow', ?_, hbody⟩
        rw [show (effective.marked || position.isMarked) = true by simpa using hm]
        exact hmarks
      · next hm =>
        refine ⟨[], d₁, log₁, .refl hgrow.clear, ?_, hbody⟩
        rw [show (effective.marked || position.isMarked) = false by simpa using hm]
        rfl
    obtain ⟨marks, d₂, log₂, hgrow', hmarks, hfill⟩ := hmarked
    have hfilled := (hs n).fill hgrow'.clear hv hfill
    cases kept with
    | true =>
      exact renders_of_fills hnull he (hgrow.trans hgrow')
        (fun d₃ _ hg ↦ hopens d₃ _ (hgrow'.trans hg)) hmarks hfilled
    | false =>
      obtain ⟨hroot, hsimple, hrefuses⟩ := hfilled
      refine ⟨hroot, ?_⟩
      rw [if_neg (by rw [hnull]; decide), LeavesOut, he]
      exact ⟨hsimple, hrefuses⟩

private theorem receives_of_answers {name : QName} {value : Value} {type : BindingType}
    {nillable : Bool} {out : Option Tree} (ht : c.catalog.typeNamed? type.name = some type)
    (h : c.Answers (.child nillable) d.scope name value type out) :
    c.Receives d [⟨name, value, type.name, nillable⟩]
      { d with content := d.content ++ out.toList } := by
  cases out with
  | none =>
    rw [Option.toList_none, List.append_nil]
    refine .omitted fun declared ht' ↦ ?_
    rw [ht] at ht'
    cases ht'
    exact h.2
  | some tree =>
    refine ⟨[(⟨name, value, type.name, nillable⟩, some tree)], rfl, rfl, by simp, ?_⟩
    intro child hm tree' htree
    cases List.mem_singleton.mp hm
    cases htree
    exact ⟨type, ht, h⟩

/-- Every element renders its value. The induction is on the depth that is left to the engine, which
exceeds the height of the value. -/
theorem IsGenerated.element_answers (hc : c.IsGenerated) {strict : Bool} {depth : Nat}
    {outer : NamespaceScope} {position : Position} {name : QName} {value : Value}
    {declared : BindingType} {out : Option Tree} (ho : outer.Clear) (hv : value.height < depth)
    (ht : c.catalog.typeNamed? declared.name = some declared)
    (h : XmlBinding.Gives (c.element strict depth outer position name value declared) log out
      log') : c.Answers position outer name value declared out := by
  induction depth generalizing outer position name value declared log out log' with
  | zero => omega
  | succ depth ih =>
    unfold element at h
    split at h
    · next hnull =>
      cases value with
      | null =>
        split at h
        · next hp => exact nullElement_answers ho hp h
        · next hp =>
          obtain ⟨rfl, rfl⟩ := XmlBinding.gives_pure.mp h
          cases position with
          | root marked => exact absurd rfl hp
          | child nillable =>
            refine ⟨rfl, ?_⟩
            rw [if_pos hnull]
            simpa using hp
      | scalar x => cases hnull
      | list items => cases hnull
      | struct native fields => cases hnull
    · next hnull =>
      refine hc.valueElement_answers (fun n ↦ ?_) ho (Nat.le_of_lt_succ hv)
        (by simpa using hnull) ht h
      refine ⟨rfl, fun type ht' ↦ ⟨_, by rw [hc.writer?, ht']; rfl⟩, ?_⟩
      intro name value type nillable d d' log log' hd hv ht' hchild
      obtain ⟨out, helement, rfl⟩ := Drafting.gives_addMade
        (fun outer ↦ c.element strict depth outer (.child nillable) name value type) hchild
      have hreceives := receives_of_answers ht' (ih hd hv ht' helement)
      cases out with
      | none => simpa using hreceives
      | some tree => exact hreceives

end Context

end XmlBinding

import XmlBinding.Proofs.Document.Reading

/-!
# What is in scope is rebuilt from events

An event gives only the declarations that its tag adds to those around it. A scope that takes them
up for every open element, from the root inwards, still means what the tags of the document declare
(`EventStream.parse_inScope`): what is left out is in scope already, and whatever an inner tag
changes is not left out. `DeclaresOne` is the condition behind this. A tag that is read meets it for
every named prefix, but a reader lets the default namespace stand on a tag twice, and what it has in
scope is then no map of prefixes.
-/

namespace XmlBinding

/-! ### Paths to elements -/

/-- The declarations of the events that open elements, each with those of the open elements around
it, the innermost first; in the order of the events. -/
def Event.declarationPaths :
    (opened : List (List Declaration)) → List Event → List (List (List Declaration))
  | _, [] => []
  | opened, .opening _ _ given :: rest =>
    (given :: opened) :: declarationPaths (given :: opened) rest
  | opened, .text _ :: rest => declarationPaths opened rest
  | opened, .closing _ :: rest => declarationPaths opened.tail rest

/-- The scope within some open elements, by their declarations, the innermost first. -/
def NamespaceScope.within (opened : List (List Declaration)) : NamespaceScope :=
  opened.foldr push empty

namespace Markup

/-- The attributes of the start tags, each with those of the open tags around it, the innermost
first; in the order of the tags. -/
def tagPaths :
    (opened : List (List TagAttribute)) → List Token → List (List (List TagAttribute))
  | _, [] => []
  | opened, .startTag _ attributes empty :: rest =>
    (attributes :: opened) :: tagPaths (if empty then opened else attributes :: opened) rest
  | opened, .endTag _ :: rest => tagPaths opened.tail rest
  | opened, .text _ _ :: rest => tagPaths opened rest
  | opened, .aside :: rest => tagPaths opened rest

/-- The declarations among the attributes of a tag; the prefix `xml` needs none. -/
def tagDeclarations (attributes : List TagAttribute) : List Declaration :=
  (attributes.filterMap TagAttribute.declaration?).filter (·.pre ≠ "xml")

/-- The namespace of a prefix within open tags: the innermost tag that declares a prefix decides,
and the empty namespace takes a declaration back. -/
def namespaceWithin? (path : List (List TagAttribute)) (pre : String) : Option String :=
  if pre = "xml" then some QName.xmlUri
  else match declared? (path.map tagDeclarations) pre with
    | some uri => if uri = "" ∧ pre ≠ "" then none else some uri
    | none => none

/-- The declarations that a reader has in scope within open tags. -/
def scopeWithin : (path : List (List TagAttribute)) → List Declaration
  | [] => []
  | attributes :: outer => inScope (tagDeclarations attributes) (scopeWithin outer)

/-- What a reader has in scope is a map of prefixes, within every tag of a path. -/
def ReportsMaps : (path : List (List TagAttribute)) → Prop
  | [] => True
  | attributes :: outer =>
    ((scopeWithin (attributes :: outer)).map (·.pre)).Nodup ∧ ReportsMaps outer

instance decidableReportsMaps : (path : List (List TagAttribute)) → Decidable (ReportsMaps path)
  | [] => .isTrue trivial
  | _ :: outer =>
    haveI := decidableReportsMaps outer
    inferInstanceAs (Decidable (_ ∧ _))

/-! ### One declaration of a prefix -/

/-- No two declarations differ for a prefix. -/
def DeclaresOne (pre : String) (ds : List Declaration) : Prop :=
  ∀ d ∈ ds, ∀ e ∈ ds, d.pre = pre → e.pre = pre → d = e

variable {pre : String} {own around : List Declaration} {d : Declaration}

private theorem declaresOne_of_nodup {ds : List Declaration} (h : (ds.map (·.pre)).Nodup) :
    DeclaresOne pre ds :=
  fun _ hd _ he hdp hep ↦ List.inj_on_of_nodup_map h hd he (hdp.trans hep.symm)

namespace DeclaresOne

private theorem find?_eq {ds : List Declaration} (h : DeclaresOne pre ds) (hd : d ∈ ds)
    (hp : d.pre = pre) : ds.find? (·.pre = pre) = some d := by
  cases hf : ds.find? (·.pre = pre) with
  | none => exact absurd hp (by simpa using List.find?_eq_none.mp hf d hd)
  | some e =>
    have hep : e.pre = pre := by simpa using List.find?_some hf
    rw [h e (List.mem_of_find?_eq_some hf) d hd hep hp]

/-- Some of the declarations do not differ either. -/
theorem subset {ds es : List Declaration} (h : DeclaresOne pre ds) (hsub : es ⊆ ds) :
    DeclaresOne pre es :=
  fun d hd e he ↦ h d (hsub hd) e (hsub he)

/-- A declaration of another prefix, or of one that is new, is one more. -/
theorem concat {ds : List Declaration} (h : DeclaresOne pre ds)
    (hnew : ∀ e ∈ ds, e.pre = pre → d.pre ≠ pre) : DeclaresOne pre (ds ++ [d]) := by
  intro e he f hf hep hfp
  rw [List.mem_append, List.mem_singleton] at he hf
  rcases he with he | rfl
  · rcases hf with hf | rfl
    · exact h e he f hf hep hfp
    · exact absurd hfp (hnew e he hep)
  · rcases hf with hf | rfl
    · exact absurd hep (hnew f hf hfp)
    · rfl

private theorem extend {scope : List Declaration} (h : DeclaresOne pre scope) (d : Declaration) :
    DeclaresOne pre (extend scope d) := by
  unfold Markup.extend
  split
  · exact h
  · next hnew =>
    refine h.concat fun e he hep hdp ↦ hnew ?_
    exact List.any_eq_true.mpr ⟨e, he, by simpa [hdp] using hep⟩

/-- What is in scope on a tag does not differ for a prefix, as neither its own declarations do nor
those around it. -/
private theorem inScope (hown : DeclaresOne pre own) (haround : DeclaresOne pre around) :
    DeclaresOne pre (inScope own around) := by
  unfold Markup.inScope
  split
  · exact haround
  · next hsome =>
    clear hsome haround
    induction around generalizing own with
    | nil => exact hown
    | cons d rest ih => exact ih (hown.extend d)

end DeclaresOne

private theorem subset_inScope (own around : List Declaration) : own ⊆ inScope own around := by
  unfold inScope
  split
  · next h => simp [List.isEmpty_iff.mp h]
  · clear * -
    induction around generalizing own with
    | nil => exact List.Subset.refl own
    | cons d rest ih =>
      refine List.Subset.trans ?_ (ih (extend own d))
      unfold extend
      split
      · exact List.Subset.refl own
      · exact List.subset_append_left own [d]

/-! ### The declarations of a tag -/

private theorem eq_of_ownDeclarations? {all : List Declaration} {attributes : List TagAttribute}
    (h : ownDeclarations? own attributes = some all) :
    all = own ++ tagDeclarations attributes := by
  induction attributes generalizing own with
  | nil =>
    cases h
    simp [tagDeclarations]
  | cons a rest ih =>
    rw [ownDeclarations?] at h
    split at h
    · next hnone => simpa [tagDeclarations, hnone] using ih h
    · next d hd =>
      split at h
      · cases h
      · rw [ih h]
        by_cases hxml : d.pre = "xml"
        · simp [tagDeclarations, hd, hxml]
        · simp [tagDeclarations, hd, hxml]

private theorem declaresOne_of_ownDeclarations? {all : List Declaration}
    {attributes : List TagAttribute}
    (h : ownDeclarations? own attributes = some all) (hpre : pre ≠ "")
    (hown : DeclaresOne pre own) : DeclaresOne pre all := by
  induction attributes generalizing own with
  | nil =>
    cases h
    exact hown
  | cons a rest ih =>
    rw [ownDeclarations?] at h
    split at h
    · exact ih h hown
    · next d hd =>
      split at h
      · cases h
      · next hmay =>
        have hfree : d.pre = "" ∨ ∀ e ∈ own, e.pre ≠ d.pre := by
          have hmay : mayDeclare own d = true := by simpa using hmay
          rw [mayDeclare, Bool.and_eq_true] at hmay
          simpa using hmay.2
        refine ih h ?_
        split
        · exact hown
        · refine hown.concat fun e he hep hdp ↦ ?_
          rcases hfree with hempty | hnew
          · exact hpre (hdp.symm.trans hempty)
          · exact hnew e he (hep.trans hdp.symm)

/-! ### What an event adds -/

/-- An event gives just what is in scope on its element and not around it. -/
theorem filter_inScope (own around : List Declaration) :
    (inScope own around).filter (fun d ↦ !around.contains d) =
      own.filter fun d ↦ !around.contains d := by
  have hextend (rest : List Declaration) (hrest : rest ⊆ around) (scope : List Declaration) :
      (rest.foldl extend scope).filter (fun d ↦ !around.contains d) =
        scope.filter fun d ↦ !around.contains d := by
    induction rest generalizing scope with
    | nil => rfl
    | cons d rest ih =>
      rw [List.cons_subset] at hrest
      rw [List.foldl_cons, ih hrest.2, extend]
      split
      · rfl
      · simp [List.filter_append, hrest.1]
  unfold inScope
  split
  · next hempty => simp [List.isEmpty_iff.mp hempty]
  · exact hextend around (List.Subset.refl around) own

/-- Declarations mean the same whether or not those are left out that are in scope already. -/
private theorem latest?_push_added {s : NamespaceScope} (hown : DeclaresOne pre own)
    (haround : DeclaresOne pre around)
    (h : s.latest? pre = (around.find? (·.pre = pre)).map (·.uri)) :
    (s.push ((inScope own around).filter fun d ↦ !around.contains d)).latest? pre =
      ((inScope own around).find? (·.pre = pre)).map (·.uri) := by
  rw [filter_inScope]
  generalize hadded : (own.filter fun d ↦ !around.contains d) = added
  have hmem (e : Declaration) : e ∈ added ↔ e ∈ own ∧ e ∉ around := by simp [← hadded]
  unfold NamespaceScope.latest? at h ⊢
  rw [NamespaceScope.declarations_push, List.find?_append, find?_inScope]
  cases hf : own.find? (·.pre = pre) with
  | none =>
    have hnone : added.reverse.find? (·.pre = pre) = none := by
      rw [List.find?_eq_none] at hf ⊢
      exact fun e he ↦ hf e ((hmem e).mp (List.mem_reverse.mp he)).1
    rw [hnone, Option.none_or, Option.none_or, h]
  | some d =>
    have hd : d ∈ own := List.mem_of_find?_eq_some hf
    have hp : d.pre = pre := by simpa using List.find?_some hf
    by_cases haround' : d ∈ around
    · have hnone : added.reverse.find? (·.pre = pre) = none := by
        rw [List.find?_eq_none]
        intro e he hep
        obtain ⟨heown, hearound⟩ := (hmem e).mp (List.mem_reverse.mp he)
        obtain rfl := hown e heown d hd (by simpa using hep) hp
        exact hearound haround'
      rw [hnone, Option.none_or, h, haround.find?_eq haround' hp, Option.some_or]
    · have hone : DeclaresOne pre added.reverse :=
        hown.subset fun e he ↦ ((hmem e).mp (List.mem_reverse.mp he)).1
      rw [hone.find?_eq (List.mem_reverse.mpr ((hmem d).mpr ⟨hd, haround'⟩)) hp, Option.some_or,
        Option.some_or]

/-! ### Open elements -/

/-- Open tags, the innermost first, are read as open elements, and their events give these
declarations. -/
inductive Nested :
    List OpenElement → List (List TagAttribute) → List (List Declaration) → Prop
  | nil : Nested [] [] []
  /-- A start tag is read within those around it. -/
  | cons {opened : List OpenElement} {path : List (List TagAttribute)}
      {given : List (List Declaration)} {tag : TagName} {attributes : List TagAttribute}
      {e : OpenElement} {resolved : List Attribute} {declarations : List Declaration}
      (opens : openElement? (Markup.around opened) tag attributes =
        some (e, resolved, declarations))
      (rest : Nested opened path given) :
      Nested (e :: opened) (attributes :: path) (declarations :: given)

/-- The declarations of a tag that is read: those among its attributes come into scope, and what
they add goes to the event. -/
theorem declared_of_openElement? {tag : TagName} {attributes : List TagAttribute} {e : OpenElement}
    {resolved : List Attribute} {declarations : List Declaration}
    (h : openElement? around tag attributes = some (e, resolved, declarations)) :
    (∀ pre, pre ≠ "" → DeclaresOne pre (tagDeclarations attributes)) ∧
      e.scope = inScope (tagDeclarations attributes) around ∧
      declarations = e.scope.filter fun d ↦ !around.contains d := by
  obtain ⟨own, hown, hscope, rfl⟩ := (opened_of_openElement? h).own
  obtain rfl : own = tagDeclarations attributes := by simpa using eq_of_ownDeclarations? hown
  rw [hscope, filter_inScope]
  refine ⟨fun pre hpre ↦ declaresOne_of_ownDeclarations? hown hpre ?_, rfl, rfl⟩
  intro d hd
  cases hd

namespace Nested

variable {opened : List OpenElement} {path : List (List TagAttribute)}
  {given : List (List Declaration)}

/-- A reader has in scope what the open tags declare, an inner declaration in place of an outer
one. -/
private theorem around_eq (h : Nested opened path given) :
    Markup.around opened = scopeWithin path := by
  induction h with
  | nil => rfl
  | cons opens rest ih =>
    rw [Markup.around, List.head?_cons, Option.map_some, Option.getD_some,
      (declared_of_openElement? opens).2.1, ih, scopeWithin]

end Nested

private theorem find?_scopeWithin (path : List (List TagAttribute)) (pre : String) :
    ((scopeWithin path).find? (·.pre = pre)).map (·.uri) =
      declared? (path.map tagDeclarations) pre := by
  induction path with
  | nil => rfl
  | cons attributes outer ih =>
    rw [scopeWithin, find?_inScope, List.map_cons, declared?_cons, ← ih]
    cases (tagDeclarations attributes).find? (·.pre = pre) <;> rfl

namespace Nested

variable {opened : List OpenElement} {path : List (List TagAttribute)}
  {given : List (List Declaration)}

/-- What the events of the open elements declare for a prefix is what a reader has in scope for
it. -/
private theorem latest?_within (h : Nested opened path given) (hmaps : pre = "" → ReportsMaps path)
    :
    DeclaresOne pre (scopeWithin path) ∧
      (NamespaceScope.within given).latest? pre =
        ((scopeWithin path).find? (·.pre = pre)).map (·.uri) := by
  induction h with
  | nil =>
    refine ⟨fun d hd ↦ ?_, rfl⟩
    cases hd
  | @cons opened path given tag attributes e resolved declarations opens rest ih =>
    obtain ⟨hnamed, hscope, rfl⟩ := declared_of_openElement? opens
    obtain ⟨haround, hlatest⟩ := ih fun hp ↦ (hmaps hp).2
    have hown : DeclaresOne pre (tagDeclarations attributes) := by
      by_cases hp : pre = ""
      · exact (declaresOne_of_nodup (hmaps hp).1).subset (subset_inScope _ _)
      · exact hnamed pre hp
    rw [hscope, rest.around_eq]
    exact ⟨hown.inScope haround, latest?_push_added hown haround hlatest⟩

/-- The declarations that the events of the open elements give mean what the tags declare. -/
theorem namespaceOf?_within (h : Nested opened path given) (hmaps : pre = "" → ReportsMaps path) :
    (NamespaceScope.within given).namespaceOf? pre = namespaceWithin? path pre := by
  have hlatest := (h.latest?_within hmaps).2
  rw [find?_scopeWithin] at hlatest
  unfold NamespaceScope.namespaceOf? namespaceWithin?
  rw [← hlatest, NamespaceScope.latest?]
  split
  · rfl
  · cases (NamespaceScope.within given).declarations.find? (·.pre = pre) with
    | none => rfl
    | some d =>
      by_cases hu : d.uri = "" <;> by_cases hp : pre = "" <;> simp [hu, hp]

end Nested

/-- Each event that opens an element belongs to a start tag, and the open elements around the one to
the open tags around the other. -/
theorem Parses.nested {opened : List OpenElement} {rooted : Bool} {tokens : List Token}
    {events : List Event} {path : List (List TagAttribute)} {given : List (List Declaration)}
    (h : Parses opened rooted tokens events) (hopened : Nested opened path given) :
    List.Forall₂ (fun given path ↦ ∃ opened, Nested opened path given)
      (Event.declarationPaths given events) (tagPaths path tokens) := by
  induction h generalizing path given with
  | done => exact .nil
  | aside rest ih => exact ih hopened
  | layout rest ih => exact ih hopened
  | text within rest ih => exact ih hopened
  | endTag rest ih =>
    cases hopened with
    | cons opens outer => exact ih outer
  | startTag root opens rest ih => exact .cons ⟨_, hopened.cons opens⟩ (ih (hopened.cons opens))
  | emptyTag root opens rest ih => exact .cons ⟨_, hopened.cons opens⟩ (ih hopened)

end Markup

/-! ### Documents -/

namespace EventStream

open Markup

/-- The events that open elements stand one for one for the start tags of the document, and within
each element a scope with the declarations of the events, from the root inwards, gives every prefix
the namespace that the tags declare it for. For the empty prefix the reader has to have a map of
prefixes in scope on each of these tags. -/
theorem parse_inScope {text : String} {stream : EventStream} (h : parse text = .ok stream) :
    ∃ tokens, read? text = some (tokens, stream.entries) ∧
      List.Forall₂ (fun given path ↦ ∀ pre, (pre = "" → ReportsMaps path) →
          (NamespaceScope.within given).namespaceOf? pre = namespaceWithin? path pre)
        (Event.declarationPaths [] stream.events) (tagPaths [] (tokens.map (·.token))) := by
  unfold parse at h
  split at h
  · next tokens entries hread =>
    cases h
    refine ⟨tokens, hread, ?_⟩
    obtain ⟨all, -, hread⟩ := Option.bind_eq_some_iff.mp hread
    obtain ⟨nested, hnest, heq⟩ := Option.bind_eq_some_iff.mp hread
    cases heq
    refine ((parses_of_nest? hnest).nested .nil).imp fun given path hnested pre hmaps ↦ ?_
    obtain ⟨opened, hnested⟩ := hnested
    exact hnested.namespaceOf?_within hmaps
  · cases h

/-- A document that takes its default namespace back within its root, restores it further in, and
declares a prefix for the namespace that it has already. -/
def restoredText : String :=
  "<a xmlns='urn:d' xmlns:p='urn:p'><b xmlns='' xmlns:p='urn:q'>" ++
    "<p:c xmlns='urn:d' xmlns:p='urn:q'/></b></a>"

/-- What `restoredText` is read as. -/
def restoredStream : EventStream :=
  ⟨[⟨.opening ⟨"urn:d", "a"⟩ [] [⟨"", "urn:d"⟩, ⟨"p", "urn:p"⟩], some ⟨1, 1⟩⟩,
    ⟨.opening ⟨"", "b"⟩ [] [⟨"", ""⟩, ⟨"p", "urn:q"⟩], some ⟨1, 34⟩⟩,
    ⟨.opening ⟨"urn:q", "c"⟩ [] [⟨"", "urn:d"⟩], some ⟨1, 62⟩⟩,
    ⟨.closing ⟨"urn:q", "c"⟩, none⟩, ⟨.closing ⟨"", "b"⟩, none⟩, ⟨.closing ⟨"urn:d", "a"⟩, none⟩]⟩

/-- The declarations of the events that open the elements of `restoredText`, the innermost first. -/
def restoredGiven : List (List Declaration) :=
  [[⟨"", "urn:d"⟩], [⟨"", ""⟩, ⟨"p", "urn:q"⟩], [⟨"", "urn:d"⟩, ⟨"p", "urn:p"⟩]]

/-- The start tags of `restoredText`, the innermost first. -/
def restoredPath : List (List TagAttribute) :=
  [[⟨"", "urn:d"⟩, ⟨"p", "urn:q"⟩], [⟨"", ""⟩, ⟨"p", "urn:q"⟩],
    [⟨"", "urn:d"⟩, ⟨"p", "urn:p"⟩]].map (·.map Declaration.tagAttribute)

/-- Within the innermost element the default namespace is the restored one, and the prefix means
what it does in the element around it. -/
theorem parse_inScope_restored :
    parse restoredText = .ok restoredStream ∧ ReportsMaps restoredPath ∧
      (∀ pre, (NamespaceScope.within restoredGiven).namespaceOf? pre =
        namespaceWithin? restoredPath pre) ∧
      namespaceWithin? restoredPath "" = some "urn:d" ∧
      namespaceWithin? restoredPath.tail "" = some "" ∧
      namespaceWithin? restoredPath "p" = some "urn:q" := by
  have hread : parse restoredText = .ok restoredStream := by rfl
  have hmaps : ReportsMaps restoredPath := by decide
  obtain ⟨tokens, htokens, hall⟩ := parse_inScope hread
  have hpaths : (read? restoredText).map (fun r ↦ tagPaths [] (r.1.map (·.token))) =
      some [restoredPath.tail.tail, restoredPath.tail, restoredPath] := by rfl
  have hgiven : Event.declarationPaths [] restoredStream.events =
      [restoredGiven.tail.tail, restoredGiven.tail, restoredGiven] := by rfl
  rw [htokens, Option.map_some, Option.some_inj] at hpaths
  rw [hpaths, hgiven] at hall
  simp only [List.forall₂_cons] at hall
  obtain ⟨-, -, hinner, -⟩ := hall
  exact ⟨hread, hmaps, fun pre ↦ hinner pre fun _ ↦ hmaps, by decide, by decide, by decide⟩

-- The reader takes the first of two default namespaces on a tag, a scope the last one.
example : namespaceWithin? [[Declaration.tagAttribute ⟨"", "urn:d"⟩,
      Declaration.tagAttribute ⟨"", "urn:e"⟩]] "" = some "urn:d" ∧
    (NamespaceScope.within [[⟨"", "urn:d"⟩, ⟨"", "urn:e"⟩]]).namespaceOf? "" = some "urn:e" := by
  decide

end EventStream

end XmlBinding

import XmlBinding.Proofs.Document.Written

/-!
# The declarations of a start tag

A start tag has the declarations that its event gives and those that its prefixes need besides. A
prefix is generated only where it is unbound, and whatever a tag declares is bound on it, so that no
named prefix is declared twice on a tag. The default namespace is looked up, too, before it is taken
back, but a tag that declares one itself has then two declarations of the empty prefix: this happens
just where the event declares a default namespace for an element in no namespace
(`Writer.write_opening_distinct`).
-/

namespace XmlBinding

/-! ### Bound prefixes -/

namespace NamespaceScope

variable {s : NamespaceScope} {d : Declaration} {own given : List Declaration}

/-- On a tag that declares no prefix twice, a prefix means what it is declared for. -/
theorem namespaceOf?_push_of_mem (hdistinct : (given.map (·.pre)).Nodup) (hmem : d ∈ given)
    (hx : d.pre ≠ "xml") (hd : d.pre ≠ "" → d.uri ≠ "") :
    (s.push given).namespaceOf? d.pre = some d.uri := by
  have hfind : given.reverse.find? (·.pre = d.pre) = some d := by
    cases hf : given.reverse.find? (·.pre = d.pre) with
    | none =>
      have hnone := List.find?_eq_none.mp hf d (List.mem_reverse.mpr hmem)
      simp at hnone
    | some e =>
      have he : e ∈ given := List.mem_reverse.mp (List.mem_of_find?_eq_some hf)
      have hpre : e.pre = d.pre := by simpa using List.find?_some hf
      rw [List.inj_on_of_nodup_map hdistinct he hmem hpre]
  have hbinds : d.uri ≠ "" ∨ d.pre = "" := by
    by_cases hpre : d.pre = ""
    · exact .inr hpre
    · exact .inl (hd hpre)
  simp [namespaceOf?, hx, List.find?_append, hfind, hbinds]

/-- Every prefix that a tag declares is bound. -/
def Binds (s : NamespaceScope) (own : List Declaration) : Prop :=
  ∀ d ∈ own, (s.namespaceOf? d.pre).isSome

/-- A prefix that is unbound is not declared on the tag. -/
theorem Binds.not_mem (h : s.Binds own) {pre : String} (hfree : s.namespaceOf? pre = none) :
    pre ∉ own.map (·.pre) := by
  intro hmem
  obtain ⟨d, hd, rfl⟩ := List.mem_map.mp hmem
  have hbound := h d hd
  rw [hfree] at hbound
  cases hbound

/-- What the event declares is bound. -/
theorem binds_push (hdistinct : (given.map (·.pre)).Nodup)
    (hbound : ∀ d ∈ given, d.pre ≠ "" → d.uri ≠ "") : (s.push given).Binds given := by
  intro d hd
  by_cases hx : d.pre = "xml"
  · simp [namespaceOf?, hx]
  · rw [namespaceOf?_push_of_mem hdistinct hd hx (hbound d hd)]
    rfl

/-- One more declaration is bound, and leaves the others bound. -/
theorem Binds.declare (h : s.Binds own) (hx : d.pre ≠ "xml") (hd : d.pre ≠ "" → d.uri ≠ "") :
    (s.declare d).Binds (own ++ [d]) := by
  intro e he
  by_cases hpre : d.pre = e.pre
  · rw [← hpre, namespaceOf?_declare_self hx hd]
    rfl
  · rw [namespaceOf?_declare_of_ne hpre]
    rcases List.mem_append.mp he with he | he
    · exact h e he
    · rw [List.mem_singleton.mp he] at hpre
      exact absurd rfl hpre

end NamespaceScope

namespace Writer

open NamespaceScope

/-! ### Declarations for attributes -/

/-- Declarations of named prefixes, each different from the others and from those that the tag
has. -/
structure AreNew (own added : List Declaration) : Prop where
  distinct : (added.map (·.pre)).Nodup
  named : ∀ d ∈ added, d.pre ≠ ""
  apart : ∀ d ∈ added, d.pre ∉ own.map (·.pre)

namespace AreNew

variable {own added : List Declaration}

private theorem cons (h : AreNew (own ++ [d]) added) (hnamed : d.pre ≠ "")
    (hnot : d.pre ∉ own.map (·.pre)) : AreNew own (d :: added) := by
  have happart (e : Declaration) (he : e ∈ added) :
      e.pre ∉ own.map (·.pre) ∧ e.pre ≠ d.pre := by
    simpa using h.apart e he
  constructor
  · rw [List.map_cons, List.nodup_cons]
    refine ⟨fun hmem ↦ ?_, h.distinct⟩
    obtain ⟨e, he, hpre⟩ := List.mem_map.mp hmem
    exact (happart e he).2 hpre
  · exact List.forall_mem_cons.mpr ⟨hnamed, h.named⟩
  · exact List.forall_mem_cons.mpr ⟨hnot, fun e he ↦ (happart e he).1⟩

/-- New declarations repeat no prefix. -/
theorem nodup_append_iff (h : AreNew own added) :
    ((own ++ added).map (·.pre)).Nodup ↔ (own.map (·.pre)).Nodup := by
  rw [List.map_append, List.nodup_append]
  constructor
  · exact fun hall ↦ hall.1
  · refine fun hown ↦ ⟨hown, h.distinct, ?_⟩
    rintro pre hpre _ hpre' rfl
    obtain ⟨d, hd, rfl⟩ := List.mem_map.mp hpre'
    exact h.apart d hd hpre

/-- What is new to a tag is new to it without a declaration. -/
theorem erase (h : AreNew own added) : AreNew (own.erase d) added where
  distinct := h.distinct
  named := h.named
  apart e he hmem := h.apart e he ((List.erase_sublist.map _).subset hmem)

/-- Taking back the default namespace is not new. -/
theorem erase_append (h : AreNew own added) :
    (own ++ added).erase ⟨"", ""⟩ = own.erase ⟨"", ""⟩ ++ added := by
  have hnot : (⟨"", ""⟩ : Declaration) ∉ added := fun hmem ↦ h.named _ hmem rfl
  by_cases hown : (⟨"", ""⟩ : Declaration) ∈ own
  · exact List.erase_append_left _ hown
  · rw [List.erase_append_right _ hown, List.erase_of_not_mem hnot, List.erase_of_not_mem hown]

end AreNew

/-- The declarations that attributes need are new to the tag. -/
theorem areNew_chooseForAttributes {w : Writer} {own : List Declaration} (h : w.scope.Binds own)
    (attributes : List Attribute) : AreNew own (w.chooseForAttributes attributes).2.1 := by
  induction attributes generalizing w own with
  | nil => exact ⟨List.nodup_nil, by simp [chooseForAttributes], by simp [chooseForAttributes]⟩
  | cons a rest ih =>
    rw [chooseForAttributes, chooseForAttribute]
    by_cases hu : a.name.uri = ""
    · rw [if_pos hu]
      exact ih h
    · rw [if_neg hu]
      generalize hc : w.choosePrefix a.name.uri = c
      have hchosen := w.chooses_choosePrefix a.name.uri
      rw [hc] at hchosen
      cases hchosen with
      | kept found serves => exact ih h
      | @introduced n free lacking =>
        have hbinds : (w.scope.declare ⟨generatedPrefix n, a.name.uri⟩).Binds
            (own ++ [⟨generatedPrefix n, a.name.uri⟩]) :=
          h.declare (generatedPrefix_ne_xml n) fun _ ↦ hu
        exact (ih hbinds).cons (generatedPrefix_ne_empty n) (h.not_mem free)

/-! ### The declaration for an element -/

/-- How an element gets its prefix: by what is in scope, by taking the default namespace back where
it is in none, or by a generated prefix that is unbound. -/
inductive ChoosesForElement (w : Writer) (uri : String) : Choice → Prop
  | kept (pre : String) (suits : uri = "" → (w.scope.namespaceOf? "").getD "" = "") :
      ChoosesForElement w uri (w.keep pre)
  | takenBack (unnamed : uri = "") (inherited : (w.scope.namespaceOf? "").getD "" ≠ "") :
      ChoosesForElement w uri (w.introduce ⟨"", ""⟩)
  | introduced {n : Nat} (named : uri ≠ "")
      (free : w.scope.namespaceOf? (generatedPrefix n) = none) :
      ChoosesForElement w uri ({ w with generated := n }.introduce ⟨generatedPrefix n, uri⟩)

/-- The prefix of an element comes about in one of these ways. -/
theorem choosesForElement (w : Writer) (uri : String) :
    w.ChoosesForElement uri (w.chooseForElement uri) := by
  unfold chooseForElement
  dsimp only
  split
  · next hu =>
    split
    · next hdefault =>
      subst hu
      exact .takenBack rfl hdefault
    · next hdefault => exact .kept "" fun _ ↦ not_not.mp hdefault
  · next hu =>
    split
    · exact .kept "" fun h ↦ absurd h hu
    · generalize hc : w.choosePrefix uri = c
      have hchosen := w.chooses_choosePrefix uri
      rw [hc] at hchosen
      cases hchosen with
      | kept found serves => exact .kept _ fun h ↦ absurd h hu
      | introduced free lacking => exact .introduced hu free

/-- The event declares a default namespace for an element in no namespace. -/
def OpposesDefault (uri : String) (given : List Declaration) : Prop :=
  uri = "" ∧ ∃ d ∈ given, d.pre = "" ∧ d.uri ≠ ""

instance (uri : String) (given : List Declaration) : Decidable (OpposesDefault uri given) :=
  inferInstanceAs (Decidable (_ ∧ _))

section Element

variable {w : Writer} {outer : NamespaceScope} {given : List Declaration} {uri : String}
  {c : Choice}

/-- On the tag the default namespace is the one that the event declares. -/
theorem default_of_mem (hscope : w.scope = outer.push given)
    (hdistinct : (given.map (·.pre)).Nodup) {d : Declaration} (hd : d ∈ given) (hpre : d.pre = "") :
    (w.scope.namespaceOf? "").getD "" = d.uri := by
  rw [hscope, ← hpre, namespaceOf?_push_of_mem hdistinct hd (by simp [hpre])
    fun hne ↦ absurd hpre hne, Option.getD_some]

/-- Whatever the element needs is bound. -/
theorem ChoosesForElement.binds (h : w.ChoosesForElement uri c) (hbinds : w.scope.Binds given) :
    c.writer.scope.Binds (given ++ c.declaration.toList) := by
  cases h with
  | kept pre suits => simpa [keep] using hbinds
  | takenBack unnamed inherited => exact hbinds.declare (by decide) fun h ↦ absurd rfl h
  | introduced named free => exact hbinds.declare (generatedPrefix_ne_xml _) fun _ ↦ named

/-- With what the element needs, a prefix is declared twice just if the event of an element in no
namespace declares a default namespace. -/
theorem ChoosesForElement.nodup_iff (h : w.ChoosesForElement uri c)
    (hscope : w.scope = outer.push given) (hdistinct : (given.map (·.pre)).Nodup)
    (hbinds : w.scope.Binds given) :
    ((given ++ c.declaration.toList).map (·.pre)).Nodup ↔ ¬ OpposesDefault uri given := by
  have hnodup (d : Declaration) :
      ((given ++ [d]).map (·.pre)).Nodup ↔ d.pre ∉ given.map (·.pre) := by
    simp [List.nodup_append, hdistinct]
  cases h with
  | kept pre suits =>
    refine iff_of_true (by simpa [keep] using hdistinct) ?_
    rintro ⟨hu, d, hd, hpre, hne⟩
    exact hne ((default_of_mem hscope hdistinct hd hpre).symm.trans (suits hu))
  | takenBack unnamed inherited =>
    refine (hnodup ⟨"", ""⟩).trans (not_congr ?_)
    rw [List.mem_map]
    constructor
    · rintro ⟨d, hd, hpre⟩
      rw [default_of_mem hscope hdistinct hd hpre] at inherited
      exact ⟨unnamed, d, hd, hpre, inherited⟩
    · rintro ⟨-, d, hd, hpre, -⟩
      exact ⟨d, hd, hpre⟩
  | introduced named free =>
    exact (hnodup _).trans (iff_of_true (hbinds.not_mem free) fun h ↦ named h.1)

/-- But for the taking back of the default namespace, no prefix is declared twice. -/
theorem ChoosesForElement.nodup_erase (h : w.ChoosesForElement uri c)
    (hscope : w.scope = outer.push given) (hdistinct : (given.map (·.pre)).Nodup)
    (hbinds : w.scope.Binds given) :
    (((given ++ c.declaration.toList).erase ⟨"", ""⟩).map (·.pre)).Nodup := by
  have hall := h.nodup_iff hscope hdistinct hbinds
  by_cases hopposes : OpposesDefault uri given
  · cases h with
    | kept pre suits =>
      exact absurd hopposes (hall.mp (by simpa [keep] using hdistinct))
    | takenBack unnamed inherited =>
      have hnot : (⟨"", ""⟩ : Declaration) ∉ given := by
        intro hmem
        exact inherited (default_of_mem hscope hdistinct hmem rfl)
      have htaken : (w.introduce ⟨"", ""⟩).declaration.toList = [⟨"", ""⟩] := rfl
      rw [htaken, List.erase_append_right _ hnot]
      simpa using hdistinct
    | introduced named free => exact absurd hopposes.1 named
  · exact (hall.mpr hopposes).sublist (List.erase_sublist.map _)

end Element

/-! ### Start tags -/

/-- The start tag that is written for an opening. -/
def startTag (w : Writer) (name : QName) (attributes : List Attribute)
    (given : List Declaration) : StartTag :=
  let element := { w with scope := w.scope.push given }.chooseForElement name.uri
  let chosen := element.writer.chooseForAttributes attributes
  ⟨element.pre, name, given, element.declaration.toList ++ chosen.2.1, chosen.1.zip attributes⟩

private theorem length_chooseForAttributes (w : Writer) (attributes : List Attribute) :
    (w.chooseForAttributes attributes).1.length = attributes.length := by
  induction attributes generalizing w with
  | nil => rfl
  | cons a rest ih => exact congrArg (· + 1) (ih _)

/-- An opening is written as its start tag. -/
theorem write_opening (w : Writer) (name : QName) (attributes : List Attribute)
    (given : List Declaration) :
    (w.write (.opening name attributes given)).1 =
      .ok (w.pendingText ++ (w.startTag name attributes given).text) := by
  change Except.ok (w.writeOpening name attributes given).1 = _
  rw [writeOpening, StartTag.text, StartTag.declarations, startTag]
  simp only [← List.map_uncurry_zip_eq_zipWith, String.append_assoc, List.append_assoc]
  rfl

/-- The start tag is that of the event. -/
theorem event_startTag (w : Writer) (name : QName) (attributes : List Attribute)
    (given : List Declaration) :
    (w.startTag name attributes given).event = .opening name attributes given := by
  rw [StartTag.event, startTag, List.map_snd_zip (length_chooseForAttributes _ _).ge]

/-- Whatever was written before, an opening that declares no prefix twice and takes no named one
back is written as a start tag with its declarations and those that the names on it need. No prefix
is declared twice on the tag unless the event declares a default namespace for an element in no
namespace; the default namespace is then taken back on the same tag, and that is the only
repetition in any case. -/
theorem write_opening_distinct (w : Writer) (name : QName) (attributes : List Attribute)
    (given : List Declaration) (hdistinct : (given.map (·.pre)).Nodup)
    (hbound : ∀ d ∈ given, d.pre ≠ "" → d.uri ≠ "") :
    (w.write (.opening name attributes given)).1 =
        .ok (w.pendingText ++ (w.startTag name attributes given).text) ∧
      (w.startTag name attributes given).event = .opening name attributes given ∧
      (((w.startTag name attributes given).declarations.map (·.pre)).Nodup ↔
        ¬ OpposesDefault name.uri given) ∧
      (((w.startTag name attributes given).declarations.erase ⟨"", ""⟩).map (·.pre)).Nodup := by
  let w₀ : Writer := { w with scope := w.scope.push given }
  let c := w₀.chooseForElement name.uri
  let own := given ++ c.declaration.toList
  let added := (c.writer.chooseForAttributes attributes).2.1
  have hdeclarations : (w.startTag name attributes given).declarations = own ++ added :=
    (List.append_assoc ..).symm
  have helement : w₀.ChoosesForElement name.uri c := w₀.choosesForElement name.uri
  have hbinds : w₀.scope.Binds given := binds_push hdistinct hbound
  have hnew : AreNew own added := areNew_chooseForAttributes (helement.binds hbinds) attributes
  refine ⟨write_opening .., event_startTag .., ?_, ?_⟩
  · rw [hdeclarations, hnew.nodup_append_iff]
    exact helement.nodup_iff rfl hdistinct hbinds
  · rw [hdeclarations, hnew.erase_append, hnew.erase.nodup_append_iff]
    exact helement.nodup_erase rfl hdistinct hbinds

/-- The writer within a list in the default namespace. -/
def listWriter : Writer := ⟨⟨[[⟨"", "urn:d"⟩]]⟩, [⟨"urn:d", "list"⟩], true, 0⟩

/-- An item in no namespace takes the default one back, and declares a prefix for its attribute
beside the one that was given. -/
theorem write_opening_distinct_item :
    initial.writeAll [.opening ⟨"urn:d", "list"⟩ [] [⟨"", "urn:d"⟩]] =
        .ok ("<list xmlns=\"urn:d\"", listWriter) ∧
      (listWriter.write (.opening ⟨"", "item"⟩ [⟨⟨"urn:b", "k"⟩, "v"⟩] [⟨"ns1", "urn:a"⟩])).1 =
        .ok "><item xmlns:ns1=\"urn:a\" xmlns=\"\" xmlns:ns2=\"urn:b\" ns2:k=\"v\"" ∧
      ((listWriter.startTag ⟨"", "item"⟩ [⟨⟨"urn:b", "k"⟩, "v"⟩]
        [⟨"ns1", "urn:a"⟩]).declarations.map (·.pre)).Nodup := by
  have hwritten := listWriter.write_opening_distinct ⟨"", "item"⟩ [⟨⟨"urn:b", "k"⟩, "v"⟩]
    [⟨"ns1", "urn:a"⟩] (by decide) (by decide)
  refine ⟨by decide +kernel, ?_, hwritten.2.2.1.mpr (by decide)⟩
  rw [hwritten.1]
  decide +kernel

/-- An element in no namespace whose event declares a default namespace is written with two
declarations of the empty prefix. -/
theorem not_write_opening_distinct : ¬ ∀ (events : List Event) (before : String) (w : Writer),
    initial.writeAll events = .ok (before, w) →
    ∀ (name : QName) (attributes : List Attribute) (given : List Declaration),
      (given.map (·.pre)).Nodup → (∀ d ∈ given, d.pre ≠ "" → d.uri ≠ "") →
      (∃ error, (w.write (.opening name attributes given)).1 = .error error) ∨
        (w.write (.opening name attributes given)).1 =
            .ok (w.pendingText ++ (w.startTag name attributes given).text) ∧
          ((w.startTag name attributes given).declarations.map (·.pre)).Nodup := by
  intro h
  rcases h [] "" initial rfl ⟨"", "c"⟩ [] [⟨"", "urn:d"⟩] (by decide) (by decide) with h | h
  · obtain ⟨error, herror⟩ := h
    rw [write_opening] at herror
    cases herror
  · exact absurd h.2 (by decide)

end Writer

end XmlBinding

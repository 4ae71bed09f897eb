import XmlBinding.Proofs.Document.Characters
import XmlBinding.Proofs.Lexical.Print
import XmlBinding.Proofs.Value

/-!
# Drafts with ordinary names

The names and namespaces in a document come from the bindings, from the names in the value and from
the prefixes that are generated for them. As long as these are ordinary, every step that fills a
draft keeps it so (`Draft.IsOrdinary`), and its texts are made of no other characters than those of
the value and of a document (`p` stands for a class that has all of these).
-/

namespace XmlBinding

open Markup

/-! ### Ordinary names -/

/-- A name that can be written down and is in no reserved namespace. -/
structure QName.IsOrdinary (n : QName) : Prop where
  isLegible : n.IsLegible
  free : ¬ IsReservedUri n.uri

instance (n : QName) : Decidable n.IsOrdinary :=
  decidable_of_iff (n.IsLegible ∧ ¬ IsReservedUri n.uri) ⟨fun h ↦ ⟨h.1, h.2⟩, fun h ↦ ⟨h.1, h.2⟩⟩

/-- No name is in a reserved namespace. -/
def Scalar.IsFree : Scalar → Prop
  | .name q => ¬ IsReservedUri q.uri
  | _ => True

instance (s : Scalar) : Decidable s.IsFree :=
  match s with
  | .name q => inferInstanceAs (Decidable (¬ IsReservedUri q.uri))
  | .bool _ | .integer _ | .decimal _ | .binary32 _ | .binary64 _ | .string _ | .dateTime _
  | .date _ | .time _ | .duration _ => .isTrue trivial

/-- A scalar that keeps to the rules for namespaces and is made of characters of a class. -/
structure Scalar.IsOrdinary (p : Char → Bool) (s : Scalar) : Prop where
  free : s.IsFree
  isMadeOf : s.IsMadeOf p

/-- An attribute with an ordinary name that is not taken for a declaration. -/
structure Attribute.IsOrdinary (p : Char → Bool) (a : Attribute) : Prop where
  name : a.name.IsOrdinary
  avoidsXmlns : a.name.localPart ≠ "xmlns"
  value : a.value.toList.all p = true

/-- A declaration of a prefix that is a name, with nothing reserved in it. -/
structure Declaration.IsOrdinary (p : Char → Bool) (d : Declaration) : Prop where
  pre : IsNamePart d.pre.toList
  free : d.IsFree
  uri : d.uri.toList.all p = true

/-- An event that keeps to the rules for namespaces and is made of characters of a class. -/
structure Event.IsOrdinary (p : Char → Bool) (e : Event) : Prop where
  isMadeOf : e.IsMadeOf p
  isConforming : e.IsConforming
  avoidsXmlns : e.AvoidsXmlns

/-- All events of the tree are ordinary. -/
def Tree.IsOrdinary (p : Char → Bool) (t : Tree) : Prop := ∀ e ∈ t.events, e.IsOrdinary p

/-- The events of trees are those of every one. -/
theorem Tree.mem_eventsOfAll {ts : List Tree} {e : Event} :
    e ∈ eventsOfAll ts ↔ ∃ t ∈ ts, e ∈ t.events := by
  induction ts with
  | nil => simp [eventsOfAll]
  | cons t rest ih => simp [eventsOfAll, ih]

/-! ### Properties of drafts along steps -/

namespace Drafting

variable {α β : Type} {m : Drafting α} {P : Draft → Prop} {Q : α → Draft → Prop}

/-- Whenever the step succeeds from a draft with a property, its result and the draft that it leaves
have another. -/
def Ensures (P : Draft → Prop) (m : Drafting α) (Q : α → Draft → Prop) : Prop :=
  ∀ d log a d' log', P d → Drafting.Gives m d log a d' log' → Q a d'

/-- A step that returns a value leaves the draft as it is. -/
theorem ensures_pure {a : α} (h : ∀ d, P d → Q a d) : Ensures P (pure a) Q := by
  intro d log b d' log' hd hg
  obtain ⟨rfl, rfl, rfl⟩ := gives_pure.mp hg
  exact h _ hd

/-- A step that throws ensures anything. -/
theorem ensures_throw (e : Error) : Ensures P (throw e : Drafting α) Q :=
  fun _ _ _ _ _ _ hg ↦ absurd hg not_gives_throw

/-- Two steps ensure what the second does from where the first ended. -/
theorem ensures_bind {f : α → Drafting β} {R : β → Draft → Prop} (hm : Ensures P m Q)
    (hf : ∀ a, Ensures (Q a) (f a) R) : Ensures P (m >>= f) R := by
  intro d log b d' log' hd hg
  obtain ⟨a, d₁, log₁, ha, hb⟩ := gives_bind.mp hg
  exact hf a d₁ log₁ b d' log' (hm d log a d₁ log₁ hd ha) hb

/-- A step ensures what follows from what it ensures, given what suffices for it. -/
theorem Ensures.imp {P' : Draft → Prop} {Q' : α → Draft → Prop} (h : Ensures P m Q)
    (hp : ∀ d, P' d → P d) (hq : ∀ a d, Q a d → Q' a d) : Ensures P' m Q' :=
  fun d log a d' log' hd hg ↦ hq a d' (h d log a d' log' (hp d hd) hg)

/-- What has been said of the result may be assumed. -/
theorem ensures_of_forall {R : Prop} (h : R → Ensures P m Q) : Ensures (fun d ↦ P d ∧ R) m Q :=
  fun d log a d' log' hd hg ↦ h hd.2 d log a d' log' hd.1 hg

/-- Noting a problem leaves the draft as it is. -/
theorem ensures_report (problem : Problem) : Ensures P (report problem) fun _ ↦ P := by
  intro d log u d' log' hd hg
  rw [(gives_report.mp hg).1]
  exact hd

/-- Changing the draft. -/
theorem ensures_modifyDraft {f : Draft → Draft} {R : Draft → Prop} (h : ∀ d, P d → R (f d)) :
    Ensures P (modifyThe Draft f) fun _ ↦ R := by
  intro d log u d' log' hd hg
  rw [(gives_modifyDraft.mp hg).1]
  exact h d hd

/-- A row of steps that keep a property keeps it. -/
theorem ensures_forM {ι : Type} {f : ι → Drafting Unit} {xs : List ι}
    (h : ∀ x ∈ xs, Ensures P (f x) fun _ ↦ P) : Ensures P (xs.forM f) fun _ ↦ P := by
  induction xs with
  | nil => exact ensures_pure fun _ hd ↦ hd
  | cons x xs ih =>
    exact ensures_bind (h x List.mem_cons_self) fun _ ↦
      ih fun y hy ↦ h y (List.mem_cons_of_mem _ hy)

end Drafting

/-! ### Ordinary drafts -/

/-- A draft whose element is ordinary so far, and stays so with attributes of the awaited names. -/
structure Draft.IsOrdinary (p : Char → Bool) (awaited : List QName) (d : Draft) : Prop where
  name : d.name.IsOrdinary
  scope : ∀ e ∈ d.scope.declarations, e.IsOrdinary p
  attributes : ∀ a ∈ d.attributes, a.IsOrdinary p
  /-- The attributes have different names, and those to come have others. -/
  distinct : (d.attributes.map (·.name) ++ awaited).Nodup
  content : ∀ t ∈ d.content, t.IsOrdinary p

namespace Draft.IsOrdinary

variable {p : Char → Bool} {awaited : List QName} {d : Draft}

private theorem mono (h : d.IsOrdinary p awaited) {others : List QName}
    (hs : others.Sublist awaited) : d.IsOrdinary p others :=
  { h with distinct := h.distinct.sublist (List.Sublist.append_left hs _) }

/-- An ordinary part may be added. -/
theorem add (h : d.IsOrdinary p awaited) {t : Tree} (ht : t.IsOrdinary p) :
    (d.add t).IsOrdinary p awaited := by
  refine { h with content := fun part hpart ↦ ?_ }
  rcases List.mem_append.mp hpart with hpart | hpart
  · exact h.content part hpart
  · rw [List.mem_singleton.mp hpart]
    exact ht

/-- The finished element is ordinary. -/
theorem toTree (h : d.IsOrdinary p awaited) : d.toTree.IsOrdinary p := by
  have hown : ∀ e ∈ d.declarations, e.IsOrdinary p := fun e he ↦
    h.scope e (by simp [Draft.declarations_scope, he])
  intro e he
  rw [Draft.toTree, Tree.events] at he
  rcases List.mem_cons.mp he with rfl | he
  · refine ⟨⟨h.name.isLegible, fun a ha ↦ ?_, fun e he ↦ ⟨.inr (hown e he).pre, (hown e he).uri⟩⟩,
      ⟨h.name.free, fun a ha ↦ (h.attributes a ha).name.free, ?_, fun e he ↦ (hown e he).free⟩,
      fun a ha ↦ (h.attributes a ha).avoidsXmlns⟩
    · exact ⟨(h.attributes a ha).name.isLegible, (h.attributes a ha).value⟩
    · exact h.distinct.sublist (List.sublist_append_left _ _)
  · rcases List.mem_append.mp he with he | he
    · obtain ⟨t, ht, he⟩ := Tree.mem_eventsOfAll.mp he
      exact h.content t ht e he
    · rw [List.mem_singleton.mp he]
      exact ⟨trivial, trivial, by simp [Event.AvoidsXmlns, Event.attributes]⟩

end Draft.IsOrdinary

/-! ### Prefixes -/

section Steps

-- A class of characters that has all that a document may hold, and perhaps others.
variable {p : Char → Bool} (hp : ∀ c, isDocumentChar c = true → p c = true)
  {awaited : List QName}

private theorem preferredPrefix?_free {uri pre : String} (h : preferredPrefix? uri = some pre) :
    IsNamePart pre.toList ∧ pre ≠ "xml" ∧ pre ≠ "xmlns" := by
  unfold preferredPrefix? at h
  split at h
  · cases h
    decide
  · split at h
    · cases h
      decide
    · cases h

/-- In an ordinary scope the prefix that is chosen is a name, and its declaration is ordinary. -/
private theorem NamespaceScope.choosePrefix_isOrdinary {s : NamespaceScope}
    (hs : ∀ e ∈ s.declarations, e.IsOrdinary p) {uri : String} (huri : uri.toList.all p = true)
    (hfree : ¬ IsReservedUri uri) (generated : Nat) :
    IsNamePart (s.choosePrefix generated uri).pre.toList ∧
      ∀ e ∈ (s.choosePrefix generated uri).declaration, e.IsOrdinary p := by
  unfold choosePrefix
  split
  · next pre hpre =>
    have hmem := mem_of_prefixOf? (Option.filter_eq_some_iff.mp hpre).1
    exact ⟨(hs _ hmem).pre, by simp⟩
  · split
    · next pre hpre =>
      obtain ⟨hname, hxml, hxmlns⟩ := preferredPrefix?_free (Option.filter_eq_some_iff.mp hpre).1
      refine ⟨hname, fun e he ↦ ?_⟩
      cases he
      exact ⟨hname, ⟨⟨hxml, hxmlns⟩, hfree⟩, huri⟩
    · refine ⟨isNamePart_generatedPrefix _, fun e he ↦ ?_⟩
      cases he
      exact ⟨isNamePart_generatedPrefix _,
        ⟨⟨generatedPrefix_ne_xml _, generatedPrefix_ne_xmlns _⟩, hfree⟩, huri⟩

namespace Drafting

/-- A prefix is a name, unless there is no namespace. -/
theorem ensures_prefixFor {uri : String} (huri : uri.toList.all p = true)
    (hfree : ¬ IsReservedUri uri) :
    Ensures (Draft.IsOrdinary p awaited) (prefixFor uri) fun pre d ↦
      d.IsOrdinary p awaited ∧ (pre = "" ∨ IsNamePart pre.toList) := by
  intro d log pre d' log' hd hg
  unfold prefixFor at hg
  split at hg
  · obtain ⟨rfl, rfl, rfl⟩ := gives_pure.mp hg
    exact ⟨hd, .inl rfl⟩
  · cases hg
    obtain ⟨hpre, hdeclared⟩ :=
      d.scope.choosePrefix_isOrdinary hd.scope huri hfree log.generated
    refine ⟨{ hd with scope := fun e he ↦ ?_ }, .inr hpre⟩
    rw [Draft.declarations_scope] at he
    simp only [List.reverse_append, List.append_assoc, List.mem_append, List.mem_reverse,
      Option.mem_toList] at he
    rcases he with he | he
    · exact hdeclared e he
    · exact hd.scope e (by simpa [Draft.declarations_scope] using he)

include hp in
/-- A name behind its prefix is made of characters of the class. -/
theorem all_joinPrefix {pre localPart : String} (hpre : pre = "" ∨ IsNamePart pre.toList)
    (hlocal : localPart.toList.all p = true) : (joinPrefix pre localPart).toList.all p = true := by
  rw [TagName.toList_joinPrefix, TagName.characters]
  split
  · exact hlocal
  · next hne =>
    have hname := hpre.resolve_left (by simpa using hne)
    rw [List.all_append, List.all_cons, hlocal, hp ':' (by decide)]
    simpa using fun c hc ↦ hp c (isDocumentChar_of_isTagNameChar (hname.isTagNameChar c hc))

include hp in
/-- An ordinary name is written in characters of the class. -/
theorem ensures_lexicalName {name : QName} (hname : name.IsOrdinary) :
    Ensures (Draft.IsOrdinary p awaited) (lexicalName name) fun text d ↦
      d.IsOrdinary p awaited ∧ text.toList.all p = true := by
  have huri := all_of_all_isDocumentChar hp hname.isLegible.uri
  refine ensures_bind (ensures_prefixFor huri hname.free) fun pre ↦ ensures_of_forall fun hpre ↦ ?_
  refine ensures_pure fun d hd ↦ ⟨hd, all_joinPrefix hp hpre ?_⟩
  exact List.all_eq_true.mpr fun c hc ↦
    hp c (isDocumentChar_of_isTagNameChar (hname.isLegible.localPart.isTagNameChar c hc))

/-! ### Attributes and texts -/

/-- Some of the awaited attributes may be left out. -/
theorem ensures_fewer {α : Type} {m : Drafting α} {Q : α → Draft → Prop} {others : List QName}
    (hs : others.Sublist awaited) (h : Ensures (Draft.IsOrdinary p others) m Q) :
    Ensures (Draft.IsOrdinary p awaited) m Q :=
  h.imp (fun _ hd ↦ hd.mono hs) fun _ _ hd ↦ hd

include hp in
/-- An awaited attribute is added. -/
theorem ensures_addAttribute {name : QName} {text : String} (hname : name.IsOrdinary)
    (hxmlns : name.localPart ≠ "xmlns") (htext : text.toList.all p = true) :
    Ensures (Draft.IsOrdinary p (name :: awaited)) (addAttribute name text) fun _ ↦
      Draft.IsOrdinary p awaited := by
  have hadd : Ensures (Draft.IsOrdinary p (name :: awaited))
      (modifyThe Draft fun d ↦ { d with attributes := d.attributes ++ [⟨name, text⟩] }) fun _ ↦
        Draft.IsOrdinary p awaited := by
    refine ensures_modifyDraft fun d hd ↦ { hd with attributes := ?_, distinct := ?_ }
    · intro a ha
      rcases List.mem_append.mp ha with ha | ha
      · exact hd.attributes a ha
      · rw [List.mem_singleton.mp ha]
        exact ⟨hname, hxmlns, htext⟩
    · simpa using hd.distinct
  unfold addAttribute
  split
  · next hu =>
    have huri := all_of_all_isDocumentChar hp hname.isLegible.uri
    exact ensures_bind ((ensures_prefixFor huri hname.free).imp (fun _ h ↦ h) fun _ _ h ↦ h.1)
      fun _ ↦ hadd
  · exact hadd

/-- Text is added. -/
theorem ensures_characters {text : String} (htext : text.toList.all p = true) :
    Ensures (Draft.IsOrdinary p awaited) (characters text) fun _ ↦ Draft.IsOrdinary p awaited := by
  unfold characters
  split
  · exact ensures_pure fun _ hd ↦ hd
  · refine ensures_modifyDraft fun d hd ↦ hd.add fun e he ↦ ?_
    rw [Tree.events, List.mem_singleton] at he
    rw [he]
    exact ⟨htext, trivial, by simp [Event.AvoidsXmlns, Event.attributes]⟩

end Drafting

/-! ### Printed values -/

open Drafting

include hp in
private theorem Codec.ensures_printText {codec : Codec} {value : Value}
    (hvalue : ∀ s ∈ value.scalars, s.IsOrdinary p) :
    Ensures (Draft.IsOrdinary p awaited) (codec.printText value) fun r d ↦
      d.IsOrdinary p awaited ∧ ∀ text, r = .ok text → text.toList.all p = true := by
  unfold printText
  cases hprint : codec.print value with
  | error cause => exact ensures_pure fun d hd ↦ ⟨hd, by simp⟩
  | ok printed =>
    have hmade : printed.IsMadeOf p := by
      cases value with
      | scalar s =>
        have hs := hvalue s (by simp [Value.scalars])
        exact printScalar_isMadeOf hp hs.isMadeOf hprint
      | null => cases hprint
      | list items => cases hprint
      | struct native fields => cases hprint
    cases printed with
    | text s => exact ensures_pure fun d hd ↦ ⟨hd, fun text ht ↦ by cases ht; exact hmade⟩
    | name q =>
      obtain ⟨-, rfl, -⟩ := print_eq_name hprint
      have hfree : ¬ IsReservedUri q.uri := (hvalue (.name q) (by simp [Value.scalars])).free
      by_cases hu : q.uri = ""
      · simp only [Printed.namespace?, Printed.finish, if_pos hu]
        exact ensures_pure fun d hd ↦ ⟨hd, fun text ht ↦ by cases ht; exact hmade.2⟩
      · simp only [Printed.namespace?, Printed.finish, if_neg hu]
        refine ensures_bind (ensures_prefixFor hmade.1 hfree) fun pre ↦ ?_
        refine ensures_of_forall fun hpre ↦ ?_
        refine ensures_pure fun d hd ↦ ⟨hd, fun text ht ↦ ?_⟩
        cases ht
        exact all_joinPrefix hp hpre hmade.2

include hp in
/-- The text of a value of a type is made of characters of the class. -/
theorem BindingType.ensures_print {t : BindingType} {value : Value}
    (hvalue : ∀ s ∈ value.scalars, s.IsOrdinary p) :
    Ensures (Draft.IsOrdinary p awaited) (t.print value) fun r d ↦
      d.IsOrdinary p awaited ∧ ∀ text, r = .ok text → text.toList.all p = true := by
  unfold print
  split
  · exact Codec.ensures_printText hp hvalue
  · exact ensures_pure fun d hd ↦ ⟨hd, by simp⟩
  · exact ensures_pure fun d hd ↦ ⟨hd, by simp⟩
  · exact ensures_pure fun d hd ↦ ⟨hd, by simp⟩

end Steps

end XmlBinding

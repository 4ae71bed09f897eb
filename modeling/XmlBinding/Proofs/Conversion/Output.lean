import XmlBinding.Conversion.Generated
import XmlBinding.Proofs.Conversion.Run
import XmlBinding.Proofs.Lexical.Name

/-!
# What the steps of writing do to a draft

Before its content, a draft only grows: it receives attributes and declarations, and its scope stays
clear. A text that was printed on the way shows its value in the scope at the time, and therefore in
every later one.
-/

namespace XmlBinding

/-! ### Growing drafts -/

/-- A draft has received attributes and perhaps declarations, and nothing else; its scope is
clear. -/
structure Draft.Grows (d : Draft) (added : List Attribute) (d' : Draft) : Prop where
  name : d'.name = d.name
  outer : d'.outer = d.outer
  content : d'.content = d.content
  attributes : d'.attributes = d.attributes ++ added
  declared : ∀ e ∈ d.scope.declarations, e ∈ d'.scope.declarations
  clear : d'.scope.Clear

namespace Draft.Grows

/-- A draft with a clear scope may stay as it is. -/
theorem refl {d : Draft} (h : d.scope.Clear) : d.Grows [] d :=
  ⟨rfl, rfl, rfl, by simp, fun _ he ↦ he, h⟩

/-- What is received later stands behind what was received before. -/
theorem trans {d d₁ d₂ : Draft} {a b : List Attribute} (h : d.Grows a d₁) (h' : d₁.Grows b d₂) :
    d.Grows (a ++ b) d₂ where
  name := h'.name.trans h.name
  outer := h'.outer.trans h.outer
  content := h'.content.trans h.content
  attributes := by rw [h'.attributes, h.attributes, List.append_assoc]
  declared e he := h'.declared e (h.declared e he)
  clear := h'.clear

end Draft.Grows

/-- The declarations in scope within a draft, the latest first. -/
theorem Draft.declarations_scope (d : Draft) :
    d.scope.declarations = d.declarations.reverse ++ d.outer.declarations := by
  rw [Draft.scope, NamespaceScope.declarations_push]

/-! ### Prefixes -/

private theorem preferredPrefix?_eq_some {uri pre : String} (h : preferredPrefix? uri = some pre) :
    isNCName pre.toList = true ∧ pre ≠ "xml" := by
  unfold preferredPrefix? at h
  split at h
  · cases h
    exact ⟨by decide, by decide⟩
  · split at h
    · cases h
      exact ⟨by decide, by decide⟩
    · cases h

/-- In a clear scope a prefix is chosen so that the scope stays clear and binds it. -/
private theorem NamespaceScope.Clear.choosePrefix {s t : NamespaceScope} (h : s.Clear)
    {generated : Nat} {uri : String} (hu : uri ≠ "")
    (ht : t.declarations =
      (s.choosePrefix generated uri).declaration.toList ++ s.declarations) :
    t.Clear ∧ ⟨(s.choosePrefix generated uri).pre, uri⟩ ∈ t.declarations := by
  unfold NamespaceScope.choosePrefix at ht ⊢
  cases hp : (s.prefixOf? uri).filter (· ≠ "") with
  | some pre =>
    rw [hp] at ht
    have hpre : s.prefixOf? uri = some pre := (Option.filter_eq_some_iff.mp hp).1
    refine ⟨h.congr ht, ?_⟩
    rw [show t.declarations = s.declarations from ht]
    exact mem_of_prefixOf? hpre
  | none =>
    have hnew : uri ∉ s.declarations.map (·.uri) := by
      cases hq : s.prefixOf? uri with
      | none => exact h.not_mem_of_prefixOf?_eq_none hq
      | some pre =>
        have hm := mem_of_prefixOf? hq
        rw [hq] at hp
        have hne : pre ≠ "" := ne_empty_of_isNCName (h.named _ hm)
        simp [Option.filter, hne] at hp
    rw [hp] at ht
    dsimp only at ht ⊢
    cases hq : (preferredPrefix? uri).filter fun pre ↦ (s.namespaceOf? pre).isNone with
    | some pre =>
      rw [hq] at ht
      obtain ⟨hpre, hfree⟩ := Option.filter_eq_some_iff.mp hq
      obtain ⟨hname, hx⟩ := preferredPrefix?_eq_some hpre
      refine ⟨h.declare ht hnew (by simpa using hfree) hx hname hu, ?_⟩
      rw [show t.declarations = ⟨pre, uri⟩ :: s.declarations from ht]
      exact List.mem_cons_self
    | none =>
      rw [hq] at ht
      refine ⟨h.declare ht hnew (s.namespaceOf?_fresh generated) (generatedPrefix_ne_xml _)
        (isNCName_generatedPrefix _) hu, ?_⟩
      rw [show t.declarations = ⟨_, uri⟩ :: s.declarations from ht]
      exact List.mem_cons_self

/-! ### Texts that show values -/

/-- The text is what a codec prints for a value; a qualified name may stand behind any prefix
through which it resolves in the scope. -/
def Codec.Shows (codec : Codec) (scope : NamespaceScope) (value : Value) (text : String) : Prop :=
  match codec.print value with
  | .ok (.text s) => text = s
  | .ok (.name q) => QName.resolve scope.namespaceOf? text = .ok q
  | .error _ => False

/-- A text goes on showing its value when more is declared. -/
theorem Codec.Shows.mono {codec : Codec} {s t : NamespaceScope} {value : Value} {text : String}
    (h : codec.Shows s value text) (ht : t.Clear)
    (hst : ∀ e ∈ s.declarations, e ∈ t.declarations) : codec.Shows t value text := by
  unfold Codec.Shows at h ⊢
  split at h
  · exact h
  · exact ht.resolve_mono hst h
  · exact h.elim

/-- Only qualified names that can be written behind a prefix are printed as names. -/
theorem Codec.print_eq_name {codec : Codec} {value : Value} {q : QName}
    (h : codec.print value = .ok (.name q)) :
    codec.space = .qname ∧ value = .scalar (.name q) ∧ isNCName q.localPart.toList = true := by
  unfold Codec.print at h
  split at h
  · next s =>
    unfold Codec.printScalar at h
    split at h
    all_goals try cases h
    · next space n _ =>
      cases hc : Codec.checkInteger space codec.type n.number with
      | error cause => rw [hc] at h; cases h
      | ok m => rw [hc] at h; cases h
    · next space text _ =>
      cases hc : space.normalize text with
      | error cause => rw [hc] at h; cases h
      | ok normal => rw [hc] at h; cases h
    · unfold Codec.printDateTime at h
      split at h <;> cases h
    · unfold Codec.printTime at h
      split at h <;> cases h
    · next hspace =>
      unfold Codec.printName at h
      split at h
      · next hl =>
        cases h
        exact ⟨hspace, rfl, hl⟩
      · cases h
  · cases h

namespace Drafting

variable {d d' : Draft} {log log' : WriteLog}

/-- No prefix is needed for no namespace; any other is declared, and the scope stays clear. -/
theorem prefixFor_grows (hd : d.scope.Clear) {uri pre : String}
    (h : Drafting.Gives (prefixFor uri) d log pre d' log') :
    d.Grows [] d' ∧ log'.diagnostics = log.diagnostics ∧
      ((uri = "" ∧ pre = "") ∨ (uri ≠ "" ∧ ⟨pre, uri⟩ ∈ d'.scope.declarations)) := by
  unfold prefixFor at h
  by_cases hu : uri = ""
  · rw [if_pos hu, gives_pure] at h
    obtain ⟨rfl, rfl, rfl⟩ := h
    exact ⟨.refl hd, rfl, .inl ⟨hu, rfl⟩⟩
  · rw [if_neg hu] at h
    cases h
    let choice := d.scope.choosePrefix log.generated uri
    let grown : Draft := { d with declarations := d.declarations ++ choice.declaration.toList }
    have hscope : grown.scope.declarations =
        choice.declaration.toList ++ d.scope.declarations := by
      cases hc : choice.declaration with
      | none => simp [grown, Draft.declarations_scope, hc]
      | some e => simp [grown, Draft.declarations_scope, hc]
    obtain ⟨hclear, hmem⟩ := hd.choosePrefix hu hscope
    refine ⟨⟨rfl, rfl, rfl, by simp, fun e he ↦ ?_, hclear⟩, rfl, .inr ⟨hu, hmem⟩⟩
    change e ∈ grown.scope.declarations
    rw [hscope]
    exact List.mem_append_right _ he

/-- A name that can stand behind a prefix is written so that it resolves to itself. -/
theorem lexicalName_grows (hd : d.scope.Clear) {q : QName} {text : String}
    (h : Drafting.Gives (lexicalName q) d log text d' log') :
    d.Grows [] d' ∧ log'.diagnostics = log.diagnostics ∧
      (isNCName q.localPart.toList = true →
        QName.resolve d'.scope.namespaceOf? text = .ok q) := by
  unfold lexicalName at h
  rw [gives_bind] at h
  obtain ⟨pre, d₁, log₁, hpre, h⟩ := h
  rw [gives_pure] at h
  obtain ⟨rfl, rfl, rfl⟩ := h
  obtain ⟨hgrow, hlog, hp⟩ := prefixFor_grows hd hpre
  refine ⟨hgrow, hlog, fun hl ↦ ?_⟩
  obtain ⟨uri, localPart⟩ := q
  cases hp with
  | inl hp =>
    obtain ⟨rfl, rfl⟩ := hp
    exact hgrow.clear.resolve_unprefixed hl
  | inr hp => exact hgrow.clear.resolve_joinPrefix hp.2 hl

/-- An attribute is put behind the others. -/
theorem addAttribute_grows (hd : d.scope.Clear) {name : QName} {text : String} {u : Unit}
    (h : Drafting.Gives (addAttribute name text) d log u d' log') :
    d.Grows [⟨name, text⟩] d' ∧ log'.diagnostics = log.diagnostics := by
  have hadd {d₁ : Draft} (hc : d₁.scope.Clear) :
      d₁.Grows [⟨name, text⟩] { d₁ with attributes := d₁.attributes ++ [⟨name, text⟩] } :=
    ⟨rfl, rfl, rfl, rfl, fun _ he ↦ he, hc⟩
  unfold addAttribute at h
  by_cases hu : name.uri = QName.instanceUri
  · simp only [if_pos hu] at h
    rw [gives_bind] at h
    obtain ⟨pre, d₁, log₁, hpre, h⟩ := h
    rw [gives_modifyDraft] at h
    obtain ⟨rfl, rfl⟩ := h
    obtain ⟨hgrow, hlog, -⟩ := prefixFor_grows hd hpre
    exact ⟨hgrow.trans (hadd hgrow.clear), hlog⟩
  · simp only [if_neg hu] at h
    rw [gives_modifyDraft] at h
    obtain ⟨rfl, rfl⟩ := h
    exact ⟨hadd hd, rfl⟩

end Drafting

/-- A value that its codec prints is shown by the text, in the scope with its prefix declared. -/
theorem Codec.printText_grows {codec : Codec} {value : Value} {d d' : Draft} {log log' : WriteLog}
    (hd : d.scope.Clear) {r : Except ConversionError String}
    (h : Drafting.Gives (codec.printText value) d log r d' log') :
    d.Grows [] d' ∧ log'.diagnostics = log.diagnostics ∧
      match r with
      | .ok text => codec.Shows d'.scope value text
      | .error cause => codec.print value = .error cause := by
  unfold Codec.printText at h
  cases hp : codec.print value with
  | error cause =>
    rw [hp, Drafting.gives_pure] at h
    obtain ⟨rfl, rfl, rfl⟩ := h
    exact ⟨.refl hd, rfl, rfl⟩
  | ok printed =>
    rw [hp] at h
    dsimp only at h
    cases hn : printed.namespace? with
    | none =>
      rw [hn, Drafting.gives_pure] at h
      obtain ⟨rfl, rfl, rfl⟩ := h
      refine ⟨.refl hd, rfl, ?_⟩
      dsimp only
      unfold Codec.Shows
      rw [hp]
      cases printed with
      | text s => rfl
      | name q =>
        obtain ⟨-, -, hl⟩ := Codec.print_eq_name hp
        obtain ⟨uri, localPart⟩ := q
        have hu : uri = "" := by
          by_contra hu
          simp [Printed.namespace?, hu] at hn
        subst hu
        exact hd.resolve_unprefixed hl
    | some uri =>
      rw [hn, Drafting.gives_bind] at h
      obtain ⟨pre, d₁, log₁, hpre, h⟩ := h
      rw [Drafting.gives_pure] at h
      obtain ⟨rfl, rfl, rfl⟩ := h
      obtain ⟨hgrow, hlog, hpre⟩ := Drafting.prefixFor_grows hd hpre
      refine ⟨hgrow, hlog, ?_⟩
      dsimp only
      unfold Codec.Shows
      rw [hp]
      cases printed with
      | text s => cases hn
      | name q =>
        obtain ⟨-, -, hl⟩ := Codec.print_eq_name hp
        obtain ⟨u, localPart⟩ := q
        have hu : u ≠ "" ∧ u = uri := by
          by_cases hu : u = ""
          · simp [Printed.namespace?, hu] at hn
          · exact ⟨hu, by simpa [Printed.namespace?, hu] using hn⟩
        obtain ⟨hne, rfl⟩ := hu
        cases hpre with
        | inl hpre => exact absurd hpre.1 hne
        | inr hpre =>
          dsimp only [Printed.finish]
          rw [if_neg hne]
          exact hgrow.clear.resolve_joinPrefix hpre.2 hl

end XmlBinding

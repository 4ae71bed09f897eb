import XmlBinding.Document.Writer
import XmlBinding.Proofs.Document.Scope

/-!
# Prefixes that a writer chooses

A writer chooses the prefix of every name while it adds declarations to the tag at hand. In a proper
scope, one that never takes a prefix back, the latest declaration of a prefix decides what it means
(`Proper.namespaceOf?_eq`), and a generated prefix is new to the scope, so that it changes the
meaning of no other one. `AttributesChosen` says what all choices for the attributes of a tag come
to, and `ElementPrefix` names the prefix that the end tag will compute.
-/

namespace XmlBinding

namespace NamespaceScope

/-! ### Proper scopes -/

/-- The namespace of the latest declaration of a prefix. -/
def latest? (s : NamespaceScope) (pre : String) : Option String :=
  (s.declarations.find? (·.pre = pre)).map (·.uri)

/-- The reserved prefix is not declared, and only the empty prefix is ever taken back. -/
structure Proper (s : NamespaceScope) : Prop where
  unreserved : ∀ d ∈ s.declarations, d.pre ≠ "xml"
  /-- A prefix that is not empty stands for a namespace. -/
  bound : ∀ d ∈ s.declarations, d.pre ≠ "" → d.uri ≠ ""

/-- Nothing is declared without a frame. -/
theorem proper_empty : empty.Proper := by
  constructor <;> simp [empty, declarations]

/-- A scope stays proper with more declarations of its kind. -/
theorem Proper.push {s : NamespaceScope} (h : s.Proper) {ds : List Declaration}
    (hx : ∀ d ∈ ds, d.pre ≠ "xml") (hb : ∀ d ∈ ds, d.pre ≠ "" → d.uri ≠ "") :
    (s.push ds).Proper := by
  constructor
  · intro d hd
    rw [declarations_push, List.mem_append, List.mem_reverse] at hd
    exact hd.elim (hx d) (h.unreserved d)
  · intro d hd
    rw [declarations_push, List.mem_append, List.mem_reverse] at hd
    exact hd.elim (hb d) (h.bound d)

/-- In a proper scope a prefix means what its latest declaration says. -/
theorem Proper.namespaceOf?_eq {s : NamespaceScope} (h : s.Proper) {pre : String}
    (hx : pre ≠ "xml") : s.namespaceOf? pre = s.latest? pre := by
  unfold namespaceOf? latest?
  rw [if_neg hx]
  cases hf : s.declarations.find? (·.pre = pre) with
  | none => rfl
  | some d =>
    have hp : d.pre = pre := by simpa using List.find?_some hf
    have hb := h.bound d (List.mem_of_find?_eq_some hf)
    rw [hp] at hb
    by_cases he : pre = ""
    · simp [he]
    · simp [hb he]

/-- A prefix without a latest declaration is not declared. -/
theorem latest?_eq_none_iff {s : NamespaceScope} {pre : String} :
    s.latest? pre = none ↔ pre ∉ s.declarations.map (·.pre) := by
  unfold latest?
  rw [Option.map_eq_none_iff, List.find?_eq_none]
  simp

/-- What else is declared does not matter to a prefix. -/
theorem latest?_declare {s : NamespaceScope} (d : Declaration) (pre : String) :
    (s.declare d).latest? pre = if d.pre = pre then some d.uri else s.latest? pre := by
  unfold latest?
  rw [declarations_declare, List.find?_cons]
  by_cases h : d.pre = pre
  · simp [h]
  · simp [h]

/-! ### The prefix of an element -/

/-- An element of a namespace has the prefix here: none in no namespace or in the default one, else
the latest prefix that is declared for its namespace and still means it. -/
def ElementPrefix (s : NamespaceScope) (uri pre : String) : Prop :=
  if uri = "" ∨ s.namespaceOf? "" = some uri then pre = ""
  else pre ≠ "" ∧ s.prefixOf? uri = some pre

/-- An element that is not in the default namespace has the prefix that is chosen for its
namespace. -/
theorem elementPrefix_of_prefixOf? {s : NamespaceScope} {uri pre : String} (hu : uri ≠ "")
    (hdefault : s.namespaceOf? "" ≠ some uri) (hpre : pre ≠ "") (hf : s.prefixOf? uri = some pre) :
    s.ElementPrefix uri pre := by
  unfold ElementPrefix
  rw [if_neg (not_or.mpr ⟨hu, hdefault⟩)]
  exact ⟨hpre, hf⟩

/-- An element keeps its prefix when an unbound prefix is declared for a namespace that had none but
perhaps the empty one. -/
private theorem ElementPrefix.declare {s : NamespaceScope} {d : Declaration} (hne : d.pre ≠ "")
    (hfree : s.namespaceOf? d.pre = none)
    (hlacking : ∀ pre, s.prefixOf? d.uri = some pre → pre = "") {uri pre : String}
    (h : s.ElementPrefix uri pre) : (s.declare d).ElementPrefix uri pre := by
  have hdefault : (s.declare d).namespaceOf? "" = s.namespaceOf? "" :=
    namespaceOf?_declare_of_ne hne
  unfold ElementPrefix at h ⊢
  rw [hdefault]
  split
  · next hu =>
    rw [if_pos hu] at h
    exact h
  · next hu =>
    rw [if_neg hu] at h
    obtain ⟨hpre, hprefix⟩ := h
    have huri : d.uri ≠ uri := by
      rintro rfl
      exact hpre (hlacking pre hprefix)
    exact ⟨hpre, (prefixOf?_declare hfree huri).trans hprefix⟩

end NamespaceScope

namespace Writer

open NamespaceScope

/-- The prefix of an end tag is the one that an element of its namespace has. -/
theorem closingPrefix_eq {w : Writer} {uri pre : String} (h : w.scope.ElementPrefix uri pre) :
    w.closingPrefix uri = pre := by
  unfold ElementPrefix at h
  unfold closingPrefix
  split
  · next hu =>
    rw [if_pos hu] at h
    exact h.symm
  · next hu =>
    rw [if_neg hu] at h
    rw [h.2, Option.getD_some]

/-! ### Choices for attributes -/

/-- How the prefix of a namespace is chosen: one that is in scope, or a generated one that is
unbound, where the namespace has none in scope but perhaps the empty one. -/
inductive Chooses (w : Writer) (uri : String) : Choice → Prop
  | kept {pre : String} (found : w.scope.prefixOf? uri = some pre) (serves : pre ≠ "") :
      Chooses w uri (w.keep pre)
  | introduced {n : Nat} (free : w.scope.namespaceOf? (generatedPrefix n) = none)
      (lacking : ∀ pre, w.scope.prefixOf? uri = some pre → pre = "") :
      Chooses w uri ({ w with generated := n }.introduce ⟨generatedPrefix n, uri⟩)

/-- A prefix is chosen in one of the two ways. -/
theorem chooses_choosePrefix (w : Writer) (uri : String) : w.Chooses uri (w.choosePrefix uri) := by
  unfold choosePrefix
  cases hp : (w.scope.prefixOf? uri).filter (· ≠ "") with
  | some pre =>
    obtain ⟨hfound, hserves⟩ := Option.filter_eq_some_iff.mp hp
    exact .kept hfound (by simpa using hserves)
  | none =>
    refine .introduced (w.scope.namespaceOf?_fresh w.generated) fun pre hfound ↦ ?_
    rw [hfound] at hp
    simpa [Option.filter] using hp

/-- What has come of the attributes of a tag that has declared `own`: their prefixes, the
declarations that these need, and the writer after them. -/
structure AttributesChosen (w : Writer) (outer : NamespaceScope) (own : List Declaration)
    (attributes : List Attribute) (prefixes : List String) (added : List Declaration)
    (w' : Writer) : Prop where
  length : prefixes.length = attributes.length
  /-- The declarations are put behind those that the tag has. -/
  scope : w'.scope = outer.push (own ++ added)
  proper : w'.scope.Proper
  distinct : (added.map (·.pre)).Nodup
  /-- Every declaration is of a generated prefix that was unbound, for the namespace of an
  attribute. -/
  generated : ∀ d ∈ added, (∃ n, d.pre = generatedPrefix n) ∧ w.scope.latest? d.pre = none ∧
    d.uri ≠ "" ∧ ∃ a ∈ attributes, d.uri = a.name.uri
  others : ∀ pre, pre ∉ added.map (·.pre) → w'.scope.latest? pre = w.scope.latest? pre
  element : ∀ uri pre, w.scope.ElementPrefix uri pre → w'.scope.ElementPrefix uri pre
  /-- An attribute in no namespace has no prefix, and any other has one that is declared for its
  namespace. -/
  resolved : ∀ a ∈ prefixes.zip attributes, if a.2.name.uri = "" then a.1 = ""
    else a.1 ≠ "" ∧ w'.scope.latest? a.1 = some a.2.name.uri

/-- A generated prefix is not empty. -/
theorem generatedPrefix_ne_empty (n : Nat) : generatedPrefix n ≠ "" :=
  ne_empty_of_isNCName (isNCName_generatedPrefix n)

/-- A scope stays proper when a generated prefix is declared for a namespace. -/
theorem proper_declare_generatedPrefix {s : NamespaceScope} (h : s.Proper) (n : Nat) {uri : String}
    (hu : uri ≠ "") : (s.declare ⟨generatedPrefix n, uri⟩).Proper := by
  constructor
  · rw [declarations_declare]
    exact List.forall_mem_cons.mpr ⟨generatedPrefix_ne_xml n, h.unreserved⟩
  · rw [declarations_declare]
    exact List.forall_mem_cons.mpr ⟨fun _ ↦ hu, h.bound⟩

/-- A prefix that is bound before the attributes is none of those that they need, which were
unbound. -/
theorem AttributesChosen.not_mem_of_latest? {w w' : Writer} {outer : NamespaceScope}
    {own added : List Declaration} {attributes : List Attribute} {prefixes : List String}
    (h : w.AttributesChosen outer own attributes prefixes added w') {pre uri : String}
    (hp : w.scope.latest? pre = some uri) : pre ∉ added.map (·.pre) := by
  intro hm
  obtain ⟨d, hd, rfl⟩ := List.mem_map.mp hm
  rw [(h.generated d hd).2.1] at hp
  cases hp

/-- Attributes never need the default namespace. -/
theorem AttributesChosen.empty_not_mem {w w' : Writer} {outer : NamespaceScope}
    {own added : List Declaration} {attributes : List Attribute} {prefixes : List String}
    (h : w.AttributesChosen outer own attributes prefixes added w') :
    "" ∉ added.map (·.pre) := by
  intro hm
  obtain ⟨d, hd, hpre⟩ := List.mem_map.mp hm
  obtain ⟨n, hn⟩ := (h.generated d hd).1
  exact generatedPrefix_ne_empty n (hn.symm.trans hpre)

private theorem AttributesChosen.cons_keep {w w' : Writer} {outer : NamespaceScope}
    {own added : List Declaration} {a : Attribute} {rest : List Attribute}
    {prefixes : List String} {pre : String}
    (h : w.AttributesChosen outer own rest prefixes added w')
    (hp : if a.name.uri = "" then pre = ""
      else pre ≠ "" ∧ w.scope.latest? pre = some a.name.uri) :
    w.AttributesChosen outer own (a :: rest) (pre :: prefixes) added w' where
  length := by rw [List.length_cons, List.length_cons, h.length]
  scope := h.scope
  proper := h.proper
  distinct := h.distinct
  generated d hd := by
    obtain ⟨hgen, hfree, hne, b, hb, hu⟩ := h.generated d hd
    exact ⟨hgen, hfree, hne, b, List.mem_cons_of_mem _ hb, hu⟩
  others := h.others
  element := h.element
  resolved := by
    rw [List.zip_cons_cons]
    refine List.forall_mem_cons.mpr ⟨?_, h.resolved⟩
    split
    · next hu =>
      rw [if_pos hu] at hp
      exact hp
    · next hu =>
      rw [if_neg hu] at hp
      exact ⟨hp.1, (h.others pre (h.not_mem_of_latest? hp.2)).trans hp.2⟩

private theorem AttributesChosen.cons_introduce {w w' : Writer} {outer : NamespaceScope}
    {own added : List Declaration} {a : Attribute} {rest : List Attribute}
    {prefixes : List String} {n : Nat} (hw : w.scope.Proper)
    (hu : a.name.uri ≠ "") (hfree : w.scope.namespaceOf? (generatedPrefix n) = none)
    (hlacking : ∀ pre, w.scope.prefixOf? a.name.uri = some pre → pre = "") {w₁ : Writer}
    (hw₁ : w₁.scope = w.scope.declare ⟨generatedPrefix n, a.name.uri⟩)
    (h : w₁.AttributesChosen outer (own ++ [⟨generatedPrefix n, a.name.uri⟩]) rest prefixes added
      w') :
    w.AttributesChosen outer own (a :: rest) (generatedPrefix n :: prefixes)
      (⟨generatedPrefix n, a.name.uri⟩ :: added) w' := by
  have hx := generatedPrefix_ne_xml n
  have hself : w₁.scope.latest? (generatedPrefix n) = some a.name.uri := by
    rw [hw₁, latest?_declare, if_pos rfl]
  have hnot := h.not_mem_of_latest? hself
  constructor
  · rw [List.length_cons, List.length_cons, h.length]
  · rw [h.scope, List.append_assoc]
    rfl
  · exact h.proper
  · rw [List.map_cons]
    exact List.nodup_cons.mpr ⟨hnot, h.distinct⟩
  · refine List.forall_mem_cons.mpr ⟨⟨⟨n, rfl⟩, ?_, hu, a, List.mem_cons_self, rfl⟩, ?_⟩
    · rw [← hw.namespaceOf?_eq hx, hfree]
    · intro d hd
      obtain ⟨hgen, hn, hne, b, hb, he⟩ := h.generated d hd
      refine ⟨hgen, ?_, hne, b, List.mem_cons_of_mem _ hb, he⟩
      rw [hw₁, latest?_declare] at hn
      split at hn
      · cases hn
      · exact hn
  · intro pre hm
    rw [List.map_cons, List.mem_cons, not_or] at hm
    rw [h.others pre hm.2, hw₁, latest?_declare, if_neg (Ne.symm hm.1)]
  · intro uri pre hp
    refine h.element uri pre ?_
    rw [hw₁]
    exact hp.declare (generatedPrefix_ne_empty n) hfree hlacking
  · rw [List.zip_cons_cons]
    refine List.forall_mem_cons.mpr ⟨?_, h.resolved⟩
    rw [if_neg hu, h.others _ hnot]
    exact ⟨generatedPrefix_ne_empty n, hself⟩

/-- The attributes of a tag get their prefixes one by one. -/
theorem attributesChosen_chooseForAttributes {w : Writer} {outer : NamespaceScope}
    {own : List Declaration} (hscope : w.scope = outer.push own) (hw : w.scope.Proper)
    (attributes : List Attribute) :
    ∃ prefixes added w', w.chooseForAttributes attributes = (prefixes, added, w') ∧
      w.AttributesChosen outer own attributes prefixes added w' := by
  induction attributes generalizing w own with
  | nil =>
    refine ⟨[], [], w, rfl, rfl, ?_, hw, List.nodup_nil, by simp, fun _ _ ↦ rfl,
      fun _ _ hp ↦ hp, by simp⟩
    rw [List.append_nil, hscope]
  | cons a rest ih =>
    rw [chooseForAttributes, chooseForAttribute]
    by_cases hu : a.name.uri = ""
    · rw [if_pos hu]
      obtain ⟨prefixes, added, w', heq, hrest⟩ := ih hscope hw
      refine ⟨"" :: prefixes, added, w', ?_, hrest.cons_keep (by rw [if_pos hu])⟩
      simp only [keep, heq, Option.toList_none, List.nil_append]
    · rw [if_neg hu]
      generalize hc : w.choosePrefix a.name.uri = c
      have hchosen := w.chooses_choosePrefix a.name.uri
      rw [hc] at hchosen
      cases hchosen with
      | @kept pre found serves =>
        obtain ⟨prefixes, added, w', heq, hrest⟩ := ih hscope hw
        have hmeans := namespaceOf?_of_prefixOf? found
        have hx : pre ≠ "xml" := hw.unreserved _ (mem_of_prefixOf? found)
        rw [hw.namespaceOf?_eq hx] at hmeans
        refine ⟨pre :: prefixes, added, w', ?_, hrest.cons_keep ?_⟩
        · simp only [keep, heq, Option.toList_none, List.nil_append]
        · rw [if_neg hu]
          exact ⟨serves, hmeans⟩
      | @introduced n free lacking =>
        let w₁ : Writer := ({ w with generated := n }.introduce
          ⟨generatedPrefix n, a.name.uri⟩).writer
        have hw₁ : w₁.scope = w.scope.declare ⟨generatedPrefix n, a.name.uri⟩ := rfl
        have hscope₁ : w₁.scope = outer.push (own ++ [⟨generatedPrefix n, a.name.uri⟩]) := by
          rw [hw₁, hscope, declare_push]
        have hproper₁ : w₁.scope.Proper := by
          rw [hw₁]
          exact proper_declare_generatedPrefix hw n hu
        obtain ⟨prefixes, added, w', heq, hrest⟩ := ih hscope₁ hproper₁
        refine ⟨generatedPrefix n :: prefixes, ⟨generatedPrefix n, a.name.uri⟩ :: added, w', ?_,
          hrest.cons_introduce hw hu free lacking hw₁⟩
        change (_ :: (w₁.chooseForAttributes rest).1, _ ++ (w₁.chooseForAttributes rest).2.1,
          (w₁.chooseForAttributes rest).2.2) = _
        rw [heq]
        rfl

/-! ### The prefix of a start tag -/

/-- What has come of the name of an element whose event gives some declarations: its prefix, the
declaration that this needs, and the writer after it. -/
structure ElementChosen (w : Writer) (outer : NamespaceScope) (given : List Declaration)
    (uri : String) (c : Choice) : Prop where
  /-- The declaration is put behind those that the event gives. -/
  scope : c.writer.scope = outer.push (given ++ c.declaration.toList)
  proper : c.writer.scope.Proper
  /-- The prefix is the one that an end tag has here. -/
  element : c.writer.scope.ElementPrefix uri c.pre
  resolved : if c.pre = "" then (c.writer.scope.latest? "").getD "" = uri
    else c.writer.scope.latest? c.pre = some uri
  /-- The declaration takes the default namespace back, which the event does not declare, or binds
  a generated prefix that was unbound. -/
  added : ∀ d ∈ c.declaration, (d = ⟨"", ""⟩ ∧ "" ∉ given.map (·.pre)) ∨
    (∃ n, d.pre = generatedPrefix n) ∧ d.uri ≠ "" ∧ d.uri = uri ∧ w.scope.latest? d.pre = none

/-- A default namespace that an element in no namespace is in was declared further out. -/
private theorem not_mem_of_default {outer : NamespaceScope} {given : List Declaration}
    {uri : String} (hgiven : ∀ d ∈ given, d.pre = "" → d.uri = "")
    (hd : (outer.push given).latest? "" = some uri) (hu : uri ≠ "") :
    "" ∉ given.map (·.pre) := by
  intro hm
  obtain ⟨d, hmem, hp⟩ := List.mem_map.mp hm
  unfold latest? at hd
  rw [declarations_push, List.find?_append] at hd
  cases hf : given.reverse.find? (·.pre = "") with
  | none =>
    have := List.find?_eq_none.mp hf d (List.mem_reverse.mpr hmem)
    simp [hp] at this
  | some e =>
    rw [hf] at hd
    have he : e.uri = uri := by simpa using hd
    have hpe : e.pre = "" := by simpa using List.find?_some hf
    have hme : e ∈ given := List.mem_reverse.mp (List.mem_of_find?_eq_some hf)
    exact hu (by rw [← he, hgiven e hme hpe])

section Element

variable {w : Writer} {outer : NamespaceScope} {given : List Declaration} {uri : String}

private theorem elementChosen_keep (hscope : w.scope = outer.push given) (hw : w.scope.Proper)
    {pre : String} (helement : w.scope.ElementPrefix uri pre)
    (hresolved : if pre = "" then (w.scope.latest? "").getD "" = uri
      else w.scope.latest? pre = some uri) :
    w.ElementChosen outer given uri (w.keep pre) where
  scope := by simpa [keep] using hscope
  proper := hw
  element := helement
  resolved := hresolved
  added := by simp [keep]

private theorem elementChosen_takeBack (hscope : w.scope = outer.push given) (hw : w.scope.Proper)
    (hgiven : ∀ d ∈ given, d.pre = "" → d.uri = "") {old : String}
    (hdefault : w.scope.latest? "" = some old) (hold : old ≠ "") :
    w.ElementChosen outer given "" (w.introduce ⟨"", ""⟩) where
  scope := by
    change w.scope.declare ⟨"", ""⟩ = _
    rw [hscope, declare_push]
    rfl
  proper := by
    change (w.scope.declare ⟨"", ""⟩).Proper
    constructor
    · rw [declarations_declare]
      exact List.forall_mem_cons.mpr ⟨by decide, hw.unreserved⟩
    · rw [declarations_declare]
      exact List.forall_mem_cons.mpr ⟨fun h ↦ absurd rfl h, hw.bound⟩
  element := by
    unfold ElementPrefix
    rw [if_pos (.inl rfl)]
    rfl
  resolved := by
    change ((w.scope.declare ⟨"", ""⟩).latest? "").getD "" = ""
    rw [latest?_declare, if_pos rfl]
    rfl
  added d hadd := by
    obtain rfl : ⟨"", ""⟩ = d := Option.some.inj hadd
    rw [hscope] at hdefault
    exact .inl ⟨rfl, not_mem_of_default hgiven hdefault hold⟩

private theorem elementChosen_introduce (hscope : w.scope = outer.push given) (hw : w.scope.Proper)
    (hu : uri ≠ "") (hdefault : w.scope.namespaceOf? "" ≠ some uri) {n : Nat}
    (hfree : w.scope.namespaceOf? (generatedPrefix n) = none) :
    w.ElementChosen outer given uri
      ({ w with generated := n }.introduce ⟨generatedPrefix n, uri⟩) := by
  have hne := generatedPrefix_ne_empty n
  have hx := generatedPrefix_ne_xml n
  have hproper := proper_declare_generatedPrefix hw n hu
  have hself : (w.scope.declare ⟨generatedPrefix n, uri⟩).latest? (generatedPrefix n) =
      some uri := by
    rw [latest?_declare, if_pos rfl]
  refine ⟨?_, hproper, ?_, ?_, ?_⟩
  · change w.scope.declare ⟨generatedPrefix n, uri⟩ = _
    rw [hscope, declare_push]
    rfl
  · change (w.scope.declare ⟨generatedPrefix n, uri⟩).ElementPrefix uri (generatedPrefix n)
    refine elementPrefix_of_prefixOf? hu ?_ hne ?_
    · rw [namespaceOf?_declare_of_ne hne]
      exact hdefault
    · unfold prefixOf?
      rw [declarations_declare, List.find?_cons_of_pos]
      · rfl
      · rw [hproper.namespaceOf?_eq hx, hself]
        simp
  · rw [if_neg (show (({ w with generated := n } : Writer).introduce
      ⟨generatedPrefix n, uri⟩).pre ≠ "" from hne)]
    exact hself
  · intro d hadd
    obtain rfl : ⟨generatedPrefix n, uri⟩ = d := Option.some.inj hadd
    rw [hw.namespaceOf?_eq hx] at hfree
    exact .inr ⟨⟨n, rfl⟩, hu, rfl, hfree⟩

/-- The name of an element gets a prefix that resolves to its namespace. -/
theorem elementChosen_chooseForElement (hscope : w.scope = outer.push given)
    (hw : w.scope.Proper) (hgiven : uri = "" → ∀ d ∈ given, d.pre = "" → d.uri = "") :
    w.ElementChosen outer given uri (w.chooseForElement uri) := by
  have hlatest : w.scope.namespaceOf? "" = w.scope.latest? "" := hw.namespaceOf?_eq (by decide)
  unfold chooseForElement
  dsimp only
  split
  · next hu =>
    subst hu
    rw [hlatest]
    split
    · next hd =>
      cases hl : w.scope.latest? "" with
      | none => exact absurd (by rw [hl]; rfl) hd
      | some old =>
        rw [hl] at hd
        exact elementChosen_takeBack hscope hw (hgiven rfl) hl hd
    · next hd =>
      exact elementChosen_keep hscope hw (by simp [ElementPrefix]) (by simpa using hd)
  · next hu =>
    split
    · next hd =>
      refine elementChosen_keep hscope hw (by simp [ElementPrefix, hd]) ?_
      rw [if_pos rfl, ← hlatest, hd, Option.getD_some]
    · next hd =>
      generalize hc : w.choosePrefix uri = c
      have hchosen := w.chooses_choosePrefix uri
      rw [hc] at hchosen
      cases hchosen with
      | @kept pre found serves =>
        have hmeans := namespaceOf?_of_prefixOf? found
        rw [hw.namespaceOf?_eq (hw.unreserved _ (mem_of_prefixOf? found))] at hmeans
        refine elementChosen_keep hscope hw (elementPrefix_of_prefixOf? hu hd serves found) ?_
        rw [if_neg serves]
        exact hmeans
      | introduced free _ => exact elementChosen_introduce hscope hw hu hd free

end Element

end Writer

end XmlBinding

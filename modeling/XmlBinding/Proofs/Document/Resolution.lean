import XmlBinding.Proofs.Document.Content
import XmlBinding.Proofs.Document.Markup.Tokens

/-!
# Written names are resolved

A reader keeps the declarations in scope in one list, in which those of a tag stand before those
around it; `InForce` says that the list means what the open tags declare. A tag whose prefixes
resolve is therefore read as the element and the attributes that it was written for
(`openElement?_tag`).
-/

namespace XmlBinding.Markup

/-! ### Declarations in scope -/

/-- The declarations in scope around the next element. -/
def around (opened : List OpenElement) : List Declaration := (opened.head?.map (·.scope)).getD []

/-- A list of declarations means what the open tags declare. -/
def InForce (scope : List Declaration) (tags : List StartTag) : Prop :=
  ∀ pre, (scope.find? (·.pre = pre)).map (·.uri) =
    declared? (tags.map StartTag.declarations) pre

/-- Nothing is in scope outside the root. -/
theorem inForce_nil : InForce [] [] := fun _ ↦ rfl

private theorem find?_extend (scope : List Declaration) (d : Declaration) (pre : String) :
    (extend scope d).find? (·.pre = pre) =
      (scope.find? (·.pre = pre)).or (if d.pre = pre then some d else none) := by
  unfold extend
  split
  · next h =>
    by_cases hp : d.pre = pre
    · obtain ⟨e, he, hpe⟩ := List.any_eq_true.mp h
      have hsome : (scope.find? (·.pre = pre)).isSome = true := by
        rw [List.find?_isSome]
        exact ⟨e, he, by simpa [hp] using hpe⟩
      obtain ⟨f, hf⟩ := Option.isSome_iff_exists.mp hsome
      rw [hf, Option.some_or]
    · rw [if_neg hp, Option.or_none]
  · rw [List.find?_append]
    by_cases hp : d.pre = pre
    · simp [hp]
    · simp [hp]

/-- The declarations of a tag are found before those around it. -/
theorem find?_inScope (own around : List Declaration) (pre : String) :
    (inScope own around).find? (·.pre = pre) =
      (own.find? (·.pre = pre)).or (around.find? (·.pre = pre)) := by
  unfold inScope
  split
  · next h =>
    rw [List.isEmpty_iff.mp h]
    rfl
  · next h =>
    clear h
    induction around generalizing own with
    | nil => rw [List.foldl_nil, List.find?_nil, Option.or_none]
    | cons d rest ih =>
      rw [List.foldl_cons, ih, find?_extend, Option.or_assoc, List.find?_cons]
      congr 1
      by_cases hp : d.pre = pre
      · simp [hp]
      · simp [hp]

/-- The declarations of a tag come into force within those around it. -/
theorem InForce.cons {around : List Declaration} {outer : List StartTag}
    (h : InForce around outer) (tag : StartTag) :
    InForce (inScope tag.declarations around) (tag :: outer) := by
  intro pre
  rw [find?_inScope, List.map_cons, declared?_cons, ← h pre]
  cases tag.declarations.find? (·.pre = pre) <;> rfl

/-- What the open tags declare is looked up. -/
theorem InForce.lookUp?_eq {scope : List Declaration} {tags : List StartTag}
    (h : InForce scope tags) {pre uri : String}
    (hd : declared? (tags.map StartTag.declarations) pre = some uri) :
    lookUp? scope pre = some (some uri) := by
  rw [← h pre, Option.map_eq_some_iff] at hd
  obtain ⟨d, hd, rfl⟩ := hd
  rw [lookUp?, hd]

/-- Without a prefix the default namespace is looked up, if there is one. -/
private theorem InForce.lookUp?_empty {scope : List Declaration} {tags : List StartTag}
    (h : InForce scope tags) :
    ∃ uri, lookUp? scope "" = some uri ∧
      uri.getD "" = (declared? (tags.map StartTag.declarations) "").getD "" := by
  rw [← h "", lookUp?]
  cases scope.find? (·.pre = "") with
  | none => exact ⟨none, rfl, rfl⟩
  | some d => exact ⟨some d.uri, rfl, rfl⟩

/-! ### The attributes of a tag -/

/-- A declaration is read as such. -/
theorem declaration?_tagAttribute (d : Declaration) : d.tagAttribute.declaration? = some d := by
  obtain ⟨pre, uri⟩ := d
  unfold Declaration.tagAttribute TagAttribute.declaration?
  by_cases h : pre = ""
  · simp [h]
  · simp [h]

private theorem declaration?_attribute {pre : String} {a : Attribute} (hpre : pre ≠ "xmlns")
    (hlocal : a.name.localPart ≠ "xmlns") : (a.tagAttribute pre).declaration? = none := by
  have hlist (s : String) (hs : s ≠ "xmlns") : s.toList ≠ ['x', 'm', 'l', 'n', 's'] := by
    intro h
    exact hs (String.toList_inj.mp h)
  unfold Attribute.tagAttribute TagAttribute.declaration?
  rw [if_neg (hlist pre hpre), if_neg (hlist _ hlocal)]

private theorem ownDeclarations?_append {own declarations : List Declaration}
    (hfree : ∀ d ∈ declarations, d.IsFree)
    (hnodup : ((own ++ declarations).map (·.pre)).Nodup) {others : List TagAttribute}
    (hothers : ∀ a ∈ others, a.declaration? = none) :
    ownDeclarations? own (declarations.map Declaration.tagAttribute ++ others) =
      some (own ++ declarations) := by
  induction declarations generalizing own with
  | nil =>
    rw [List.map_nil, List.nil_append, List.append_nil]
    clear hfree hnodup
    induction others with
    | nil => rfl
    | cons a rest ih =>
      rw [List.forall_mem_cons] at hothers
      rw [ownDeclarations?, hothers.1]
      exact ih hothers.2
  | cons d rest ih =>
    rw [List.forall_mem_cons] at hfree
    obtain ⟨hd, hrest⟩ := hfree
    have hmay : mayDeclare own d = true := by
      have huri := not_or.mp hd.uri
      have hnew : own.any (·.pre = d.pre) = false := by
        rw [List.any_eq_false]
        intro e he hpre
        rw [List.map_append, List.nodup_append] at hnodup
        exact hnodup.2.2 e.pre (List.mem_map_of_mem he) d.pre
          (List.mem_map_of_mem List.mem_cons_self) (by simpa using hpre)
      simp [mayDeclare, huri.1, huri.2, hd.pre.1, hnew]
    rw [List.map_cons, List.cons_append, ownDeclarations?, declaration?_tagAttribute]
    have happend : own ++ d :: rest = own ++ [d] ++ rest := by simp
    simp only [hmay, not_true_eq_false, if_false, hd.pre.1]
    rw [happend] at hnodup ⊢
    exact ih hrest hnodup

/-- A prefix that the open tags declare is declared on one of them. -/
theorem exists_of_declared? {tags : List StartTag} {pre uri : String}
    (h : declared? (tags.map StartTag.declarations) pre = some uri) :
    ∃ t ∈ tags, ∃ d ∈ t.declarations, d.pre = pre ∧ d.uri = uri := by
  obtain ⟨ds, hds, hd⟩ := List.exists_of_findSome?_eq_some h
  obtain ⟨t, ht, rfl⟩ := List.mem_map.mp hds
  obtain ⟨d, hfind, rfl⟩ := Option.map_eq_some_iff.mp hd
  exact ⟨t, ht, d, List.mem_of_find?_eq_some hfind, by simpa using List.find?_some hfind, rfl⟩

/-- The namespace of an attribute, if it has one. -/
def namespaceOf (a : Attribute) : Option String := if a.name.uri = "" then none else some a.name.uri

private theorem resolveAttributes?_append {scope declarations : List Declaration}
    {attributes : List (String × Attribute)}
    (hnone : ∀ a ∈ attributes, (a.2.tagAttribute a.1).declaration? = none)
    (hresolved : ∀ a ∈ attributes, attributeNamespace? scope a.1 = some (namespaceOf a.2)) :
    resolveAttributes? scope (declarations.map Declaration.tagAttribute ++
        attributes.map fun a ↦ a.2.tagAttribute a.1) =
      some (attributes.map fun a ↦ (namespaceOf a.2, a.2)) := by
  induction declarations with
  | cons d rest ih =>
    rw [List.map_cons, List.cons_append, resolveAttributes?, declaration?_tagAttribute]
    exact ih
  | nil =>
    rw [List.map_nil, List.nil_append]
    induction attributes with
    | nil => rfl
    | cons a rest ih =>
      rw [List.forall_mem_cons] at hnone hresolved
      have hname : (⟨(namespaceOf a.2).getD "", a.2.name.localPart⟩ : QName) = a.2.name := by
        unfold namespaceOf
        split
        · next hu =>
          rw [Option.getD_none, ← hu]
        · rfl
      rw [List.map_cons, resolveAttributes?, hnone.1]
      dsimp only
      rw [ih hnone.2 hresolved.2]
      simp only [Attribute.tagAttribute, String.ofList_toList, hresolved.1, Option.bind_eq_bind,
        Option.bind_some, hname]
      rfl

private theorem distinct_of_nodup {attributes : List Attribute}
    (h : (attributes.map (·.name)).Nodup) :
    distinct (attributes.map fun a ↦ (namespaceOf a, a)) = true := by
  induction attributes with
  | nil => rfl
  | cons a rest ih =>
    rw [List.map_cons, List.nodup_cons] at h
    rw [List.map_cons, distinct, ih h.2, Bool.and_true, Bool.not_eq_true', List.any_eq_false]
    rintro ⟨u, b⟩ hb heq
    obtain ⟨c, hc, hcb⟩ := List.mem_map.mp hb
    obtain ⟨rfl, rfl⟩ := Prod.mk.inj hcb
    simp only [Bool.and_eq_true, decide_eq_true_eq] at heq
    apply h.1
    refine List.mem_map.mpr ⟨c, hc, ?_⟩
    obtain ⟨huri, hlocal⟩ := heq
    have hsame : c.name.uri = a.name.uri := by
      unfold namespaceOf at huri
      split at huri
      · next hc =>
        split at huri
        · next ha => rw [hc, ha]
        · cases huri
      · split at huri
        · cases huri
        · exact Option.some.inj huri
    cases hn : c.name
    cases hm : a.name
    simp_all

/-! ### Elements -/

/-- A prefix that the open tags declare is none of the reserved ones. -/
theorem free_of_declared? {tags : List StartTag}
    (hfree : ∀ t ∈ tags, ∀ d ∈ t.declarations, d.IsFree) {pre uri : String}
    (h : declared? (tags.map StartTag.declarations) pre = some uri) :
    pre ≠ "xml" ∧ pre ≠ "xmlns" := by
  obtain ⟨t, ht, d, hd, rfl, -⟩ := exists_of_declared? h
  exact (hfree t ht d hd).pre

/-- The prefix of an attribute is none of the reserved ones, and resolves to its namespace. -/
private theorem attributeNamespace?_tag {tag : StartTag} {outer : List StartTag}
    {scope : List Declaration}
    (hresolves : tag.Resolves outer) (hforce : InForce scope (tag :: outer))
    (hfree : ∀ t ∈ tag :: outer, ∀ d ∈ t.declarations, d.IsFree) :
    ∀ a ∈ tag.attributes, a.1 ≠ "xmlns" ∧
      attributeNamespace? scope a.1 = some (namespaceOf a.2) := by
  intro a ha
  have hattribute := hresolves.attributes a ha
  unfold attributeNamespace? namespaceOf
  split at hattribute
  · next hu =>
    rw [hattribute, if_pos hu]
    exact ⟨by decide, rfl⟩
  · next hu =>
    obtain ⟨hne, hd⟩ := hattribute
    obtain ⟨hxml, hxmlns⟩ := free_of_declared? hfree hd
    rw [if_neg hxml, if_neg hne, if_neg hu]
    exact ⟨hxmlns, hforce.lookUp?_eq hd⟩

/-- The prefix of an element is none of the reserved ones, and resolves to its namespace. -/
private theorem lookUp?_tag {tag : StartTag} {outer : List StartTag} {scope : List Declaration}
    (hresolves : tag.Resolves outer) (hforce : InForce scope (tag :: outer))
    (hfree : ∀ t ∈ tag :: outer, ∀ d ∈ t.declarations, d.IsFree) :
    tag.pre ≠ "xmlns" ∧
      ∃ uri, lookUp? scope tag.pre = some uri ∧ uri.getD "" = tag.name.uri := by
  have helement := hresolves.element
  split at helement
  · next hempty =>
    obtain ⟨uri, hlook, huri⟩ := hforce.lookUp?_empty
    rw [hempty]
    exact ⟨by decide, uri, hlook, huri.trans helement⟩
  · exact ⟨(free_of_declared? hfree helement).2, _, hforce.lookUp?_eq helement, rfl⟩

/-- A tag whose prefixes resolve is read as the element and the attributes that it is written
for. -/
theorem openElement?_tag {tag : StartTag} {outer : List StartTag} {around : List Declaration}
    (hresolves : tag.Resolves outer) (hforce : InForce around outer)
    (hfree : ∀ t ∈ tag :: outer, ∀ d ∈ t.declarations, d.IsFree)
    (hconforming : tag.event.IsConforming) (hxmlns : tag.event.AvoidsXmlns) :
    ∃ declarations, openElement? around tag.tagName tag.tagAttributes =
        some (⟨tag.tagName, tag.name, inScope tag.declarations around⟩, tag.attributes.map (·.2),
          declarations) := by
  obtain ⟨-, -, hnodup, -⟩ := hconforming
  have hscope := hforce.cons tag
  have hresolved := attributeNamespace?_tag hresolves hscope hfree
  obtain ⟨hpre, uri, hlook, huri⟩ := lookUp?_tag hresolves hscope hfree
  have hnone : ∀ a ∈ tag.attributes.map fun a ↦ a.2.tagAttribute a.1, a.declaration? = none := by
    intro b hb
    obtain ⟨a, ha, rfl⟩ := List.mem_map.mp hb
    exact declaration?_attribute (hresolved a ha).1 (hxmlns a.2 (List.mem_map_of_mem ha))
  have hown : ownDeclarations? [] tag.tagAttributes = some tag.declarations :=
    ownDeclarations?_append (hfree tag List.mem_cons_self) hresolves.distinct hnone
  have hattrs : resolveAttributes? (inScope tag.declarations around) tag.tagAttributes =
      some (tag.attributes.map fun a ↦ (namespaceOf a.2, a.2)) :=
    resolveAttributes?_append (fun a ha ↦ hnone _ (List.mem_map_of_mem ha))
      fun a ha ↦ (hresolved a ha).2
  have hdistinct : distinct (tag.attributes.map fun a ↦ (namespaceOf a.2, a.2)) = true := by
    simpa [Function.comp_def] using distinct_of_nodup hnodup
  have hpre : tag.pre.toList ≠ ['x', 'm', 'l', 'n', 's'] :=
    fun h ↦ hpre (String.toList_inj.mp h)
  refine ⟨tag.declarations.filter fun d ↦ !around.contains d, ?_⟩
  have hname : tag.tagName.pre ≠ ['x', 'm', 'l', 'n', 's'] := hpre
  have hlook' : lookUp? (inScope tag.declarations around) (String.ofList tag.tagName.pre) =
      some uri := by
    rw [StartTag.tagName, String.ofList_toList]
    exact hlook
  refine Option.bind_eq_some_iff.mpr ⟨(), guard_of hname, ?_⟩
  refine Option.bind_eq_some_iff.mpr ⟨_, hown, ?_⟩
  refine Option.bind_eq_some_iff.mpr ⟨_, hattrs, ?_⟩
  refine Option.bind_eq_some_iff.mpr ⟨(), guard_of hdistinct, ?_⟩
  refine Option.bind_eq_some_iff.mpr ⟨uri, hlook', ?_⟩
  simp [StartTag.tagName, huri, Function.comp_def]

end XmlBinding.Markup

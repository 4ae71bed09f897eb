import XmlBinding.Proofs.Document.Fresh

/-!
# Scopes in which nothing is declared twice

Marshalling builds its scopes so that no prefix and no namespace is declared twice and every prefix
is a name. In such a scope both lookups are the declarations read in either direction.
-/

namespace XmlBinding.NamespaceScope

/-- No prefix and no namespace is declared twice, and every declaration gives a namespace to a
prefix that is a name of its own. -/
structure Clear (s : NamespaceScope) : Prop where
  prefixes : (s.declarations.map (·.pre)).Nodup
  namespaces : (s.declarations.map (·.uri)).Nodup
  named : ∀ d ∈ s.declarations, isNCName d.pre.toList = true
  unreserved : ∀ d ∈ s.declarations, d.pre ≠ "xml"
  bound : ∀ d ∈ s.declarations, d.uri ≠ ""

/-- Nothing is declared without a frame. -/
theorem clear_empty : empty.Clear := by
  constructor <;> simp [empty, declarations]

/-- What is clear depends on the declarations alone. -/
theorem Clear.congr {s t : NamespaceScope} (h : s.Clear) (he : t.declarations = s.declarations) :
    t.Clear := by
  constructor <;> rw [he]
  exacts [h.prefixes, h.namespaces, h.named, h.unreserved, h.bound]

/-- A name is not empty. -/
theorem ne_empty_of_isNCName {s : String} (h : isNCName s.toList = true) : s ≠ "" := by
  rintro rfl
  exact absurd h (by decide)

private theorem Clear.eq_of_pre_eq {s : NamespaceScope} (h : s.Clear) {d e : Declaration}
    (hd : d ∈ s.declarations) (he : e ∈ s.declarations) (hp : d.pre = e.pre) : d = e :=
  List.inj_on_of_nodup_map h.prefixes hd he hp

private theorem Clear.eq_of_uri_eq {s : NamespaceScope} (h : s.Clear) {d e : Declaration}
    (hd : d ∈ s.declarations) (he : e ∈ s.declarations) (hu : d.uri = e.uri) : d = e :=
  List.inj_on_of_nodup_map h.namespaces hd he hu

/-- In a clear scope a declared prefix means the namespace that it was declared for. -/
theorem Clear.namespaceOf?_of_mem {s : NamespaceScope} (h : s.Clear) {d : Declaration}
    (hd : d ∈ s.declarations) : s.namespaceOf? d.pre = some d.uri := by
  unfold namespaceOf?
  rw [if_neg (h.unreserved d hd)]
  cases hf : s.declarations.find? (·.pre = d.pre) with
  | none =>
    have := List.find?_eq_none.mp hf d hd
    simp at this
  | some e =>
    have he : e = d := h.eq_of_pre_eq (List.mem_of_find?_eq_some hf) hd
      (by simpa using List.find?_some hf)
    simp [he, h.bound d hd]

/-- In a clear scope there is no default namespace. -/
theorem Clear.namespaceOf?_empty {s : NamespaceScope} (h : s.Clear) : s.namespaceOf? "" = none := by
  unfold namespaceOf?
  rw [if_neg (by decide)]
  cases hf : s.declarations.find? (·.pre = "") with
  | none => rfl
  | some d =>
    have hp : d.pre = "" := by simpa using List.find?_some hf
    exact absurd hp (ne_empty_of_isNCName (h.named d (List.mem_of_find?_eq_some hf)))

/-- In a clear scope the prefix of a declared namespace is the one that it was declared with. -/
private theorem Clear.prefixOf?_of_mem {s : NamespaceScope} (h : s.Clear) {d : Declaration}
    (hd : d ∈ s.declarations) : s.prefixOf? d.uri = some d.pre := by
  unfold prefixOf?
  cases hf : s.declarations.find? (fun e ↦ e.uri = d.uri ∧ s.namespaceOf? e.pre = some d.uri) with
  | none =>
    have := List.find?_eq_none.mp hf d hd
    simp [h.namespaceOf?_of_mem hd] at this
  | some e =>
    have hu : e.uri = d.uri ∧ s.namespaceOf? e.pre = some d.uri := by
      simpa using List.find?_some hf
    have he : e = d := h.eq_of_uri_eq (List.mem_of_find?_eq_some hf) hd hu.1
    rw [he]
    rfl

/-- A namespace without a prefix is not declared. -/
theorem Clear.not_mem_of_prefixOf?_eq_none {s : NamespaceScope} (h : s.Clear) {uri : String}
    (hn : s.prefixOf? uri = none) : uri ∉ s.declarations.map (·.uri) := by
  intro hm
  obtain ⟨d, hd, rfl⟩ := List.mem_map.mp hm
  rw [h.prefixOf?_of_mem hd] at hn
  cases hn

private theorem Clear.not_mem_of_namespaceOf?_eq_none {s : NamespaceScope} (h : s.Clear)
    {pre : String} (hn : s.namespaceOf? pre = none) : pre ∉ s.declarations.map (·.pre) := by
  intro hm
  obtain ⟨d, hd, rfl⟩ := List.mem_map.mp hm
  rw [h.namespaceOf?_of_mem hd] at hn
  cases hn

/-- A scope stays clear with one more declaration of a new namespace under an unbound name. -/
theorem Clear.declare {s t : NamespaceScope} (h : s.Clear) {d : Declaration}
    (ht : t.declarations = d :: s.declarations) (hu : d.uri ∉ s.declarations.map (·.uri))
    (hn : s.namespaceOf? d.pre = none) (hx : d.pre ≠ "xml") (hname : isNCName d.pre.toList = true)
    (hb : d.uri ≠ "") : t.Clear where
  prefixes := by
    rw [ht, List.map_cons]
    exact List.nodup_cons.mpr ⟨h.not_mem_of_namespaceOf?_eq_none hn, h.prefixes⟩
  namespaces := by
    rw [ht, List.map_cons]
    exact List.nodup_cons.mpr ⟨hu, h.namespaces⟩
  named := by
    rw [ht]
    exact List.forall_mem_cons.mpr ⟨hname, h.named⟩
  unreserved := by
    rw [ht]
    exact List.forall_mem_cons.mpr ⟨hx, h.unreserved⟩
  bound := by
    rw [ht]
    exact List.forall_mem_cons.mpr ⟨hb, h.bound⟩

end XmlBinding.NamespaceScope

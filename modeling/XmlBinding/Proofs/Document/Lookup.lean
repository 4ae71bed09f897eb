import Mathlib.Data.List.Find
import XmlBinding.Document.Scope

/-!
# The two lookups of a scope

A prefix that is found for a namespace means it, and where none is found no prefix but the reserved
one means it: `prefixOf?` looks through all declarations and passes over those that a later one of
the same prefix hides. A scope changes by whole frames and by single declarations (`ScopeChange`).
Whatever is declared in a frame, and whatever elements open and close within it, the scope is the
old one again when the frame is taken off.
-/

namespace XmlBinding

namespace NamespaceScope

variable {s : NamespaceScope} {d : Declaration} {pre uri : String}

/-! ### Declarations behind the answers -/

/-- The reserved prefix always means its namespace. -/
theorem namespaceOf?_xml (s : NamespaceScope) : s.namespaceOf? "xml" = some QName.xmlUri := by
  rw [namespaceOf?, if_pos rfl]

/-- A prefix other than the reserved one is declared for the namespace that it means. -/
theorem mem_of_namespaceOf? (h : s.namespaceOf? pre = some uri) (hx : pre ≠ "xml") :
    ⟨pre, uri⟩ ∈ s.declarations := by
  unfold namespaceOf? at h
  rw [if_neg hx] at h
  cases hf : s.declarations.find? (·.pre = pre) with
  | none => simp [hf] at h
  | some d =>
    have hp : d.pre = pre := by simpa using List.find?_some hf
    rw [hf] at h
    have hu : d.uri = uri := Option.some.inj (Option.ite_none_right_eq_some.mp h).2
    rw [← hp, ← hu]
    exact List.mem_of_find?_eq_some hf

/-- A prefix that is found for a namespace is declared for it. -/
theorem mem_of_prefixOf? (h : s.prefixOf? uri = some pre) : ⟨pre, uri⟩ ∈ s.declarations := by
  obtain ⟨d, hf, rfl⟩ := Option.map_eq_some_iff.mp h
  have hu : d.uri = uri ∧ s.namespaceOf? d.pre = some uri := by simpa using List.find?_some hf
  rw [← hu.1]
  exact List.mem_of_find?_eq_some hf

/-- A prefix that is found for a namespace means it. -/
theorem namespaceOf?_of_prefixOf? (h : s.prefixOf? uri = some pre) :
    s.namespaceOf? pre = some uri := by
  obtain ⟨d, hf, rfl⟩ := Option.map_eq_some_iff.mp h
  have hd : d.uri = uri ∧ s.namespaceOf? d.pre = some uri := by simpa using List.find?_some hf
  exact hd.2

/-- Where no prefix is found for a namespace, none but the reserved one means it. -/
theorem eq_xml_of_prefixOf?_eq_none (h : s.prefixOf? uri = none)
    (hmeans : s.namespaceOf? pre = some uri) : pre = "xml" := by
  by_contra hx
  have hnone := List.find?_eq_none.mp (Option.map_eq_none_iff.mp h) ⟨pre, uri⟩
    (mem_of_namespaceOf? hmeans hx)
  simp [hmeans] at hnone

/-! ### One more declaration -/

/-- A declaration on the innermost tag stands behind those that it has. -/
theorem declare_push (s : NamespaceScope) (ds : List Declaration) (d : Declaration) :
    (s.push ds).declare d = s.push (ds ++ [d]) := by
  simp [push, declare]

/-- A declaration binds its prefix, unless it takes a named one back. -/
theorem namespaceOf?_declare_self (hx : d.pre ≠ "xml") (hd : d.pre ≠ "" → d.uri ≠ "") :
    (s.declare d).namespaceOf? d.pre = some d.uri := by
  have hbinds : d.uri ≠ "" ∨ d.pre = "" := by
    by_cases hpre : d.pre = ""
    · exact .inr hpre
    · exact .inl (hd hpre)
  simp [namespaceOf?, hx, hbinds]

/-- A declaration does not matter to the other prefixes. -/
theorem namespaceOf?_declare_of_ne (h : d.pre ≠ pre) :
    (s.declare d).namespaceOf? pre = s.namespaceOf? pre := by
  simp [namespaceOf?, h]

/-- A declaration of an unbound prefix does not matter to the other namespaces: it stands in front
of all that is found for them, and hides nothing that is. -/
theorem prefixOf?_declare (hfree : s.namespaceOf? d.pre = none) (hu : d.uri ≠ uri) :
    (s.declare d).prefixOf? uri = s.prefixOf? uri := by
  unfold prefixOf?
  rw [declarations_declare, List.find?_cons_of_neg (by simp [hu])]
  congr 1
  refine List.find?_congr fun e he ↦ ?_
  by_cases hp : d.pre = e.pre
  · have hx : e.pre ≠ "xml" := by
      intro hx
      rw [hp, hx, namespaceOf?_xml] at hfree
      cases hfree
    have hnew : (s.declare d).namespaceOf? e.pre ≠ some uri := by
      intro hmeans
      unfold namespaceOf? at hmeans
      rw [if_neg hx, declarations_declare, List.find?_cons_of_pos (by simp [hp])] at hmeans
      exact hu (Option.some.inj (Option.ite_none_right_eq_some.mp hmeans).2)
    rw [← hp] at hnew ⊢
    simp [hfree, hnew]
  · rw [namespaceOf?_declare_of_ne hp]

end NamespaceScope

/-! ### Changes of a scope -/

/-- A change of what is in scope. -/
inductive ScopeChange where
  /-- An element opens, with the declarations of its tag. -/
  | push (declarations : List Declaration)
  | pop
  /-- The innermost element has one more declaration. -/
  | declare (declaration : Declaration)
  deriving DecidableEq, Repr

/-- The changes take off just the frames that they add and `depth` more, and at no point more than
that. -/
def ScopeChange.Balanced : (depth : Nat) → List ScopeChange → Prop
  | depth, [] => depth = 0
  | depth, .push _ :: rest => Balanced (depth + 1) rest
  | depth, .declare _ :: rest => Balanced depth rest
  | 0, .pop :: _ => False
  | depth + 1, .pop :: rest => Balanced depth rest

namespace NamespaceScope

/-- The scope after one change. -/
def change (s : NamespaceScope) : ScopeChange → NamespaceScope
  | .push declarations => s.push declarations
  | .pop => s.pop
  | .declare declaration => s.declare declaration

/-- The scope after some changes. -/
def after (s : NamespaceScope) (changes : List ScopeChange) : NamespaceScope :=
  changes.foldl change s

private theorem after_append (s : NamespaceScope) (xs ys : List ScopeChange) :
    s.after (xs ++ ys) = (s.after xs).after ys :=
  List.foldl_append

/-- Changes that take off `depth` frames leave one of the `depth + 1` above the others, and the
others as they were. -/
private theorem exists_after_of_balanced {depth : Nat} {changes : List ScopeChange}
    (h : ScopeChange.Balanced depth changes) (above others : List (List Declaration))
    (habove : above.length = depth + 1) :
    ∃ frame, (⟨above ++ others⟩ : NamespaceScope).after changes = ⟨frame :: others⟩ := by
  -- One frame more stands above the others than is still to be taken off: the innermost one takes
  -- the declarations.
  induction changes generalizing depth above with
  | nil =>
    rw [ScopeChange.Balanced] at h
    rw [h, List.length_eq_one_iff] at habove
    obtain ⟨frame, rfl⟩ := habove
    exact ⟨frame, rfl⟩
  | cons change changes ih =>
    cases change with
    | push declarations => exact ih h (declarations.reverse :: above) (by simp [habove])
    | pop =>
      cases depth with
      | zero => exact h.elim
      | succ depth =>
        obtain ⟨frame, rest, rfl⟩ := List.exists_cons_of_length_eq_add_one habove
        exact ih h rest (by simpa using habove)
    | declare declaration =>
      obtain ⟨frame, rest, rfl⟩ := List.exists_cons_of_length_eq_add_one habove
      exact ih h ((declaration :: frame) :: rest) habove

/-- A frame that is added and taken off again leaves no trace. -/
theorem after_frame (s : NamespaceScope) (declarations : List Declaration)
    {between : List ScopeChange} (h : ScopeChange.Balanced 0 between) :
    s.after (.push declarations :: (between ++ [.pop])) = s := by
  obtain ⟨frame, hafter⟩ := exists_after_of_balanced h [declarations.reverse] s.frames rfl
  change (s.push declarations).after (between ++ [.pop]) = s
  rw [after_append, push]
  exact congrArg pop hafter

/-- However a scope has come about: the prefix that is found for a namespace means that namespace;
where none is found no prefix means it, unless it is the reserved one; and when a frame is taken off
that was added to it, the scope and with it every answer is what it was, whatever was declared in
the frame and whatever frames were added and taken off above it. -/
theorem prefixOf?_inverts (changes : List ScopeChange) :
    (∀ uri pre, (empty.after changes).prefixOf? uri = some pre →
        (empty.after changes).namespaceOf? pre = some uri) ∧
      (∀ uri, (empty.after changes).prefixOf? uri = none →
        ∀ pre, (empty.after changes).namespaceOf? pre = some uri → pre = "xml") ∧
      ∀ declarations between, ScopeChange.Balanced 0 between →
        empty.after (changes ++ .push declarations :: (between ++ [.pop])) =
          empty.after changes := by
  refine ⟨fun uri pre ↦ namespaceOf?_of_prefixOf?, fun uri hnone pre ↦
    eq_xml_of_prefixOf?_eq_none hnone, fun declarations between h ↦ ?_⟩
  rw [after_append]
  exact after_frame _ declarations h

/-- Two elements open. The inner one hides a prefix of the outer one and takes another back; it has
then two more declarations, of which that of the reserved prefix has no effect. -/
def hidingChanges : List ScopeChange :=
  [.push [⟨"a", "urn:one"⟩, ⟨"", "urn:d"⟩, ⟨"b", "urn:one"⟩],
    .push [⟨"a", "urn:two"⟩, ⟨"b", ""⟩], .declare ⟨"c", "urn:two"⟩, .declare ⟨"xml", "urn:two"⟩]

/-- Declarations of a prefix that is in use, around an element that takes it back. -/
def redeclaringChanges : List ScopeChange :=
  [.declare ⟨"c", "urn:three"⟩, .push [⟨"c", ""⟩, ⟨"", ""⟩], .declare ⟨"c", "urn:one"⟩, .pop,
    .declare ⟨"", ""⟩]

/-- Of two namespaces one has a prefix and the other has lost both of its own, and an element within
leaves it at that. -/
theorem prefixOf?_inverts_hidden :
    ((empty.after hidingChanges).prefixOf? "urn:two" = some "c" ∧
        (empty.after hidingChanges).namespaceOf? "c" = some "urn:two") ∧
      ((empty.after hidingChanges).prefixOf? "urn:one" = none ∧
        ∀ pre, (empty.after hidingChanges).namespaceOf? pre = some "urn:one" → pre = "xml") ∧
      ScopeChange.Balanced 0 redeclaringChanges ∧
      empty.after (hidingChanges ++ .push [⟨"d", "urn:two"⟩] :: (redeclaringChanges ++ [.pop])) =
        empty.after hidingChanges := by
  have hfound : (empty.after hidingChanges).prefixOf? "urn:two" = some "c" := by decide
  have hnone : (empty.after hidingChanges).prefixOf? "urn:one" = none := by decide
  have hbalanced : ScopeChange.Balanced 0 redeclaringChanges := rfl
  obtain ⟨hmeans, hlacks, hrestores⟩ := prefixOf?_inverts hidingChanges
  exact ⟨⟨hfound, hmeans _ _ hfound⟩, ⟨hnone, hlacks _ hnone⟩, hbalanced,
    hrestores _ _ hbalanced⟩

end NamespaceScope

end XmlBinding

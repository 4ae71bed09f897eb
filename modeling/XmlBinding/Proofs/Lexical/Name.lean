import XmlBinding.Proofs.Document.Scope

/-!
# Written names

A name written with a declared prefix resolves to itself in every clear scope, and goes on doing so
when more is declared. No character of a name is blank, so that nothing is cut from such a text.
-/

namespace XmlBinding

open Text

/-! ### Names and blanks -/

/-- The code points of the blank characters. -/
def blankCodes : List Nat :=
  [0x9, 0xA, 0xB, 0xC, 0xD, 0x20, 0x85, 0xA0, 0x1680, 0x2000, 0x2001, 0x2002, 0x2003, 0x2004,
    0x2005, 0x2006, 0x2007, 0x2008, 0x2009, 0x200A, 0x2028, 0x2029, 0x202F, 0x205F, 0x3000]

private theorem mem_blankCodes {c : Char} (h : isBlank c = true) : c.toNat ∈ blankCodes := by
  simp only [isBlank, Bool.or_eq_true, Bool.and_eq_true, decide_eq_true_eq, beq_iff_eq] at h
  simp only [blankCodes, List.mem_cons, List.not_mem_nil, or_false]
  omega

private theorem isNameChar_blankCodes :
    ∀ n ∈ blankCodes, isNameChar (Char.ofNat n) = false := by decide +kernel

private theorem isBlank_of_isNameChar {c : Char} (h : isNameChar c = true) : isBlank c = false := by
  cases hb : isBlank c with
  | false => rfl
  | true =>
    have hn := isNameChar_blankCodes c.toNat (mem_blankCodes hb)
    rw [Char.ofNat_toNat, h] at hn
    cases hn

/-- Nothing is cut from a text of name characters. -/
theorem trim_of_all_isNameChar {cs : List Char} (h : cs.all isNameChar = true) : trim cs = cs :=
  trim_eq_self fun c hc ↦ isBlank_of_isNameChar (List.all_eq_true.mp h c hc)

private theorem isNameChar_of_isNameStart {c : Char} (h : isNameStart c = true) :
    isNameChar c = true := by
  simp [isNameChar, h]

/-- All characters of a name are name characters. -/
theorem all_isNameChar_of_isNCName {cs : List Char} (h : isNCName cs = true) :
    cs.all isNameChar = true := by
  simp only [isNCName, Bool.and_eq_true] at h
  cases cs with
  | nil => rfl
  | cons c cs =>
    have hn : isNameStart c = true ∧ cs.all isNameChar = true := by simpa [isName] using h.1
    rw [List.all_cons, isNameChar_of_isNameStart hn.1, hn.2]
    rfl

/-- A name without a colon has none. -/
theorem colon_not_mem_of_isNCName {cs : List Char} (h : isNCName cs = true) : ':' ∉ cs := by
  simp only [isNCName, Bool.and_eq_true, Bool.not_eq_true', List.contains_eq_mem,
    decide_eq_false_iff_not] at h
  exact h.2

/-! ### Names with a prefix -/

private theorem splitPrefix_append {pre localPart : List Char} (h : ':' ∉ pre) :
    splitPrefix (pre ++ ':' :: localPart) = (pre, localPart) := by
  rw [splitPrefix, splitFirst_eq_some_iff.mpr ⟨h, rfl⟩]
  rfl

private theorem splitPrefix_of_not_mem {cs : List Char} (h : ':' ∉ cs) :
    splitPrefix cs = ([], cs) := by
  rw [splitPrefix, splitFirst_eq_none_iff.mpr h]
  rfl

private theorem QName.resolve_joinPrefix {namespaceOf : String → Option String}
    {pre localPart uri : String}
    (hp : isNCName pre.toList = true) (hl : isNCName localPart.toList = true)
    (hu : namespaceOf pre = some uri) :
    QName.resolve namespaceOf (joinPrefix pre localPart) = .ok ⟨uri, localPart⟩ := by
  have hne : pre ≠ "" := NamespaceScope.ne_empty_of_isNCName hp
  have hcs : (joinPrefix pre localPart).toList = pre.toList ++ ':' :: localPart.toList := by
    rw [joinPrefix, if_neg hne]
    simp
  have hall : (pre.toList ++ ':' :: localPart.toList).all isNameChar = true := by
    rw [List.all_append, List.all_cons, all_isNameChar_of_isNCName hp,
      all_isNameChar_of_isNCName hl]
    rfl
  unfold QName.resolve
  simp only [hcs, trim_of_all_isNameChar hall, splitPrefix_append (colon_not_mem_of_isNCName hp),
    hp, hl, String.ofList_toList, hu]
  rw [if_neg (by simp)]

/-- A name without a prefix resolves to no namespace where there is no default. -/
private theorem QName.resolve_unprefixed {namespaceOf : String → Option String} {localPart : String}
    (hl : isNCName localPart.toList = true) (hu : namespaceOf "" = none) :
    QName.resolve namespaceOf localPart = .ok (.unqualified localPart) := by
  unfold QName.resolve
  simp only [trim_of_all_isNameChar (all_isNameChar_of_isNCName hl),
    splitPrefix_of_not_mem (colon_not_mem_of_isNCName hl), hl, String.ofList_toList,
    String.ofList_nil, hu]
  rw [if_neg (by simp), if_pos trivial]

/-- Whatever resolves in a scope without a default namespace resolves alike in one that keeps its
answers. -/
private theorem QName.resolve_mono {f g : String → Option String} {text : String} {q : QName}
    (hfg : ∀ pre uri, f pre = some uri → g pre = some uri) (hg : g "" = none)
    (h : QName.resolve f text = .ok q) : QName.resolve g text = .ok q := by
  unfold QName.resolve at h ⊢
  rcases hs : splitPrefix (trim text.toList) with ⟨pre, localPart⟩
  simp only [hs] at h ⊢
  split at h
  · cases h
  · next hname =>
    rw [if_neg hname]
    cases hu : f (String.ofList pre) with
    | some uri =>
      rw [hu] at h
      rw [hfg _ _ hu]
      exact h
    | none =>
      rw [hu] at h
      by_cases he : pre = []
      · subst he
        rw [String.ofList_nil, hg]
        exact h
      · simp [he] at h

namespace NamespaceScope

/-- In a clear scope a name with a declared prefix resolves to itself. -/
theorem Clear.resolve_joinPrefix {s : NamespaceScope} (h : s.Clear) {pre uri localPart : String}
    (hd : ⟨pre, uri⟩ ∈ s.declarations) (hl : isNCName localPart.toList = true) :
    QName.resolve s.namespaceOf? (joinPrefix pre localPart) = .ok ⟨uri, localPart⟩ :=
  QName.resolve_joinPrefix (h.named _ hd) hl (h.namespaceOf?_of_mem hd)

/-- In a clear scope a name without a prefix is in no namespace. -/
theorem Clear.resolve_unprefixed {s : NamespaceScope} (h : s.Clear) {localPart : String}
    (hl : isNCName localPart.toList = true) :
    QName.resolve s.namespaceOf? localPart = .ok (.unqualified localPart) :=
  QName.resolve_unprefixed hl h.namespaceOf?_empty

/-- A clear scope that declares more keeps the answers of a clear one. -/
private theorem Clear.namespaceOf?_mono {s t : NamespaceScope} (ht : t.Clear)
    (hst : ∀ d ∈ s.declarations, d ∈ t.declarations) {pre uri : String}
    (h : s.namespaceOf? pre = some uri) : t.namespaceOf? pre = some uri := by
  by_cases hx : pre = "xml"
  · rw [hx, namespaceOf?_xml] at h ⊢
    exact h
  · exact ht.namespaceOf?_of_mem (hst _ (mem_of_namespaceOf? h hx))

/-- A clear scope that declares more resolves written names as before. -/
theorem Clear.resolve_mono {s t : NamespaceScope} (ht : t.Clear)
    (hst : ∀ d ∈ s.declarations, d ∈ t.declarations) {text : String} {q : QName}
    (h : QName.resolve s.namespaceOf? text = .ok q) : QName.resolve t.namespaceOf? text = .ok q :=
  QName.resolve_mono (fun _ _ ↦ ht.namespaceOf?_mono hst) ht.namespaceOf?_empty h

end NamespaceScope

end XmlBinding

import Mathlib.Data.Option.Basic
import XmlBinding.Proofs.Document.Markup.Escape

/-!
# Tags are read back

A tag is written as its names and values in a row. Each reader takes exactly its own part off the
front, whatever follows: a name up to a character that is in no name, a value up to its quote, a tag
up to its bracket (`readStartTag?_written`, `readEndTag?_written`).
-/

namespace XmlBinding.Markup

open Text

/-! ### Names -/

/-- A name of XML without a colon, such as a prefix and a local part are. -/
structure IsNamePart (cs : List Char) : Prop where
  start : cs.head?.any isTagNameStart = true
  isTagNameChar : ∀ c ∈ cs, isTagNameChar c = true
  not_mem_colon : ':' ∉ cs

namespace IsNamePart

instance (cs : List Char) : Decidable (IsNamePart cs) :=
  decidable_of_iff (cs.head?.any isTagNameStart = true ∧
    cs.all Markup.isTagNameChar = true ∧ ':' ∉ cs)
    ⟨fun h ↦ ⟨h.1, List.all_eq_true.mp h.2.1, h.2.2⟩,
      fun h ↦ ⟨h.1, List.all_eq_true.mpr h.2, h.3⟩⟩

private theorem ne_nil {cs : List Char} (h : IsNamePart cs) : cs ≠ [] := by
  rintro rfl
  exact absurd h.start (by decide)

end IsNamePart

/-- No character of a name is white space or markup. -/
theorem not_special_of_isTagNameChar {c : Char} (h : isTagNameChar c = true) :
    isXmlSpace c = false ∧ c ∉ ['=', '>', '/', '<', '!', '?', '"'] := by
  constructor
  · cases hs : isXmlSpace c with
    | false => rfl
    | true =>
      simp only [isXmlSpace, Bool.or_eq_true, beq_iff_eq] at hs
      rcases hs with ((rfl | rfl) | rfl) | rfl <;> exact absurd h (by decide)
  · intro hm
    simp only [List.mem_cons, List.not_mem_nil, or_false] at hm
    rcases hm with rfl | rfl | rfl | rfl | rfl | rfl | rfl <;> exact absurd h (by decide)

namespace TagName

/-- The characters of a name. -/
def characters (n : TagName) : List Char :=
  if n.pre = [] then n.localPart else n.pre ++ ':' :: n.localPart

/-- A name whose parts are names without a colon, the first of which may be missing. -/
structure IsProper (n : TagName) : Prop where
  pre : n.pre = [] ∨ IsNamePart n.pre
  localPart : IsNamePart n.localPart

instance (n : TagName) : Decidable n.IsProper :=
  decidable_of_iff ((n.pre = [] ∨ IsNamePart n.pre) ∧ IsNamePart n.localPart)
    ⟨fun h ↦ ⟨h.1, h.2⟩, fun h ↦ ⟨h.1, h.2⟩⟩

/-- A prefix and a local part that are joined are the characters of a name. -/
theorem toList_joinPrefix (pre localPart : String) :
    (joinPrefix pre localPart).toList = characters ⟨pre.toList, localPart.toList⟩ := by
  unfold joinPrefix characters
  by_cases h : pre = ""
  · simp [h]
  · rw [if_neg h, if_neg (by simpa using h)]
    simp

/-- A proper name is made of name characters. -/
theorem IsProper.isTagNameChar {n : TagName} (h : n.IsProper) :
    ∀ c ∈ n.characters, isTagNameChar c = true := by
  unfold characters
  split
  · exact h.localPart.isTagNameChar
  · next hp =>
    intro c hc
    rcases List.mem_append.mp hc with hc | hc
    · exact (h.pre.resolve_left hp).isTagNameChar c hc
    · rcases List.mem_cons.mp hc with rfl | hc
      · decide
      · exact h.localPart.isTagNameChar c hc

/-- A proper name has a first character, which is a name character. -/
theorem IsProper.exists_cons {n : TagName} (h : n.IsProper) :
    ∃ c cs, n.characters = c :: cs ∧ Markup.isTagNameChar c = true := by
  cases hc : n.characters with
  | nil =>
    unfold characters at hc
    split at hc
    · exact absurd hc h.localPart.ne_nil
    · simp at hc
  | cons c cs => exact ⟨c, cs, rfl, h.isTagNameChar c (by simp [hc])⟩

end TagName

private theorem TagName.IsProper.of?_characters {n : TagName} (h : n.IsProper) :
    TagName.of? n.characters = some n := by
  have hlocal := splitAll_of_not_mem h.localPart.not_mem_colon
  unfold characters
  split
  · next hp =>
    rw [of?, hlocal]
    simp only [h.localPart.start, if_true, ← hp]
  · next hp =>
    have hpre := h.pre.resolve_left hp
    rw [of?, splitAll_append, splitAll_of_not_mem hpre.not_mem_colon, hlocal]
    simp [hpre.start, h.localPart.start]

/-- A proper name is read up to a character that is in no name. -/
theorem readTagName?_characters {n : TagName} (h : n.IsProper) {rest : List Char}
    (hrest : ∀ c, rest.head? = some c → isTagNameChar c = false) :
    readTagName? (n.characters ++ rest) = some (n, rest) := by
  have hnil : rest.takeWhile isTagNameChar = [] := by
    cases rest with
    | nil => rfl
    | cons c cs => rw [List.takeWhile_cons_of_neg (by simpa using hrest c rfl)]
  have hname : (n.characters ++ rest).takeWhile isTagNameChar = n.characters := by
    rw [List.takeWhile_append_of_pos h.isTagNameChar, hnil, List.append_nil]
  rw [readTagName?, hname, h.of?_characters, List.drop_left]
  rfl

/-! ### Attributes -/

namespace TagAttribute

/-- An attribute as it stands in a tag, with a space in front. -/
def characters (a : TagAttribute) : List Char :=
  ' ' :: (a.name.characters ++ '=' :: '"' :: (escaped true a.value.toList ++ ['"']))

/-- An attribute that a document can hold. -/
structure IsProper (a : TagAttribute) : Prop where
  name : a.name.IsProper
  value : a.value.toList.all isDocumentChar = true

end TagAttribute

/-- A check that holds lets pass. -/
theorem guard_of {p : Prop} [Decidable p] (h : p) : (guard p : Option Unit) = some () := if_pos h

/-- A check that lets pass holds. -/
theorem of_guard {p : Prop} [Decidable p] {u : Unit} (h : guard p = some u) : p := by
  by_cases hp : p
  · exact hp
  · rw [show (guard p : Option Unit) = none from if_neg hp] at h
    cases h

/-- White space is skipped. -/
@[simp] theorem skipSpaces_space (cs : List Char) : skipSpaces (' ' :: cs) = skipSpaces cs :=
  List.dropWhile_cons_of_pos (by decide)

/-- Nothing else is skipped. -/
theorem skipSpaces_of_not_space {c : Char} (h : isXmlSpace c = false) (cs : List Char) :
    skipSpaces (c :: cs) = c :: cs :=
  List.dropWhile_cons_of_neg (by simp [h])

private theorem readQuoted?_escaped {cs : List Char} (h : cs.all isDocumentChar = true)
    (rest : List Char) :
    readQuoted? ('"' :: (escaped true cs ++ '"' :: rest)) = some (escaped true cs, rest) := by
  have hvalue : (escaped true cs ++ '"' :: rest).takeWhile (fun c ↦ c != '"' && c != '<') =
      escaped true cs := by
    rw [List.takeWhile_append_of_pos]
    · rw [List.takeWhile_cons_of_neg (by decide), List.append_nil]
    · intro c hc
      obtain ⟨hlt, -, hquote⟩ := not_markup_of_mem_escaped hc
      simp [hlt, hquote rfl]
  rw [readQuoted?, if_pos (.inl rfl)]
  dsimp only
  rw [hvalue, List.drop_left]
  simp [all_isDocumentChar_escaped true h]

private theorem readAssignment?_written {a : TagAttribute} (h : a.IsProper) (rest : List Char) :
    readAssignment?
        (a.name.characters ++ '=' :: '"' :: (escaped true a.value.toList ++ '"' :: rest)) =
      some ((a.name, escaped true a.value.toList), rest) := by
  have hname : readTagName? (a.name.characters ++
      '=' :: '"' :: (escaped true a.value.toList ++ '"' :: rest)) = some (a.name, _) :=
    readTagName?_characters h.name fun c hc ↦ by
      obtain rfl : '=' = c := by simpa using hc
      decide
  have hequals (cs : List Char) : readEquals? ('=' :: '"' :: cs) = some ('"' :: cs) := by
    simp only [readEquals?, skipSpaces_of_not_space (show isXmlSpace '=' = false by decide),
      skipSpaces_of_not_space (show isXmlSpace '"' = false by decide)]
  rw [readAssignment?, hname]
  simp [hequals, readQuoted?_escaped h.value]

private theorem readAttributes?_cons {a : TagAttribute} (h : a.IsProper) {rest : List Char}
    {fuel : Nat} {attributes : List TagAttribute} {empty : Bool} {behind : List Char}
    (hrest : readAttributes? fuel rest = some ((attributes, empty), behind)) :
    readAttributes? (fuel + 1) (a.characters ++ rest) =
      some ((a :: attributes, empty), behind) := by
  obtain ⟨c, cs, hcs, hc⟩ := h.name.exists_cons
  obtain ⟨hspace, hspecial⟩ := not_special_of_isTagNameChar hc
  simp only [List.mem_cons, List.not_mem_nil, or_false, not_or] at hspecial
  have hchars : a.characters ++ rest = ' ' :: (a.name.characters ++
      '=' :: '"' :: (escaped true a.value.toList ++ '"' :: rest)) := by
    simp [TagAttribute.characters]
  have hskip : skipSpaces (a.characters ++ rest) = a.name.characters ++
      '=' :: '"' :: (escaped true a.value.toList ++ '"' :: rest) := by
    rw [hchars, skipSpaces_space, hcs, List.cons_append, skipSpaces_of_not_space hspace]
  rw [readAttributes?]
  split
  · next heq =>
    rw [hskip, hcs, List.cons_append] at heq
    exact absurd (List.cons.inj heq).1 hspecial.2.1
  · next heq =>
    rw [hskip, hcs, List.cons_append] at heq
    exact absurd (List.cons.inj heq).1 hspecial.2.2.1
  · have hspaced : (a.characters ++ rest).head?.any isXmlSpace = true := by
      rw [hchars]
      rfl
    rw [hskip, readAssignment?_written h, guard_of hspaced]
    simp only [Option.bind_eq_bind, Option.bind_some, attributeValue?_escaped, hrest,
      String.ofList_toList]
    rfl

/-- The end of a start tag. -/
def tagEnd (empty : Bool) : List Char := if empty then ['/', '>'] else ['>']

private theorem readAttributes?_written {attributes : List TagAttribute}
    (h : ∀ a ∈ attributes, a.IsProper) (empty : Bool) (rest : List Char) {fuel : Nat}
    (hfuel : attributes.length < fuel) :
    readAttributes? fuel (attributes.flatMap TagAttribute.characters ++ (tagEnd empty ++ rest)) =
      some ((attributes, empty), rest) := by
  induction attributes generalizing fuel with
  | nil =>
    obtain ⟨fuel, rfl⟩ : ∃ n, fuel = n + 1 := ⟨fuel - 1, by grind⟩
    cases empty <;> rfl
  | cons a as ih =>
    obtain ⟨fuel, rfl⟩ : ∃ n, fuel = n + 1 := ⟨fuel - 1, by grind⟩
    rw [List.forall_mem_cons] at h
    rw [List.flatMap_cons, List.append_assoc]
    exact readAttributes?_cons h.1 (ih h.2 (Nat.lt_of_succ_lt_succ hfuel))

/-! ### Tags -/

/-- A start tag as it stands in a document. -/
def startTagCharacters (name : TagName) (attributes : List TagAttribute) (empty : Bool) :
    List Char :=
  '<' :: (name.characters ++ attributes.flatMap TagAttribute.characters ++ tagEnd empty)

/-- An end tag as it stands in a document. -/
def endTagCharacters (name : TagName) : List Char := '<' :: '/' :: (name.characters ++ ['>'])

/-- What stands behind the name of a start tag does not belong to the name. -/
private theorem isTagNameChar_head_behind {attributes : List TagAttribute} {empty : Bool}
    {rest : List Char} {c : Char}
    (h : (attributes.flatMap TagAttribute.characters ++ (tagEnd empty ++ rest)).head? = some c) :
    isTagNameChar c = false := by
  cases attributes with
  | nil =>
    cases empty with
    | false =>
      obtain rfl : '>' = c := by simpa [tagEnd] using h
      decide
    | true =>
      obtain rfl : '/' = c := by simpa [tagEnd] using h
      decide
  | cons a as =>
    obtain rfl : ' ' = c := by simpa [TagAttribute.characters] using h
    decide

private theorem length_le_length_flatMap_characters (attributes : List TagAttribute) :
    attributes.length ≤ (attributes.flatMap TagAttribute.characters).length := by
  induction attributes with
  | nil => exact Nat.le_refl 0
  | cons a as ih =>
    rw [List.flatMap_cons, List.length_append, List.length_cons, TagAttribute.characters,
      List.length_cons]
    omega

private theorem readToken?_of_name {c : Char} (h : isTagNameChar c = true) (cs : List Char) :
    readToken? ('<' :: c :: cs) = readStartTag? (c :: cs) := by
  have hspecial := (not_special_of_isTagNameChar h).2
  simp only [List.mem_cons, List.not_mem_nil, or_false, not_or] at hspecial
  unfold readToken?
  split
  · next heq => simp_all
  · next heq => simp_all
  · next heq => simp_all
  · next heq => simp_all
  · next heq => simp_all
  · next hnot => exact (hnot _ rfl).elim

/-- A start tag is read. -/
theorem readToken?_startTag {name : TagName} (hname : name.IsProper)
    {attributes : List TagAttribute} (h : ∀ a ∈ attributes, a.IsProper) (empty : Bool)
    (rest : List Char) : readToken? (startTagCharacters name attributes empty ++ rest) =
      some (.startTag name attributes empty, rest) := by
  obtain ⟨c, cs, hcs, hc⟩ := hname.exists_cons
  let behind := attributes.flatMap TagAttribute.characters ++ (tagEnd empty ++ rest)
  have hlength : attributes.length < behind.length + 1 := by
    have hle := length_le_length_flatMap_characters attributes
    have hbehind : behind.length = (attributes.flatMap TagAttribute.characters).length +
        (tagEnd empty ++ rest).length := List.length_append
    omega
  have hchars : startTagCharacters name attributes empty ++ rest =
      '<' :: (name.characters ++ behind) := by
    simp [startTagCharacters, behind]
  have hstart : readToken? ('<' :: (name.characters ++ behind)) =
      readStartTag? (name.characters ++ behind) := by
    rw [hcs, List.cons_append, readToken?_of_name hc]
  have hread : readTagName? (name.characters ++ behind) = some (name, behind) :=
    readTagName?_characters hname fun _ hhead ↦ isTagNameChar_head_behind hhead
  rw [hchars, hstart, readStartTag?, hread]
  simp only [Option.bind_eq_bind, Option.bind_some,
    readAttributes?_written h empty rest hlength, behind]
  rfl

/-- An end tag is read. -/
theorem readToken?_endTag {name : TagName} (hname : name.IsProper) (rest : List Char) :
    readToken? (endTagCharacters name ++ rest) = some (.endTag name, rest) := by
  have hread : readTagName? (name.characters ++ '>' :: rest) = some (name, '>' :: rest) :=
    readTagName?_characters hname fun c hc ↦ by
      obtain rfl : '>' = c := by simpa using hc
      decide
  have hchars : endTagCharacters name ++ rest = '<' :: '/' :: (name.characters ++ '>' :: rest) := by
    simp [endTagCharacters]
  rw [hchars, readToken?, readEndTag?, hread]
  simp only [Option.bind_eq_bind, Option.bind_some,
    skipSpaces_of_not_space (show isXmlSpace '>' = false by decide)]

end XmlBinding.Markup

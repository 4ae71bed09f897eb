import XmlBinding.Document.Reader
import XmlBinding.Document.Writer

/-!
# Escaped text is read back

Every character is escaped as itself or as a reference to itself (`Escapes`, `escapes_escapeChar`).
What stands for itself is nothing that a reader normalizes, so that the value of an escaped text is
that text, in an attribute (`attributeValue?_escaped`) and in content (`textValue?_escaped`).
-/

namespace XmlBinding.Markup

open Text

/-- What stands between the ampersand and the semicolon of a reference to a character, and can stand
anywhere in a document. -/
def IsReference (body : List Char) (c : Char) : Prop :=
  referredChar? body = some c ∧ ';' ∉ body ∧ body.all isDocumentChar = true ∧
    body.all (fun b ↦ b != '<' && b != '>' && b != '"') = true

instance (body : List Char) (c : Char) : Decidable (IsReference body c) :=
  inferInstanceAs (Decidable (_ ∧ _ ∧ _ ∧ _))

/-- How a character is escaped. -/
inductive Escapes (inAttribute : Bool) (c : Char) : List Char → Prop
  /-- The character stands for itself, where it is no markup and nothing that is normalized. -/
  | literal (plain : c ∉ ['&', '<', '>', '\r'])
      (kept : inAttribute = true → c ∉ ['"', '\t', '\n']) : Escapes inAttribute c [c]
  | reference (body : List Char) (refers : IsReference body c) :
      Escapes inAttribute c ('&' :: (body ++ [';']))

/-- Every character is escaped in one of the two ways. -/
theorem escapes_escapeChar (inAttribute : Bool) (c : Char) :
    Escapes inAttribute c (escapeChar inAttribute c) := by
  unfold escapeChar
  split
  · exact .reference ['a', 'm', 'p'] (by decide)
  · exact .reference ['l', 't'] (by decide)
  · exact .reference ['g', 't'] (by decide)
  · exact .reference ['#', '1', '3'] (by decide)
  · split
    · exact .reference ['q', 'u', 'o', 't'] (by decide)
    · next h => exact .literal (by decide) fun hi ↦ absurd hi h
  · split
    · exact .reference ['#', '9'] (by decide)
    · next h => exact .literal (by decide) fun hi ↦ absurd hi h
  · split
    · exact .reference ['#', '1', '0'] (by decide)
    · next h => exact .literal (by decide) fun hi ↦ absurd hi h
  · next h => exact .literal (by simp_all) fun _ ↦ by simp_all

/-- A text with every character escaped. -/
def escaped (inAttribute : Bool) (cs : List Char) : List Char :=
  cs.flatMap (escapeChar inAttribute)

/-- Nothing is escaped as nothing. -/
@[simp] theorem escaped_nil (inAttribute : Bool) : escaped inAttribute [] = [] := rfl

/-- A text is escaped character by character. -/
@[simp] theorem escaped_cons (inAttribute : Bool) (c : Char) (cs : List Char) :
    escaped inAttribute (c :: cs) = escapeChar inAttribute c ++ escaped inAttribute cs :=
  List.flatMap_cons

/-- Two texts are escaped each by itself. -/
@[simp] theorem escaped_append (inAttribute : Bool) (xs ys : List Char) :
    escaped inAttribute (xs ++ ys) = escaped inAttribute xs ++ escaped inAttribute ys :=
  List.flatMap_append

/-- The characters of an escaped string. -/
theorem toList_escape (inAttribute : Bool) (s : String) :
    (escape inAttribute s).toList = escaped inAttribute s.toList := by
  rw [escape, String.toList_ofList]
  rfl

/-! ### What an escaped text holds -/

private theorem Escapes.safe {inAttribute : Bool} {c b : Char} {e : List Char}
    (h : Escapes inAttribute c e) (hb : b ∈ e) :
    b ≠ '<' ∧ b ≠ '>' ∧ (inAttribute = true → b ≠ '"') := by
  cases h with
  | literal plain kept =>
    obtain rfl := List.mem_singleton.mp hb
    refine ⟨?_, ?_, fun hi ↦ ?_⟩
    · rintro rfl
      exact plain (by decide)
    · rintro rfl
      exact plain (by decide)
    · rintro rfl
      exact kept hi (by decide)
  | reference body refers =>
    simp only [List.mem_cons, List.mem_append, List.not_mem_nil, or_false] at hb
    rcases hb with rfl | hb | rfl
    · exact ⟨by decide, by decide, fun _ ↦ by decide⟩
    · have hsafe := List.all_eq_true.mp refers.2.2.2 b hb
      simp only [Bool.and_eq_true, bne_iff_ne] at hsafe
      exact ⟨hsafe.1.1, hsafe.1.2, fun _ ↦ hsafe.2⟩
    · exact ⟨by decide, by decide, fun _ ↦ by decide⟩

/-- An escaped text holds no markup. -/
theorem not_markup_of_mem_escaped {inAttribute : Bool} {cs : List Char} {b : Char}
    (h : b ∈ escaped inAttribute cs) : b ≠ '<' ∧ b ≠ '>' ∧ (inAttribute = true → b ≠ '"') := by
  obtain ⟨c, -, hb⟩ := List.mem_flatMap.mp h
  exact (escapes_escapeChar inAttribute c).safe hb

/-- A character is escaped as what a document may hold if it may hold the character. -/
private theorem Escapes.legible {inAttribute : Bool} {c : Char} {e : List Char}
    (h : Escapes inAttribute c e) (hc : isDocumentChar c = true) : e.all isDocumentChar = true := by
  cases h with
  | literal plain kept => simpa using hc
  | reference body refers =>
    have hbody := refers.2.2.1
    rw [List.all_cons, List.all_append, hbody]
    decide

/-- Escaping keeps to the characters that a document may hold. -/
theorem all_isDocumentChar_escaped (inAttribute : Bool) {cs : List Char}
    (h : cs.all isDocumentChar = true) : (escaped inAttribute cs).all isDocumentChar = true := by
  induction cs with
  | nil => rfl
  | cons c cs ih =>
    rw [List.all_cons, Bool.and_eq_true] at h
    rw [escaped_cons, List.all_append, (escapes_escapeChar inAttribute c).legible h.1, ih h.2,
      Bool.and_self]

/-- A text in which a character of `stop` is missing does not reach `stop`. -/
theorem upTo?_eq_none {stop cs : List Char} {x : Char} (hx : x ∈ stop) (hcs : x ∉ cs) :
    upTo? stop cs = none := by
  induction cs with
  | nil =>
    rw [upTo?, if_neg]
    rw [List.isEmpty_iff]
    exact List.ne_nil_of_mem hx
  | cons c cs ih =>
    have hnot : behind? stop (c :: cs) = none := by
      unfold behind?
      rw [if_neg]
      intro hp
      exact hcs ((List.isPrefixOf_iff_prefix.mp hp).subset hx)
    have hrest := ih fun h ↦ hcs (List.mem_cons_of_mem c h)
    rw [upTo?, hnot]
    simp only [hrest, Option.map_none]

/-! ### The value of an escaped text -/

/-- The piece that an escaped character is read as. -/
def pieceOf (inAttribute : Bool) (c : Char) : Piece :=
  if escapeChar inAttribute c = [c] then .literal c else .reference c

/-- What stands between an ampersand and a semicolon is read as a reference. -/
private theorem piecesWithin_reference {fuel : Nat} {body rest : List Char} {c : Char}
    (h : IsReference body c) :
    piecesWithin (fuel + 1) ('&' :: (body ++ ';' :: rest)) =
      (piecesWithin fuel rest).map (.reference c :: ·) := by
  have hsplit : splitFirst ';' (body ++ ';' :: rest) = some (body, rest) :=
    splitFirst_eq_some_iff.mpr ⟨h.2.1, rfl⟩
  rw [piecesWithin, hsplit]
  simp only [Option.bind_eq_bind, Option.bind_some, h.1]
  cases piecesWithin fuel rest <;> rfl

/-- Any character but an ampersand is read as itself. -/
theorem piecesWithin_literal {fuel : Nat} {c : Char} {rest : List Char} (h : c ≠ '&') :
    piecesWithin (fuel + 1) (c :: rest) = (piecesWithin fuel rest).map (.literal c :: ·) := by
  rw [piecesWithin]
  · cases piecesWithin fuel rest <;> rfl
  · simpa using h

private theorem piecesWithin_escaped (inAttribute : Bool) {fuel : Nat} {cs : List Char}
    (h : cs.length ≤ fuel) :
    piecesWithin fuel (escaped inAttribute cs) = some (cs.map (pieceOf inAttribute)) := by
  induction cs generalizing fuel with
  | nil => cases fuel <;> rfl
  | cons c cs ih =>
    obtain ⟨fuel, rfl⟩ : ∃ n, fuel = n + 1 := ⟨fuel - 1, by grind⟩
    have hrest := ih (Nat.le_of_succ_le_succ h)
    have hc := escapes_escapeChar inAttribute c
    rw [escaped_cons, List.map_cons]
    unfold pieceOf
    generalize escapeChar inAttribute c = e at hc ⊢
    cases hc with
    | literal plain kept =>
      have hne : c ≠ '&' := by
        rintro rfl
        exact plain (by decide)
      rw [List.singleton_append, piecesWithin_literal hne, hrest, if_pos rfl]
      rfl
    | reference body refers =>
      rw [List.cons_append, List.append_assoc, List.singleton_append,
        piecesWithin_reference refers, hrest, if_neg (by simp)]
      rfl

/-- No text is longer than it is when escaped. -/
theorem length_le_length_escaped (inAttribute : Bool) (cs : List Char) :
    cs.length ≤ (escaped inAttribute cs).length := by
  induction cs with
  | nil => exact Nat.le_refl 0
  | cons c cs ih =>
    have hc : 1 ≤ (escapeChar inAttribute c).length := by
      have hc := escapes_escapeChar inAttribute c
      generalize escapeChar inAttribute c = e at hc
      cases hc <;> simp
    rw [escaped_cons, List.length_append, List.length_cons]
    omega

/-- An escaped text is read character by character. -/
theorem pieces?_escaped (inAttribute : Bool) (cs : List Char) :
    pieces? (escaped inAttribute cs) = some (cs.map (pieceOf inAttribute)) :=
  piecesWithin_escaped inAttribute (length_le_length_escaped inAttribute cs)

/-- A character is referred to unless it stands for itself. -/
theorem pieceOf_cases (inAttribute : Bool) (c : Char) :
    pieceOf inAttribute c = .reference c ∨ pieceOf inAttribute c = .literal c ∧ c ≠ '\r' ∧
      (inAttribute = true → c ≠ '\t' ∧ c ≠ '\n') := by
  have hc := escapes_escapeChar inAttribute c
  unfold pieceOf
  generalize escapeChar inAttribute c = e at hc
  cases hc with
  | literal plain kept =>
    simp only [List.mem_cons, List.not_mem_nil, or_false, not_or] at plain kept
    exact .inr ⟨if_pos rfl, plain.2.2.2, fun hi ↦ (kept hi).2⟩
  | reference body refers => exact .inl (if_neg (by simp))

/-- The value of an escaped attribute value is what was escaped. -/
theorem attributeValue?_escaped (cs : List Char) :
    attributeValue? (escaped true cs) = some cs := by
  rw [attributeValue?, pieces?_escaped, Option.map_some, Option.some_inj]
  induction cs with
  | nil => rfl
  | cons c cs ih =>
    rw [List.map_cons]
    rcases pieceOf_cases true c with hc | ⟨hc, hr, hkept⟩
    · rw [hc, flattenSpaces, ih]
    · obtain ⟨ht, hn⟩ := hkept rfl
      have hspace : (if isXmlSpace c then ' ' else c) = c := by
        split
        · next h =>
          simp only [isXmlSpace, Bool.or_eq_true, beq_iff_eq] at h
          grind
        · rfl
      rw [hc, flattenSpaces, if_neg (by simp [hr]), hspace, ih]

/-- The line ends of an escaped text are settled: carriage returns are referred to, and one that is
held back comes directly before the next character. -/
private theorem settleLineEnds_pieceOf {held verbatim : Bool} (h : held = true → verbatim = true)
    (cs : List Char) : settleLineEnds held verbatim (cs.map (pieceOf false)) =
      (if held then ['\r'] else []) ++ cs := by
  induction cs generalizing held verbatim with
  | nil => cases held <;> rfl
  | cons c cs ih =>
    rw [List.map_cons]
    rcases pieceOf_cases false c with hc | ⟨hc, hr, -⟩
    · rw [hc, settleLineEnds, putChar]
      by_cases hr : c = '\r'
      · rw [if_pos hr, ih fun _ ↦ rfl, hr]
        rfl
      · rw [if_neg hr, ih fun h ↦ absurd h Bool.false_ne_true]
        rfl
    · rw [hc, settleLineEnds, putChar, if_neg hr, ih fun h ↦ absurd h Bool.false_ne_true]
      cases held with
      | false => simp [hr]
      | true => simp [h rfl]

/-- The value of an escaped text is what was escaped. -/
theorem textValue?_escaped (cs : List Char) : textValue? (escaped false cs) = some cs := by
  rw [textValue?, pieces?_escaped, Option.map_some,
    settleLineEnds_pieceOf fun h ↦ absurd h Bool.false_ne_true]
  simp

end XmlBinding.Markup

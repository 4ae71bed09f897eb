import XmlBinding.Proofs.Document.Markup.Escape

/-!
# What XML makes of escaped text

The value of a text by the rules of XML 1.0 alone: line ends are normalized, then references are
expanded, and in an attribute value a literal white space character becomes a space
(`standardValue?`). Escaping leaves no character to these rules that they would change, so that the
value of an escaped text is that text (`standardValue?_escape`). This holds of any processor that
keeps to the rules, of which the reader of this library is one.
-/

namespace XmlBinding.Markup

open Text

/-! ### The rules -/

/-- A text with its line ends normalized: a carriage return, with the line feed behind it if there
is one, becomes a line feed. -/
def normalizeLineEnds : List Char → List Char
  | [] => []
  | '\r' :: '\n' :: cs => '\n' :: normalizeLineEnds cs
  | '\r' :: cs => '\n' :: normalizeLineEnds cs
  | c :: cs => c :: normalizeLineEnds cs

/-- The character of a code that a document may refer to. -/
def standardChar? (code : Nat) : Option Char :=
  if code.isValidChar ∧ isDocumentChar (Char.ofNat code) then some (Char.ofNat code) else none

/-- What a reference stands for, by what is between its ampersand and its semicolon: one of the five
predefined entities, or the code of a character. -/
def standardReference? : List Char → Option Char
  | ['a', 'm', 'p'] => some '&'
  | ['l', 't'] => some '<'
  | ['g', 't'] => some '>'
  | ['a', 'p', 'o', 's'] => some '\''
  | ['q', 'u', 'o', 't'] => some '"'
  | '#' :: 'x' :: digits => (readHex? digits).bind standardChar?
  | '#' :: digits => if Number.isNumeral digits then standardChar? (Number.read digits) else none
  | _ => none

/-- What a literal character stands for. In an attribute value, white space stands for a space, and
the quotation mark around the value is not part of it. -/
def standardLiteral? (inAttribute : Bool) (c : Char) : Option Char :=
  if ¬ isDocumentChar c ∨ c = '<' ∨ (inAttribute ∧ c = '"') then none
  else if inAttribute ∧ isXmlSpace c then some ' '
  else some c

/-- A text with its references expanded. `reference` is what was read, backwards, of the reference
at hand, if there is one. -/
def expandFrom (inAttribute : Bool) : (reference : Option (List Char)) → List Char →
    Option (List Char)
  | none, [] => some []
  | some _, [] => none
  | none, c :: cs =>
    if c = '&' then expandFrom inAttribute (some []) cs
    else do return (← standardLiteral? inAttribute c) :: (← expandFrom inAttribute none cs)
  | some body, c :: cs =>
    if c = ';' then do
      return (← standardReference? body.reverse) :: (← expandFrom inAttribute none cs)
    else expandFrom inAttribute (some (c :: body)) cs

/-- The value of a text of content, or of an attribute value in quotation marks; `none` if it cannot
be one. -/
def standardValue? (inAttribute : Bool) (cs : List Char) : Option (List Char) :=
  expandFrom inAttribute none (normalizeLineEnds cs)

/-- No character stands for itself that is one of the given ones: they occur in references, if
anywhere. -/
inductive HasNoRaw (specials : List Char) : List Char → Prop
  | nil : HasNoRaw specials []
  | literal {c : Char} {cs : List Char} (plain : c ∉ specials) (rest : HasNoRaw specials cs) :
      HasNoRaw specials (c :: cs)
  | reference {body cs : List Char} {c : Char} (refers : standardReference? body = some c)
      (rest : HasNoRaw specials cs) : HasNoRaw specials ('&' :: (body ++ ';' :: cs))

/-! ### Escaped characters -/

/-- The characters that may not stand for themselves in a text, or in an attribute value. -/
def specials : (inAttribute : Bool) → List Char
  | true => ['"', '&', '<', '\t', '\n', '\r']
  | false => ['&', '<', '>', '\r']

/-- A character is escaped as itself if it may stand for itself, else as a reference to it, in which
there are no other characters than letters, digits and the number sign. -/
theorem escapeChar_cases (inAttribute : Bool) (c : Char) :
    escapeChar inAttribute c = [c] ∧ c ∉ specials inAttribute ∨
      ∃ body, escapeChar inAttribute c = '&' :: (body ++ [';']) ∧
        standardReference? body = some c ∧ body.all (fun b ↦ b.isAlphanum || b == '#') = true := by
  unfold escapeChar
  split
  · exact .inr ⟨['a', 'm', 'p'], rfl, rfl, by decide⟩
  · exact .inr ⟨['l', 't'], rfl, rfl, by decide⟩
  · exact .inr ⟨['g', 't'], rfl, rfl, by decide⟩
  · exact .inr ⟨['#', '1', '3'], rfl, by decide, by decide⟩
  · cases inAttribute with
    | true => exact .inr ⟨['q', 'u', 'o', 't'], rfl, rfl, by decide⟩
    | false => exact .inl ⟨rfl, by decide⟩
  · cases inAttribute with
    | true => exact .inr ⟨['#', '9'], rfl, by decide, by decide⟩
    | false => exact .inl ⟨rfl, by decide⟩
  · cases inAttribute with
    | true => exact .inr ⟨['#', '1', '0'], rfl, by decide, by decide⟩
    | false => exact .inl ⟨rfl, by decide⟩
  · exact .inl ⟨rfl, by cases inAttribute <;> simp_all [specials]⟩

/-- Escaping leaves no special character to stand for itself. -/
theorem hasNoRaw_escaped (inAttribute : Bool) (cs : List Char) :
    HasNoRaw (specials inAttribute) (escaped inAttribute cs) := by
  induction cs with
  | nil => exact .nil
  | cons c cs ih =>
    rw [escaped_cons]
    rcases escapeChar_cases inAttribute c with ⟨hc, hplain⟩ | ⟨body, hc, hrefers, -⟩
    · rw [hc]
      exact .literal hplain ih
    · rw [hc, List.cons_append, List.append_assoc]
      exact .reference hrefers ih

/-- There is no carriage return in an escaped text, not even in a reference. -/
theorem carriageReturn_not_mem_escaped (inAttribute : Bool) (cs : List Char) :
    '\r' ∉ escaped inAttribute cs := by
  intro h
  obtain ⟨c, -, hmem⟩ := List.mem_flatMap.mp h
  rcases escapeChar_cases inAttribute c with ⟨hc, hplain⟩ | ⟨body, hc, -, hbody⟩
  · rw [hc, List.mem_singleton] at hmem
    subst hmem
    cases inAttribute <;> exact hplain (by decide)
  · rw [hc] at hmem
    simp only [List.mem_cons, List.mem_append, List.not_mem_nil, or_false] at hmem
    rcases hmem with hmem | hmem | hmem
    · exact absurd hmem (by decide)
    · exact absurd (List.all_eq_true.mp hbody _ hmem) (by decide)
    · exact absurd hmem (by decide)

/-! ### The value of an escaped text -/

/-- Without a carriage return there is nothing to normalize. -/
theorem normalizeLineEnds_of_not_mem {cs : List Char} (h : '\r' ∉ cs) :
    normalizeLineEnds cs = cs := by
  induction cs with
  | nil => rfl
  | cons c cs ih =>
    obtain ⟨hc, hcs⟩ := not_or.mp (mt List.mem_cons.mpr h)
    unfold normalizeLineEnds
    split
    · next heq =>
      cases heq
    · next heq =>
      exact absurd (List.cons.inj heq).1.symm hc
    · next heq =>
      exact absurd (List.cons.inj heq).1.symm hc
    · next heq =>
      obtain ⟨rfl, rfl⟩ := List.cons.inj heq
      rw [ih hcs]

private theorem expandFrom_reference (inAttribute : Bool) {body : List Char} (h : ';' ∉ body)
    (before rest : List Char) :
    expandFrom inAttribute (some before) (body ++ ';' :: rest) = do
      return (← standardReference? (before.reverse ++ body)) ::
        (← expandFrom inAttribute none rest) := by
  induction body generalizing before with
  | nil => rw [List.append_nil]; rfl
  | cons c body ih =>
    obtain ⟨hc, hbody⟩ := not_or.mp (mt List.mem_cons.mpr h)
    rw [List.cons_append, expandFrom, if_neg (Ne.symm hc), ih hbody, List.reverse_cons,
      List.append_assoc]
    rfl

/-- A character that may stand for itself and in a document at all does so. -/
private theorem standardLiteral?_of_plain {inAttribute : Bool} {c : Char}
    (hc : isDocumentChar c = true)
    (hplain : c ∉ specials inAttribute) : standardLiteral? inAttribute c = some c := by
  cases inAttribute with
  | false =>
    simp only [specials, List.mem_cons, List.not_mem_nil, or_false, not_or] at hplain
    simp [standardLiteral?, hc, hplain.2.1]
  | true =>
    simp only [specials, List.mem_cons, List.not_mem_nil, or_false, not_or] at hplain
    obtain ⟨hquote, -, hless, htab, hfeed, hreturn⟩ := hplain
    by_cases hspace : c = ' '
    · subst hspace
      rfl
    · simp [standardLiteral?, isXmlSpace, hc, hquote, hless, hspace, htab, hfeed, hreturn]

/-- Expanding an escaped text gives what was escaped. -/
theorem expandFrom_escaped (inAttribute : Bool) {cs : List Char}
    (h : ∀ c ∈ cs, isDocumentChar c = true) :
    expandFrom inAttribute none (escaped inAttribute cs) = some cs := by
  induction cs with
  | nil => rfl
  | cons c cs ih =>
    obtain ⟨hc, hcs⟩ := List.forall_mem_cons.mp h
    rw [escaped_cons]
    rcases escapeChar_cases inAttribute c with ⟨heq, hplain⟩ | ⟨body, heq, hrefers, hbody⟩
    · have hamp : c ≠ '&' := by
        rintro rfl
        cases inAttribute <;> exact hplain (by decide)
      rw [heq, List.singleton_append, expandFrom, if_neg hamp,
        standardLiteral?_of_plain hc hplain, ih hcs]
      rfl
    · have hsemicolon : ';' ∉ body := fun hmem ↦
        absurd (List.all_eq_true.mp hbody _ hmem) (by decide)
      rw [heq, List.cons_append, List.append_assoc, List.singleton_append, expandFrom, if_pos rfl,
        expandFrom_reference inAttribute hsemicolon, List.reverse_nil, List.nil_append, hrefers,
        ih hcs]
      rfl

/-- Escaping is undone by reading, whatever characters of a document come together: no special
character is left to stand for itself, and the value by the rules of XML, and by the reader of this
library, is what was escaped. -/
theorem standardValue?_escape (s : String) (h : ∀ c ∈ s.toList, isDocumentChar c = true) :
    HasNoRaw ['"', '&', '<', '\t', '\n', '\r'] (escape true s).toList ∧
      standardValue? true (escape true s).toList = some s.toList ∧
      attributeValue? (escape true s).toList = some s.toList ∧
    HasNoRaw ['&', '<', '>', '\r'] (escape false s).toList ∧
      standardValue? false (escape false s).toList = some s.toList ∧
      textValue? (escape false s).toList = some s.toList := by
  have hvalue (inAttribute : Bool) :
      standardValue? inAttribute (escaped inAttribute s.toList) = some s.toList := by
    rw [standardValue?, normalizeLineEnds_of_not_mem (carriageReturn_not_mem_escaped _ _)]
    exact expandFrom_escaped inAttribute h
  rw [toList_escape, toList_escape]
  exact ⟨hasNoRaw_escaped true _, hvalue true, attributeValue?_escaped _,
    hasNoRaw_escaped false _, hvalue false, textValue?_escaped _⟩

/-- White space of all kinds side by side, and what looks like a reference, come back, where the
text itself would be read as another one. -/
theorem standardValue?_escape_mixed :
    (∀ c ∈ "\r\n\t \"&#13;>\r".toList, isDocumentChar c = true) ∧
      (standardValue? true (escape true "\r\n\t \"&#13;>\r").toList =
          some "\r\n\t \"&#13;>\r".toList ∧
        standardValue? false (escape false "\r\n\t \"&#13;>\r").toList =
          some "\r\n\t \"&#13;>\r".toList) ∧
      standardValue? false "\r\n\t \"&#13;>\r".toList = some "\n\t \"\r>\n".toList := by
  have hchars : ∀ c ∈ "\r\n\t \"&#13;>\r".toList, isDocumentChar c = true :=
    List.all_eq_true.mp (by decide +kernel)
  obtain ⟨-, hattribute, -, -, hcontent, -⟩ := standardValue?_escape _ hchars
  exact ⟨hchars, ⟨hattribute, hcontent⟩, by decide +kernel⟩

end XmlBinding.Markup

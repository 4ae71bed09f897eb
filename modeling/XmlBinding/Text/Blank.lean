/-!
# Blank characters

White space in two senses. `isBlank` is the Unicode property `White_Space`, which decides what is
cut from the ends of a literal before it is read. `isXmlSpace` is the white space of XML itself:
four characters, which separate the parts of a tag and which the white space facet of a schema
type folds.
-/

namespace XmlBinding.Text

/-- The Unicode property `White_Space`. -/
def isBlank (c : Char) : Bool :=
  let code := c.toNat
  (0x9 ≤ code && code ≤ 0xD) || code == 0x20 || code == 0x85 || code == 0xA0 || code == 0x1680 ||
    (0x2000 ≤ code && code ≤ 0x200A) || code == 0x2028 || code == 0x2029 || code == 0x202F ||
    code == 0x205F || code == 0x3000

/-- White space of XML: space, tab, line feed and carriage return. -/
def isXmlSpace (c : Char) : Bool := c == ' ' || c == '\t' || c == '\n' || c == '\r'

/-- The text without the blanks at its front. -/
def trimStart (cs : List Char) : List Char := cs.dropWhile isBlank

/-- The text without the blanks at its end. -/
def trimEnd (cs : List Char) : List Char := (cs.reverse.dropWhile isBlank).reverse

/-- The text without the blanks at either end. -/
def trim (cs : List Char) : List Char := trimEnd (trimStart cs)

/-- `trim` on strings. -/
def trimmed (s : String) : String := String.ofList (trim s.toList)

/-- Nothing is cut in front of a character that is no blank. -/
theorem trimStart_cons {c : Char} {cs : List Char} (h : isBlank c = false) :
    trimStart (c :: cs) = c :: cs :=
  List.dropWhile_cons_of_neg (by simp [h])

/-- Nothing is cut from a text without blanks. -/
theorem trim_eq_self {cs : List Char} (h : ∀ c ∈ cs, isBlank c = false) : trim cs = cs := by
  have hcut (ds : List Char) (hds : ∀ c ∈ ds, isBlank c = false) : ds.dropWhile isBlank = ds := by
    cases ds with
    | nil => rfl
    | cons d ds => exact trimStart_cons (hds d List.mem_cons_self)
  rw [trim, trimStart, hcut cs h, trimEnd, hcut _ (by simpa using h), List.reverse_reverse]

/-- What is left without the blanks at the end is the beginning of the text. -/
theorem trimEnd_prefix (cs : List Char) : trimEnd cs <+: cs := by
  have h := List.dropWhile_suffix (l := cs.reverse) isBlank
  rw [← List.reverse_prefix] at h
  simpa [trimEnd] using h

/-- What has been cut does not begin with a blank. -/
theorem isBlank_of_trimStart_eq_cons {c : Char} {cs ds : List Char} (h : trimStart cs = c :: ds) :
    isBlank c = false := by
  have hhead := List.head?_dropWhile_not isBlank cs
  rw [show cs.dropWhile isBlank = c :: ds from h] at hhead
  simpa using hhead

private theorem trimEnd_trimEnd (cs : List Char) : trimEnd (trimEnd cs) = trimEnd cs := by
  unfold trimEnd
  rw [List.reverse_reverse]
  congr 1
  cases h : cs.reverse.dropWhile isBlank with
  | nil => rfl
  | cons c ds => exact trimStart_cons (isBlank_of_trimStart_eq_cons h)

/-- Nothing is left to cut from what has been cut. -/
@[simp] theorem trim_trim (cs : List Char) : trim (trim cs) = trim cs := by
  have hstart : trimStart (trim cs) = trim cs := by
    cases h : trim cs with
    | nil => rfl
    | cons c ds =>
      obtain ⟨es, hes⟩ := trimEnd_prefix (trimStart cs)
      rw [show trimEnd (trimStart cs) = c :: ds from h, List.cons_append] at hes
      exact trimStart_cons (isBlank_of_trimStart_eq_cons hes.symm)
  rw [trim, hstart, trim, trimEnd_trimEnd]

end XmlBinding.Text

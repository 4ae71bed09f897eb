import XmlBinding.Lexical.Codec
import XmlBinding.Proofs.Number.Numeral

/-!
# Whole numbers as texts

A whole number may be written in many ways: with a plus, with zeros in front. It is read from each
of them, and printed in the one that has neither, if it lies both in the range of its schema type
and in that of its native type (`Codec.integer_exact`).
-/

namespace XmlBinding

namespace Number

open Text

/-! ### Literals -/

/-- The text is an optional sign and one or more digits, which denote the number. -/
def DenotesInteger (cs : List Char) (n : Int) : Prop :=
  ∃ sign negative digits, IsSign sign negative ∧ isNumeral digits ∧ cs = sign ++ digits ∧
    n = applySign negative (read digits)

/-- The canonical text of a number: the digits of its size, without a zero in front of others,
behind a minus if it is negative and behind nothing else. -/
def IsCanonicalInteger (cs : List Char) (n : Int) : Prop :=
  ∃ digits, isNumeral digits ∧ (digits.head? = some '0' → digits = ['0']) ∧
    read digits = n.natAbs ∧ cs = if n < 0 then '-' :: digits else digits

variable {cs digits : List Char} {n : Int}

private theorem not_sign_of_isNumeral (h : isNumeral digits) :
    ∀ c ∈ digits.head?, c ≠ '-' ∧ c ≠ '+' :=
  fun c hc ↦ ne_sign (.inl (isDigit_of_isNumeral h c (List.mem_of_head? hc)))

/-- The number of a literal is put together from its sign and its digits. -/
theorem denotesInteger_iff :
    DenotesInteger cs n ↔
      isNumeral (splitSign cs).2 ∧ n = applySign (splitSign cs).1 (read (splitSign cs).2) := by
  constructor
  · rintro ⟨sign, negative, digits, hsign, hdigits, rfl, rfl⟩
    rw [splitSign_append hsign (not_sign_of_isNumeral hdigits)]
    exact ⟨hdigits, rfl⟩
  · rintro ⟨hdigits, hn⟩
    obtain ⟨sign, hsign, htext⟩ := isSign_splitSign cs
    exact ⟨sign, _, _, hsign, hdigits, htext, hn⟩

/-- A literal has one number. -/
theorem DenotesInteger.unique {m : Int} (hm : DenotesInteger cs m) (hn : DenotesInteger cs n) :
    m = n :=
  (denotesInteger_iff.mp hm).2.trans (denotesInteger_iff.mp hn).2.symm

/-- The canonical text of a number is what is written for it. -/
theorem isCanonicalInteger_iff : IsCanonicalInteger cs n ↔ cs = writeInt n := by
  unfold writeInt
  constructor
  · rintro ⟨digits, hdigits, hzero, hread, rfl⟩
    rw [← hread, write_read hdigits hzero]
  · intro hcs
    refine ⟨write n.natAbs, isNumeral_write _, fun hhead ↦ ?_, read_write _, hcs⟩
    by_cases hn : n.natAbs = 0
    · rw [hn]
      rfl
    · exact absurd hhead (head?_write_ne hn)

/-- What is written for a number is a literal of it. -/
theorem denotesInteger_writeInt (n : Int) : DenotesInteger (writeInt n) n := by
  have hsize : n = applySign (decide (n < 0)) (read (write n.natAbs)) := by
    rw [read_write, applySign_natAbs]
  unfold writeInt
  split
  · next hneg =>
    rw [decide_eq_true hneg] at hsize
    exact ⟨['-'], true, _, .minus, isNumeral_write _, rfl, hsize⟩
  · next hneg =>
    rw [decide_eq_false hneg] at hsize
    exact ⟨[], false, _, .missing, isNumeral_write _, rfl, hsize⟩

/-- A literal has no blanks. -/
theorem DenotesInteger.trim_eq (h : DenotesInteger cs n) : trim cs = cs := by
  obtain ⟨sign, negative, digits, hsign, hdigits, rfl, -⟩ := h
  refine trim_of_separators ['-', '+'] (fun c hc hne ↦ ?_) (by simp [isBlank])
  have hdigit : c ∉ digits := not_mem_of_isNumeral hdigits hc
  simp only [List.mem_cons, List.not_mem_nil, or_false, not_or] at hne
  cases hsign <;> simp [hdigit, hne]

end Number

open Number Text

/-! ### Codecs -/

namespace Codec

variable {space : IntegerSpace} {kind : IntegerKind}

/-- A number is taken just if it is in the range of the schema type and of the native type. -/
theorem checkInteger_eq_ok_iff {n : Int} {m : NativeInteger} :
    checkInteger space (.integer kind) n = .ok m ↔
      space.bounds.Holds n ∧ ∃ h : kind.bounds.Holds n, m = ⟨kind, n, h⟩ := by
  unfold checkInteger narrow? NativeInteger.of?
  by_cases hspace : space.bounds.Holds n
  · by_cases hkind : kind.bounds.Holds n
    · simp [hspace, hkind, eq_comm]
    · simp [hspace, hkind]
  · simp [hspace]

private theorem readInteger_of_denotes {lexical : String} {n : Int}
    (h : DenotesInteger (trim lexical.toList) n) :
    readInteger space (.integer kind) lexical =
      (checkInteger space (.integer kind) n).map Scalar.integer := by
  obtain ⟨hdigits, hn⟩ := denotesInteger_iff.mp h
  simp only [readInteger, hdigits, if_true, hn]

/-- What is read is a literal of a number that is taken. -/
theorem readInteger_eq_ok_iff {lexical : String} {s : Scalar} :
    readInteger space (.integer kind) lexical = .ok s ↔
      ∃ n : Int, DenotesInteger (trim lexical.toList) n ∧ space.bounds.Holds n ∧
        ∃ h : kind.bounds.Holds n, s = .integer ⟨kind, n, h⟩ := by
  constructor
  · intro hread
    by_cases hdigits : isNumeral (splitSign (trim lexical.toList)).2
    · have hdenotes : DenotesInteger (trim lexical.toList)
          (applySign (splitSign (trim lexical.toList)).1
            (Number.read (splitSign (trim lexical.toList)).2)) :=
        denotesInteger_iff.mpr ⟨hdigits, rfl⟩
      rw [readInteger_of_denotes hdenotes] at hread
      generalize applySign _ _ = n at hdenotes hread
      cases hcheck : checkInteger space (.integer kind) n with
      | error cause =>
        rw [hcheck] at hread
        cases hread
      | ok m =>
        rw [hcheck] at hread
        cases hread
        obtain ⟨hspace, hkind, rfl⟩ := checkInteger_eq_ok_iff.mp hcheck
        exact ⟨n, hdenotes, hspace, hkind, rfl⟩
    · simp [readInteger, hdigits] at hread
  · rintro ⟨n, hdenotes, hspace, hkind, rfl⟩
    rw [readInteger_of_denotes hdenotes, checkInteger_eq_ok_iff.mpr ⟨hspace, hkind, rfl⟩]
    rfl

/-- What is printed is a number that is taken, in digits. -/
theorem print_integer_eq_ok_iff {v : Value} {printed : Printed} :
    print ⟨.integer space, .integer kind⟩ v = .ok printed ↔
      ∃ m : NativeInteger, v = .scalar (.integer m) ∧ space.bounds.Holds m.number ∧
        kind.bounds.Holds m.number ∧ printed = .text (intText m.number) := by
  constructor
  · intro hprint
    cases v with
    | scalar s =>
      cases s with
      | integer m =>
        change (checkInteger space (.integer kind) m.number).map _ = _ at hprint
        cases hcheck : checkInteger space (.integer kind) m.number with
        | error cause =>
          rw [hcheck] at hprint
          cases hprint
        | ok n =>
          rw [hcheck] at hprint
          cases hprint
          obtain ⟨hspace, hkind, rfl⟩ := checkInteger_eq_ok_iff.mp hcheck
          exact ⟨m, rfl, hspace, hkind, rfl⟩
      | _ => cases hprint
    | _ => cases hprint
  · rintro ⟨m, rfl, hspace, hkind, rfl⟩
    change (checkInteger space (.integer kind) m.number).map _ = _
    rw [checkInteger_eq_ok_iff.mpr ⟨hspace, hkind, rfl⟩]
    rfl

/-- Whatever the schema type and the native type of a codec of whole numbers: exactly the literals
of the numbers that both can hold are read, each as its number in the native type; exactly such
numbers are printed, whatever native type holds them, each as its canonical text. What was printed
is read as the number again, and what was read is printed as the text of its number, whichever
literal it was read from. -/
theorem integer_exact (space : IntegerSpace) (kind : IntegerKind)
    (namespaceOf : String → Option String) :
    (∀ lexical s, read ⟨.integer space, .integer kind⟩ namespaceOf lexical = .ok s ↔
      ∃ n : Int, DenotesInteger (trim lexical.toList) n ∧ space.bounds.Holds n ∧
        ∃ h : kind.bounds.Holds n, s = .integer ⟨kind, n, h⟩) ∧
    (∀ v printed, print ⟨.integer space, .integer kind⟩ v = .ok printed ↔
      ∃ m : NativeInteger, v = .scalar (.integer m) ∧ space.bounds.Holds m.number ∧
        kind.bounds.Holds m.number ∧
          ∃ text, printed = .text text ∧ IsCanonicalInteger text.toList m.number) ∧
    (∀ m text, print ⟨.integer space, .integer kind⟩ (.scalar (.integer m)) = .ok (.text text) →
      ∃ h : kind.bounds.Holds m.number,
        read ⟨.integer space, .integer kind⟩ namespaceOf text =
          .ok (.integer ⟨kind, m.number, h⟩)) ∧
    (∀ lexical n s, DenotesInteger (trim lexical.toList) n →
      read ⟨.integer space, .integer kind⟩ namespaceOf lexical = .ok s →
      print ⟨.integer space, .integer kind⟩ (.scalar s) = .ok (.text (intText n))) := by
  refine ⟨fun lexical s ↦ readInteger_eq_ok_iff, fun v printed ↦ ?_, fun m text hprint ↦ ?_,
    fun lexical n s hdenotes hread ↦ ?_⟩
  · have htext (text : String) (n : Int) :
        text = intText n ↔ IsCanonicalInteger text.toList n := by
      rw [isCanonicalInteger_iff, intText, String.ext_iff, String.toList_ofList]
    simp only [print_integer_eq_ok_iff, ← htext, exists_eq_right]
  · obtain ⟨m', hm, hspace, hkind, htext⟩ := print_integer_eq_ok_iff.mp hprint
    cases hm
    cases htext
    refine ⟨hkind, readInteger_eq_ok_iff.mpr ⟨m.number, ?_, hspace, hkind, rfl⟩⟩
    have hdenotes : DenotesInteger (writeInt m.number) m.number := denotesInteger_writeInt _
    rw [intText, String.toList_ofList, hdenotes.trim_eq]
    exact hdenotes
  · obtain ⟨n', hdenotes', hspace, hkind, rfl⟩ := readInteger_eq_ok_iff.mp hread
    obtain rfl := hdenotes.unique hdenotes'
    exact print_integer_eq_ok_iff.mpr ⟨_, rfl, hspace, hkind, rfl⟩

/-- A number with a sign, zeros and blanks is printed without them, and the first number beyond a
byte is not read. -/
theorem integer_exact_padded :
    let c : Codec := ⟨.integer .unsignedByte, .integer .i16⟩
    DenotesInteger (trim " +0200\n".toList) 200 ∧
      c.read (fun _ ↦ none) " +0200\n" = .ok (.integer ⟨.i16, 200, by decide⟩) ∧
      c.print (.scalar (.integer ⟨.i16, 200, by decide⟩)) = .ok (.text "200") ∧
      c.read (fun _ ↦ none) "200" = .ok (.integer ⟨.i16, 200, by decide⟩) ∧
      ∀ s, c.read (fun _ ↦ none) "256" ≠ .ok s := by
  obtain ⟨hread, -, hreread, hprint⟩ := integer_exact .unsignedByte .i16 fun _ ↦ none
  have hdenotes : DenotesInteger (trim " +0200\n".toList) 200 :=
    ⟨['+'], false, ['0', '2', '0', '0'], .plus, by decide, by decide, by decide⟩
  have hpadded := (hread " +0200\n" _).mpr ⟨200, hdenotes, by decide, by decide, rfl⟩
  have hprinted := hprint " +0200\n" 200 _ hdenotes hpadded
  refine ⟨hdenotes, hpadded, hprinted, (hreread _ _ hprinted).2, fun s hs ↦ ?_⟩
  obtain ⟨n, hn, hspace, -, -⟩ := (hread "256" s).mp hs
  have h256 : DenotesInteger (trim "256".toList) 256 :=
    ⟨[], false, ['2', '5', '6'], .missing, by decide, by decide, by decide⟩
  rw [hn.unique h256] at hspace
  exact absurd hspace (by decide)

end Codec

end XmlBinding

import Mathlib.Algebra.Group.Nat.Defs
import Mathlib.Data.List.Induction
import XmlBinding.Number.Numeral
import XmlBinding.Text.Blank

/-!
# Rows of digits

Zeros in front of a row of digits do not change the number, and zeros behind it multiply it by ten.
A row of digits is less than the power of ten of its length, and a number below such a power fits
in so many digits. A numeral without a zero in front of other digits is what is written for its
number (`write_read`).
-/

namespace XmlBinding.Number

open Text

/-- Zeros in front of a numeral count for nothing. -/
theorem read_zeros_append (k : Nat) (cs : List Char) :
    read (List.replicate k '0' ++ cs) = read cs := by
  rw [read, Nat.ofDigitChars_append, Nat.ofDigitChars_replicate_zero, Nat.mul_zero, read]

/-- Zeros behind a numeral each multiply it by ten. -/
theorem read_append_zeros (cs : List Char) (k : Nat) :
    read (cs ++ List.replicate k '0') = read cs * 10 ^ k := by
  rw [read, Nat.ofDigitChars_append, Nat.ofDigitChars_replicate_zero, Nat.mul_comm, read]

/-- A row of digits is less than the power of ten of its length. -/
theorem read_lt {cs : List Char} (h : ∀ c ∈ cs, c.isDigit) : read cs < 10 ^ cs.length := by
  induction cs with
  | nil => decide
  | cons c cs ih =>
    rw [List.forall_mem_cons] at h
    have hdigit : c.toNat - '0'.toNat < 10 := by
      have hrange := Char.isDigit_iff_toNat.mp h.1
      have hzero : '0'.toNat = 48 := rfl
      have hnine : '9'.toNat = 57 := rfl
      omega
    have hrest : read cs < 10 ^ cs.length := ih h.2
    have hcons : read (c :: cs) = 10 ^ cs.length * (c.toNat - '0'.toNat) + read cs := by
      rw [read, Nat.ofDigitChars_cons, Nat.ofDigitChars_eq_ofDigitChars_zero, Nat.mul_zero,
        Nat.zero_add, read]
    calc read (c :: cs) = 10 ^ cs.length * (c.toNat - '0'.toNat) + read cs := hcons
      _ < 10 ^ cs.length * (c.toNat - '0'.toNat) + 10 ^ cs.length := by omega
      _ = 10 ^ cs.length * (c.toNat - '0'.toNat + 1) := (Nat.mul_succ ..).symm
      _ ≤ 10 ^ cs.length * 10 := Nat.mul_le_mul_left _ hdigit
      _ = 10 ^ (c :: cs).length := (Nat.pow_succ ..).symm

/-- A numeral is one or more digits. -/
theorem isNumeral_iff {cs : List Char} : isNumeral cs ↔ cs ≠ [] ∧ ∀ c ∈ cs, c.isDigit := by
  simp only [isNumeral, Bool.and_eq_true, Bool.not_eq_true', List.isEmpty_eq_false_iff,
    List.all_eq_true, ne_eq]

/-- Every number has a digit. -/
theorem write_ne_nil (n : Nat) : write n ≠ [] := Nat.toDigits_ne_nil

/-- Every character of a numeral is a digit. -/
theorem isDigit_of_isNumeral {cs : List Char} (h : isNumeral cs) : ∀ c ∈ cs, c.isDigit :=
  (isNumeral_iff.mp h).2

/-- There is nothing but digits in a numeral. -/
theorem not_mem_of_isNumeral {c : Char} {cs : List Char} (h : isNumeral cs)
    (hc : c.isDigit = false) : c ∉ cs := by
  intro hmem
  simp [isDigit_of_isNumeral h c hmem] at hc

private theorem digitChar_ne_zero : ∀ d < 10, d ≠ 0 → Nat.digitChar d ≠ '0' := by decide

/-- A number other than zero is written without a zero in front. -/
theorem head?_write_ne {n : Nat} (h : n ≠ 0) : (write n).head? ≠ some '0' := by
  induction n using Nat.strongRecOn with
  | ind n ih =>
    rw [write, Nat.toDigits_eq_if (by decide)]
    split
    · next hlt => simpa using digitChar_ne_zero n hlt h
    · next hle =>
      have hne : Nat.toDigits 10 (n / 10) ≠ [] := Nat.toDigits_ne_nil
      rw [List.head?_append, List.head?_eq_some_head hne, Option.some_or,
        ← List.head?_eq_some_head hne]
      exact ih (n / 10) (by omega) (by omega)

/-- A number that is no multiple of ten is written without a zero at the end. -/
theorem getLast?_write_ne {n : Nat} (h : n % 10 ≠ 0) : (write n).getLast? ≠ some '0' := by
  rw [write, Nat.toDigits_eq_if (by decide)]
  split
  · next hlt => simpa using digitChar_ne_zero n hlt (by omega)
  · simpa using digitChar_ne_zero (n % 10) (by omega) h

private theorem digitChar_of_isDigit {c : Char} (h : c.isDigit) :
    Nat.digitChar (c.toNat - '0'.toNat) = c := by
  have hall : ∀ k < 10, Nat.digitChar k = Char.ofNat ('0'.toNat + k) := by decide
  have hrange := Char.isDigit_iff_toNat.mp h
  have hzero : '0'.toNat = 48 := rfl
  have hnine : '9'.toNat = 57 := rfl
  rw [hall _ (by omega), Nat.add_sub_cancel' (by omega), Char.ofNat_toNat]

/-- Without a zero in front of other digits, a numeral is what is written for its number. -/
theorem write_read {cs : List Char} (h : isNumeral cs) (hzero : cs.head? = some '0' → cs = ['0']) :
    write (read cs) = cs := by
  induction cs using List.reverseRecOn with
  | nil => cases h
  | append_singleton ds c ih =>
    have hdigits := isDigit_of_isNumeral h
    have hc : c.isDigit := hdigits c (by simp)
    have hlt : c.toNat - '0'.toNat < 10 := by
      have hone : read [c] < 10 ^ [c].length := read_lt (by simpa using hc)
      simpa [read, Nat.ofDigitChars] using hone
    have hlast : write (c.toNat - '0'.toNat) = [c] := by
      rw [write, Nat.toDigits_of_lt_base hlt, digitChar_of_isDigit hc]
    have hread : read (ds ++ [c]) = 10 * read ds + (c.toNat - '0'.toNat) := by
      rw [read, Nat.ofDigitChars_append, Nat.ofDigitChars_cons, Nat.ofDigitChars_nil, read]
    rw [hread]
    cases ds with
    | nil => simpa [read] using hlast
    | cons d ds =>
      have hhead : d ≠ '0' := by
        rintro rfl
        simpa using hzero rfl
      have hnumeral : isNumeral (d :: ds) :=
        isNumeral_iff.mpr
          ⟨List.cons_ne_nil d ds, fun e he ↦ hdigits e (List.mem_append_left _ he)⟩
      have hfront : write (read (d :: ds)) = d :: ds :=
        ih hnumeral fun he ↦ absurd (Option.some.inj he) hhead
      have hpos : 0 < read (d :: ds) := by
        refine Nat.pos_of_ne_zero fun hz ↦ hhead ?_
        rw [hz] at hfront
        exact (List.cons.inj hfront).1.symm
      rw [write, ← Nat.toDigits_append_toDigits (by decide) hpos hlt]
      exact congrArg₂ (· ++ ·) hfront hlast

/-! ### Signs -/

/-- A number is put together from its sign and its size. -/
theorem applySign_natAbs (n : Int) : applySign (decide (n < 0)) n.natAbs = n := by
  unfold applySign
  by_cases h : n < 0
  · rw [decide_eq_true h, if_pos rfl]
    omega
  · rw [decide_eq_false h, if_neg Bool.false_ne_true]
    omega

/-- A sign in front of a number, which may be missing, and whether it is a minus. -/
inductive IsSign : List Char → Bool → Prop
  | missing : IsSign [] false
  | plus : IsSign ['+'] false
  | minus : IsSign ['-'] true

/-- Neither a digit nor a point is a sign. -/
theorem ne_sign {c : Char} (h : c.isDigit ∨ c = '.') : c ≠ '-' ∧ c ≠ '+' := by
  constructor
  · rintro rfl
    exact absurd h (by decide)
  · rintro rfl
    exact absurd h (by decide)

/-- What is taken off the front is a sign. -/
theorem isSign_splitSign (cs : List Char) :
    ∃ sign, IsSign sign (splitSign cs).1 ∧ cs = sign ++ (splitSign cs).2 := by
  unfold splitSign
  split
  · exact ⟨['-'], .minus, rfl⟩
  · exact ⟨['+'], .plus, rfl⟩
  · exact ⟨[], .missing, rfl⟩

/-- A sign is taken off what begins with none. -/
theorem splitSign_append {sign body : List Char} {negative : Bool} (h : IsSign sign negative)
    (hbody : ∀ c ∈ body.head?, c ≠ '-' ∧ c ≠ '+') :
    splitSign (sign ++ body) = (negative, body) := by
  cases h with
  | missing =>
    cases body with
    | nil => rfl
    | cons c cs =>
      obtain ⟨hminus, hplus⟩ := hbody c rfl
      rw [List.nil_append]
      unfold splitSign
      split
      · next he => exact absurd (List.cons.inj he).1 hminus
      · next he => exact absurd (List.cons.inj he).1 hplus
      · rfl
  | plus => rfl
  | minus => rfl

/-! ### Blanks -/

/-- No digit is a blank. -/
theorem isBlank_of_isDigit {c : Char} (h : c.isDigit) : isBlank c = false := by
  have hrange := Char.isDigit_iff_toNat.mp h
  have hzero : '0'.toNat = 48 := rfl
  have hnine : '9'.toNat = 57 := rfl
  have hlow : ¬ c.toNat ≤ 0x20 := by omega
  simp only [isBlank, Bool.or_eq_false_iff, Bool.and_eq_false_iff, decide_eq_false_iff_not,
    beq_eq_false_iff_ne]
  omega

/-- No blanks are cut from a text of digits and of separators that are not blank. -/
theorem trim_of_separators (separators : List Char) {cs : List Char}
    (h : ∀ c, c.isDigit = false → c ∉ separators → c ∉ cs)
    (hseparators : ∀ c ∈ separators, isBlank c = false) : trim cs = cs := by
  refine trim_eq_self fun c hc ↦ Bool.eq_false_iff.mpr fun hblank ↦ ?_
  have hdigit : c.isDigit = false :=
    Bool.eq_false_iff.mpr fun hd ↦ by simp [isBlank_of_isDigit hd] at hblank
  refine h c hdigit (fun hmem ↦ ?_) hc
  simp [hseparators c hmem] at hblank

/-! ### Padding -/

/-- Zeros in front do not change a number. -/
theorem read_writePadded (width n : Nat) : read (writePadded width n) = n := by
  rw [writePadded, read_zeros_append, read_write]

/-- Zeros and the digits of a number are digits. -/
theorem isDigit_of_mem_zeros_append {k n : Nat} {c : Char}
    (h : c ∈ List.replicate k '0' ++ write n) : c.isDigit := by
  obtain h | h := List.mem_append.mp h
  · rw [List.eq_of_mem_replicate h]
    rfl
  · exact isDigit_of_isNumeral (isNumeral_write n) c h

/-- A padded number is written in digits. -/
theorem isDigit_of_mem_writePadded {width n : Nat} {c : Char} (h : c ∈ writePadded width n) :
    c.isDigit :=
  isDigit_of_mem_zeros_append h

/-- A padded number is a numeral. -/
theorem isNumeral_writePadded (width n : Nat) : isNumeral (writePadded width n) := by
  have hne : writePadded width n ≠ [] := by simp [writePadded, write_ne_nil]
  exact isNumeral_iff.mpr ⟨hne, fun c ↦ isDigit_of_mem_writePadded⟩

/-- A padded number has the width at least. -/
theorem le_length_writePadded (width n : Nat) : width ≤ (writePadded width n).length := by
  simp only [writePadded, List.length_append, List.length_replicate]
  omega

/-- A number that fits in the width takes no more than the width. -/
theorem length_writePadded {width n : Nat} (hwidth : 0 < width) (h : n < 10 ^ width) :
    (writePadded width n).length = width := by
  have hlength : (write n).length ≤ width := (Nat.length_toDigits_le_iff (by decide) hwidth).mpr h
  simp only [writePadded, List.length_append, List.length_replicate]
  omega

end XmlBinding.Number

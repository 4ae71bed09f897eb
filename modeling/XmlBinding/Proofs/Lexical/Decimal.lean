import XmlBinding.Lexical.Codec
import XmlBinding.Proofs.Number.Decimal

/-!
# Decimal numbers as texts

A decimal number is read from digits with a point anywhere among them, before them or behind them,
and printed without an exponent, with no zero that could be left out. A number has one such text
(`Codec.decimal_exact`).
-/

namespace XmlBinding

namespace Number

open Text

/-! ### Literals -/

/-- A text with at most one point, with the parts before and behind the point; without a point, the
part behind it is empty. -/
inductive IsPointed : List Char → List Char → List Char → Prop
  | missing (whole : List Char) : IsPointed whole whole []
  | present (whole fraction : List Char) : IsPointed (whole ++ '.' :: fraction) whole fraction

/-- The text is an optional sign and one or more digits with at most one point among them. The form
counts all digits in units of the last one. -/
def DenotesDecimal (cs : List Char) (d : Decimal) : Prop :=
  ∃ sign negative body whole fraction, IsSign sign negative ∧ IsPointed body whole fraction ∧
    isNumeral (whole ++ fraction) ∧ cs = sign ++ body ∧
    d = ⟨applySign negative (read (whole ++ fraction)), fraction.length⟩

/-- The digits of a number before and behind the point, and the text that they make: no zero in
front of others, no zero at the end behind the point, and a point only if there are digits behind
it. -/
structure IsPlain (body whole fraction : List Char) : Prop where
  body_eq : body = if fraction = [] then whole else whole ++ '.' :: fraction
  isNumeral_whole : isNumeral whole
  whole_eq : whole.head? = some '0' → whole = ['0']
  isDigit_fraction : ∀ c ∈ fraction, c.isDigit
  getLast?_fraction : fraction.getLast? ≠ some '0'

/-- The canonical text of a number: the plain text of its size, behind a minus if it is negative and
behind nothing else. -/
def IsCanonicalDecimal (cs : List Char) (x : ℚ) : Prop :=
  ∃ body whole fraction, IsPlain body whole fraction ∧
    (read (whole ++ fraction) : ℚ) / 10 ^ fraction.length = |x| ∧
    cs = if x < 0 then '-' :: body else body

variable {cs body whole fraction : List Char} {d : Decimal}

/-- A pointed text has digits and the point. -/
theorem IsPointed.mem (h : IsPointed body whole fraction)
    (hdigits : isNumeral (whole ++ fraction)) : ∀ c ∈ body, c.isDigit ∨ c = '.' := by
  have hall := isDigit_of_isNumeral hdigits
  intro c hc
  cases h with
  | missing => exact .inl (hall c (List.mem_append_left _ hc))
  | present =>
    obtain hc | hc := List.mem_append.mp hc
    · exact .inl (hall c (List.mem_append_left _ hc))
    · obtain rfl | hc := List.mem_cons.mp hc
      · exact .inr rfl
      · exact .inl (hall c (List.mem_append_right _ hc))

private theorem IsPointed.not_sign (h : IsPointed body whole fraction)
    (hdigits : isNumeral (whole ++ fraction)) : ∀ c ∈ body.head?, c ≠ '-' ∧ c ≠ '+' :=
  fun c hc ↦ ne_sign (h.mem hdigits c (List.mem_of_head? hc))

private theorem IsPointed.splitPoint (h : IsPointed body whole fraction)
    (hdigits : isNumeral (whole ++ fraction)) : Decimal.splitPoint body = (whole, fraction) := by
  have hpoint : '.' ∉ whole ++ fraction := not_mem_of_isNumeral hdigits (by decide)
  rw [List.mem_append, not_or] at hpoint
  unfold Decimal.splitPoint
  cases h with
  | missing => rw [splitFirst_eq_none_iff.mpr hpoint.1, Option.getD_none]
  | present => rw [splitFirst_eq_some_iff.mpr ⟨hpoint.1, rfl⟩, Option.getD_some]

private theorem isPointed_splitPoint (cs : List Char) :
    IsPointed cs (Decimal.splitPoint cs).1 (Decimal.splitPoint cs).2 := by
  unfold Decimal.splitPoint
  cases h : splitFirst '.' cs with
  | none => exact .missing cs
  | some parts =>
    obtain ⟨-, rfl⟩ := splitFirst_eq_some_iff.mp h
    exact .present ..

/-- A literal is read as the form that it denotes, and nothing else is read. -/
theorem denotesDecimal_iff : DenotesDecimal cs d ↔ Decimal.read? cs = some d := by
  constructor
  · rintro ⟨sign, negative, body, whole, fraction, hsign, hpoint, hdigits, rfl, rfl⟩
    simp only [Decimal.read?, splitSign_append hsign (hpoint.not_sign hdigits),
      hpoint.splitPoint hdigits, hdigits, if_true]
  · intro h
    obtain ⟨sign, hsign, htext⟩ := isSign_splitSign cs
    simp only [Decimal.read?, Option.ite_none_right_eq_some, Option.some.injEq] at h
    obtain ⟨hdigits, rfl⟩ := h
    exact ⟨sign, _, _, _, _, hsign, isPointed_splitPoint _, hdigits, htext, rfl⟩

private theorem DenotesDecimal.trim_eq (h : DenotesDecimal cs d) : trim cs = cs := by
  obtain ⟨sign, negative, body, whole, fraction, hsign, hpoint, hdigits, rfl, -⟩ := h
  refine trim_of_separators ['-', '+', '.'] (fun c hc hne ↦ ?_) (by simp [isBlank])
  simp only [List.mem_cons, List.not_mem_nil, or_false, not_or] at hne
  have hbody : c ∉ body := fun hmem ↦ by
    simpa [hc, hne] using hpoint.mem hdigits c hmem
  cases hsign <;> simp [hbody, hne]

/-! ### Plain texts -/

private theorem IsPlain.isPointed (h : IsPlain body whole fraction) :
    IsPointed body whole fraction := by
  obtain rfl := h.body_eq
  split
  · next hnil =>
    subst hnil
    exact .missing whole
  · exact .present whole fraction

private theorem IsPlain.isNumeral (h : IsPlain body whole fraction) :
    isNumeral (whole ++ fraction) := by
  obtain ⟨hne, hwhole⟩ := isNumeral_iff.mp h.isNumeral_whole
  refine isNumeral_iff.mpr ⟨List.append_ne_nil_of_left_ne_nil hne _, fun c hc ↦ ?_⟩
  exact (List.mem_append.mp hc).elim (hwhole c) (h.isDigit_fraction c)

/-- The canonical text of a number is a literal of it. -/
theorem IsCanonicalDecimal.denotes {x : ℚ} (h : IsCanonicalDecimal cs x) :
    ∃ d, DenotesDecimal cs d ∧ d.value = x := by
  obtain ⟨body, whole, fraction, hplain, hsize, rfl⟩ := h
  have hvalue (negative : Bool) :
      Decimal.value ⟨applySign negative (read (whole ++ fraction)), fraction.length⟩ =
        if negative then -|x| else |x| := by
    rw [Decimal.value_applySign, Decimal.value_natCast_scale, Int.cast_natCast, hsize]
  split
  · next hneg =>
    refine ⟨_, ⟨['-'], true, body, whole, fraction, .minus, hplain.isPointed, hplain.isNumeral,
      rfl, rfl⟩, ?_⟩
    rw [hvalue, if_pos rfl, abs_of_neg hneg, neg_neg]
  · next hnonneg =>
    refine ⟨_, ⟨[], false, body, whole, fraction, .missing, hplain.isPointed, hplain.isNumeral,
      rfl, rfl⟩, ?_⟩
    rw [hvalue, if_neg Bool.false_ne_true, abs_of_nonneg (not_lt.mp hnonneg)]

/-! ### Layouts -/

/-- The digits of a number with zeros behind them are plain; zero itself may have no others. -/
private theorem isPlain_append_zeros {n k : Nat} (h : n ≠ 0 ∨ k = 0) :
    IsPlain (write n ++ List.replicate k '0') (write n ++ List.replicate k '0') [] where
  body_eq := rfl
  isNumeral_whole := by
    refine isNumeral_iff.mpr ⟨List.append_ne_nil_of_left_ne_nil (write_ne_nil n) _, ?_⟩
    intro c hc
    obtain hc | hc := List.mem_append.mp hc
    · exact isDigit_of_isNumeral (isNumeral_write n) c hc
    · rw [List.eq_of_mem_replicate hc]
      rfl
  whole_eq := by
    intro hhead
    rw [List.head?_append_of_ne_nil _ (write_ne_nil n)] at hhead
    have hzero : n = 0 := by_contra fun hne ↦ head?_write_ne hne hhead
    obtain rfl : k = 0 := h.resolve_left (not_not_intro hzero)
    rw [hzero]
    rfl
  isDigit_fraction := by simp
  getLast?_fraction := by simp

/-- The digits of a number that is no multiple of ten are plain with a point among them. -/
private theorem isPlain_point {n i : Nat} (h : n % 10 ≠ 0) (hi : 0 < i) (hlt : i < (write n).length)
    :
    IsPlain ((write n).take i ++ '.' :: (write n).drop i) ((write n).take i)
      ((write n).drop i) where
  body_eq := by
    rw [if_neg]
    rw [List.drop_eq_nil_iff]
    omega
  isNumeral_whole := by
    refine isNumeral_iff.mpr ⟨?_, fun c hc ↦ ?_⟩
    · rw [Ne, List.take_eq_nil_iff, not_or]
      exact ⟨by omega, write_ne_nil n⟩
    · exact isDigit_of_isNumeral (isNumeral_write n) c (List.mem_of_mem_take hc)
  whole_eq := by
    rw [List.head?_take, if_neg (by omega)]
    exact fun hhead ↦ absurd hhead (head?_write_ne (by omega))
  isDigit_fraction := fun c hc ↦
    isDigit_of_isNumeral (isNumeral_write n) c (List.mem_of_mem_drop hc)
  getLast?_fraction := by
    rw [List.getLast?_drop, if_neg (by omega)]
    exact getLast?_write_ne h

/-- So they are behind a point, with any zeros between, and a zero in front of the point. -/
private theorem isPlain_point_zeros {n : Nat} (h : n % 10 ≠ 0) (i : Nat) :
    IsPlain ('0' :: '.' :: (List.replicate i '0' ++ write n)) ['0']
      (List.replicate i '0' ++ write n) where
  body_eq := by
    rw [if_neg (List.append_ne_nil_of_right_ne_nil _ (isNumeral_iff.mp (isNumeral_write n)).1)]
    rfl
  isNumeral_whole := rfl
  whole_eq := fun _ ↦ rfl
  isDigit_fraction := fun _ hc ↦ isDigit_of_mem_zeros_append hc
  getLast?_fraction := by
    rw [List.getLast?_append_of_ne_nil _ (write_ne_nil n)]
    exact getLast?_write_ne h

/-- Wherever the point is placed among the digits or before them, the text is plain, and has the
digits and the places that it was made for. -/
private theorem isPlain_placePoint {n k : Nat} (h : n % 10 ≠ 0) (hk : 0 < k) :
    ∃ whole fraction, IsPlain (Decimal.placePoint (write n) k) whole fraction ∧
      read (whole ++ fraction) = n ∧ fraction.length = k := by
  unfold Decimal.placePoint
  split
  · next hlt =>
    refine ⟨_, _, isPlain_point h (by omega) (by omega), ?_, ?_⟩
    · rw [List.take_append_drop, read_write]
    · rw [List.length_drop]
      omega
  · next hle =>
    refine ⟨_, _, isPlain_point_zeros h (k - (write n).length), ?_, ?_⟩
    · have hzeros (i : Nat) : ['0'] ++ (List.replicate i '0' ++ write n) =
          List.replicate (i + 1) '0' ++ write n := rfl
      rw [hzeros, read_zeros_append, read_write]
    · rw [List.length_append, List.length_replicate]
      omega

/-- The digits of a normal form with their point, without the sign. -/
def plainBody (n : Decimal) : List Char :=
  if n.scale ≤ 0 then write n.unscaled.natAbs ++ List.replicate n.scale.natAbs '0'
  else Decimal.placePoint (write n.unscaled.natAbs) n.scale.natAbs

private theorem Decimal.write_eq (d : Decimal) :
    d.write =
      if d.normalize.unscaled < 0 then '-' :: plainBody d.normalize else plainBody d.normalize :=
  rfl

/-- Whatever its scale, a reduced form is written plainly, and its digits count its size. -/
private theorem isPlain_plainBody {n : Decimal} (h : n.IsReduced) :
    ∃ whole fraction, IsPlain (plainBody n) whole fraction ∧
      (read (whole ++ fraction) : ℚ) / 10 ^ fraction.length = |n.value| := by
  rw [Decimal.abs_value]
  unfold plainBody
  split
  · next hscale =>
    obtain ⟨k, hk⟩ : ∃ k : Nat, n.scale = -k := ⟨n.scale.natAbs, by omega⟩
    have hzero : n.unscaled.natAbs ≠ 0 ∨ k = 0 := by
      obtain hmod | rfl := h
      · exact .inl (by omega)
      · exact .inr (by simpa using hk.symm)
    rw [hk, Int.natAbs_neg, Int.natAbs_natCast]
    refine ⟨_, _, isPlain_append_zeros hzero, ?_⟩
    rw [List.append_nil, read_append_zeros, read_write, List.length_nil,
      Decimal.value_neg_natCast_scale, pow_zero, div_one, Int.cast_natCast, Nat.cast_mul,
      Nat.cast_pow, Nat.cast_ofNat]
  · next hscale =>
    have hmod : n.unscaled.natAbs % 10 ≠ 0 := by
      obtain hmod | rfl := h
      · omega
      · exact absurd le_rfl hscale
    obtain ⟨whole, fraction, hplain, hread, hlength⟩ :=
      isPlain_placePoint (k := n.scale.natAbs) hmod (by omega)
    refine ⟨whole, fraction, hplain, ?_⟩
    have hk : n.scale = n.scale.natAbs := by omega
    rw [hread, hlength, hk, Decimal.value_natCast_scale]
    rfl

/-- What is written for a number is its canonical text. -/
theorem isCanonicalDecimal_write (d : Decimal) : IsCanonicalDecimal d.write d.value := by
  obtain ⟨whole, fraction, hplain, hsize⟩ := isPlain_plainBody d.isReduced_normalize
  rw [← d.value_normalize]
  refine ⟨plainBody d.normalize, whole, fraction, hplain, hsize, ?_⟩
  simp only [Decimal.value_neg_iff, Decimal.write_eq]

/-- Numbers are written alike just if they are the same. -/
theorem Decimal.write_eq_write_iff {a b : Decimal} : a.write = b.write ↔ a.value = b.value := by
  constructor
  · intro h
    obtain ⟨d, hd, hda⟩ := (isCanonicalDecimal_write a).denotes
    obtain ⟨e, he, heb⟩ := (isCanonicalDecimal_write b).denotes
    rw [denotesDecimal_iff] at hd he
    rw [h, he] at hd
    rw [← hda, ← heb, Option.some.inj hd]
  · intro h
    have hnormal : a.normalize = b.normalize := Decimal.equiv_iff.mpr h
    rw [Decimal.write_eq, Decimal.write_eq, hnormal]

end Number

open Number Text

/-! ### Codecs -/

namespace Codec

private theorem readDecimal_eq_ok_iff {lexical : String} {s : Scalar} :
    readDecimal lexical = .ok s ↔
      ∃ d, DenotesDecimal (trim lexical.toList) d ∧ s = .decimal d := by
  unfold readDecimal
  simp only [denotesDecimal_iff]
  cases Decimal.read? (trim lexical.toList) with
  | none => simp
  | some d => simp [eq_comm]

/-- What was written for a number is read as a form of it. -/
theorem readDecimal_write (d : Decimal) :
    ∃ e, readDecimal (String.ofList d.write) = .ok (.decimal e) ∧ e.value = d.value := by
  obtain ⟨e, he, hvalue⟩ := (isCanonicalDecimal_write d).denotes
  refine ⟨e, readDecimal_eq_ok_iff.mpr ⟨e, ?_, rfl⟩, hvalue⟩
  rw [String.toList_ofList, he.trim_eq]
  exact he

/-- Exactly the literals of decimal numbers are read, an optional sign and digits with at most one
point among them, each as the form that its digits spell. Every decimal number, whatever its digits
and its scale, is printed as its canonical text, which is read as the same number. Two numbers are
printed alike just if they are the same number. -/
theorem decimal_exact (type : ScalarType) (namespaceOf : String → Option String) :
    (∀ lexical s, read ⟨.decimal, type⟩ namespaceOf lexical = .ok s ↔
      ∃ d, DenotesDecimal (trim lexical.toList) d ∧ s = .decimal d) ∧
    (∀ d : Decimal,
      print ⟨.decimal, type⟩ (.scalar (.decimal d)) = .ok (.text (String.ofList d.write)) ∧
      IsCanonicalDecimal d.write d.value ∧
      ∃ e, read ⟨.decimal, type⟩ namespaceOf (String.ofList d.write) = .ok (.decimal e) ∧
        e.value = d.value ∧ e.Equiv d) ∧
    ∀ a b : Decimal, a.write = b.write ↔ a.value = b.value := by
  refine ⟨fun lexical s ↦ readDecimal_eq_ok_iff, fun d ↦ ⟨rfl, isCanonicalDecimal_write d, ?_⟩,
    fun a b ↦ Decimal.write_eq_write_iff⟩
  obtain ⟨e, hread, hvalue⟩ := readDecimal_write d
  exact ⟨e, hread, hvalue, Decimal.equiv_iff.mpr hvalue⟩

/-- Zeros behind the digits, a point among them, and zeros in front of them. -/
example : [Decimal.write ⟨1200, 0⟩, Decimal.write ⟨150, 2⟩, Decimal.write ⟨-42, 4⟩] =
    ["1200".toList, "1.5".toList, "-0.0042".toList] := by
  decide +kernel

end Codec

end XmlBinding

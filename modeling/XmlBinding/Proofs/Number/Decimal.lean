import Mathlib.Algebra.Order.Field.Basic
import Mathlib.Algebra.Order.Field.Rat
import Mathlib.Tactic.FieldSimp
import Mathlib.Tactic.NormNum
import XmlBinding.Number.Decimal
import XmlBinding.Proofs.Number.Numeral

/-!
# Forms of a decimal number

A form counts a number in units of a power of ten, so a number has one form for every unit that is
small enough. Taking zeros from the end of the digits keeps the number (`value_normalize`) and ends
at the form with the largest unit (`IsReduced.scale_le`). A number has one such form, so two forms
have the same normal form just if they stand for the same number (`equiv_iff`).
-/

namespace XmlBinding.Number.Decimal

/-- The number that a form stands for. -/
def value (d : Decimal) : ℚ := d.unscaled * (10 : ℚ) ^ (-d.scale)

/-- The digits end in no zero; the form of zero has scale zero. -/
def IsReduced (d : Decimal) : Prop := d.unscaled % 10 ≠ 0 ∨ d = ⟨0, 0⟩

variable {a b : Decimal}

private theorem pow_ten_pos (k : Int) : (0 : ℚ) < 10 ^ k := zpow_pos (by norm_num) k

/-- A form has the sign of its digits. -/
theorem value_neg_iff : a.value < 0 ↔ a.unscaled < 0 := by
  rw [value, ← not_le, mul_nonneg_iff_of_pos_right (pow_ten_pos _), Int.cast_nonneg_iff, not_le]

/-- The size of a number is counted in the same units. -/
theorem abs_value (d : Decimal) : |d.value| = value ⟨d.unscaled.natAbs, d.scale⟩ := by
  rw [value, value, abs_mul, abs_of_pos (pow_ten_pos _), Int.natCast_natAbs, Int.cast_abs]

/-- The sign of the digits is the sign of the number. -/
theorem value_applySign (negative : Bool) (n : Nat) (scale : Int) :
    value ⟨applySign negative n, scale⟩ =
      if negative then -value ⟨n, scale⟩ else value ⟨n, scale⟩ := by
  cases negative with
  | false => rfl
  | true => simp [applySign, value]

/-- In one unit, different digits count different numbers. -/
theorem value_inj {m n scale : Int} : value ⟨m, scale⟩ = value ⟨n, scale⟩ ↔ m = n := by
  rw [value, value, mul_left_inj' (pow_ten_pos _).ne', Int.cast_inj]

/-- A form with digits behind the point counts the number in fractions. -/
theorem value_natCast_scale (n : Int) (k : Nat) : value ⟨n, k⟩ = n / 10 ^ k := by
  rw [value, zpow_neg, zpow_natCast, div_eq_mul_inv]

/-- A form with zeros between its digits and the point counts the number in powers of ten. -/
theorem value_neg_natCast_scale (n : Int) (k : Nat) : value ⟨n, -k⟩ = n * 10 ^ k := by
  rw [value, neg_neg, zpow_natCast]

/-- In a unit that is `10 ^ k` times smaller the digits are `10 ^ k` times as many. -/
theorem value_rescale (n scale : Int) (k : Nat) :
    value ⟨n * 10 ^ k, scale + k⟩ = value ⟨n, scale⟩ := by
  have hunit : (10 : ℚ) ^ k * 10 ^ (-(scale + k)) = 10 ^ (-scale) := by
    rw [← zpow_natCast, ← zpow_add₀ (by norm_num)]
    congr 1
    omega
  simp only [value, Int.cast_mul, Int.cast_pow, Int.cast_ofNat, mul_assoc, hunit]

/-! ### Normal forms -/

private theorem value_stripZeros (magnitude : Nat) (scale : Int) :
    value ⟨(stripZeros magnitude scale).1, (stripZeros magnitude scale).2⟩ =
      value ⟨magnitude, scale⟩ := by
  fun_induction stripZeros magnitude scale with
  | case1 magnitude scale h ih =>
    rw [ih]
    have hdigits : ((magnitude / 10 : Nat) : Int) * 10 ^ 1 = magnitude := by omega
    have hscale : scale - 1 + (1 : Nat) = scale := by omega
    rw [← value_rescale _ _ 1, hdigits, hscale]
  | case2 => rfl

/-- Unless the number is zero, no zero is left at the end of the digits. -/
private theorem stripZeros_mod_ten {magnitude : Nat} (scale : Int) (h : magnitude ≠ 0) :
    (stripZeros magnitude scale).1 % 10 ≠ 0 := by
  fun_induction stripZeros magnitude scale with
  | case1 magnitude scale hzero ih => exact ih (by omega)
  | case2 magnitude scale hnot => exact fun hzero ↦ hnot ⟨h, hzero⟩

/-- The normal form of a number is a form of it. -/
theorem value_normalize (d : Decimal) : d.normalize.value = d.value := by
  unfold normalize
  split
  · next hzero => simp [value, hzero]
  · have hsigned : d = ⟨applySign (d.unscaled < 0) d.unscaled.natAbs, d.scale⟩ := by
      rw [applySign_natAbs]
    conv_rhs => rw [hsigned]
    rw [value_applySign, value_applySign, value_stripZeros]

/-- A normal form is reduced. -/
theorem isReduced_normalize (d : Decimal) : d.normalize.IsReduced := by
  unfold normalize
  split
  · exact .inr rfl
  · next hzero =>
    refine .inl ?_
    have hmod := stripZeros_mod_ten d.scale (Int.natAbs_ne_zero.mpr hzero)
    simp only [applySign]
    split <;> omega

private theorem IsReduced.eq_zero (ha : a.IsReduced) (hzero : a.value = 0) : a = ⟨0, 0⟩ := by
  obtain hmod | rfl := ha
  · have hdigits : a.unscaled = 0 := by
      simpa [value, (pow_ten_pos a.scale).ne'] using hzero
    omega
  · rfl

/-- A reduced form counts in the largest unit of all forms of the number. -/
theorem IsReduced.scale_le (ha : a.IsReduced) (hne : a.value ≠ 0) (h : a.value = b.value) :
    a.scale ≤ b.scale := by
  obtain hmod | rfl := ha
  · by_contra hlt
    -- Otherwise the digits of `a` are those of `b` with zeros behind them.
    obtain ⟨k, hk⟩ : ∃ k : Nat, a.scale = b.scale + (k + 1 : Nat) :=
      ⟨(a.scale - b.scale - 1).toNat, by omega⟩
    have hsame : value ⟨a.unscaled, a.scale⟩ = value ⟨b.unscaled * 10 ^ (k + 1), a.scale⟩ := by
      rw [hk, value_rescale, ← hk]
      exact h
    have hdigits : a.unscaled = b.unscaled * 10 ^ k * 10 := by
      rw [value_inj.mp hsame, pow_succ, mul_assoc]
    omega
  · exact absurd (by simp [value]) hne

private theorem IsReduced.eq (ha : a.IsReduced) (hb : b.IsReduced) (h : a.value = b.value) :
    a = b := by
  by_cases hzero : a.value = 0
  · rw [ha.eq_zero hzero, hb.eq_zero (h ▸ hzero)]
  · have hscale : a.scale = b.scale :=
      le_antisymm (ha.scale_le hzero h) (hb.scale_le (h ▸ hzero) h.symm)
    have hsame : value ⟨a.unscaled, a.scale⟩ = value ⟨b.unscaled, a.scale⟩ := by
      rw [h, hscale]
    have hdigits : a.unscaled = b.unscaled := value_inj.mp hsame
    cases a
    cases b
    exact congrArg₂ mk hdigits hscale

/-- Two forms have the same normal form just if they stand for the same number. -/
theorem equiv_iff : a.Equiv b ↔ a.value = b.value := by
  constructor
  · intro h
    rw [← value_normalize a, ← value_normalize b, h]
  · intro h
    rw [← value_normalize a, ← value_normalize b] at h
    exact (isReduced_normalize a).eq (isReduced_normalize b) h

end XmlBinding.Number.Decimal

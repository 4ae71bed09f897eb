import XmlBinding.Proofs.Text.Utf8
import XmlBinding.Text.Utf16

/-!
# UTF-16 there and back

What is written as units of sixteen bits is read back, in the byte order that it was written in: the
octets of a unit are grouped into just that unit, and the units of a character are read as just that
character. No character has the number of a surrogate, so none is taken for half of another.
-/

namespace XmlBinding.Text.Utf16

private theorem unitsOf_small {c : Char} (h : c.toNat < 0x10000) : unitsOf c = [c.toNat] := if_pos h

private theorem unitsOf_large {c : Char} (h : ¬ c.toNat < 0x10000) :
    unitsOf c =
      [0xD800 + (c.toNat - 0x10000) / 0x400, 0xDC00 + (c.toNat - 0x10000) % 0x400] := if_neg h

private theorem lt_of_mem_unitsOf {c : Char} {u : Nat} (h : u ∈ unitsOf c) : u < 0x10000 := by
  have hvalid : c.toNat < 0xD800 ∨ 0xDFFF < c.toNat ∧ c.toNat < 0x110000 := c.valid
  by_cases hsmall : c.toNat < 0x10000
  · rw [unitsOf_small hsmall, List.mem_singleton] at h
    omega
  · simp only [unitsOf_large hsmall, List.mem_cons, List.not_mem_nil, or_false] at h
    omega

private theorem units_octetsOf (order : ByteOrder) {u : Nat} (h : u < 0x10000) (rest : List UInt8) :
    units order (octetsOf order u ++ rest) = (units order rest).map (u :: ·) := by
  have hhigh : (u / 256).toUInt8.toNat = u / 256 := Utf8.toNat_toUInt8 (by omega)
  have hlow : (u % 256).toUInt8.toNat = u % 256 := Utf8.toNat_toUInt8 (by omega)
  have hunit : u / 256 * 256 + u % 256 = u := by omega
  cases order <;> simp only [octetsOf, List.cons_append, List.nil_append, units, hhigh, hlow, hunit]

private theorem units_flatMap_octetsOf (order : ByteOrder) {us : List Nat}
    (h : ∀ u ∈ us, u < 0x10000) : units order (us.flatMap (octetsOf order)) = .ok us := by
  induction us with
  | nil => rfl
  | cons u us ih =>
    obtain ⟨hu, hus⟩ := List.forall_mem_cons.mp h
    rw [List.flatMap_cons, units_octetsOf order hu, ih hus]
    rfl

private theorem ofUnits_single {u : Nat} (hleading : isLeading u = false)
    (htrailing : isTrailing u = false)
    (rest : List Nat) : ofUnits (u :: rest) = (ofUnits rest).map (Char.ofNat u :: ·) := by
  rw [ofUnits.eq_def]
  simp [hleading, htrailing]

private theorem ofUnits_pair {u v : Nat} (hleading : isLeading u) (htrailing : isTrailing v)
    (rest : List Nat) :
    ofUnits (u :: v :: rest) = (ofUnits rest).map (Char.ofNat (pairCode u v) :: ·) := by
  rw [ofUnits.eq_def]
  simp [hleading, htrailing]

private theorem ofUnits_unitsOf (c : Char) (rest : List Nat) :
    ofUnits (unitsOf c ++ rest) = (ofUnits rest).map (c :: ·) := by
  have hvalid : c.toNat < 0xD800 ∨ 0xDFFF < c.toNat ∧ c.toNat < 0x110000 := c.valid
  by_cases hsmall : c.toNat < 0x10000
  · -- Surrogates are the gap in the numbers of characters.
    have hleading : isLeading c.toNat = false := by simp [isLeading]; omega
    have htrailing : isTrailing c.toNat = false := by simp [isTrailing]; omega
    rw [unitsOf_small hsmall, List.singleton_append, ofUnits_single hleading htrailing,
      Char.ofNat_toNat]
  · rw [unitsOf_large hsmall, List.cons_append, List.singleton_append,
      ofUnits_pair (by simp [isLeading]; omega) (by simp [isTrailing]; omega)]
    have hcode : pairCode (0xD800 + (c.toNat - 0x10000) / 0x400)
        (0xDC00 + (c.toNat - 0x10000) % 0x400) = c.toNat := by
      unfold pairCode
      omega
    rw [hcode, Char.ofNat_toNat]

private theorem ofUnits_flatMap_unitsOf (cs : List Char) :
    ofUnits (cs.flatMap unitsOf) = .ok cs := by
  induction cs with
  | nil => rfl
  | cons c cs ih =>
    rw [List.flatMap_cons, ofUnits_unitsOf, ih]
    rfl

/-- What is written is read back in the same byte order. -/
theorem decode_encode (order : ByteOrder) (cs : List Char) :
    decode order (encode order cs) = .ok cs := by
  have hunits : ∀ u ∈ cs.flatMap unitsOf, u < 0x10000 := by
    intro u hu
    obtain ⟨c, -, hc⟩ := List.mem_flatMap.mp hu
    exact lt_of_mem_unitsOf hc
  rw [decode, encode, units_flatMap_octetsOf order hunits]
  exact ofUnits_flatMap_unitsOf cs

end XmlBinding.Text.Utf16

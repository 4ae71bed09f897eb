import XmlBinding.Text.Utf8

/-!
# UTF-8 there and back

What is written as octets is read back: the octets of a character are read as just that character,
whatever stands behind them.
-/

namespace XmlBinding.Text.Utf8

private theorem Lead.of_two {n : Nat} (h : 0xC2 ≤ n ∧ n ≤ 0xDF) :
    Lead.of n = .multi 1 0x80 0xBF := by
  rw [Lead.of, if_neg (by omega), if_pos h]

private theorem Lead.of_three {n : Nat} (h : 0xE0 ≤ n ∧ n ≤ 0xEF) :
    Lead.of n = .multi 2 (if n = 0xE0 then 0xA0 else 0x80) (if n = 0xED then 0x9F else 0xBF) := by
  rw [Lead.of, if_neg (by omega), if_neg (by omega)]
  by_cases hlow : n = 0xE0
  · subst hlow; rfl
  by_cases hhigh : n = 0xED
  · subst hhigh; rfl
  rw [if_neg hlow, if_neg hhigh, if_pos (by omega), if_neg hlow, if_neg hhigh]

private theorem Lead.of_four {n : Nat} (h : 0xF0 ≤ n ∧ n ≤ 0xF4) :
    Lead.of n = .multi 3 (if n = 0xF0 then 0x90 else 0x80) (if n = 0xF4 then 0x8F else 0xBF) := by
  rw [Lead.of, if_neg (by omega), if_neg (by omega), if_neg (by omega), if_neg (by omega),
    if_neg (by omega)]
  by_cases hlow : n = 0xF0
  · subst hlow; rfl
  by_cases hhigh : n = 0xF4
  · subst hhigh; rfl
  rw [if_neg hlow, if_neg hhigh, if_pos (by omega), if_neg hlow, if_neg hhigh]

/-- An octet has the number that it is made of. -/
theorem toNat_toUInt8 {n : Nat} (h : n < 256) : n.toUInt8.toNat = n := by
  simp [Nat.mod_eq_of_lt h]

/-- Six bits behind a mark make an octet that may continue a character. -/
private theorem isTail_toUInt8 (n : Nat) : isTail (0x80 + n % 64).toUInt8 ∧
    payload (0x80 + n % 64).toUInt8 = n % 64 := by
  have hnumber := toNat_toUInt8 (n := 0x80 + n % 64) (by omega)
  constructor
  · simp only [isTail, hnumber, Bool.and_eq_true, decide_eq_true_eq]
    omega
  · rw [payload, hnumber]
    omega

section

variable (index : Nat) {low high : Nat} {a b c d : UInt8} (rest : List UInt8)

private theorem decodeFrom_two (ha : Lead.of a.toNat = .multi 1 low high)
    (hb : low ≤ b.toNat ∧ b.toNat ≤ high) :
    decodeFrom index (a :: b :: rest) =
      cons (a.toNat % 32 * 64 + payload b) (decodeFrom (index + 2) rest) := by
  rw [decodeFrom]
  simp only [ha, if_neg (not_not_intro hb), if_true]

private theorem decodeFrom_three (ha : Lead.of a.toNat = .multi 2 low high)
    (hb : low ≤ b.toNat ∧ b.toNat ≤ high) (hc : isTail c) :
    decodeFrom index (a :: b :: c :: rest) =
      cons (a.toNat % 16 * 4096 + payload b * 64 + payload c) (decodeFrom (index + 3) rest) := by
  have hlong : ¬ 2 = 1 := by decide
  rw [decodeFrom]
  simp only [ha, if_neg (not_not_intro hb), if_neg hlong, if_neg (not_not_intro hc), if_true]

private theorem decodeFrom_four (ha : Lead.of a.toNat = .multi 3 low high)
    (hb : low ≤ b.toNat ∧ b.toNat ≤ high) (hc : isTail c) (hd : isTail d) :
    decodeFrom index (a :: b :: c :: d :: rest) =
      cons (a.toNat % 8 * 262144 + payload b * 4096 + payload c * 64 + payload d)
        (decodeFrom (index + 4) rest) := by
  have hlong : ¬ 3 = 1 := by decide
  have hlonger : ¬ 3 = 2 := by decide
  rw [decodeFrom]
  simp only [ha, if_neg (not_not_intro hb), if_neg hlong, if_neg (not_not_intro hc), if_neg hlonger,
    if_neg (not_not_intro hd)]

end

private theorem decodeFrom_encodeChar (index : Nat) (c : Char) (rest : List UInt8) :
    ∃ next, decodeFrom index (encodeChar c ++ rest) = cons c.toNat (decodeFrom next rest) := by
  have hvalid : c.toNat < 0xD800 ∨ 0xDFFF < c.toNat ∧ c.toNat < 0x110000 := c.valid
  unfold encodeChar
  generalize c.toNat = code at hvalid ⊢
  have hb : (0x80 + code % 64).toUInt8.toNat = 0x80 + code % 64 := toNat_toUInt8 (by omega)
  have hb' : (0x80 + code / 64 % 64).toUInt8.toNat = 0x80 + code / 64 % 64 :=
    toNat_toUInt8 (by omega)
  have hb'' : (0x80 + code / 4096 % 64).toUInt8.toNat = 0x80 + code / 4096 % 64 :=
    toNat_toUInt8 (by omega)
  obtain ⟨htail, hpayload⟩ := isTail_toUInt8 code
  obtain ⟨htail', hpayload'⟩ := isTail_toUInt8 (code / 64)
  obtain ⟨-, hpayload''⟩ := isTail_toUInt8 (code / 4096)
  by_cases h1 : code < 0x80
  · have ha : code.toUInt8.toNat = code := toNat_toUInt8 (by omega)
    have hlead : Lead.of code = .single := if_pos h1
    exact ⟨index + 1, by simp only [h1, if_true, List.singleton_append, decodeFrom, ha, hlead]⟩
  by_cases h2 : code < 0x800
  · have ha : (0xC0 + code / 64).toUInt8.toNat = 0xC0 + code / 64 := toNat_toUInt8 (by omega)
    have hread := decodeFrom_two index rest (by rw [ha]; exact Lead.of_two (by omega))
      (by rw [hb]; omega)
    have hcode : (0xC0 + code / 64) % 32 * 64 + code % 64 = code := by omega
    rw [ha, hpayload, hcode] at hread
    rw [if_neg h1, if_pos h2]
    exact ⟨index + 2, hread⟩
  by_cases h3 : code < 0x10000
  · have ha : (0xE0 + code / 4096).toUInt8.toNat = 0xE0 + code / 4096 := toNat_toUInt8 (by omega)
    -- The bounds on the second octet are where overlong forms and surrogates would be.
    have hread := decodeFrom_three index rest (by rw [ha]; exact Lead.of_three (by omega))
      (by rw [hb']; split <;> split <;> omega) htail
    have hcode : (0xE0 + code / 4096) % 16 * 4096 + code / 64 % 64 * 64 + code % 64 = code := by
      omega
    rw [ha, hpayload, hpayload', hcode] at hread
    rw [if_neg h1, if_neg h2, if_pos h3]
    exact ⟨index + 3, hread⟩
  · have ha : (0xF0 + code / 262144).toUInt8.toNat = 0xF0 + code / 262144 :=
      toNat_toUInt8 (by omega)
    have hread := decodeFrom_four index rest (by rw [ha]; exact Lead.of_four (by omega))
      (by rw [hb'']; split <;> split <;> omega) htail' htail
    have hcode : (0xF0 + code / 262144) % 8 * 262144 + code / 4096 % 64 * 4096 +
        code / 64 % 64 * 64 + code % 64 = code := by omega
    rw [ha, hpayload, hpayload', hpayload'', hcode] at hread
    rw [if_neg h1, if_neg h2, if_neg h3]
    exact ⟨index + 4, hread⟩

private theorem decodeFrom_encode (index : Nat) (cs : List Char) :
    decodeFrom index (encode cs) = .ok cs := by
  induction cs generalizing index with
  | nil => rfl
  | cons c cs ih =>
    obtain ⟨next, hnext⟩ := decodeFrom_encodeChar index c (encode cs)
    rw [encode, List.flatMap_cons]
    exact hnext.trans (by simp [ih, cons, Except.map])

/-- What is written is read back. -/
theorem decode_encode (cs : List Char) : decode (encode cs) = .ok cs := decodeFrom_encode 0 cs

end XmlBinding.Text.Utf8

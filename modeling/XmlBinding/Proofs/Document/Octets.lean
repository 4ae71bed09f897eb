import XmlBinding.Document.Octets
import XmlBinding.Proofs.Text.Utf16

/-!
# Documents as octets are decoded

A document is read from its octets as the text that was written, by a caller who names the encoding
and by one who knows nothing. All that the second relies on is how documents begin: with an angle
bracket and a question mark, which are no byte order mark in any encoding, and which tell UTF-16 in
either order from UTF-8.
-/

namespace XmlBinding

open Text

namespace CharacterEncoding

private theorem decodeUtf8_encode (s : String) : decodeUtf8 (Utf8.encode s.toList) = .ok s := by
  simp [decodeUtf8, Utf8.decode_encode]

private theorem decodeUtf16_encode (order : Utf16.ByteOrder) (s : String) :
    decodeUtf16 order (Utf16.encode order s.toList) = .ok s := by
  simp [decodeUtf16, Utf16.decode_encode]

private theorem decode_of_head (hint : Option CharacterEncoding) {a : UInt8}
    (h : a = 0x00 ∨ a = 0x3C)
    (rest : List UInt8) : decode hint (a :: rest) = decodeUnmarked hint (a :: rest) := by
  obtain rfl | rfl := h <;> rfl

private theorem sniff_big (rest : List UInt8) :
    decodeUnmarked none (0x00 :: 0x3C :: rest) = decodeUtf16 .big (0x00 :: 0x3C :: rest) := rfl

private theorem sniff_little (rest : List UInt8) :
    decodeUnmarked none (0x3C :: 0x00 :: rest) = decodeUtf16 .little (0x3C :: 0x00 :: rest) := rfl

private theorem sniff_utf8 {a : UInt8} (h : a ≠ 0) (rest : List UInt8) :
    decodeUnmarked none (0x3C :: a :: rest) = decodeUtf8 (0x3C :: a :: rest) := by
  unfold decodeUnmarked
  simp [h]

private theorem exists_encodeChar_eq_cons {c : Char} (h : c ≠ '\x00') :
    ∃ a rest, Utf8.encodeChar c = a :: rest ∧ a ≠ 0 := by
  have hvalid : c.toNat < 0xD800 ∨ 0xDFFF < c.toNat ∧ c.toNat < 0x110000 := c.valid
  have hcode : c.toNat ≠ 0 := fun hzero ↦ h (Char.toNat_inj.mp hzero)
  have hne {n : Nat} (hpos : 0 < n) (hlt : n < 256) : n.toUInt8 ≠ 0 := by
    intro hzero
    have hnumber := Utf8.toNat_toUInt8 hlt
    rw [hzero] at hnumber
    exact Nat.ne_of_lt hpos hnumber
  simp only [Utf8.encodeChar]
  split
  · exact ⟨_, _, rfl, hne (by omega) (by omega)⟩
  split
  · exact ⟨_, _, rfl, hne (by omega) (by omega)⟩
  split
  · exact ⟨_, _, rfl, hne (by omega) (by omega)⟩
  · exact ⟨_, _, rfl, hne (by omega) (by omega)⟩

/-- The hint does not mislead about the encoding: there is none, it is right, or the byte order mark
goes before it. -/
def IsFoundBy (encoding : CharacterEncoding) (hint : Option CharacterEncoding) : Prop :=
  hint = none ∨ hint = some encoding ∨ encoding = .utf16

/-- A text that begins with an angle bracket, and has no U+0000 behind it, is decoded from its
octets. -/
theorem decode_encode_of_markup {encoding : CharacterEncoding} {hint : Option CharacterEncoding}
    (hhint : encoding.IsFoundBy hint) {s : String} {c : Char} {cs : List Char}
    (hs : s.toList = '<' :: c :: cs) (hc : c ≠ '\x00') :
    decode hint (encoding.encode s) = .ok s := by
  cases encoding with
  | utf16 => exact decodeUtf16_encode .big s
  | utf8 =>
    obtain ⟨a, rest, ha, hzero⟩ := exists_encodeChar_eq_cons hc
    have hoctets : Utf8.encode s.toList = 0x3C :: a :: (rest ++ Utf8.encode cs) := by
      rw [hs, Utf8.encode, List.flatMap_cons, List.flatMap_cons, ha]
      rfl
    rw [encode, hoctets, decode_of_head hint (.inr rfl), ← hoctets]
    obtain rfl | rfl | hother := hhint
    · rw [hoctets, sniff_utf8 hzero, ← hoctets, decodeUtf8_encode]
    · exact decodeUtf8_encode s
    · cases hother
  | utf16be =>
    obtain ⟨rest, hoctets⟩ : ∃ rest, Utf16.encode .big s.toList = 0x00 :: 0x3C :: rest := by
      rw [hs]
      exact ⟨_, rfl⟩
    rw [encode, hoctets, decode_of_head hint (.inl rfl), ← hoctets]
    obtain rfl | rfl | hother := hhint
    · rw [hoctets, sniff_big, ← hoctets, decodeUtf16_encode]
    · exact decodeUtf16_encode .big s
    · cases hother
  | utf16le =>
    obtain ⟨rest, hoctets⟩ : ∃ rest, Utf16.encode .little s.toList = 0x3C :: 0x00 :: rest := by
      rw [hs]
      exact ⟨_, rfl⟩
    rw [encode, hoctets, decode_of_head hint (.inr rfl), ← hoctets]
    obtain rfl | rfl | hother := hhint
    · rw [hoctets, sniff_little, ← hoctets, decodeUtf16_encode]
    · exact decodeUtf16_encode .little s
    · cases hother

end CharacterEncoding

/-- Every declaration begins with an angle bracket and a question mark. -/
theorem CharacterEncoding.exists_xmlDeclaration (encoding : CharacterEncoding) :
    ∃ cs, encoding.xmlDeclaration.toList = '<' :: '?' :: cs := by
  cases encoding <;> exact ⟨_, rfl⟩

namespace EventStream

/-- What is sent of a stream that can be written is decoded into just the text that was written,
under every hint that does not mislead. -/
theorem decode_send {s : EventStream} {text : String} (h : s.toXml = .ok text)
    (encoding : CharacterEncoding) :
    ∃ octets, s.send encoding none = .ok octets ∧ ∀ hint, encoding.IsFoundBy hint →
      CharacterEncoding.decode hint octets = .ok (encoding.xmlDeclaration ++ text) := by
  have hoctets : s.toOctets encoding = .ok (encoding.encode (encoding.xmlDeclaration ++ text)) := by
    rw [toOctets, h]
    rfl
  have hsend : s.send encoding none =
      .ok (encoding.encode (encoding.xmlDeclaration ++ text)) := by
    rw [send, hoctets]
    rfl
  refine ⟨_, hsend, fun hint hhint ↦ ?_⟩
  obtain ⟨cs, hcs⟩ := encoding.exists_xmlDeclaration
  exact CharacterEncoding.decode_encode_of_markup hhint
    (by rw [String.toList_append, hcs]; rfl) (by decide)

/-- A greeting with characters of one to four octets in UTF-8, two of them of two units in
UTF-16. -/
def greeting : EventStream :=
  ofEvents [.opening ⟨"urn:a", "note"⟩ [⟨⟨"", "é"⟩, "日"⟩] [⟨"", "urn:a"⟩], .text "hi 😀𝒳",
    .closing ⟨"urn:a", "note"⟩]

/-- The greeting is sent in units of two octets, and decoded in spite of a hint at UTF-8. -/
theorem decode_send_greeting :
    greeting.toXml = .ok "<note xmlns=\"urn:a\" é=\"日\">hi 😀𝒳</note>" ∧
      ∃ octets, greeting.send .utf16 none = .ok octets ∧
        CharacterEncoding.utf16.IsFoundBy (some .utf8) ∧
        CharacterEncoding.decode (some .utf8) octets =
          .ok ("<?xml version=\"1.0\" encoding=\"UTF-16\"?>" ++
            "<note xmlns=\"urn:a\" é=\"日\">hi 😀𝒳</note>") := by
  have htext : greeting.toXml = .ok "<note xmlns=\"urn:a\" é=\"日\">hi 😀𝒳</note>" := by rfl
  have hfound : CharacterEncoding.utf16.IsFoundBy (some .utf8) := .inr (.inr rfl)
  obtain ⟨octets, hsend, hdecode⟩ := decode_send htext .utf16
  exact ⟨htext, octets, hsend, hfound, hdecode _ hfound⟩

end EventStream

end XmlBinding

import Mathlib.Data.Option.Basic
import XmlBinding.Proofs.Calendar.Literal

/-!
# What is read as a date or a time

Whatever is read as a date, a time or both is a literal of the lenient grammar. Dates are held to
the grammar of XML Schema. The fields of a clock and of a zone are not: a field of a clock may have
one digit and follow blanks, and the sign that a number may have stands for a digit of a zone.
-/

namespace XmlBinding

namespace Calendar

open Number Text

/-! ### Dates -/

private theorem Date.isPair_of_readPair? {cs : List Char} {n : Nat} (h : readPair? cs = some n) :
    IsPair cs := by
  unfold readPair? at h
  split at h
  · next hpair => exact ⟨hpair.2, hpair.1⟩
  · cases h

private theorem Date.isYear_of_readYear? {cs : List Char} {n : Nat} (h : readYear? cs = some n) :
    IsYear cs := by
  unfold readYear? at h
  split at h
  · assumption
  · cases h

private theorem Date.exists_parts_of_readUnsigned? {negative : Bool} {cs : List Char} {d : Date}
    (h : readUnsigned? negative cs = some d) :
    ∃ p : DateParts, p.IsProper ∧ p.text = (if negative then ['-'] else []) ++ cs := by
  unfold readUnsigned? at h
  split at h
  · next year month day hparts =>
    simp only [Option.bind_eq_bind, Option.bind_eq_some_iff] at h
    obtain ⟨_, hyear, _, hmonth, _, hday, -⟩ := h
    have htext := intercalate_splitAll '-' cs
    rw [hparts] at htext
    exact ⟨⟨negative, year, month, day⟩,
      ⟨isYear_of_readYear? hyear, isPair_of_readPair? hmonth, isPair_of_readPair? hday⟩,
      by simp [DateParts.text, ← htext, List.intercalate]⟩
  · cases h

private theorem Date.exists_parts {cs : List Char} {d : Date} (h : Date.read? cs = some d) :
    ∃ p : DateParts, p.IsProper ∧ p.text = cs := by
  unfold Date.read? at h
  split at h
  · exact exists_parts_of_readUnsigned? h
  · exact exists_parts_of_readUnsigned? h

/-! ### Clock times -/

private theorem Time.exists_field {cs rest : List Char} {n : Nat} (hspace : ' ' ∉ cs)
    (h : readField? cs = some (n, rest)) : ∃ field, IsClockField field ∧ cs = field ++ rest := by
  simp only [readField?] at h
  split at h
  · cases h
  · next hdigits =>
    obtain ⟨-, rfl⟩ := Prod.mk.inj (Option.some.inj h)
    have hblanks : cs = cs.takeWhile isBlank ++ trimStart cs := List.takeWhile_append_dropWhile.symm
    have hprefix : (List.takeWhile Char.isDigit ((trimStart cs).take 2)) <+: trimStart cs :=
      (List.takeWhile_prefix _).trans (List.take_prefix 2 _)
    refine ⟨cs.takeWhile isBlank ++ List.takeWhile Char.isDigit ((trimStart cs).take 2),
      ⟨_, _, rfl, fun c hc ↦ ?_, ?_, ?_⟩, ?_⟩
    · have hmem : c ∈ cs := (List.takeWhile_prefix _).subset hc
      exact ⟨List.all_eq_true.mp List.all_takeWhile c hc, fun e ↦ hspace (e ▸ hmem)⟩
    · simp only [isNumeral, Bool.and_eq_true, Bool.not_eq_true']
      exact ⟨by simpa using hdigits, List.all_takeWhile⟩
    · exact Nat.le_trans (List.takeWhile_prefix _).length_le (List.length_take_le 2 _)
    · rw [List.append_assoc, List.prefix_iff_eq_append.mp hprefix]
      exact hblanks

private theorem Time.eq_of_readColon? {cs rest : List Char} (h : readColon? cs = some rest) :
    cs = ':' :: rest := by
  unfold readColon? at h
  split at h
  · rw [Option.some.inj h]
  · cases h

private theorem Time.exists_fraction {cs : List Char} {n : Nat} (h : readFraction? cs = some n) :
    ∃ fraction, (∀ digits ∈ fraction, isNumeral digits) ∧ cs = fractionText fraction := by
  unfold readFraction? at h
  split at h
  · exact ⟨none, by simp, rfl⟩
  · next digits =>
    split at h
    · next hdigits => exact ⟨some digits, by simpa using hdigits, rfl⟩
    · cases h
  · cases h

private theorem Time.exists_parts {cs : List Char} {t : Time} (hspace : ' ' ∉ cs)
    (h : Time.read? cs = some t) : ∃ p : ClockParts, p.Follows .lenient ∧ p.text = cs := by
  simp only [Time.read?, Option.bind_eq_bind, Option.bind_eq_some_iff, Prod.exists] at h
  obtain ⟨_, rest₁, hfirst, rest₂, hcolon, _, rest₃, hnext, rest₄, hcolon', _, rest₅, hlast,
    _, hfraction, -⟩ := h
  obtain ⟨hour, hhour, rfl⟩ := exists_field hspace hfirst
  obtain rfl := eq_of_readColon? hcolon
  simp only [List.mem_append, List.mem_cons, not_or] at hspace
  obtain ⟨minute, hminute, rfl⟩ := exists_field hspace.2.2 hnext
  obtain rfl := eq_of_readColon? hcolon'
  simp only [List.mem_append, List.mem_cons, not_or] at hspace
  obtain ⟨second, hsecond, rfl⟩ := exists_field hspace.2.2.2.2 hlast
  obtain ⟨fraction, hdigits, rfl⟩ := exists_fraction hfraction
  exact ⟨⟨hour, minute, second, fraction⟩, ⟨hhour, hminute, hsecond, hdigits⟩, rfl⟩

private theorem LocalDateTime.exists_parts {cs : List Char} {d : LocalDateTime} (hspace : ' ' ∉ cs)
    (h : LocalDateTime.read? cs = some d) :
    ∃ (p : DateParts) (q : ClockParts), p.IsProper ∧ q.Follows .lenient ∧
      p.text ++ 'T' :: q.text = cs := by
  simp only [LocalDateTime.read?, Option.bind_eq_bind, Option.bind_eq_some_iff, Prod.exists] at h
  obtain ⟨date, time, hsplit, _, hdate, _, htime, -⟩ := h
  obtain ⟨-, rfl⟩ := splitFirst_eq_some_iff.mp hsplit
  simp only [List.mem_append, List.mem_cons, not_or] at hspace
  obtain ⟨p, hp, rfl⟩ := Date.exists_parts hdate
  obtain ⟨q, hq, rfl⟩ := Time.exists_parts hspace.2.2 htime
  exact ⟨p, q, hp, hq, rfl⟩

/-! ### Zones -/

/-- Two characters that are read as a field of a zone are two digits, or a sign and a digit. -/
private theorem Offset.pair_or_signed {a b : Char} {n : Int} (h : readField? [a, b] = some n) :
    IsPair [a, b] ∧ n = read [a, b] ∨ IsSignedDigit [a, b] := by
  simp only [readField?] at h
  split at h
  · next hdigits =>
    by_cases hsign : a = '+' ∨ a = '-'
    · refine .inr ⟨a, b, hsign, ?_, rfl⟩
      obtain rfl | rfl := hsign <;> simpa [splitSign, isNumeral] using hdigits
    · rw [not_or] at hsign
      have hsplit : splitSign [a, b] = (false, [a, b]) := by
        unfold splitSign
        split <;> simp_all
      rw [hsplit] at hdigits h
      exact .inl ⟨⟨hdigits, rfl⟩, by simpa [applySign] using h.symm⟩
  · cases h

private theorem Offset.follows_of_read? {negative : Bool} {h₁ h₂ m₁ m₂ : Char} {o : Offset}
    (h : Offset.read? negative [h₁, h₂] [m₁, m₂] = some o) :
    (ZoneParts.offset negative [h₁, h₂] [m₁, m₂]).Follows .lenient := by
  simp only [Offset.read?, Option.bind_eq_bind, Option.bind_eq_some_iff] at h
  obtain ⟨hours, hhours, minutes, hminutes, _, hguard, -⟩ := h
  have hbound : hours ≤ 14 := by
    have hfits : ¬ (14 < hours ∨ 59 < minutes ∨ hours = 14 ∧ minutes ≠ 0) := by
      simpa [guard] using hguard
    omega
  refine ⟨?_, (pair_or_signed hminutes).imp_left And.left⟩
  refine (pair_or_signed hhours).imp_left ?_
  rintro ⟨hpair, hvalue⟩
  exact ⟨hpair, by omega⟩

private theorem exists_zone {cs body : List Char} {offset : Option Offset}
    (h : splitZone cs = some (body, offset)) :
    ∃ z : ZoneParts, z.Follows .lenient ∧ body ++ z.text = cs := by
  unfold splitZone at h
  split at h
  · next rest hcs =>
    obtain ⟨rfl, -⟩ := Prod.mk.inj (Option.some.inj h)
    exact ⟨.universal, trivial, by simpa [ZoneParts.text] using congrArg List.reverse hcs.symm⟩
  · next m₂ m₁ h₂ h₁ sign c rest _ hcs =>
    split at h
    · next hsign =>
      obtain ⟨o, ho, hbody⟩ := Option.map_eq_some_iff.mp h
      obtain ⟨rfl, -⟩ := Prod.mk.inj hbody
      refine ⟨_, Offset.follows_of_read? ho, ?_⟩
      have htext := congrArg List.reverse hcs
      rw [List.reverse_reverse] at htext
      obtain rfl | rfl := hsign <;> simp [ZoneParts.text, htext]
    · obtain ⟨rfl, -⟩ := Prod.mk.inj (Option.some.inj h)
      exact ⟨.missing, trivial, List.append_nil _⟩
  · obtain ⟨rfl, -⟩ := Prod.mk.inj (Option.some.inj h)
    exact ⟨.missing, trivial, List.append_nil _⟩

/-! ### Literals -/

/-- What is read with a zone is a literal if its body is one without. -/
theorem Zoned.exists_literal {α : Type} {readBody? : List Char → Option α} {space : LexicalSpace}
    (hbody : ∀ {cs : List Char} {a : α}, ' ' ∉ cs → readBody? cs = some a →
      ∃ b : BodyParts, b.space = space ∧ b.Follows .lenient ∧ b.text = cs)
    {cs : List Char} {z : Zoned α} (h : Zoned.read? readBody? cs = some z) :
    ∃ l : Literal, l.body.space = space ∧ l.Follows .lenient ∧ l.text = trim cs := by
  simp only [read?, readTrimmed?, Option.bind_eq_bind, Option.bind_eq_some_iff, Prod.exists] at h
  obtain ⟨body, offset, hzone, _, hguard, a, ha, -⟩ := h
  have hspace : ' ' ∉ body := by simpa [guard] using hguard
  obtain ⟨b, hb, hfollows, htext⟩ := hbody hspace ha
  obtain ⟨zone, hfollowsZone, hcs⟩ := exists_zone hzone
  exact ⟨⟨b, zone⟩, hb, ⟨hfollows, hfollowsZone⟩, by rw [Literal.text, htext, hcs]⟩

end Calendar

open Calendar Text

/-- The types of dates, clock times and both. -/
def LexicalSpace.IsMoment (space : LexicalSpace) : Prop := space ∈ [.dateTime, .date, .time]

instance (space : LexicalSpace) : Decidable space.IsMoment :=
  inferInstanceAs (Decidable (_ ∈ _))

/-- Whatever is read as a moment was read by the reader of its type. -/
theorem Codec.isSome_of_readMoment {α : Type} {space : LexicalSpace} {read? : List Char → Option α}
    {make : α → Scalar} {lexical : String} {v : Scalar}
    (h : readMoment space read? make lexical = .ok v) : ∃ a, read? lexical.toList = some a := by
  unfold readMoment at h
  split at h
  · next a ha => exact ⟨a, ha⟩
  · cases h

/-- Every text that is read as a date, a clock time or both is a lenient literal with blanks around
it. It is a literal of XML Schema exactly if the fields of its clock and of its zone have two digits
each. -/
theorem Codec.exists_literal_of_read {c : Codec} (hspace : c.space.IsMoment)
    {namespaceOf : String → Option String} {lexical : String} {v : Scalar}
    (h : c.read namespaceOf lexical = .ok v) :
    ∃ l : Literal, l.body.space = c.space ∧ l.text = trim lexical.toList ∧ l.Follows .lenient ∧
      (IsSchemaLiteral c.space (trim lexical.toList) ↔ ∀ field ∈ l.fields, IsPair field) := by
  suffices hread : ∃ l : Literal, l.body.space = c.space ∧ l.Follows .lenient ∧
      l.text = trim lexical.toList by
    obtain ⟨l, hl, hfollows, htext⟩ := hread
    exact ⟨l, hl, htext, hfollows, hl ▸ htext ▸ isSchemaLiteral_text_iff hfollows⟩
  obtain ⟨space, type⟩ := c
  simp only [LexicalSpace.IsMoment, List.mem_cons, List.not_mem_nil, or_false] at hspace
  obtain rfl | rfl | rfl := hspace
  · obtain ⟨z, hz⟩ := isSome_of_readMoment h
    refine Zoned.exists_literal (fun hfree hread ↦ ?_) hz
    obtain ⟨d, t, hd, ht, htext⟩ := LocalDateTime.exists_parts hfree hread
    exact ⟨.dateTime d t, rfl, ⟨hd, ht⟩, htext⟩
  · obtain ⟨z, hz⟩ := isSome_of_readMoment h
    refine Zoned.exists_literal (fun _ hread ↦ ?_) hz
    obtain ⟨d, hd, htext⟩ := Date.exists_parts hread
    exact ⟨.date d, rfl, hd, htext⟩
  · obtain ⟨z, hz⟩ := isSome_of_readMoment h
    refine Zoned.exists_literal (fun hfree hread ↦ ?_) hz
    obtain ⟨t, ht, htext⟩ := Time.exists_parts hfree hread
    exact ⟨.time t, rfl, ht, htext⟩

/-- A clock time whose hour has one digit is read by a lenient literal, which is none of XML
Schema. -/
theorem Codec.exists_literal_of_read_clock :
    LexicalSpace.time.IsMoment ∧
      ∃ v, read ⟨.time, .time⟩ (fun _ ↦ none) " 1:02:03.5+05:30 " = .ok v ∧
        ∃ l : Literal, l.text = "1:02:03.5+05:30".toList ∧ l.Follows .lenient ∧
          (IsSchemaLiteral .time "1:02:03.5+05:30".toList ↔ ∀ field ∈ l.fields, IsPair field) := by
  have hspace : LexicalSpace.time.IsMoment := by decide
  have hread : read ⟨.time, .time⟩ (fun _ ↦ none) " 1:02:03.5+05:30 " =
      .ok (.time ⟨⟨1, 2, 3, 500000000, by decide⟩, some ⟨19800, by decide⟩⟩) := by rfl
  obtain ⟨l, -, htext, hfollows, hiff⟩ := exists_literal_of_read hspace hread
  exact ⟨hspace, _, hread, l, htext, hfollows, hiff⟩

/-- Not every text that is read as a date or a time is a literal of XML Schema: the fields of a
clock may have one digit, and a zone may have a second sign. -/
theorem Codec.not_isSchemaLiteral_of_read :
    (∃ v, read ⟨.time, .time⟩ (fun _ ↦ none) "1:2:3" = .ok v) ∧
      ¬ IsSchemaLiteral .time "1:2:3".toList ∧
      (∃ v, read ⟨.date, .date⟩ (fun _ ↦ none) "2024-01-01+-5:00" = .ok v) ∧
      ¬ IsSchemaLiteral .date "2024-01-01+-5:00".toList := by
  refine ⟨⟨.time ⟨⟨1, 2, 3, 0, by decide⟩, none⟩, by rfl⟩, fun h ↦ ?_,
    ⟨.date ⟨⟨2024, 1, 1, by decide⟩, some ⟨-18000, by decide⟩⟩, by rfl⟩, fun h ↦ ?_⟩
  · have hfollows : Literal.Follows .lenient ⟨.time ⟨['1'], ['2'], ['3'], none⟩, .missing⟩ := by
      have hfield (c : Char) (hc : c.isDigit) : IsClockField [c] :=
        ⟨[], [c], rfl, by simp, by simp [Number.isNumeral, hc], by simp⟩
      exact ⟨⟨hfield _ rfl, hfield _ rfl, hfield _ rfl, by simp⟩, trivial⟩
    have hpairs := (isSchemaLiteral_text_iff hfollows).mp h ['1'] (by decide)
    exact absurd hpairs (by decide)
  · have hfollows : Literal.Follows .lenient
        ⟨.date ⟨false, ['2', '0', '2', '4'], ['0', '1'], ['0', '1']⟩,
          .offset false ['-', '5'] ['0', '0']⟩ :=
      ⟨⟨⟨rfl, by decide, by decide⟩, by decide, by decide⟩,
        .inr ⟨'-', '5', .inr rfl, rfl, rfl⟩, .inl (by decide)⟩
    have hpairs := (isSchemaLiteral_text_iff hfollows).mp h ['-', '5'] (by decide)
    exact absurd hpairs (by decide)

end XmlBinding

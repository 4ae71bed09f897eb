import Mathlib.Data.Option.Basic
import XmlBinding.Proofs.Calendar.Literal
import XmlBinding.Proofs.Number.Numeral

/-!
# What literals are read as

A literal of XML Schema is read as the date, the time and the offset that the numbers of its fields
make up, if these exist.
-/

namespace XmlBinding.Calendar

open Number Text

/-! ### Characters -/

/-- The characters between the digits of a date, a time and a zone. -/
def separators : List Char := ['-', '+', ':', '.', 'T', 'Z']

/-- No separator is a blank. -/
theorem isBlank_of_mem_separators : ∀ c ∈ separators, isBlank c = false := by
  simp [separators, isBlank]

/-- A pair is two digits. -/
theorem IsPair.exists_digits {cs : List Char} (h : IsPair cs) :
    ∃ a b, cs = [a, b] ∧ a.isDigit ∧ b.isDigit := by
  obtain ⟨hdigits, hlength⟩ := h
  match cs, hlength with
  | [a, b], _ =>
    have hboth : a.isDigit ∧ b.isDigit := by simpa [isNumeral] using hdigits
    exact ⟨a, b, rfl, hboth.1, hboth.2⟩

/-- The characters of a literal are digits and separators. -/
theorem BodyParts.not_mem_text {c : Char} {b : BodyParts} (h : b.Follows .schema)
    (hdigit : c.isDigit = false) (hseparator : c ∉ separators) : c ∉ b.text := by
  simp only [separators, List.mem_cons, List.not_mem_nil, or_false, not_or] at hseparator
  obtain ⟨hdash, -, hcolon, hdot, hletter, -⟩ := hseparator
  have hclock {t : ClockParts} (ht : t.Follows .schema) : c ∉ t.text := by
    obtain ⟨hhour, hminute, hsecond, hfraction⟩ := ht
    simp only [ClockParts.text, List.mem_append, List.mem_cons, not_or]
    exact ⟨not_mem_of_isNumeral hhour.1 hdigit, hcolon, not_mem_of_isNumeral hminute.1 hdigit,
      hcolon, not_mem_of_isNumeral hsecond.1 hdigit, not_mem_fractionText hfraction hdigit hdot⟩
  cases b with
  | date d => exact DateParts.not_mem_text h hdigit hdash
  | time t => exact hclock h
  | dateTime d t =>
    simp only [text, List.mem_append, List.mem_cons, not_or]
    exact ⟨DateParts.not_mem_text h.1 hdigit hdash, hletter, hclock h.2⟩

/-- A zone is written in digits and separators. -/
theorem ZoneParts.not_mem_text {c : Char} {z : ZoneParts} (h : ∀ field ∈ z.fields, IsPair field)
    (hdigit : c.isDigit = false) (hseparator : c ∉ separators) : c ∉ z.text := by
  simp only [separators, List.mem_cons, List.not_mem_nil, or_false, not_or] at hseparator
  obtain ⟨hdash, hplus, hcolon, -, -, hletter⟩ := hseparator
  cases z with
  | missing => simp [text]
  | universal => simp [text, hletter]
  | offset isWest hours minutes =>
    have hhours := not_mem_of_isNumeral (h hours (by simp [fields])).1 hdigit
    have hminutes := not_mem_of_isNumeral (h minutes (by simp [fields])).1 hdigit
    cases isWest <;> simp [text, hdash, hplus, hcolon, hhours, hminutes]

/-! ### Dates -/

private theorem Date.readPair?_of_isPair {cs : List Char} (h : IsPair cs) :
    readPair? cs = some (read cs) :=
  if_pos h.symm

private theorem Date.readYear?_of_isYear {cs : List Char} (h : IsYear cs) :
    readYear? cs = some (read cs) :=
  if_pos h

/-- A date is read as its year, month and day, if there is such a day. -/
theorem DateParts.read?_text {d : DateParts} (h : d.IsProper) :
    Date.read? d.text =
      Date.of? (applySign d.isNegative (read d.year)) (read d.month) (read d.day) := by
  obtain ⟨isNegative, year, month, day⟩ := d
  have hunsigned (negative : Bool) :
      Date.readUnsigned? negative (year ++ '-' :: (month ++ '-' :: day)) =
        Date.of? (applySign negative (read year)) (read month) (read day) := by
    have hsplit := splitAll_text (d := ⟨false, year, month, day⟩) h
    simp only [text, Bool.false_eq_true, if_false, List.nil_append] at hsplit
    simp only [Date.readUnsigned?, hsplit, Date.readYear?_of_isYear h.1,
      Date.readPair?_of_isPair h.2.1, Date.readPair?_of_isPair h.2.2, Option.bind_eq_bind,
      Option.bind_some]
  cases isNegative with
  | true => exact hunsigned true
  | false =>
    have hne : '-' ∉ year := not_mem_of_isNumeral h.1.1 rfl
    have hlength : 0 < year.length := Nat.lt_of_lt_of_le (by decide) h.1.2.1
    obtain ⟨c, cs, rfl⟩ := List.exists_cons_of_length_pos hlength
    rw [← hunsigned false]
    change Date.read? (c :: cs ++ '-' :: (month ++ '-' :: day)) = _
    unfold Date.read?
    split
    · next rest hrest =>
      -- The first character is a digit of the year, and so no sign.
      obtain ⟨rfl, -⟩ := List.cons.inj hrest
      exact absurd List.mem_cons_self hne
    · rfl

/-! ### Clock times -/

private theorem Time.readField?_append {field rest : List Char} (h : IsPair field) :
    readField? (field ++ rest) = some (read field, rest) := by
  obtain ⟨a, b, rfl, ha, hb⟩ := h.exists_digits
  have htrim : trimStart (a :: b :: rest) = a :: b :: rest := trimStart_cons (isBlank_of_isDigit ha)
  simp [readField?, htrim, ha, hb]

/-- The nanoseconds of a fraction, of which at most nine digits count; zero if it is missing. -/
def clockNanos (fraction : Option (List Char)) : Nat :=
  fraction.elim 0 fun digits ↦ read ((digits ++ List.replicate 9 '0').take 9)

private theorem Time.readFraction?_fractionText {fraction : Option (List Char)}
    (h : ∀ digits ∈ fraction, isNumeral digits) :
    readFraction? (fractionText fraction) = some (clockNanos fraction) := by
  cases fraction with
  | none => rfl
  | some digits => exact if_pos (h digits rfl)

/-- A clock time is read as its hours, minutes, seconds and nanoseconds, if there is such a time. -/
theorem ClockParts.read?_text {t : ClockParts} (h : t.Follows .schema) :
    Time.read? t.text =
      Time.of? (read t.hour) (read t.minute) (read t.second) (clockNanos t.fraction) := by
  obtain ⟨hhour, hminute, hsecond, hfraction⟩ := h
  simp only [text, Time.read?, Time.readField?_append hhour, Time.readField?_append hminute,
    Time.readField?_append hsecond, Time.readFraction?_fractionText hfraction, Time.readColon?,
    Option.bind_eq_bind, Option.bind_some]

/-! ### Zones -/

/-- A field of two digits in a zone is read as its number. -/
private theorem Offset.readField?_of_isPair {cs : List Char} (h : IsPair cs) :
    readField? cs = some (read cs : Int) := by
  obtain ⟨a, b, rfl, ha, -⟩ := h.exists_digits
  have hsign : splitSign [a, b] = (false, [a, b]) := by
    unfold splitSign
    split <;> simp_all
  simp [readField?, hsign, h.1, applySign]

/-- A zone of at most fourteen hours is read as its minutes. -/
theorem Offset.read?_of_isPair (negative : Bool) {hours minutes : List Char} (hhours : IsPair hours)
    (hminutes : IsPair minutes) (hminute : read minutes < 60) :
    Offset.read? negative hours minutes =
      if read hours * 60 + read minutes ≤ 14 * 60 then
        Offset.of? (applySign negative ((read hours * 60 + read minutes) * 60))
      else none := by
  have hseconds : (if negative then -((read hours : Int) * 3600 + read minutes * 60)
      else (read hours : Int) * 3600 + read minutes * 60) =
        applySign negative ((read hours * 60 + read minutes) * 60) := by
    unfold applySign
    split <;> omega
  simp only [read?, readField?_of_isPair hhours, readField?_of_isPair hminutes,
    Option.bind_eq_bind, Option.bind_some, hseconds, guard]
  split
  · rw [if_pos (by omega)]
    rfl
  · rw [if_neg (by omega)]
    rfl

/-- The offset of a zone; nothing for an offset that cannot be read. -/
def ZoneParts.offset? : ZoneParts → Option (Option Offset)
  | .missing => some none
  | .universal => some (some .utc)
  | .offset isWest hours minutes => (Offset.read? isWest hours minutes).map some

/-- A zone is cut off what does not look as if it had one. -/
theorem ZoneParts.splitZone_append {z : ZoneParts} (h : ∀ field ∈ z.fields, IsPair field)
    {body : List Char} (hne : body ≠ []) (hbody : zoneOf body = .missing) :
    splitZone (body ++ z.text) = z.offset?.map fun offset ↦ (body, offset) := by
  cases z with
  | missing =>
    rw [text, List.append_nil]
    change splitZone body = some (body, none)
    unfold splitZone
    split
    · next rest hcs => simp [zoneOf, hcs] at hbody
    · next m₂ m₁ h₂ h₁ sign c rest hletter hcs =>
      refine if_neg fun hsign ↦ ?_
      simp [zoneOf, hcs, hsign] at hbody
    · rfl
  | universal => simp [text, splitZone, offset?]
  | offset isWest hours minutes =>
    obtain ⟨h₁, h₂, rfl, -⟩ := (h hours (by simp [fields])).exists_digits
    obtain ⟨m₁, m₂, rfl, -, hm₂⟩ := (h minutes (by simp [fields])).exists_digits
    obtain ⟨c, rest, hrest⟩ := List.exists_cons_of_ne_nil (List.reverse_ne_nil_iff.mpr hne)
    have hrev : body = (c :: rest).reverse := by rw [← hrest, List.reverse_reverse]
    -- A digit at the end is not taken for the letter of universal time.
    have hne : m₂ ≠ 'Z' := by
      rintro rfl
      cases hm₂
    cases isWest <;> simp [hrev, text, splitZone, offset?, Function.comp_def]

end XmlBinding.Calendar

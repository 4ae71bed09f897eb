import XmlBinding.Proofs.Conversion.Output
import XmlBinding.Proofs.Document.Markup.Checked
import XmlBinding.Proofs.Number.Numeral

/-!
# The characters of printed values

A printed number, truth value, date, time or duration is made of characters that every document may
hold. A printed text has the characters of the text and spaces, a printed name those of its
namespace and those that names have (`Codec.print_isMadeOf`).
-/

namespace XmlBinding

open Markup

private theorem all_of_subset {p : Char → Bool} {xs cs : List Char} (hs : xs ⊆ cs)
    (h : cs.all p = true) : xs.all p = true :=
  List.all_eq_true.mpr fun c hc ↦ List.all_eq_true.mp h c (hs hc)

/-! ### Numbers -/

namespace Number

/-- The digits of a number. -/
@[simp] theorem all_write (n : Nat) : (write n).all isDocumentChar = true := by
  rw [List.all_eq_true]
  intro c hc
  have hdigit : c.isDigit = true := isDigit_of_isNumeral (isNumeral_write n) c hc
  exact isDocumentChar_of_isTagNameChar (by simp [isTagNameChar, hdigit])

/-- The digits of a number, filled up with zeros. -/
@[simp] theorem all_writePadded (width n : Nat) :
    (writePadded width n).all isDocumentChar = true := by
  have hzero (k : Nat) : (List.replicate k '0').all isDocumentChar = true :=
    List.all_eq_true.mpr fun c hc ↦ by
      rw [List.eq_of_mem_replicate hc]
      decide
  simp [writePadded, hzero]

/-- The digits of a number behind its sign. -/
@[simp] theorem all_writeInt (n : Int) : (writeInt n).all isDocumentChar = true := by
  unfold writeInt
  split
  · rw [List.all_cons, all_write]
    decide
  · exact all_write _

private theorem Decimal.all_placePoint {digits : List Char} (h : digits.all isDocumentChar = true)
    (scale : Nat) : (placePoint digits scale).all isDocumentChar = true := by
  unfold placePoint
  split
  · simp +decide [all_of_subset (List.take_subset _ digits) h,
      all_of_subset (List.drop_subset _ digits) h]
  · simp +decide [h]

/-- A decimal number. -/
@[simp] theorem Decimal.all_write (d : Decimal) : d.write.all isDocumentChar = true := by
  have hbody (digits : List Char) (h : digits.all isDocumentChar = true) (scale : Int) :
      (if scale ≤ 0 then digits ++ List.replicate scale.natAbs '0'
        else placePoint digits scale.natAbs).all isDocumentChar = true := by
    split
    · simp +decide [h]
    · exact all_placePoint h _
  unfold write
  extract_lets n digits body
  have hall : body.all isDocumentChar = true := hbody _ (Number.all_write _) _
  split
  · simp +decide [hall]
  · exact hall

/-- A floating point number. -/
@[simp] theorem Binary.all_write {f : BinaryFormat} (x : Binary f) :
    x.write.all isDocumentChar = true := by
  unfold write
  split
  · decide
  · split <;> decide
  · split
    · simp +decide
    · simp

end Number

/-! ### Dates and times -/

namespace Calendar

open Number

/-- A date. -/
@[simp] theorem Date.all_write (d : Date) : d.write.all isDocumentChar = true := by
  unfold write writeMonthDay
  split <;> simp +decide

/-- A fraction of a second. -/
@[simp] theorem all_writeFraction (nanos : Nat) :
    (writeFraction nanos).all isDocumentChar = true := by
  unfold writeFraction
  dsimp only
  split
  · rfl
  · have hdigits (cs : List Char) (h : cs.all isDocumentChar = true) :
        (cs.reverse.dropWhile (· == '0')).all isDocumentChar = true :=
      all_of_subset (List.dropWhile_sublist _).subset (by rwa [List.all_reverse])
    rw [List.all_cons, List.all_reverse, hdigits _ (all_writePadded 9 _)]
    decide

/-- A time of day. -/
@[simp] theorem Time.all_write (t : Time) : t.write.all isDocumentChar = true := by
  simp +decide [write, writeClock]

/-- A zone. -/
@[simp] theorem all_writeZone (offset : Option Offset) :
    (writeZone offset).all isDocumentChar = true := by
  unfold writeZone
  split
  · rfl
  · unfold Offset.write
    split
    · decide
    · dsimp only
      split <;> simp +decide

private theorem Zoned.all_write {α : Type} {writeBody : α → List Char}
    (h : ∀ a, (writeBody a).all isDocumentChar = true) (z : Zoned α) :
    (z.write writeBody).all isDocumentChar = true := by
  rw [write, List.all_append, h, all_writeZone]
  rfl

/-- A date with a time of day. -/
@[simp] theorem LocalDateTime.all_write (d : LocalDateTime) :
    d.write.all isDocumentChar = true := by
  simp +decide [write]

private theorem Duration.all_writeComponent (n : UInt32) {designator : Char}
    (h : isDocumentChar designator = true) :
    (writeComponent n designator).all isDocumentChar = true := by
  unfold writeComponent
  split
  · rfl
  · simp [h]

/-- A duration. -/
@[simp] theorem Duration.all_write (d : Duration) : d.write.all isDocumentChar = true := by
  have hseconds : (Number.write d.seconds.toNat ++ writeFraction d.nanos.toNat ++ ['S']).all
      isDocumentChar = true := by
    simp +decide
  have hsign : (if d.negative then ['-'] else []).all isDocumentChar = true := by
    split <;> decide
  have hclock : (if d.HasClock ∨ d.IsZero then ['T'] else []).all isDocumentChar = true := by
    split <;> decide
  have hlast : (if d.seconds ≠ 0 ∨ d.nanos ≠ 0 ∨ d.IsZero then
      Number.write d.seconds.toNat ++ writeFraction d.nanos.toNat ++ ['S']
      else []).all isDocumentChar = true := by
    split
    · exact hseconds
    · rfl
  simp only [write, List.all_append, List.all_cons, hsign, hclock, hlast]
  rw [all_writeComponent _ (by decide), all_writeComponent _ (by decide),
    all_writeComponent _ (by decide), all_writeComponent _ (by decide),
    all_writeComponent _ (by decide)]
  decide

end Calendar

/-! ### Texts and names -/

section Characters

-- A class of characters that has all that a document may hold, and perhaps others.
variable {p : Char → Bool} (hp : ∀ c, isDocumentChar c = true → p c = true)

include hp in
/-- What is made of characters that a document may hold is made of characters of the class. -/
theorem Markup.all_of_all_isDocumentChar {cs : List Char} (h : cs.all isDocumentChar = true) :
    cs.all p = true :=
  List.all_eq_true.mpr fun c hc ↦ hp c (List.all_eq_true.mp h c hc)

private theorem WhiteSpace.all_joinWords (hspace : p ' ' = true) {words : List (List Char)}
    (h : ∀ word ∈ words, word.all p = true) : (joinWords words).all p = true := by
  induction words with
  | nil => rfl
  | cons word rest ih =>
    rw [List.forall_mem_cons] at h
    cases rest with
    | nil => exact h.1
    | cons next rest =>
      rw [joinWords, List.all_append, List.all_cons, h.1, hspace, ih h.2]
      · rfl
      · simp

private theorem WhiteSpace.all_apply (hspace : p ' ' = true) (w : WhiteSpace) {cs : List Char}
    (h : cs.all p = true) : (w.apply cs).all p = true := by
  cases w with
  | preserve => exact h
  | replace =>
    rw [List.all_eq_true] at h ⊢
    intro c hc
    obtain ⟨d, hd, rfl⟩ := List.mem_map.mp hc
    split
    · exact hspace
    · exact h d hd
  | collapse =>
    apply all_joinWords hspace
    intro word hword
    have hpart := List.mem_of_mem_filter hword
    exact all_of_subset (fun c hc ↦ (Text.mem_of_mem_splitAll hpart c hc).2) h

private theorem TextSpace.all_normalize (hspace : p ' ' = true) {space : TextSpace} {s t : String}
    (hs : s.toList.all p = true) (h : space.normalize s = .ok t) : t.toList.all p = true := by
  unfold normalize at h
  dsimp only at h
  split at h
  · cases h
    rw [String.toList_ofList]
    exact space.whiteSpace.all_apply hspace hs
  · cases h

private theorem isDocumentChar_of_isNameChar {c : Char} (h : isNameChar c = true) :
    isDocumentChar c = true :=
  isDocumentChar_of_class (by decide +kernel) (by decide +kernel) h

private theorem all_isDocumentChar_of_isNCName {cs : List Char} (h : isNCName cs = true) :
    cs.all isDocumentChar = true :=
  List.all_eq_true.mpr fun c hc ↦
    isDocumentChar_of_isNameChar (List.all_eq_true.mp (all_isNameChar_of_isNCName h) c hc)

/-! ### Values -/

/-- A text, and the namespace of a name, are made of characters of a class. -/
def Scalar.IsMadeOf (p : Char → Bool) : Scalar → Prop
  | .string s => s.toList.all p = true
  | .name q => q.uri.toList.all p = true
  | _ => True

instance (p : Char → Bool) (s : Scalar) : Decidable (s.IsMadeOf p) :=
  match s with
  | .string s => inferInstanceAs (Decidable (s.toList.all p = true))
  | .name q => inferInstanceAs (Decidable (q.uri.toList.all p = true))
  | .bool _ | .integer _ | .decimal _ | .binary32 _ | .binary64 _ | .dateTime _ | .date _
  | .time _ | .duration _ => .isTrue trivial

/-- What is printed is made of characters of a class. -/
def Printed.IsMadeOf (p : Char → Bool) : Printed → Prop
  | .text s => s.toList.all p = true
  | .name q => q.uri.toList.all p = true ∧ q.localPart.toList.all p = true

include hp in
/-- A scalar is printed in characters of a class if the texts in it are. -/
theorem Codec.printScalar_isMadeOf {c : Codec} {s : Scalar} (hs : s.IsMadeOf p)
    {printed : Printed} (h : c.printScalar s = .ok printed) : printed.IsMadeOf p := by
  have hplain (cs : List Char) (hcs : cs.all isDocumentChar = true) :
      (Printed.text (String.ofList cs)).IsMadeOf p := by
    change (String.ofList cs).toList.all p = true
    rw [String.toList_ofList]
    exact all_of_all_isDocumentChar hp hcs
  unfold printScalar at h
  split at h
  · next b _ =>
    cases h
    cases b <;> exact all_of_all_isDocumentChar hp (by decide)
  · next space n _ =>
    cases hc : checkInteger space c.type n.number with
    | error cause => rw [hc] at h; cases h
    | ok m =>
      rw [hc] at h
      cases h
      exact hplain _ (Number.all_writeInt _)
  · cases h
    exact hplain _ (Number.Decimal.all_write _)
  · cases h
    exact hplain _ (Number.all_writeInt _)
  · cases h
    exact hplain _ (Number.Binary.all_write _)
  · cases h
    exact hplain _ (Number.Binary.all_write _)
  · cases h
    exact hplain _ (Number.Binary.all_write _)
  · next space text _ =>
    cases hn : space.normalize text with
    | error cause => rw [hn] at h; cases h
    | ok normal =>
      rw [hn] at h
      cases h
      exact TextSpace.all_normalize (hp ' ' (by decide)) hs hn
  · unfold printDateTime at h
    split at h
    · cases h
    · cases h
      exact hplain _ (Calendar.Zoned.all_write Calendar.LocalDateTime.all_write _)
  · cases h
    exact hplain _ (Calendar.Zoned.all_write Calendar.Date.all_write _)
  · unfold printTime at h
    split at h
    · cases h
    · cases h
      exact hplain _ (Calendar.Zoned.all_write Calendar.Time.all_write _)
  · cases h
    exact hplain _ (Calendar.Duration.all_write _)
  · unfold printName at h
    split at h
    · next hlocal =>
      cases h
      exact ⟨hs, all_of_all_isDocumentChar hp (all_isDocumentChar_of_isNCName hlocal)⟩
    · cases h
  · cases h

end Characters

end XmlBinding

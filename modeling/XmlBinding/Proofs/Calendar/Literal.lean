import XmlBinding.Lexical.Codec
import XmlBinding.Proofs.Number.Numeral

/-!
# The grammar of dates and times

A literal is a date, a clock time or both, and perhaps a zone, each made of fields with separators
between them. `Grammar.schema` is the grammar of XML Schema, in which the fields of a clock and of a
zone have two digits; `Grammar.lenient` is wider in these fields only. Even the wider grammar is
unambiguous: the text of a literal determines its fields.
-/

namespace XmlBinding.Calendar

open Number Text

/-! ### Fields -/

/-- Two digits. -/
def IsPair (cs : List Char) : Prop := isNumeral cs ∧ cs.length = 2

instance (cs : List Char) : Decidable (IsPair cs) := inferInstanceAs (Decidable (_ ∧ _))

/-- Four digits or more, the first of more than four not being zero. -/
def IsYear (cs : List Char) : Prop :=
  isNumeral cs ∧ 4 ≤ cs.length ∧ ¬ (4 < cs.length ∧ cs.head? = some '0')

/-- One or two digits behind blanks other than spaces, if there are any. -/
def IsClockField (cs : List Char) : Prop :=
  ∃ blanks digits, cs = blanks ++ digits ∧ (∀ c ∈ blanks, isBlank c ∧ c ≠ ' ') ∧
    isNumeral digits ∧ digits.length ≤ 2

/-- A sign and a digit. -/
def IsSignedDigit (cs : List Char) : Prop :=
  ∃ sign digit, (sign = '+' ∨ sign = '-') ∧ digit.isDigit ∧ cs = [sign, digit]

/-- What the fields of a clock and of a zone look like. -/
structure Grammar where
  clock : List Char → Prop
  hours : List Char → Prop
  minutes : List Char → Prop

/-- Two digits everywhere, and no more than fourteen hours in a zone. -/
def Grammar.schema : Grammar := ⟨IsPair, fun cs ↦ IsPair cs ∧ read cs ≤ 14, IsPair⟩

/-- A clock may have fields of one digit and behind blanks, a zone fields of a sign and a digit. -/
def Grammar.lenient : Grammar :=
  ⟨IsClockField, fun cs ↦ (IsPair cs ∧ read cs ≤ 14) ∨ IsSignedDigit cs,
    fun cs ↦ IsPair cs ∨ IsSignedDigit cs⟩

private theorem IsPair.isClockField {cs : List Char} (h : IsPair cs) : IsClockField cs :=
  ⟨[], cs, rfl, by simp, h.1, Nat.le_of_eq h.2⟩

private theorem IsPair.not_isSignedDigit {cs : List Char} (h : IsPair cs) : ¬ IsSignedDigit cs := by
  rintro ⟨sign, digit, hsign, -, rfl⟩
  refine not_mem_of_isNumeral h.1 (c := sign) ?_ List.mem_cons_self
  obtain rfl | rfl := hsign <;> rfl

private theorem IsClockField.not_mem {c : Char} {cs : List Char} (h : IsClockField cs)
    (hdigit : c.isDigit = false) (hblank : isBlank c = false) : c ∉ cs := by
  obtain ⟨blanks, digits, rfl, hblanks, hdigits, -⟩ := h
  intro hmem
  obtain hmem | hmem := List.mem_append.mp hmem
  · simp [(hblanks c hmem).1] at hblank
  · exact not_mem_of_isNumeral hdigits hdigit hmem

private theorem IsClockField.ne_nil {cs : List Char} (h : IsClockField cs) : cs ≠ [] := by
  rintro rfl
  obtain ⟨blanks, digits, hnil, -, hdigits, -⟩ := h
  obtain ⟨-, rfl⟩ := List.append_eq_nil_iff.mp hnil.symm
  cases hdigits

/-! ### Literals -/

/-- The fields of a date. -/
structure DateParts where
  isNegative : Bool
  year : List Char
  month : List Char
  day : List Char
  deriving DecidableEq

/-- The fields of a clock time. -/
structure ClockParts where
  hour : List Char
  minute : List Char
  second : List Char
  fraction : Option (List Char)
  deriving DecidableEq

/-- What a literal says about its zone. -/
inductive ZoneParts where
  | missing
  | universal
  /-- A sign, a minus in the west, hours and minutes. -/
  | offset (isWest : Bool) (hours minutes : List Char)
  deriving DecidableEq

/-- A literal without its zone. -/
inductive BodyParts where
  | date (d : DateParts)
  | time (t : ClockParts)
  | dateTime (d : DateParts) (t : ClockParts)
  deriving DecidableEq

/-- A date, a clock time or both, and a zone. -/
structure Literal where
  body : BodyParts
  zone : ZoneParts
  deriving DecidableEq

/-- The date as text. -/
def DateParts.text (d : DateParts) : List Char :=
  (if d.isNegative then ['-'] else []) ++ (d.year ++ '-' :: (d.month ++ '-' :: d.day))

/-- The fraction as text. -/
def fractionText : Option (List Char) → List Char
  | none => []
  | some digits => '.' :: digits

/-- The clock time as text. -/
def ClockParts.text (t : ClockParts) : List Char :=
  t.hour ++ ':' :: (t.minute ++ ':' :: (t.second ++ fractionText t.fraction))

/-- The zone as text. -/
def ZoneParts.text : ZoneParts → List Char
  | .missing => []
  | .universal => ['Z']
  | .offset isWest hours minutes =>
    (if isWest then '-' else '+') :: (hours ++ ':' :: minutes)

/-- The date and the time as text. -/
def BodyParts.text : BodyParts → List Char
  | .date d => d.text
  | .time t => t.text
  | .dateTime d t => d.text ++ 'T' :: t.text

/-- The literal as text. -/
def Literal.text (l : Literal) : List Char := l.body.text ++ l.zone.text

/-- The type that a literal belongs to. -/
def BodyParts.space : BodyParts → LexicalSpace
  | .date _ => .date
  | .time _ => .time
  | .dateTime _ _ => .dateTime

/-- Year, month and day have the digits that they need. -/
def DateParts.IsProper (d : DateParts) : Prop := IsYear d.year ∧ IsPair d.month ∧ IsPair d.day

/-- The fields of the clock are as the grammar has them, and digits follow the dot. -/
def ClockParts.Follows (g : Grammar) (t : ClockParts) : Prop :=
  g.clock t.hour ∧ g.clock t.minute ∧ g.clock t.second ∧ ∀ digits ∈ t.fraction, isNumeral digits

/-- The fields of the zone are as the grammar has them. -/
def ZoneParts.Follows (g : Grammar) : ZoneParts → Prop
  | .missing | .universal => True
  | .offset _ hours minutes => g.hours hours ∧ g.minutes minutes

/-- The date is proper, and the clock follows the grammar. -/
def BodyParts.Follows (g : Grammar) : BodyParts → Prop
  | .date d => d.IsProper
  | .time t => t.Follows g
  | .dateTime d t => d.IsProper ∧ t.Follows g

/-- The literal follows the grammar. -/
def Literal.Follows (g : Grammar) (l : Literal) : Prop := l.body.Follows g ∧ l.zone.Follows g

/-- The text is a literal of the type in the grammar of XML Schema. -/
def IsSchemaLiteral (space : LexicalSpace) (cs : List Char) : Prop :=
  ∃ l : Literal, l.body.space = space ∧ l.text = cs ∧ l.Follows .schema

/-- The fields in which the grammars differ: those of the clock. -/
def BodyParts.fields : BodyParts → List (List Char)
  | .date _ => []
  | .time t | .dateTime _ t => [t.hour, t.minute, t.second]

/-- The fields in which the grammars differ: those of the zone. -/
def ZoneParts.fields : ZoneParts → List (List Char)
  | .missing | .universal => []
  | .offset _ hours minutes => [hours, minutes]

/-- The fields in which the grammars differ. -/
def Literal.fields (l : Literal) : List (List Char) := l.body.fields ++ l.zone.fields

/-! ### The two grammars -/

private theorem ClockParts.follows_lenient {t : ClockParts} (h : t.Follows .schema) :
    t.Follows .lenient :=
  ⟨h.1.isClockField, h.2.1.isClockField, h.2.2.1.isClockField, h.2.2.2⟩

private theorem ZoneParts.follows_lenient {z : ZoneParts} (h : z.Follows .schema) :
    z.Follows .lenient := by
  cases z with
  | missing | universal => trivial
  | offset isWest hours minutes => exact ⟨.inl h.1, .inl h.2⟩

/-- What follows XML Schema also follows the lenient rules. -/
theorem BodyParts.follows_lenient {b : BodyParts} (h : b.Follows .schema) : b.Follows .lenient := by
  cases b with
  | date d => exact h
  | time t => exact ClockParts.follows_lenient h
  | dateTime d t => exact ⟨h.1, ClockParts.follows_lenient h.2⟩

private theorem Literal.follows_lenient {l : Literal} (h : l.Follows .schema) :
    l.Follows .lenient :=
  ⟨BodyParts.follows_lenient h.1, ZoneParts.follows_lenient h.2⟩

private theorem ClockParts.follows_schema_iff {t : ClockParts} (h : t.Follows .lenient) :
    t.Follows .schema ↔ ∀ field ∈ [t.hour, t.minute, t.second], IsPair field := by
  simp only [List.forall_mem_cons, List.not_mem_nil, false_implies, implies_true, and_true]
  exact ⟨fun hs ↦ ⟨hs.1, hs.2.1, hs.2.2.1⟩, fun hp ↦ ⟨hp.1, hp.2.1, hp.2.2, h.2.2.2⟩⟩

private theorem ZoneParts.follows_schema_iff {z : ZoneParts} (h : z.Follows .lenient) :
    z.Follows .schema ↔ ∀ field ∈ z.fields, IsPair field := by
  cases z with
  | missing | universal => simp [Follows, fields]
  | offset isWest hours minutes =>
    simp only [fields, List.forall_mem_cons, List.not_mem_nil, false_implies, implies_true,
      and_true]
    refine ⟨fun hs ↦ ⟨hs.1.1, hs.2⟩, fun hp ↦ ⟨?_, hp.2⟩⟩
    exact h.1.resolve_right hp.1.not_isSignedDigit

/-- A lenient literal is one of XML Schema exactly if the fields of its clock and its zone have two
digits each. -/
private theorem Literal.follows_schema_iff {l : Literal} (h : l.Follows .lenient) :
    l.Follows .schema ↔ ∀ field ∈ l.fields, IsPair field := by
  obtain ⟨body, zone⟩ := l
  obtain ⟨hbody, hzone⟩ := h
  simp only [Follows, fields, List.forall_mem_append, ZoneParts.follows_schema_iff hzone]
  refine and_congr_left fun _ ↦ ?_
  cases body with
  | date d => simpa [BodyParts.Follows, BodyParts.fields] using hbody
  | time t => exact ClockParts.follows_schema_iff hbody
  | dateTime d t =>
    exact (and_iff_right hbody.1).trans (ClockParts.follows_schema_iff hbody.2)

/-! ### Characters -/

/-- A date is written in digits and dashes. -/
theorem DateParts.not_mem_text {c : Char} {d : DateParts} (h : d.IsProper)
    (hdigit : c.isDigit = false) (hdash : c ≠ '-') : c ∉ d.text := by
  have hyear := not_mem_of_isNumeral h.1.1 hdigit
  have hmonth := not_mem_of_isNumeral h.2.1.1 hdigit
  have hday := not_mem_of_isNumeral h.2.2.1 hdigit
  cases hd : d.isNegative <;> simp [text, hd, hyear, hmonth, hday, hdash]

/-- A fraction is written in digits behind a dot. -/
theorem not_mem_fractionText {c : Char} {fraction : Option (List Char)}
    (h : ∀ digits ∈ fraction, isNumeral digits) (hdigit : c.isDigit = false) (hdot : c ≠ '.') :
    c ∉ fractionText fraction := by
  cases fraction with
  | none => simp [fractionText]
  | some digits => simp [fractionText, hdot, not_mem_of_isNumeral (h digits rfl) hdigit]

private theorem ClockParts.not_mem_text {c : Char} {t : ClockParts} (h : t.Follows .lenient)
    (hdigit : c.isDigit = false) (hblank : isBlank c = false) (hcolon : c ≠ ':') (hdot : c ≠ '.') :
    c ∉ t.text := by
  obtain ⟨hhour, hminute, hsecond, hfraction⟩ := h
  simp only [text, List.mem_append, List.mem_cons, not_or]
  exact ⟨IsClockField.not_mem hhour hdigit hblank, hcolon,
    IsClockField.not_mem hminute hdigit hblank, hcolon,
    IsClockField.not_mem hsecond hdigit hblank, not_mem_fractionText hfraction hdigit hdot⟩

/-! ### The fields of a text -/

/-- A date is split at its dashes into its parts, behind an empty one if the year is negative. -/
theorem DateParts.splitAll_text {d : DateParts} (h : d.IsProper) :
    splitAll (· == '-') d.text =
      (if d.isNegative then [[]] else []) ++ [d.year, d.month, d.day] := by
  have hyear := splitAll_of_not_mem (not_mem_of_isNumeral (c := '-') h.1.1 rfl)
  have hmonth := splitAll_of_not_mem (not_mem_of_isNumeral (c := '-') h.2.1.1 rfl)
  have hday := splitAll_of_not_mem (not_mem_of_isNumeral (c := '-') h.2.2.1 rfl)
  have hrest : splitAll (· == '-') (d.year ++ '-' :: (d.month ++ '-' :: d.day)) =
      [d.year, d.month, d.day] := by
    rw [splitAll_append, splitAll_append, hyear, hmonth, hday]
    rfl
  cases hd : d.isNegative with
  | false => simpa [text, hd] using hrest
  | true =>
    have hminus := splitAll_append '-' [] (d.year ++ '-' :: (d.month ++ '-' :: d.day))
    rw [hrest] at hminus
    simpa [text, hd, splitAll] using hminus

private theorem DateParts.text_inj {d e : DateParts} (hd : d.IsProper) (he : e.IsProper)
    (h : d.text = e.text) : d = e := by
  have hfields := congrArg (splitAll (· == '-')) h
  rw [splitAll_text hd, splitAll_text he] at hfields
  obtain ⟨isNegative, year, month, day⟩ := d
  obtain ⟨isNegative', year', month', day'⟩ := e
  cases isNegative <;> cases isNegative' <;> simp_all

private theorem ClockParts.splitAll_text {t : ClockParts} (h : t.Follows .lenient) :
    splitAll (· == ':') t.text = [t.hour, t.minute, t.second ++ fractionText t.fraction] := by
  obtain ⟨hhour, hminute, hsecond, hfraction⟩ := h
  have hrest : ':' ∉ t.second ++ fractionText t.fraction := by
    rw [List.mem_append, not_or]
    exact ⟨IsClockField.not_mem hsecond rfl rfl, not_mem_fractionText hfraction rfl (by decide)⟩
  rw [text, splitAll_append, splitAll_append,
    splitAll_of_not_mem (IsClockField.not_mem hhour rfl rfl),
    splitAll_of_not_mem (IsClockField.not_mem hminute rfl rfl), splitAll_of_not_mem hrest]
  rfl

private theorem splitAll_fractionText {second : List Char} {fraction : Option (List Char)}
    (hsecond : IsClockField second) (hfraction : ∀ digits ∈ fraction, isNumeral digits) :
    splitAll (· == '.') (second ++ fractionText fraction) = second :: fraction.toList := by
  have hdot := splitAll_of_not_mem (hsecond.not_mem (c := '.') rfl rfl)
  cases fraction with
  | none => simpa [fractionText] using hdot
  | some digits =>
    rw [fractionText, splitAll_append, hdot,
      splitAll_of_not_mem (not_mem_of_isNumeral (hfraction digits rfl) rfl)]
    rfl

private theorem ClockParts.text_inj {t u : ClockParts} (ht : t.Follows .lenient)
    (hu : u.Follows .lenient) (h : t.text = u.text) : t = u := by
  have hfields := congrArg (splitAll (· == ':')) h
  rw [splitAll_text ht, splitAll_text hu] at hfields
  simp only [List.cons.injEq, and_true] at hfields
  obtain ⟨hhour, hminute, hrest⟩ := hfields
  have hparts := congrArg (splitAll (· == '.')) hrest
  rw [splitAll_fractionText ht.2.2.1 ht.2.2.2, splitAll_fractionText hu.2.2.1 hu.2.2.2] at hparts
  obtain ⟨hsecond, hfraction⟩ := List.cons.inj hparts
  have hfraction : t.fraction = u.fraction := by
    simpa using congrArg List.head? hfraction
  cases t
  cases u
  simp_all

/-! ### The zone of a text -/

/-- The zone that a text ends in. -/
def zoneOf (cs : List Char) : ZoneParts :=
  match cs.reverse with
  | 'Z' :: _ => .universal
  | m₂ :: m₁ :: ':' :: h₂ :: h₁ :: sign :: _ =>
    if sign = '+' ∨ sign = '-' then .offset (sign = '-') [h₁, h₂] [m₁, m₂] else .missing
  | _ => .missing

private theorem zoneOf_eq_missing {cs : List Char} (hletter : 'Z' ∉ cs)
    (hoffset : ∀ m₂ m₁ h₂ h₁ sign rest, cs.reverse = m₂ :: m₁ :: ':' :: h₂ :: h₁ :: sign :: rest →
      sign ≠ '+' ∧ sign ≠ '-') : zoneOf cs = .missing := by
  unfold zoneOf
  split
  · next rest hcs =>
    have hmem : 'Z' ∈ cs.reverse := by simp [hcs]
    exact absurd (List.mem_reverse.mp hmem) hletter
  · next m₂ m₁ h₂ h₁ sign rest _ hcs =>
    have hsign := hoffset m₂ m₁ h₂ h₁ sign rest hcs
    simp [hsign.1, hsign.2]
  · rfl

/-- A field of a zone has two characters, the second of which is a digit. -/
private theorem exists_of_zone_field {cs : List Char} (h : IsPair cs ∨ IsSignedDigit cs) :
    ∃ a b, cs = [a, b] ∧ b.isDigit := by
  obtain ⟨hdigits, hlength⟩ | ⟨sign, digit, -, hdigit, rfl⟩ := h
  · match cs, hlength with
    | [a, b], _ =>
      have hboth : a.isDigit ∧ b.isDigit := by simpa [isNumeral] using hdigits
      exact ⟨a, b, rfl, hboth.2⟩
  · exact ⟨sign, digit, rfl, hdigit⟩

private theorem ZoneParts.zoneOf_text {z : ZoneParts} (h : z.Follows .lenient) {body : List Char}
    (hbody : zoneOf body = .missing) : zoneOf (body ++ z.text) = z := by
  cases z with
  | missing => simpa [text] using hbody
  | universal => simp [zoneOf, text]
  | offset isWest hours minutes =>
    obtain ⟨hhours, hminutes⟩ := h
    obtain ⟨h₁, h₂, rfl, -⟩ := exists_of_zone_field (hhours.imp_left And.left)
    obtain ⟨m₁, m₂, rfl, hm₂⟩ := exists_of_zone_field hminutes
    -- A digit at the end is not taken for the letter of universal time.
    have hne : m₂ ≠ 'Z' := by
      rintro rfl
      cases hm₂
    cases isWest <;> simp [zoneOf, text]

private theorem ClockParts.five_le_length_text {t : ClockParts} (h : t.Follows .lenient) :
    5 ≤ t.text.length := by
  have hhour := List.length_pos_iff.mpr (IsClockField.ne_nil h.1)
  have hminute := List.length_pos_iff.mpr (IsClockField.ne_nil h.2.1)
  have hsecond := List.length_pos_iff.mpr (IsClockField.ne_nil h.2.2.1)
  simp only [text, List.length_append, List.length_cons]
  omega

/-- A text does not look as if it had a zone if it ends in six characters, or consists of any
number, without a sign. -/
private theorem zoneOf_append_eq_missing {cs ds : List Char} (hletter : 'Z' ∉ cs ++ ds)
    (hplus : '+' ∉ ds) (hminus : '-' ∉ ds) (h : cs = [] ∨ 6 ≤ ds.length) :
    zoneOf (cs ++ ds) = .missing := by
  refine zoneOf_eq_missing hletter fun m₂ m₁ h₂ h₁ sign rest hcs ↦ ?_
  have hmem : sign ∈ ds := by
    obtain rfl | hlength := h
    · exact List.mem_reverse.mp (by simp_all)
    · have hsixth : (cs ++ ds).reverse[5]? = some sign := by rw [hcs]; rfl
      rw [List.reverse_append, List.getElem?_append_left (by rw [List.length_reverse]; omega)]
        at hsixth
      exact List.mem_reverse.mp (List.mem_of_getElem? hsixth)
  exact ⟨fun e ↦ hplus (e ▸ hmem), fun e ↦ hminus (e ▸ hmem)⟩

private theorem ClockParts.free_text {t : ClockParts} (h : t.Follows .lenient) :
    'Z' ∉ t.text ∧ '+' ∉ t.text ∧ '-' ∉ t.text :=
  ⟨not_mem_text h rfl rfl (by decide) (by decide), not_mem_text h rfl rfl (by decide) (by decide),
    not_mem_text h rfl rfl (by decide) (by decide)⟩

/-- No literal without a zone looks as if it had one. -/
theorem BodyParts.zoneOf_text {b : BodyParts} (h : b.Follows .lenient) :
    zoneOf b.text = .missing := by
  cases b with
  | date d =>
    refine zoneOf_eq_missing (DateParts.not_mem_text h rfl (by decide)) ?_
    -- A zone with a sign has a colon, and a date has none.
    intro m₂ m₁ h₂ h₁ sign rest hcs
    have hmem : ':' ∈ d.text := List.mem_reverse.mp (by
      change d.text.reverse = _ at hcs
      simp [hcs])
    exact absurd hmem (DateParts.not_mem_text h rfl (by decide))
  | time t =>
    obtain ⟨hletter, hplus, hminus⟩ := ClockParts.free_text h
    exact @zoneOf_append_eq_missing [] t.text hletter hplus hminus (.inl rfl)
  | dateTime d t =>
    obtain ⟨hdate, htime⟩ := h
    obtain ⟨hletter, hplus, hminus⟩ := ClockParts.free_text htime
    have hdateLetter : 'Z' ∉ d.text := DateParts.not_mem_text hdate rfl (by decide)
    have hlength := ClockParts.five_le_length_text htime
    exact zoneOf_append_eq_missing (by simp [hdateLetter, hletter]) (by simp [hplus])
      (by simp [hminus]) (.inr (by rw [List.length_cons]; omega))

private theorem BodyParts.text_inj {b c : BodyParts} (hspace : b.space = c.space)
    (hb : b.Follows .lenient) (hc : c.Follows .lenient) (h : b.text = c.text) : b = c := by
  cases b <;> cases c <;> simp only [space, reduceCtorEq] at hspace
  case date.date d e => rw [DateParts.text_inj hb hc h]
  case time.time t u => rw [ClockParts.text_inj hb hc h]
  case dateTime.dateTime d t e u =>
    have hsplit {d : DateParts} (hd : d.IsProper) (rest : List Char) :
        splitFirst 'T' (d.text ++ 'T' :: rest) = some (d.text, rest) :=
      splitFirst_eq_some_iff.mpr ⟨DateParts.not_mem_text hd rfl (by decide), rfl⟩
    have hparts : some (d.text, t.text) = some (e.text, u.text) := by
      rw [← hsplit hb.1, ← hsplit hc.1]
      exact congrArg (splitFirst 'T') h
    simp only [Option.some.injEq, Prod.mk.injEq] at hparts
    rw [DateParts.text_inj hb.1 hc.1 hparts.1, ClockParts.text_inj hb.2 hc.2 hparts.2]

private theorem Literal.text_inj {l m : Literal} (hspace : l.body.space = m.body.space)
    (hl : l.Follows .lenient) (hm : m.Follows .lenient) (h : l.text = m.text) : l = m := by
  have hzone : l.zone = m.zone := by
    rw [← ZoneParts.zoneOf_text hl.2 (BodyParts.zoneOf_text hl.1),
      ← ZoneParts.zoneOf_text hm.2 (BodyParts.zoneOf_text hm.1)]
    exact congrArg zoneOf h
  have hbody : l.body.text = m.body.text := by
    rw [text, text, hzone] at h
    exact List.append_cancel_right h
  have hparts := BodyParts.text_inj hspace hl.1 hm.1 hbody
  cases l
  cases m
  simp_all

/-- The text of a lenient literal is one of XML Schema exactly if the fields of its clock and its
zone have two digits each. -/
theorem isSchemaLiteral_text_iff {l : Literal} (h : l.Follows .lenient) :
    IsSchemaLiteral l.body.space l.text ↔ ∀ field ∈ l.fields, IsPair field := by
  rw [← Literal.follows_schema_iff h]
  refine ⟨?_, fun hschema ↦ ⟨l, rfl, rfl, hschema⟩⟩
  rintro ⟨m, hspace, htext, hschema⟩
  exact Literal.text_inj hspace (Literal.follows_lenient hschema) h htext ▸ hschema

end XmlBinding.Calendar

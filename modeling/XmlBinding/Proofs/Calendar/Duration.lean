import XmlBinding.Proofs.Calendar.Reading
import XmlBinding.Proofs.Number.Numeral

/-!
# The grammar of durations

A duration literal is a sign, `P`, and components with their designators in a fixed order, those of
the clock behind a `T`. Exactly these literals are read, each as the duration whose fields are the
numbers of its components (`Codec.read_duration`).
-/

namespace XmlBinding

namespace Calendar

open Number Text

/-! ### Literals -/

/-- The digits of a number of 32 bits. -/
def IsComponent (cs : List Char) : Prop := isNumeral cs ∧ read cs < 2 ^ 32

instance (cs : List Char) : Decidable (IsComponent cs) := inferInstanceAs (Decidable (_ ∧ _))

/-- The seconds of a duration. -/
structure SecondParts where
  whole : List Char
  fraction : Option (List Char)
  deriving DecidableEq

/-- The components of a duration, each of which may be missing. -/
structure DurationParts where
  isNegative : Bool
  years : Option (List Char)
  months : Option (List Char)
  days : Option (List Char)
  hours : Option (List Char)
  minutes : Option (List Char)
  seconds : Option SecondParts
  deriving DecidableEq

/-- A component as text: its digits and its designator. -/
def componentText (designator : Char) : Option (List Char) → List Char
  | none => []
  | some digits => digits ++ [designator]

/-- The seconds as text. -/
def secondsText : Option SecondParts → List Char
  | none => []
  | some s => s.whole ++ fractionText s.fraction ++ ['S']

/-- The components of the clock behind their `T`, which is not there without them. -/
def clockText : List Char → List Char
  | [] => []
  | clock => 'T' :: clock

namespace DurationParts

/-- The components of the calendar as text. -/
def calendar (p : DurationParts) : List Char :=
  componentText 'Y' p.years ++ (componentText 'M' p.months ++ componentText 'D' p.days)

/-- The components of the clock as text. -/
def clock (p : DurationParts) : List Char :=
  componentText 'H' p.hours ++ (componentText 'M' p.minutes ++ secondsText p.seconds)

/-- The duration as text. -/
def text (p : DurationParts) : List Char :=
  (if p.isNegative then ['-'] else []) ++ 'P' :: (p.calendar ++ clockText p.clock)

end DurationParts

/-- The seconds have digits on either side of their dot, at most nine behind it. -/
def SecondParts.IsProper (s : SecondParts) : Prop :=
  IsComponent s.whole ∧ ∀ digits ∈ s.fraction, isNumeral digits ∧ digits.length ≤ 9

/-- Every component is a number of 32 bits, and there is one at least. -/
structure DurationParts.IsProper (p : DurationParts) : Prop where
  years : ∀ digits ∈ p.years, IsComponent digits
  months : ∀ digits ∈ p.months, IsComponent digits
  days : ∀ digits ∈ p.days, IsComponent digits
  hours : ∀ digits ∈ p.hours, IsComponent digits
  minutes : ∀ digits ∈ p.minutes, IsComponent digits
  seconds : ∀ s ∈ p.seconds, s.IsProper
  exists_component : p.years.isSome ∨ p.months.isSome ∨ p.days.isSome ∨ p.hours.isSome ∨
    p.minutes.isSome ∨ p.seconds.isSome

/-- The number of a component; zero if it is missing. -/
def componentValue (component : Option (List Char)) : Nat := component.elim 0 read

/-- The nanoseconds of a fraction; zero if it is missing. -/
def fractionValue (fraction : Option (List Char)) : Nat :=
  fraction.elim 0 fun digits ↦ read digits * 10 ^ (9 - digits.length)

/-- Every field of the duration is the number of its component. -/
structure DurationParts.Denotes (p : DurationParts) (d : Duration) : Prop where
  negative : d.negative = p.isNegative
  years : d.years.toNat = componentValue p.years
  months : d.months.toNat = componentValue p.months
  days : d.days.toNat = componentValue p.days
  hours : d.hours.toNat = componentValue p.hours
  minutes : d.minutes.toNat = componentValue p.minutes
  seconds : d.seconds.toNat = componentValue (p.seconds.map SecondParts.whole)
  nanos : d.nanos.toNat = fractionValue (p.seconds.bind SecondParts.fraction)

/-! ### Components -/

/-- The number of a component in 32 bits. -/
def componentField (digits : List Char) : UInt32 := (read digits).toUInt32

/-- The nanoseconds of a fraction in 32 bits. -/
def fractionField (digits : List Char) : UInt32 :=
  (read (digits ++ List.replicate (9 - digits.length) '0')).toUInt32

private theorem toNat_componentField {component : Option (List Char)}
    (h : ∀ digits ∈ component, IsComponent digits) :
    ((component.map componentField).getD 0).toNat = componentValue component := by
  cases component with
  | none => rfl
  | some digits => exact UInt32.toNat_ofNat_of_lt' (h digits rfl).2

/-- A fraction is less than a second. -/
theorem fractionValue_lt {fraction : Option (List Char)}
    (h : ∀ digits ∈ fraction, isNumeral digits ∧ digits.length ≤ 9) :
    fractionValue fraction < nanosPerSecond := by
  cases fraction with
  | none => decide
  | some digits =>
    obtain ⟨hdigits, hlength⟩ := h digits rfl
    have hlt : read digits < 10 ^ digits.length := read_lt (isDigit_of_isNumeral hdigits)
    calc read digits * 10 ^ (9 - digits.length)
        < 10 ^ digits.length * 10 ^ (9 - digits.length) :=
          Nat.mul_lt_mul_of_pos_right hlt (Nat.pow_pos (by decide))
      _ = 10 ^ 9 := by rw [← Nat.pow_add, Nat.add_sub_cancel' hlength]

/-- The nanoseconds of a fraction fit into 32 bits. -/
theorem toNat_fractionField {fraction : Option (List Char)}
    (h : ∀ digits ∈ fraction, isNumeral digits ∧ digits.length ≤ 9) :
    ((fraction.map fractionField).getD 0).toNat = fractionValue fraction := by
  have hlt : fractionValue fraction < nanosPerSecond := fractionValue_lt h
  cases fraction with
  | none => rfl
  | some digits =>
    change (read _).toUInt32.toNat = read digits * 10 ^ (9 - digits.length)
    rw [read_append_zeros]
    exact UInt32.toNat_ofNat_of_lt' (Nat.lt_trans hlt (by decide))

namespace Duration

private theorem readComponent?_eq_some_iff {cs : List Char} {n : UInt32} :
    readComponent? cs = some n ↔ IsComponent cs ∧ n = componentField cs := by
  unfold readComponent?
  rw [Option.ite_none_right_eq_some, Option.some.injEq]
  exact and_congr_right fun _ ↦ eq_comm

private theorem readNanos?_eq_some_iff {cs : List Char} {n : UInt32} :
    readNanos? cs = some n ↔ (isNumeral cs ∧ cs.length ≤ 9) ∧ n = fractionField cs := by
  unfold readNanos?
  rw [Option.ite_none_right_eq_some, Option.some.injEq]
  exact and_congr_right fun _ ↦ eq_comm

private theorem exists_component {designator : Char} {cs rest : List Char} {n : Option UInt32}
    (h : readBefore? designator cs = some (n, rest)) :
    ∃ component, (∀ digits ∈ component, IsComponent digits) ∧
      cs = componentText designator component ++ rest ∧ n = component.map componentField := by
  unfold readBefore? at h
  split at h
  · obtain ⟨rfl, rfl⟩ := Prod.mk.inj (Option.some.inj h)
    exact ⟨none, by simp, rfl, rfl⟩
  · next digits after hsplit =>
    obtain ⟨m, hm, hresult⟩ := Option.map_eq_some_iff.mp h
    obtain ⟨rfl, rfl⟩ := Prod.mk.inj hresult
    obtain ⟨hproper, rfl⟩ := readComponent?_eq_some_iff.mp hm
    obtain ⟨-, rfl⟩ := splitFirst_eq_some_iff.mp hsplit
    exact ⟨some digits, by simpa using hproper, by simp [componentText], rfl⟩

/-- A component is read before its designator; a missing one if no such designator follows. -/
private theorem readBefore?_componentText {designator : Char} {component : Option (List Char)}
    {rest : List Char} (hproper : ∀ digits ∈ component, IsComponent digits)
    (hdigit : designator.isDigit = false) (hrest : designator ∉ rest) :
    readBefore? designator (componentText designator component ++ rest) =
      some (component.map componentField, rest) := by
  cases component with
  | none => simp [readBefore?, componentText, splitFirst_eq_none_iff.mpr hrest]
  | some digits =>
    have hcomponent : IsComponent digits := hproper digits rfl
    have hsplit : splitFirst designator (digits ++ designator :: rest) = some (digits, rest) :=
      splitFirst_eq_some_iff.mpr ⟨not_mem_of_isNumeral hcomponent.1 hdigit, rfl⟩
    have hread : readComponent? digits = some (componentField digits) :=
      readComponent?_eq_some_iff.mpr ⟨hcomponent, rfl⟩
    simp [readBefore?, componentText, hsplit, hread]

end Duration

/-- The characters of a component are digits, and its designator. -/
theorem not_mem_componentText {c designator : Char} {component : Option (List Char)}
    (h : ∀ digits ∈ component, IsComponent digits) (hdigit : c.isDigit = false)
    (hne : c ≠ designator) : c ∉ componentText designator component := by
  cases component with
  | none => simp [componentText]
  | some digits => simp [componentText, hne, not_mem_of_isNumeral (h digits rfl).1 hdigit]

/-! ### Seconds -/

/-- Seconds and nanoseconds in 32 bits each. -/
def SecondParts.fields (s : SecondParts) : UInt32 × UInt32 :=
  (componentField s.whole, (s.fraction.map fractionField).getD 0)

private theorem Duration.exists_seconds {cs : List Char} {n : Option (UInt32 × UInt32)}
    (h : readSeconds? cs = some n) :
    ∃ seconds : Option SecondParts, (∀ s ∈ seconds, s.IsProper) ∧ cs = secondsText seconds ∧
      n = seconds.map SecondParts.fields := by
  unfold readSeconds? at h
  split at h
  · next hcs =>
    obtain rfl := Option.some.inj h
    exact ⟨none, by simp, List.reverse_eq_nil_iff.mp hcs, rfl⟩
  · next digits hcs =>
    have htext : cs = digits.reverse ++ ['S'] := by simpa using congrArg List.reverse hcs
    split at h
    · obtain ⟨m, hm, rfl⟩ := Option.map_eq_some_iff.mp h
      obtain ⟨hwhole, rfl⟩ := readComponent?_eq_some_iff.mp hm
      exact ⟨some ⟨digits.reverse, none⟩, by simpa [SecondParts.IsProper] using hwhole,
        by simp [secondsText, fractionText, htext], rfl⟩
    · next whole fraction hsplit =>
      simp only [Option.bind_eq_bind, Option.bind_eq_some_iff] at h
      obtain ⟨m, hm, k, hk, hresult⟩ := h
      obtain rfl := Option.some.inj hresult
      obtain ⟨hwhole, rfl⟩ := readComponent?_eq_some_iff.mp hm
      obtain ⟨hfraction, rfl⟩ := readNanos?_eq_some_iff.mp hk
      obtain ⟨-, hdigits⟩ := splitFirst_eq_some_iff.mp hsplit
      exact ⟨some ⟨whole, some fraction⟩, by simpa [SecondParts.IsProper] using ⟨hwhole, hfraction⟩,
        by simp [secondsText, fractionText, htext, hdigits], rfl⟩
  · cases h

/-- Seconds are read at the end of a duration, missing ones as well. -/
private theorem Duration.readSeconds?_secondsText {seconds : Option SecondParts}
    (h : ∀ s ∈ seconds, s.IsProper) :
    readSeconds? (secondsText seconds) = some (seconds.map SecondParts.fields) := by
  cases seconds with
  | none => rfl
  | some s =>
    obtain ⟨whole, fraction⟩ := s
    obtain ⟨hwhole, hfraction⟩ := h _ rfl
    have hdot : '.' ∉ whole := not_mem_of_isNumeral hwhole.1 rfl
    have hread : readComponent? whole = some (componentField whole) :=
      readComponent?_eq_some_iff.mpr ⟨hwhole, rfl⟩
    cases fraction with
    | none =>
      simp [readSeconds?, secondsText, fractionText, splitFirst_eq_none_iff.mpr hdot, hread,
        SecondParts.fields]
    | some digits =>
      have hsplit : splitFirst '.' (whole ++ '.' :: digits) = some (whole, digits) :=
        splitFirst_eq_some_iff.mpr ⟨hdot, rfl⟩
      have hnanos : readNanos? digits = some (fractionField digits) :=
        readNanos?_eq_some_iff.mpr ⟨hfraction digits rfl, rfl⟩
      simp [readSeconds?, secondsText, fractionText, hsplit, hread, hnanos, SecondParts.fields]

private theorem not_mem_secondsText {c : Char} {seconds : Option SecondParts}
    (h : ∀ s ∈ seconds, s.IsProper) (hdigit : c.isDigit = false) (hdot : c ≠ '.') (hne : c ≠ 'S') :
    c ∉ secondsText seconds := by
  cases seconds with
  | none => simp [secondsText]
  | some s =>
    obtain ⟨hwhole, hfraction⟩ := h s rfl
    have hdigits := not_mem_fractionText (fun digits hd ↦ (hfraction digits hd).1) hdigit hdot
    simp [secondsText, hne, not_mem_of_isNumeral hwhole.1 hdigit, hdigits]

/-! ### Durations -/

/-- The characters between the digits of a duration. -/
def designators : List Char := ['-', 'P', 'Y', 'M', 'D', 'T', 'H', '.', 'S']

/-- No designator is a blank. -/
theorem isBlank_of_mem_designators : ∀ c ∈ designators, isBlank c = false := by
  simp [designators, isBlank]

/-- A duration is written in digits and designators. -/
theorem DurationParts.not_mem_text {c : Char} {p : DurationParts} (h : p.IsProper)
    (hdigit : c.isDigit = false) (hdesignator : c ∉ designators) : c ∉ p.text := by
  simp only [designators, List.mem_cons, List.not_mem_nil, or_false, not_or] at hdesignator
  obtain ⟨hdash, hP, hY, hM, hD, hT, hH, hdot, hS⟩ := hdesignator
  have hsign : c ∉ if p.isNegative then ['-'] else [] := by
    split <;> simp [hdash]
  have hclock : c ∉ p.clock := by
    simp only [clock, List.mem_append, not_or]
    exact ⟨not_mem_componentText h.hours hdigit hH, not_mem_componentText h.minutes hdigit hM,
      not_mem_secondsText h.seconds hdigit hdot hS⟩
  have hbehind : c ∉ clockText p.clock := by
    cases hp : p.clock with
    | nil => simp [clockText]
    | cons d ds =>
      rw [hp] at hclock
      rw [clockText, List.mem_cons, not_or]
      · exact ⟨hT, hclock⟩
      · simp
  simp only [text, calendar, List.mem_append, List.mem_cons, not_or]
  exact ⟨hsign, hP, ⟨not_mem_componentText h.years hdigit hY,
    not_mem_componentText h.months hdigit hM, not_mem_componentText h.days hdigit hD⟩, hbehind⟩

private theorem Duration.eq_of_splitClock {cs calendar clock : List Char}
    (h : splitClock cs = some (calendar, clock)) : cs = calendar ++ clockText clock := by
  unfold splitClock at h
  split at h
  · obtain ⟨rfl, rfl⟩ := Prod.mk.inj (Option.some.inj h)
    simp [clockText]
  · cases h
  · next before after hne hsplit =>
    obtain ⟨rfl, rfl⟩ := Prod.mk.inj (Option.some.inj h)
    obtain ⟨-, rfl⟩ := splitFirst_eq_some_iff.mp hsplit
    cases after with
    | nil => exact absurd rfl hne
    | cons c cs => rfl

private theorem Duration.splitClock_clockText {calendar clock : List Char} (h : 'T' ∉ calendar) :
    splitClock (calendar ++ clockText clock) = some (calendar, clock) := by
  cases clock with
  | nil => simp [splitClock, clockText, splitFirst_eq_none_iff.mpr h]
  | cons c cs =>
    have hsplit : splitFirst 'T' (calendar ++ 'T' :: c :: cs) = some (calendar, c :: cs) :=
      splitFirst_eq_some_iff.mpr ⟨h, rfl⟩
    simp [splitClock, clockText, hsplit]

namespace DurationParts

/-- The duration of the components. -/
def value (p : DurationParts) : Duration where
  negative := p.isNegative
  years := (p.years.map componentField).getD 0
  months := (p.months.map componentField).getD 0
  days := (p.days.map componentField).getD 0
  hours := (p.hours.map componentField).getD 0
  minutes := (p.minutes.map componentField).getD 0
  seconds := ((p.seconds.map SecondParts.fields).map Prod.fst).getD 0
  nanos := ((p.seconds.map SecondParts.fields).map Prod.snd).getD 0

/-- The fraction of the seconds has digits, and no more than nine. -/
theorem IsProper.fraction {p : DurationParts} (h : p.IsProper) :
    ∀ digits ∈ p.seconds.bind SecondParts.fraction, isNumeral digits ∧ digits.length ≤ 9 := by
  intro digits hmem
  obtain ⟨s, hs, hdigits⟩ := Option.bind_eq_some_iff.mp hmem
  exact (h.seconds s hs).2 digits hdigits

/-- The value of a proper literal is the duration that it denotes. -/
theorem denotes_value {p : DurationParts} (h : p.IsProper) : p.Denotes p.value where
  negative := rfl
  years := toNat_componentField h.years
  months := toNat_componentField h.months
  days := toNat_componentField h.days
  hours := toNat_componentField h.hours
  minutes := toNat_componentField h.minutes
  seconds := by
    have hwhole : ∀ digits ∈ p.seconds.map SecondParts.whole, IsComponent digits := by
      intro digits hmem
      obtain ⟨s, hs, rfl⟩ := Option.map_eq_some_iff.mp hmem
      exact (h.seconds s hs).1
    rw [← toNat_componentField hwhole]
    simp [value, SecondParts.fields, Function.comp_def]
  nanos := by
    rw [← toNat_fractionField h.fraction]
    cases hs : p.seconds <;> simp [value, hs, SecondParts.fields]

private theorem readFields?_text {p : DurationParts} (h : p.IsProper) :
    Duration.readFields? p.isNegative (p.calendar ++ clockText p.clock) = some p.value := by
  have hsplit : Duration.splitClock (p.calendar ++ clockText p.clock) =
      some (p.calendar, p.clock) := by
    refine Duration.splitClock_clockText ?_
    simp only [calendar, List.mem_append, not_or]
    exact ⟨not_mem_componentText h.years rfl (by decide),
      not_mem_componentText h.months rfl (by decide), not_mem_componentText h.days rfl (by decide)⟩
  have hyears : Duration.readBefore? 'Y' p.calendar = some (p.years.map componentField,
      componentText 'M' p.months ++ componentText 'D' p.days) := by
    refine Duration.readBefore?_componentText h.years rfl ?_
    rw [List.mem_append, not_or]
    exact ⟨not_mem_componentText h.months rfl (by decide),
      not_mem_componentText h.days rfl (by decide)⟩
  have hmonths : Duration.readBefore? 'M' (componentText 'M' p.months ++ componentText 'D' p.days) =
      some (p.months.map componentField, componentText 'D' p.days) :=
    Duration.readBefore?_componentText h.months rfl (not_mem_componentText h.days rfl (by decide))
  have hdays : Duration.readBefore? 'D' (componentText 'D' p.days) =
      some (p.days.map componentField, []) := by
    have hread := @Duration.readBefore?_componentText 'D' p.days [] h.days rfl (by simp)
    rwa [List.append_nil] at hread
  have hhours : Duration.readBefore? 'H' p.clock = some (p.hours.map componentField,
      componentText 'M' p.minutes ++ secondsText p.seconds) := by
    refine Duration.readBefore?_componentText h.hours rfl ?_
    rw [List.mem_append, not_or]
    exact ⟨not_mem_componentText h.minutes rfl (by decide),
      not_mem_secondsText h.seconds rfl (by decide) (by decide)⟩
  have hminutes : Duration.readBefore? 'M' (componentText 'M' p.minutes ++ secondsText p.seconds) =
      some (p.minutes.map componentField, secondsText p.seconds) :=
    Duration.readBefore?_componentText h.minutes rfl
      (not_mem_secondsText h.seconds rfl (by decide) (by decide))
  have hsome := h.exists_component
  simp only [Duration.readFields?, Option.bind_eq_bind, Option.bind_some, hsplit, hyears, hmonths,
    hdays, hhours, hminutes, Duration.readSeconds?_secondsText h.seconds, Option.isSome_map,
    Bool.or_eq_true, or_assoc, List.isEmpty_nil, guard, if_pos hsome, if_true, Option.pure_def]
  rfl

private theorem exists_of_readFields? {negative : Bool} {cs : List Char} {d : Duration}
    (h : Duration.readFields? negative cs = some d) :
    ∃ p : DurationParts, p.isNegative = negative ∧ p.IsProper ∧
      cs = p.calendar ++ clockText p.clock ∧ d = p.value := by
  simp only [Duration.readFields?, Option.bind_eq_bind, Option.bind_eq_some_iff, Prod.exists] at h
  obtain ⟨calendar, clock, hsplit, _, _, hyears, _, _, hmonths, _, left, hdays, _, hleft,
    _, _, hhours, _, _, hminutes, _, hseconds, _, hsome, hresult⟩ := h
  obtain rfl := Duration.eq_of_splitClock hsplit
  obtain ⟨years, hyearsProper, rfl, rfl⟩ := Duration.exists_component hyears
  obtain ⟨months, hmonthsProper, rfl, rfl⟩ := Duration.exists_component hmonths
  obtain ⟨days, hdaysProper, rfl, rfl⟩ := Duration.exists_component hdays
  obtain ⟨hours, hhoursProper, rfl, rfl⟩ := Duration.exists_component hhours
  obtain ⟨minutes, hminutesProper, rfl, rfl⟩ := Duration.exists_component hminutes
  obtain ⟨seconds, hsecondsProper, rfl, rfl⟩ := Duration.exists_seconds hseconds
  obtain rfl : left = [] := by simpa [guard] using hleft
  refine ⟨⟨negative, years, months, days, hours, minutes, seconds⟩, rfl,
    ⟨hyearsProper, hmonthsProper, hdaysProper, hhoursProper, hminutesProper, hsecondsProper, ?_⟩,
    ?_, ?_⟩
  · simpa only [Option.guard_eq_some', Option.isSome_map, Bool.or_eq_true, or_assoc] using hsome
  · simp [DurationParts.calendar, DurationParts.clock]
  · exact (Option.some.inj hresult).symm

end DurationParts

/-- Exactly the literals are read as durations, with blanks around them. -/
theorem Duration.read?_eq_some_iff {cs : List Char} {d : Duration} :
    Duration.read? cs = some d ↔
      ∃ p : DurationParts, p.IsProper ∧ p.text = trim cs ∧ d = p.value := by
  rw [Duration.read?]
  constructor
  · intro h
    unfold readTrimmed? at h
    split at h
    · next rest htext =>
      obtain ⟨p, hnegative, hproper, rfl, rfl⟩ := DurationParts.exists_of_readFields? h
      exact ⟨p, hproper, by simp [DurationParts.text, hnegative, htext], rfl⟩
    · next rest htext =>
      obtain ⟨p, hnegative, hproper, rfl, rfl⟩ := DurationParts.exists_of_readFields? h
      exact ⟨p, hproper, by simp [DurationParts.text, hnegative, htext], rfl⟩
    · cases h
  · rintro ⟨p, hproper, htext, rfl⟩
    have hfields := DurationParts.readFields?_text hproper
    rw [← htext]
    cases hnegative : p.isNegative <;> rw [hnegative] at hfields <;>
      simpa [DurationParts.text, readTrimmed?, hnegative] using hfields

end Calendar

open Calendar Text

/-- A text is read as a duration exactly if it is a literal with blanks around it, and then as the
duration whose fields are the numbers of the components. -/
theorem Codec.read_duration (type : ScalarType) (namespaceOf : String → Option String)
    (lexical : String) :
    ((∃ v, read ⟨.duration, type⟩ namespaceOf lexical = .ok v) ↔
        ∃ p : DurationParts, p.IsProper ∧ p.text = trim lexical.toList) ∧
      ∀ p : DurationParts, p.IsProper → p.text = trim lexical.toList →
        ∃ d, read ⟨.duration, type⟩ namespaceOf lexical = .ok (.duration d) ∧ p.Denotes d := by
  have hliteral (p : DurationParts) (hproper : p.IsProper) (htext : p.text = trim lexical.toList) :
      ∃ d, read ⟨.duration, type⟩ namespaceOf lexical = .ok (.duration d) ∧ p.Denotes d := by
    have hread : Duration.read? lexical.toList = some p.value :=
      Duration.read?_eq_some_iff.mpr ⟨p, hproper, htext, rfl⟩
    exact ⟨p.value, by simp [read, readMoment, hread], DurationParts.denotes_value hproper⟩
  refine ⟨⟨?_, ?_⟩, hliteral⟩
  · rintro ⟨v, hv⟩
    obtain ⟨d, hd⟩ := isSome_of_readMoment hv
    obtain ⟨p, hproper, htext, -⟩ := Duration.read?_eq_some_iff.mp hd
    exact ⟨p, hproper, htext⟩
  · rintro ⟨p, hproper, htext⟩
    obtain ⟨d, hd, -⟩ := hliteral p hproper htext
    exact ⟨_, hd⟩

/-- A negative duration without months and hours is read with its blanks and its fraction. -/
theorem Codec.read_duration_mixed :
    ∃ d, read ⟨.duration, .duration⟩ (fun _ ↦ none) " -P1Y10DT30M1.5S " = .ok (.duration d) ∧
      d.negative = true ∧ d.years.toNat = 1 ∧ d.months.toNat = 0 ∧ d.days.toNat = 10 ∧
      d.hours.toNat = 0 ∧ d.minutes.toNat = 30 ∧ d.seconds.toNat = 1 ∧
      d.nanos.toNat = 500000000 := by
  let p : DurationParts :=
    ⟨true, some ['1'], none, some ['1', '0'], none, some ['3', '0'], some ⟨['1'], some ['5']⟩⟩
  have hseconds : SecondParts.IsProper ⟨['1'], some ['5']⟩ := by
    refine ⟨by decide, fun digits hdigits ↦ ?_⟩
    obtain rfl := Option.some.inj hdigits
    decide
  have hproper : p.IsProper := by
    constructor
    case seconds => simpa [p] using hseconds
    case exists_component => exact .inl rfl
    all_goals simp only [p, Option.mem_some_iff, forall_eq', Option.not_mem_none, false_implies,
      implies_true]
    all_goals decide
  have htext : p.text = trim " -P1Y10DT30M1.5S ".toList := by cbv
  obtain ⟨d, hread, hd⟩ := (read_duration .duration (fun _ ↦ none) _).2 p hproper htext
  exact ⟨d, hread, hd.negative, hd.years, hd.months, hd.days, hd.hours, hd.minutes, hd.seconds,
    hd.nanos⟩

end XmlBinding

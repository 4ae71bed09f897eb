import XmlBinding.Proofs.Calendar.Days
import XmlBinding.Proofs.Calendar.Denoted
import XmlBinding.Proofs.Calendar.Duration

/-!
# Dates, times and durations as literals

What is written for a date, a time or a duration is a literal of XML Schema, and read back as the
value less what the literal does not show: the seconds of an offset, an offset of more than fourteen
hours, and the whole seconds among the nanoseconds of a duration.
-/

namespace XmlBinding

namespace Calendar

open Number Text

/-! ### Fractions -/

/-- The digits of a fraction of a second without zeros at the end; none for a whole second. -/
def fractionDigits (nanos : Nat) : Option (List Char) :=
  let fraction := nanos % nanosPerSecond
  if fraction = 0 then none
  else some ((writePadded 9 fraction).reverse.dropWhile (· == '0')).reverse

private theorem writeFraction_eq (nanos : Nat) :
    writeFraction nanos = fractionText (fractionDigits nanos) := by
  unfold writeFraction fractionDigits
  dsimp only
  split <;> rfl

private theorem exists_append_zeros (cs : List Char) :
    ∃ k, cs = (cs.reverse.dropWhile (· == '0')).reverse ++ List.replicate k '0' := by
  have hzeros : ∀ c ∈ cs.reverse.takeWhile (· == '0'), c = '0' := by
    intro c hc
    simpa using List.all_eq_true.mp List.all_takeWhile c hc
  have hparts := congrArg List.reverse
    (List.takeWhile_append_dropWhile (p := (· == '0')) (l := cs.reverse))
  rw [List.eq_replicate_of_mem hzeros, List.reverse_append, List.reverse_replicate,
    List.reverse_reverse] at hparts
  exact ⟨_, hparts.symm⟩

/-- The digits of a fraction, scaled to nanoseconds, are those of the fraction. -/
theorem of_mem_fractionDigits {nanos : Nat} {digits : List Char}
    (h : digits ∈ fractionDigits nanos) :
    isNumeral digits ∧ digits.length ≤ 9 ∧
      read digits * 10 ^ (9 - digits.length) = nanos % nanosPerSecond := by
  unfold fractionDigits at h
  dsimp only at h
  split at h
  · cases h
  · next hne =>
    obtain ⟨k, hk⟩ := exists_append_zeros (writePadded 9 (nanos % nanosPerSecond))
    rw [Option.some.inj h] at hk
    have hlength : digits.length + k = 9 := by
      have hnine : (writePadded 9 (nanos % nanosPerSecond)).length = 9 :=
        length_writePadded (by decide) (Nat.mod_lt _ (by decide))
      rw [hk] at hnine
      simpa using hnine
    have hread : read digits * 10 ^ k = nanos % nanosPerSecond := by
      rw [← read_append_zeros, ← hk, read_writePadded]
    have hnonempty : digits ≠ [] := by
      rintro rfl
      rw [← hread] at hne
      exact hne (Nat.zero_mul _)
    have hdigits : ∀ c ∈ digits, c.isDigit := by
      intro c hc
      have hmem : c ∈ writePadded 9 (nanos % nanosPerSecond) := hk ▸ List.mem_append_left _ hc
      exact isDigit_of_mem_writePadded hmem
    refine ⟨?_, by omega, ?_⟩
    · simpa [isNumeral, hnonempty] using hdigits
    · rwa [show 9 - digits.length = k by omega]

/-- The nanoseconds of the digits of a fraction. -/
theorem fractionValue_fractionDigits (nanos : Nat) :
    fractionValue (fractionDigits nanos) = nanos % nanosPerSecond := by
  cases hdigits : fractionDigits nanos with
  | none =>
    unfold fractionDigits at hdigits
    dsimp only at hdigits
    split at hdigits
    · next hzero => exact hzero.symm
    · cases hdigits
  | some digits => exact (of_mem_fractionDigits hdigits).2.2

private theorem clockNanos_eq {fraction : Option (List Char)}
    (h : ∀ digits ∈ fraction, digits.length ≤ 9) :
    clockNanos fraction = fractionValue fraction := by
  cases fraction with
  | none => rfl
  | some digits =>
    have hlength : digits.length ≤ 9 := h digits rfl
    change read ((digits ++ List.replicate 9 '0').take 9) = read digits * 10 ^ (9 - digits.length)
    rw [List.take_append, List.take_of_length_le hlength, List.take_replicate, read_append_zeros,
      Nat.min_eq_left (Nat.sub_le ..)]

/-! ### Dates and times -/

private theorem isPair_writePadded {n : Nat} (h : n < 100) : IsPair (writePadded 2 n) :=
  ⟨isNumeral_writePadded 2 n, length_writePadded (by decide) h⟩

private theorem isYear_writePadded (n : Nat) : IsYear (writePadded 4 n) := by
  refine ⟨isNumeral_writePadded 4 n, le_length_writePadded 4 n, ?_⟩
  rintro ⟨hlength, hhead⟩
  have hlarge : 4 < (write n).length := by
    simp only [writePadded, List.length_append, List.length_replicate] at hlength
    omega
  have hplain : writePadded 4 n = write n := by
    rw [writePadded, Nat.sub_eq_zero_of_le (Nat.le_of_lt hlarge)]
    rfl
  refine head?_write_ne ?_ (hplain ▸ hhead)
  rintro rfl
  exact absurd hlarge (by decide)

/-- The fields of a date as they are written. -/
def Date.parts (d : Date) : DateParts where
  isNegative := d.year < 0
  year := writePadded 4 d.year.natAbs
  month := writePadded 2 d.month
  day := writePadded 2 d.day

private theorem Date.write_eq (d : Date) : d.write = d.parts.text := by
  simp [write, writeMonthDay, DateParts.text, parts]

private theorem Date.month_day_lt (d : Date) : d.month < 100 ∧ d.day < 100 := by
  have hmonth : d.month ≤ 12 := d.valid.month.2
  have hday : d.day ≤ 31 := Nat.le_trans d.valid.2.2.2 (daysInMonth_le d.year d.month)
  omega

private theorem Date.isProper_parts (d : Date) : d.parts.IsProper :=
  ⟨isYear_writePadded _, isPair_writePadded d.month_day_lt.1, isPair_writePadded d.month_day_lt.2⟩

private theorem Date.read?_write (d : Date) : Date.read? d.write = some d := by
  rw [write_eq, DateParts.read?_text d.isProper_parts]
  simp only [parts, read_writePadded, applySign_natAbs, of?, dif_pos d.valid]

/-- The fields of a time as they are written. -/
def Time.parts (t : Time) : ClockParts where
  hour := writePadded 2 t.hour
  minute := writePadded 2 t.minute
  second := writePadded 2 t.second
  fraction := fractionDigits t.nanos

private theorem Time.write_eq (t : Time) : t.write = t.parts.text := by
  simp [write, writeClock, ClockParts.text, parts, writeFraction_eq]

private theorem Time.follows_parts (t : Time) : t.parts.Follows .schema := by
  obtain ⟨hhour, hminute, hsecond, -⟩ := t.valid
  exact ⟨isPair_writePadded (by omega), isPair_writePadded (by omega),
    isPair_writePadded (by omega),
    fun digits hdigits ↦ (of_mem_fractionDigits hdigits).1⟩

private theorem Time.read?_write {t : Time} (h : ¬ t.IsLeap) : Time.read? t.write = some t := by
  have hnanos : clockNanos (fractionDigits t.nanos) = t.nanos := by
    rw [clockNanos_eq fun digits hdigits ↦ (of_mem_fractionDigits hdigits).2.1,
      fractionValue_fractionDigits]
    exact Nat.mod_eq_of_lt (Nat.lt_of_not_le h)
  rw [write_eq, ClockParts.read?_text t.follows_parts]
  simp only [parts, read_writePadded, hnanos, of?, dif_pos t.valid]

private theorem LocalDateTime.read?_write {d : LocalDateTime} (h : ¬ d.time.IsLeap) :
    LocalDateTime.read? d.write = some d := by
  have hletter : 'T' ∉ d.date.write := by
    rw [Date.write_eq]
    exact DateParts.not_mem_text d.date.isProper_parts rfl (by decide)
  have hsplit : splitFirst 'T' d.write = some (d.date.write, d.time.write) :=
    splitFirst_eq_some_iff.mpr ⟨hletter, rfl⟩
  simp [read?, hsplit, Date.read?_write, Time.read?_write h]

/-! ### Offsets -/

namespace Offset

/-- The offset without the seconds beyond its whole minutes. -/
def truncate (o : Offset) : Offset where
  seconds := applySign (o.seconds < 0) (o.seconds.natAbs / 60 * 60)
  valid := by
    obtain ⟨hlow, hhigh⟩ := o.valid
    unfold applySign
    split <;> constructor <;> omega

/-- The whole minutes of the offset are no more than fourteen hours. -/
def IsReadable (o : Offset) : Prop := o.seconds.natAbs / 60 ≤ 14 * 60

instance (o : Offset) : Decidable o.IsReadable := inferInstanceAs (Decidable (_ ≤ _))

/-- The offset has whole minutes, and no more than fourteen hours. -/
def IsExpressible (o : Offset) : Prop := 60 ∣ o.seconds ∧ o.seconds.natAbs ≤ 14 * 3600

instance (o : Offset) : Decidable o.IsExpressible := inferInstanceAs (Decidable (_ ∧ _))

/-- Offsets are the same if their seconds are. -/
theorem ext_seconds {o p : Offset} (h : o.seconds = p.seconds) : o = p := by
  cases o
  cases p
  simp_all

/-- An offset can be read back as it is if it can be expressed. -/
private theorem isExpressible_iff (o : Offset) :
    o.IsExpressible ↔ o.IsReadable ∧ o.truncate = o := by
  have htruncate : o.truncate = o ↔ 60 ∣ o.seconds := by
    refine ⟨fun h ↦ ?_, fun h ↦ ext_seconds ?_⟩
    · rw [← h]
      change (60 : Int) ∣ applySign _ _
      unfold applySign
      split <;> omega
    · have hminutes : o.seconds.natAbs / 60 * 60 = o.seconds.natAbs := by omega
      change applySign (decide (o.seconds < 0)) (o.seconds.natAbs / 60 * 60) = o.seconds
      rw [hminutes, applySign_natAbs]
  rw [htruncate, IsExpressible, IsReadable]
  omega

/-- The zone of an offset as it is written. -/
def parts (o : Offset) : ZoneParts :=
  if o.seconds = 0 then .universal
  else .offset (o.seconds < 0) (writePadded 2 (o.seconds.natAbs / 3600))
    (writePadded 2 (o.seconds.natAbs % 3600 / 60))

private theorem write_eq (o : Offset) : o.write = o.parts.text := by
  unfold write parts
  split
  · rfl
  · simp [ZoneParts.text]

private theorem isPair_of_mem_parts (o : Offset) : ∀ field ∈ o.parts.fields, IsPair field := by
  obtain ⟨hlow, hhigh⟩ := o.valid
  unfold parts
  split
  · simp [ZoneParts.fields]
  · simp only [ZoneParts.fields, List.forall_mem_cons, List.not_mem_nil, false_implies,
      implies_true, and_true]
    exact ⟨isPair_writePadded (by omega), isPair_writePadded (by omega)⟩

private theorem offset?_parts (o : Offset) :
    o.parts.offset? = if o.IsReadable then some (some o.truncate) else none := by
  by_cases hzero : o.seconds = 0
  · have htruncate : o.truncate = .utc := ext_seconds (by simp [truncate, hzero, applySign, utc])
    have hreadable : o.IsReadable := by simp [IsReadable, hzero]
    rw [parts, if_pos hzero, if_pos hreadable, htruncate]
    rfl
  · have hpairs := o.isPair_of_mem_parts
    rw [parts, if_neg hzero] at hpairs ⊢
    have hminute : read (writePadded 2 (o.seconds.natAbs % 3600 / 60)) < 60 := by
      rw [read_writePadded]
      omega
    have hsize : o.seconds.natAbs / 3600 * 60 + o.seconds.natAbs % 3600 / 60 =
        o.seconds.natAbs / 60 := by omega
    have htruncate : of? (applySign (o.seconds < 0) (o.seconds.natAbs / 60 * 60)) =
        some o.truncate := dif_pos o.truncate.valid
    rw [ZoneParts.offset?, read?_of_isPair _ (hpairs _ List.mem_cons_self)
      (hpairs _ (List.mem_cons_of_mem _ List.mem_cons_self)) hminute, read_writePadded,
      read_writePadded, hsize, htruncate]
    by_cases hreadable : o.IsReadable
    · have hminutes : o.seconds.natAbs / 60 ≤ 14 * 60 := hreadable
      rw [if_pos hreadable, if_pos hminutes]
      rfl
    · have hminutes : ¬ o.seconds.natAbs / 60 ≤ 14 * 60 := hreadable
      rw [if_neg hreadable, if_neg hminutes]
      rfl

end Offset

/-! ### Values with offsets -/

/-- The zone of a value as it is written. -/
def zoneParts (offset : Option Offset) : ZoneParts := offset.elim .missing Offset.parts

private theorem writeZone_eq (offset : Option Offset) :
    writeZone offset = (zoneParts offset).text := by
  cases offset with
  | none => rfl
  | some o => exact o.write_eq

private theorem isPair_of_mem_zoneParts (offset : Option Offset) :
    ∀ field ∈ (zoneParts offset).fields, IsPair field := by
  cases offset with
  | none => simp [zoneParts, ZoneParts.fields]
  | some o => exact o.isPair_of_mem_parts

namespace Zoned

variable {α : Type}

/-- What a literal of the value shows: the offset to the minute; nothing if the offset is not
readable. -/
def shown? (z : Zoned α) : Option (Zoned α) :=
  match z.offset with
  | none => some z
  | some o => if o.IsReadable then some ⟨z.value, some o.truncate⟩ else none

/-- The literal does not leave out anything of the offset. -/
def IsExpressible (z : Zoned α) : Prop := ∀ o ∈ z.offset, o.IsExpressible

/-- What is expressible is just what its literal shows. -/
theorem isExpressible_iff (z : Zoned α) : z.IsExpressible ↔ z.shown? = some z := by
  obtain ⟨value, offset⟩ := z
  cases offset with
  | none => simp [IsExpressible, shown?]
  | some o =>
    have hvalue : (⟨value, some o.truncate⟩ : Zoned α) = ⟨value, some o⟩ ↔ o.truncate = o := by
      simp
    simp only [IsExpressible, Option.mem_some_iff, forall_eq', Offset.isExpressible_iff, shown?,
      Option.ite_none_right_eq_some, Option.some.injEq, hvalue]

/-- What is written is read back as what it shows, if the body is a literal that is read back. -/
theorem read?_write {readBody? : List Char → Option α} {writeBody : α → List Char} {z : Zoned α}
    {body : BodyParts} (hbody : body.Follows .schema) (htext : writeBody z.value = body.text)
    (hread : readBody? body.text = some z.value) :
    Zoned.read? readBody? (z.write writeBody) = z.shown? := by
  have hpairs := isPair_of_mem_zoneParts z.offset
  have hmissing : zoneOf body.text = .missing :=
    BodyParts.zoneOf_text (BodyParts.follows_lenient hbody)
  have hne : body.text ≠ [] := by
    cases body with
    | date d => simp [BodyParts.text, DateParts.text]
    | time t => simp [BodyParts.text, ClockParts.text]
    | dateTime d t => simp [BodyParts.text]
  have hspace : ' ' ∉ body.text := BodyParts.not_mem_text hbody rfl (by decide)
  have htrim : trim (body.text ++ (zoneParts z.offset).text) =
      body.text ++ (zoneParts z.offset).text := by
    refine trim_of_separators _ (fun c hdigit hseparator ↦ ?_) isBlank_of_mem_separators
    rw [List.mem_append, not_or]
    exact ⟨BodyParts.not_mem_text hbody hdigit hseparator,
      ZoneParts.not_mem_text hpairs hdigit hseparator⟩
  rw [Zoned.read?, write, htext, writeZone_eq, htrim, readTrimmed?,
    ZoneParts.splitZone_append hpairs hne hmissing]
  obtain ⟨value, offset⟩ := z
  cases offset with
  | none => simp [zoneParts, ZoneParts.offset?, shown?, hspace, hread, guard]
  | some o =>
    simp only [zoneParts, Option.elim_some, Offset.offset?_parts, shown?]
    split <;> simp [hspace, hread, guard]

end Zoned

/-- A date that was written is read as what its literal shows. -/
theorem Zoned.read?_write_date (d : Zoned Date) :
    Zoned.read? Date.read? (d.write Date.write) = d.shown? := by
  have hfollows : BodyParts.Follows .schema (.date d.value.parts) := d.value.isProper_parts
  refine Zoned.read?_write hfollows d.value.write_eq ?_
  rw [BodyParts.text, ← Date.write_eq, Date.read?_write]

/-- A clock time that was written is read as what its literal shows, unless it is a leap second. -/
theorem Zoned.read?_write_time {t : Zoned Time} (h : ¬ t.value.IsLeap) :
    Zoned.read? Time.read? (t.write Time.write) = t.shown? := by
  have hfollows : BodyParts.Follows .schema (.time t.value.parts) := t.value.follows_parts
  refine Zoned.read?_write hfollows t.value.write_eq ?_
  rw [BodyParts.text, ← Time.write_eq, Time.read?_write h]

/-- A date with a time that was written is read as what its literal shows, unless it is a leap
second. -/
theorem DateTime.read?_write {d : DateTime} (h : ¬ d.value.time.IsLeap) :
    Zoned.read? LocalDateTime.read? (Zoned.write LocalDateTime.write d) = d.shown? := by
  have hfollows : BodyParts.Follows .schema (.dateTime d.value.date.parts d.value.time.parts) :=
    ⟨d.value.date.isProper_parts, d.value.time.follows_parts⟩
  have htext : d.value.write =
      (BodyParts.dateTime d.value.date.parts d.value.time.parts).text := by
    rw [LocalDateTime.write, Date.write_eq, Time.write_eq]
    rfl
  refine Zoned.read?_write hfollows htext ?_
  rw [← htext, LocalDateTime.read?_write h]

/-! ### Durations -/

namespace Duration

/-- What a literal of the duration shows: the nanoseconds within a second. -/
def shown (d : Duration) : Duration :=
  { d with nanos := (d.nanos.toNat % nanosPerSecond).toUInt32 }

/-- The literal of a duration shows it in full exactly if its nanoseconds are less than a second. -/
theorem shown_eq_iff (d : Duration) : d.shown = d ↔ d.nanos.toNat < nanosPerSecond := by
  have hmod : d.nanos.toNat % nanosPerSecond < nanosPerSecond := Nat.mod_lt _ (by decide)
  have hnanos : (d.nanos.toNat % nanosPerSecond).toUInt32.toNat = d.nanos.toNat % nanosPerSecond :=
    UInt32.toNat_ofNat_of_lt' (Nat.lt_trans hmod (by decide))
  constructor
  · intro h
    have hsame := congrArg (fun d ↦ d.nanos.toNat) h
    rw [← hsame]
    exact Nat.lt_of_le_of_lt (Nat.le_of_eq hnanos) hmod
  · intro h
    rw [Nat.mod_eq_of_lt h] at hnanos
    rw [shown, Nat.mod_eq_of_lt h, UInt32.toNat_inj.mp hnanos]

/-- The digits of a field as they are written; none for zero. -/
def fieldDigits (n : UInt32) : Option (List Char) :=
  if n = 0 then none else some (Number.write n.toNat)

/-- The components of a duration as they are written. -/
def parts (d : Duration) : DurationParts where
  isNegative := d.negative
  years := fieldDigits d.years
  months := fieldDigits d.months
  days := fieldDigits d.days
  hours := fieldDigits d.hours
  minutes := fieldDigits d.minutes
  seconds :=
    if d.seconds ≠ 0 ∨ d.nanos ≠ 0 ∨ d.IsZero then
      some ⟨Number.write d.seconds.toNat, fractionDigits d.nanos.toNat⟩
    else none

private theorem writeComponent_eq (n : UInt32) (designator : Char) :
    writeComponent n designator = componentText designator (fieldDigits n) := by
  unfold writeComponent fieldDigits
  split <;> rfl

/-- There is a component of the clock if a field of the clock is not zero, or all fields are. -/
private theorem clock_parts_eq_nil_iff (d : Duration) :
    d.parts.clock = [] ↔ ¬ (d.HasClock ∨ d.IsZero) := by
  have hfield (designator : Char) (n : UInt32) :
      componentText designator (fieldDigits n) = [] ↔ n = 0 := by
    unfold fieldDigits
    split <;> simp_all [componentText]
  have hseconds : secondsText d.parts.seconds = [] ↔
      ¬ (d.seconds ≠ 0 ∨ d.nanos ≠ 0 ∨ d.IsZero) := by
    simp only [parts]
    split <;> simp_all [secondsText]
  rw [DurationParts.clock, List.append_eq_nil_iff, List.append_eq_nil_iff, hseconds]
  simp only [parts, hfield, HasClock]
  grind

private theorem write_eq (d : Duration) : d.write = d.parts.text := by
  have hclock : (if d.HasClock ∨ d.IsZero then ['T'] else []) ++ d.parts.clock =
      clockText d.parts.clock := by
    by_cases h : d.HasClock ∨ d.IsZero
    · obtain ⟨c, cs, hcs⟩ :=
        List.exists_cons_of_ne_nil (mt d.clock_parts_eq_nil_iff.mp (not_not.mpr h))
      rw [if_pos h, hcs]
      rfl
    · rw [if_neg h, d.clock_parts_eq_nil_iff.mpr h]
      rfl
  have hseconds : (if d.seconds ≠ 0 ∨ d.nanos ≠ 0 ∨ d.IsZero then
      Number.write d.seconds.toNat ++ writeFraction d.nanos.toNat ++ ['S'] else []) =
        secondsText d.parts.seconds := by
    simp only [parts, writeFraction_eq]
    split <;> rfl
  rw [DurationParts.text, ← hclock, write, hseconds]
  simp only [writeComponent_eq, DurationParts.calendar, DurationParts.clock, List.append_assoc]
  rfl

private theorem isComponent_fieldDigits (n : UInt32) :
    ∀ digits ∈ fieldDigits n, IsComponent digits := by
  intro digits h
  unfold fieldDigits at h
  split at h
  · cases h
  · rw [← Option.some.inj h]
    exact ⟨isNumeral_write _, by rw [read_write]; exact n.toNat_lt⟩

private theorem isProper_parts (d : Duration) : d.parts.IsProper where
  years := isComponent_fieldDigits d.years
  months := isComponent_fieldDigits d.months
  days := isComponent_fieldDigits d.days
  hours := isComponent_fieldDigits d.hours
  minutes := isComponent_fieldDigits d.minutes
  seconds := by
    intro s hs
    simp only [parts] at hs
    split at hs
    · rw [← Option.some.inj hs]
      refine ⟨⟨isNumeral_write _, by rw [read_write]; exact d.seconds.toNat_lt⟩, ?_⟩
      exact fun digits hdigits ↦
        ⟨(of_mem_fractionDigits hdigits).1, (of_mem_fractionDigits hdigits).2.1⟩
    · cases hs
  exists_component := by
    have hfield (n : UInt32) : (fieldDigits n).isSome = true ↔ n ≠ 0 := by
      unfold fieldDigits
      split <;> simp_all
    have hseconds : d.parts.seconds.isSome = true ↔
        (d.seconds ≠ 0 ∨ d.nanos ≠ 0 ∨ d.IsZero) := by
      simp only [parts]
      split <;> simp_all
    rw [hseconds]
    simp only [parts, hfield, IsZero, HasClock]
    grind

private theorem componentField_fieldDigits (n : UInt32) :
    ((fieldDigits n).map componentField).getD 0 = n := by
  unfold fieldDigits
  split
  · next h => exact h.symm
  · simp [componentField, read_write]

private theorem fractionField_fractionDigits (nanos : Nat) :
    ((fractionDigits nanos).map fractionField).getD 0 = (nanos % nanosPerSecond).toUInt32 := by
  have hlt : nanos % nanosPerSecond < nanosPerSecond := Nat.mod_lt _ (by decide)
  refine UInt32.toNat_inj.mp ?_
  rw [toNat_fractionField fun digits hdigits ↦
    ⟨(of_mem_fractionDigits hdigits).1, (of_mem_fractionDigits hdigits).2.1⟩,
    fractionValue_fractionDigits]
  exact (UInt32.toNat_ofNat_of_lt' (Nat.lt_trans hlt (by decide))).symm

private theorem value_parts (d : Duration) : d.parts.value = d.shown := by
  have hseconds : d.parts.seconds.map SecondParts.fields =
      if d.seconds ≠ 0 ∨ d.nanos ≠ 0 ∨ d.IsZero then
        some (d.seconds, (d.nanos.toNat % nanosPerSecond).toUInt32) else none := by
    simp only [parts]
    split
    · simp [SecondParts.fields, componentField, read_write, fractionField_fractionDigits]
    · rfl
  unfold DurationParts.value shown
  rw [hseconds]
  simp only [parts, componentField_fieldDigits]
  split
  · rfl
  · next h =>
    simp only [not_or, not_not] at h
    simp [h.1, h.2.1]

/-- A duration is read back as what its literal shows. -/
theorem read?_write (d : Duration) : read? d.write = some d.shown := by
  have htrim : trim d.parts.text = d.parts.text :=
    trim_of_separators _ (fun c ↦ DurationParts.not_mem_text d.isProper_parts)
      isBlank_of_mem_designators
  refine read?_eq_some_iff.mpr ⟨d.parts, d.isProper_parts, ?_, d.value_parts.symm⟩
  rw [write_eq, htrim]

end Duration

end Calendar

end XmlBinding

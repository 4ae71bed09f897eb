import XmlBinding.Proofs.Calendar.Days
import XmlBinding.Proofs.Calendar.Reread
import XmlBinding.Value

/-!
# Comparing moments

Dates with times that have offsets are compared at universal time, which may be on the day before
the first one of the calendar or on the day after the last one. Texts of such dates are read, but
there is no answer when they are compared (`Codec.beq?_of_read`).
-/

namespace XmlBinding

namespace Calendar

/-! ### Universal time -/

namespace Time

private theorem secondOfDay_lt (t : Time) : t.secondOfDay < 86400 := by
  obtain ⟨hhour, hminute, hsecond, -⟩ := t.valid
  unfold secondOfDay
  omega

private theorem exists_secondOfDay {n nanos : Nat} (hn : n < 86400)
    (hnanos : nanos < nanosPerSecond) : ∃ t : Time, t.secondOfDay = n ∧ t.nanos = nanos := by
  have hvalid : ValidTime (n / 3600) (n / 60 % 60) (n % 60) nanos := by
    unfold ValidTime
    omega
  refine ⟨⟨_, _, _, _, hvalid⟩, ?_, rfl⟩
  simp only [secondOfDay]
  omega

private theorem ext_secondOfDay {t u : Time} (hsecond : t.secondOfDay = u.secondOfDay)
    (hnanos : t.nanos = u.nanos) : t = u := by
  have ht := t.valid
  have hu := u.valid
  unfold ValidTime at ht hu
  unfold secondOfDay at hsecond
  have hfields : t.hour = u.hour ∧ t.minute = u.minute ∧ t.second = u.second := by omega
  cases t
  cases u
  simp_all

end Time

namespace LocalDateTime

private theorem dayNumber_instant_utc (u : LocalDateTime) :
    (u.instant .utc).dayNumber = u.date.dayNumber := by
  have hsecond := u.time.secondOfDay_lt
  simp only [Instant.dayNumber, instant, Offset.utc]
  omega

private theorem instant_utc_inj {u w : LocalDateTime} :
    u.instant .utc = w.instant .utc ↔ u = w := by
  refine ⟨fun h ↦ ?_, fun h ↦ h ▸ rfl⟩
  have hdate : u.date = w.date := by
    rw [← Date.dayNumber_inj, ← dayNumber_instant_utc, h, dayNumber_instant_utc]
  have hsecond : u.time.secondOfDay = w.time.secondOfDay := by
    have hseconds := congrArg Instant.seconds h
    simp only [instant, hdate] at hseconds
    omega
  have htime : u.time = w.time := Time.ext_secondOfDay hsecond (congrArg Instant.nanos h)
  cases u
  cases w
  simp_all

/-- What a clock of universal time shows while a local clock with the given offset shows `d`. -/
def IsUniversal (d : LocalDateTime) (offset : Offset) (u : LocalDateTime) : Prop :=
  u.instant .utc = d.instant offset

instance (d : LocalDateTime) (offset : Offset) (u : LocalDateTime) :
    Decidable (d.IsUniversal offset u) :=
  inferInstanceAs (Decidable (_ = _))

private theorem inCalendar_of_isUniversal {d u : LocalDateTime} {offset : Offset}
    (h : d.IsUniversal offset u) : (d.instant offset).InCalendar := by
  rw [← h, Instant.InCalendar, dayNumber_instant_utc]
  exact ⟨u.date.least_le, u.date.le_greatest⟩

/-- A moment is in the calendar if and only if universal time has a date and a time for it. -/
theorem inCalendar_iff {d : LocalDateTime} {offset : Offset} (hleap : ¬ d.time.IsLeap) :
    (d.instant offset).InCalendar ↔ ∃ u, d.IsUniversal offset u := by
  refine ⟨fun h ↦ ?_, fun ⟨_, hu⟩ ↦ inCalendar_of_isUniversal hu⟩
  obtain ⟨date, hdate⟩ := Date.exists_dayNumber_iff.mpr h
  obtain ⟨time, hsecond, hnanos⟩ := @Time.exists_secondOfDay
    ((d.instant offset).seconds % 86400).toNat _ (by omega) (Nat.lt_of_not_le hleap)
  have hseconds : date.dayNumber * 86400 + time.secondOfDay - Offset.utc.seconds =
      (d.instant offset).seconds := by
    rw [hdate, hsecond]
    simp only [Instant.dayNumber, Offset.utc]
    omega
  exact ⟨⟨date, time⟩, congrArg₂ Instant.mk hseconds hnanos⟩

/-- Universal time is on the day before the first one of the calendar, or on the day after the last
one. -/
def IsBeyond (d : LocalDateTime) (offset : Offset) : Prop :=
  d.date = .least ∧ d.time.secondOfDay < offset.seconds ∨
    d.date = .greatest ∧ 86400 ≤ d.time.secondOfDay - offset.seconds

/-- An offset leads out of the calendar from its first and its last day only. -/
theorem not_inCalendar_iff {d : LocalDateTime} {offset : Offset} :
    ¬ (d.instant offset).InCalendar ↔ d.IsBeyond offset := by
  have hsecond := d.time.secondOfDay_lt
  have hoffset := offset.valid
  have hleast := d.date.least_le
  have hgreatest := d.date.le_greatest
  unfold IsBeyond ValidOffset Instant.InCalendar Instant.dayNumber at *
  rw [← Date.dayNumber_inj, ← Date.dayNumber_inj]
  simp only [instant]
  omega

end LocalDateTime

namespace DateTime

/-- There is an offset, and it leads out of the calendar. -/
def IsBeyond (d : DateTime) : Prop := ∃ o ∈ d.offset, d.value.IsBeyond o

private theorem isBeyond_iff {d : DateTime} {o : Offset} (ho : d.offset = some o) :
    d.IsBeyond ↔ ¬ (d.value.instant o).InCalendar := by
  simp [IsBeyond, ho, LocalDateTime.not_inCalendar_iff]

/-- An offset leads out of the calendar if universal time has no date and time for the moment. -/
theorem isBeyond_iff_forall_not_isUniversal {d : DateTime} (hleap : ¬ d.value.time.IsLeap) :
    d.IsBeyond ↔ ∃ o ∈ d.offset, ∀ u, ¬ d.value.IsUniversal o u := by
  simp only [IsBeyond, ← LocalDateTime.not_inCalendar_iff, LocalDateTime.inCalendar_iff hleap,
    not_exists]

/-- No offset that can be written leads out of the calendar from the middle of a day. -/
theorem edge_of_isBeyond {d : DateTime} (hexpressible : d.IsExpressible) (h : d.IsBeyond) :
    d.value.date = .least ∧ d.value.time.secondOfDay < 14 * 3600 ∨
      d.value.date = .greatest ∧ 10 * 3600 ≤ d.value.time.secondOfDay := by
  obtain ⟨o, ho, hbeyond⟩ := h
  obtain ⟨-, hlength⟩ := hexpressible o ho
  obtain ⟨hdate, hsecond⟩ | ⟨hdate, hsecond⟩ := hbeyond
  · exact .inl ⟨hdate, by omega⟩
  · exact .inr ⟨hdate, by omega⟩

/-- There is no answer only for moments that are compared by their offsets, one of which leads out
of the calendar. -/
theorem equiv?_eq_none_iff {a b : DateTime} :
    equiv? a b = none ↔ a.offset.isSome ∧ b.offset.isSome ∧ (a.IsBeyond ∨ b.IsBeyond) := by
  cases hx : a.offset with
  | none => simp [equiv?, hx]
  | some x =>
    cases hy : b.offset with
    | none => simp [equiv?, hx, hy]
    | some y =>
      simp only [equiv?, hx, hy, LocalDateTime.instant?, isBeyond_iff hx, isBeyond_iff hy]
      split <;> split <;> simp_all

/-- Every answer says whether the moments are the same. -/
theorem eq_of_equiv?_eq_some {a b : DateTime} {r : Bool} (h : equiv? a b = some r) :
    r = decide (Equiv a b) := by
  cases hx : a.offset with
  | none => simpa [equiv?, hx] using h.symm
  | some x =>
    cases hy : b.offset with
    | none => simpa [equiv?, hx, hy] using h.symm
    | some y =>
      have hequiv : Equiv a b ↔ a.value.instant x = b.value.instant y := by
        simp only [Equiv, hx, hy]
      simp only [equiv?, hx, hy, LocalDateTime.instant?] at h
      split at h <;> split at h <;> simp_all

/-- Moments with offsets are compared by what they are at universal time. -/
theorem equiv?_of_isUniversal {a b : DateTime} {x y : Offset} {u w : LocalDateTime}
    (hx : a.offset = some x) (hy : b.offset = some y) (hu : a.value.IsUniversal x u)
    (hw : b.value.IsUniversal y w) : equiv? a b = some (decide (u = w)) := by
  have hsame : a.value.instant x = b.value.instant y ↔ u = w := by
    rw [← LocalDateTime.instant_utc_inj, hu, hw]
  simp only [equiv?, hx, hy, LocalDateTime.instant?,
    if_pos (LocalDateTime.inCalendar_of_isUniversal hu),
    if_pos (LocalDateTime.inCalendar_of_isUniversal hw), Option.bind_eq_bind, Option.bind_some,
    decide_eq_decide.mpr hsame]
  rfl

end DateTime

end Calendar

open Calendar

/-! ### Scalars -/

/-- The scalar is a moment whose offset leads out of the calendar. -/
def Scalar.IsBeyond : Scalar → Prop
  | .dateTime d => d.IsBeyond
  | _ => False

/-! ### Texts -/

namespace Codec

private theorem exists_of_read_dateTime {type : ScalarType} {namespaceOf : String → Option String}
    {lexical : String} {v : Scalar} (h : read ⟨.dateTime, type⟩ namespaceOf lexical = .ok v) :
    ∃ d : DateTime, v = .dateTime d ∧ d.IsExpressible ∧ ¬ d.value.time.IsLeap := by
  obtain ⟨d, hd, rfl⟩ := Option.map_eq_some_iff.mp (readMoment_eq_ok_iff.mp h)
  obtain ⟨hexpressible, body, hbody⟩ := Zoned.isExpressible_of_read? hd
  exact ⟨d, rfl, hexpressible, LocalDateTime.not_isLeap_of_read? hbody⟩

/-- Dates with times that were read are compared without an answer exactly if both have an offset
and that of one leads out of the calendar, to where universal time has no date for it; this happens
in the first fourteen hours of the first day and in the last fourteen of the last one only. All
others are compared by meaning, and by what they are at universal time if both have an offset. -/
theorem beq?_of_read {type type' : ScalarType} {namespaceOf namespaceOf' : String → Option String}
    {lexical lexical' : String} {v w : Scalar}
    (h : read ⟨.dateTime, type⟩ namespaceOf lexical = .ok v)
    (h' : read ⟨.dateTime, type'⟩ namespaceOf' lexical' = .ok w) :
    ∃ a b : DateTime, v = .dateTime a ∧ w = .dateTime b ∧
      (Value.beq? (.scalar v) (.scalar w) = none ↔
        a.offset.isSome ∧ b.offset.isSome ∧ (a.IsBeyond ∨ b.IsBeyond)) ∧
      (∀ r, Value.beq? (.scalar v) (.scalar w) = some r → r = (v == w)) ∧
      (∀ x ∈ a.offset, ∀ y ∈ b.offset, ∀ u t, a.value.IsUniversal x u → b.value.IsUniversal y t →
        Value.beq? (.scalar v) (.scalar w) = some (decide (u = t))) ∧
      ∀ d ∈ [a, b], (d.IsBeyond ↔ ∃ o ∈ d.offset, ∀ u, ¬ d.value.IsUniversal o u) ∧
        (d.IsBeyond → d.value.date = .least ∧ d.value.time.secondOfDay < 14 * 3600 ∨
          d.value.date = .greatest ∧ 10 * 3600 ≤ d.value.time.secondOfDay) := by
  obtain ⟨a, rfl, ha, haleap⟩ := exists_of_read_dateTime h
  obtain ⟨b, rfl, hb, hbleap⟩ := exists_of_read_dateTime h'
  have hbeq : Value.beq? (.scalar (.dateTime a)) (.scalar (.dateTime b)) = DateTime.equiv? a b := by
    rw [Value.beq?, Scalar.beq?]
  refine ⟨a, b, rfl, rfl, ?_, ?_, ?_, ?_⟩
  · rw [hbeq]
    exact DateTime.equiv?_eq_none_iff
  · intro r hr
    rw [hbeq] at hr
    exact DateTime.eq_of_equiv?_eq_some hr
  · intro x hx y hy u t hu ht
    rw [hbeq]
    exact DateTime.equiv?_of_isUniversal hx hy hu ht
  · simp only [List.mem_cons, List.not_mem_nil, or_false, forall_eq_or_imp, forall_eq]
    exact ⟨⟨DateTime.isBeyond_iff_forall_not_isUniversal haleap, DateTime.edge_of_isBeyond ha⟩,
      ⟨DateTime.isBeyond_iff_forall_not_isUniversal hbleap, DateTime.edge_of_isBeyond hb⟩⟩

/-- Half past midnight an hour ahead of universal time is half past eleven of the day before. -/
theorem beq?_of_read_midnight :
    ∃ v w, read ⟨.dateTime, .dateTime⟩ (fun _ ↦ none) "2024-01-01T00:30:00+01:00" = .ok v ∧
      read ⟨.dateTime, .dateTime⟩ (fun _ ↦ none) "2023-12-31T23:30:00Z" = .ok w ∧
      Value.beq? (.scalar v) (.scalar w) = some true := by
  have hv : read ⟨.dateTime, .dateTime⟩ (fun _ ↦ none) "2024-01-01T00:30:00+01:00" =
      .ok (.dateTime ⟨⟨⟨2024, 1, 1, by decide⟩, ⟨0, 30, 0, 0, by decide⟩⟩,
        some ⟨3600, by decide⟩⟩) := by decide +kernel
  have hw : read ⟨.dateTime, .dateTime⟩ (fun _ ↦ none) "2023-12-31T23:30:00Z" =
      .ok (.dateTime ⟨⟨⟨2023, 12, 31, by decide⟩, ⟨23, 30, 0, 0, by decide⟩⟩,
        some ⟨0, by decide⟩⟩) := by decide +kernel
  obtain ⟨a, b, ha, hb, -, -, huniversal, -⟩ := beq?_of_read hv hw
  obtain rfl := Scalar.dateTime.inj ha
  obtain rfl := Scalar.dateTime.inj hb
  refine ⟨_, _, hv, hw, ?_⟩
  let evening : LocalDateTime := ⟨⟨2023, 12, 31, by decide⟩, ⟨23, 30, 0, 0, by decide⟩⟩
  exact huniversal _ rfl _ rfl evening evening (by decide) (by decide)

/-- There are texts that are read and cannot be compared, not even with themselves: on the first day
of the calendar it is still the day before at universal time. -/
theorem not_beq?_of_read :
    let d : DateTime := ⟨⟨.least, ⟨0, 0, 0, 0, by decide⟩⟩, some ⟨50400, by decide⟩⟩
    read ⟨.dateTime, .dateTime⟩ (fun _ ↦ none) "-262143-01-01T00:00:00+14:00" =
        .ok (.dateTime d) ∧
      (∀ o ∈ d.offset, ∀ u, ¬ d.value.IsUniversal o u) ∧
      Value.beq? (.scalar (.dateTime d)) (.scalar (.dateTime d)) = none := by
  intro d
  refine ⟨by decide +kernel, fun o ho u hu ↦ ?_, by decide +kernel⟩
  obtain rfl := Option.some.inj ho
  have hleap : ¬ d.value.time.IsLeap := by decide
  exact absurd ((LocalDateTime.inCalendar_iff hleap).mpr ⟨u, hu⟩) (by decide)

end Codec

end XmlBinding

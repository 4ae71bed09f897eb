import XmlBinding.Proofs.Calendar.Written

/-!
# Reading back dates, times and durations

A value whose offset has seconds or is longer than fourteen hours, or a duration with a second or
more in nanoseconds, is printed but not read back as it was; all other values are
(`Codec.read_print_iff`). Values that were read are none of the exceptions, so that reading and
printing gives every text one normal form (`Codec.print_of_read`).
-/

namespace XmlBinding

namespace Calendar

open Number Text

/-! ### What is read -/

private theorem Offset.seconds_of_of? {n : Int} {o : Offset} (h : of? n = some o) :
    o.seconds = n := by
  unfold of? at h
  split at h
  · rw [← Option.some.inj h]
  · cases h

private theorem Offset.lt_of_readField? {a b : Char} {n : Int} (h : readField? [a, b] = some n) :
    -10 < n := by
  simp only [readField?] at h
  split at h
  · next hdigits =>
    have hn : n = applySign (splitSign [a, b]).1 (read (splitSign [a, b]).2) :=
      (Option.some.inj h).symm
    by_cases hminus : a = '-'
    · subst hminus
      have hlt : read [b] < 10 ^ [b].length := read_lt (isDigit_of_isNumeral hdigits)
      simp only [splitSign, applySign, if_true, List.length_singleton] at hn hlt
      omega
    · have hpositive : (splitSign [a, b]).1 = false := by
        unfold splitSign
        split <;> simp_all
      rw [hpositive] at hn
      simp only [applySign, Bool.false_eq_true, if_false] at hn
      omega
  · cases h

private theorem Offset.isExpressible_of_read? {negative : Bool} {h₁ h₂ m₁ m₂ : Char} {o : Offset}
    (h : Offset.read? negative [h₁, h₂] [m₁, m₂] = some o) : o.IsExpressible := by
  simp only [read?, Option.bind_eq_bind, Option.bind_eq_some_iff] at h
  obtain ⟨hours, hhours, minutes, hminutes, _, hguard, hoffset⟩ := h
  have hbound : ¬ (14 < hours ∨ 59 < minutes ∨ hours = 14 ∧ minutes ≠ 0) := by
    simpa [guard] using hguard
  have hhour := lt_of_readField? hhours
  have hminute := lt_of_readField? hminutes
  have hseconds : o.seconds = _ := seconds_of_of? hoffset
  rw [IsExpressible, hseconds]
  split <;> omega

private theorem isExpressible_of_splitZone {cs body : List Char} {offset : Option Offset}
    (h : splitZone cs = some (body, offset)) : ∀ o ∈ offset, o.IsExpressible := by
  unfold splitZone at h
  split at h
  · obtain ⟨-, rfl⟩ := Prod.mk.inj (Option.some.inj h)
    simp only [Option.mem_some_iff, forall_eq']
    decide
  · split at h
    · obtain ⟨o, ho, hparts⟩ := Option.map_eq_some_iff.mp h
      obtain ⟨-, rfl⟩ := Prod.mk.inj hparts
      simpa only [Option.mem_some_iff, forall_eq'] using Offset.isExpressible_of_read? ho
    · obtain ⟨-, rfl⟩ := Prod.mk.inj (Option.some.inj h)
      simp
  · obtain ⟨-, rfl⟩ := Prod.mk.inj (Option.some.inj h)
    simp

/-- A zone that was read has whole minutes and no more than fourteen hours, and the value in front
of it was read. -/
theorem Zoned.isExpressible_of_read? {α : Type} {readBody? : List Char → Option α} {cs : List Char}
    {z : Zoned α} (h : Zoned.read? readBody? cs = some z) :
    z.IsExpressible ∧ ∃ body, readBody? body = some z.value := by
  simp only [read?, readTrimmed?, Option.bind_eq_bind, Option.bind_eq_some_iff, Prod.exists] at h
  obtain ⟨body, offset, hzone, _, -, value, hvalue, hresult⟩ := h
  rw [← Option.some.inj hresult]
  exact ⟨isExpressible_of_splitZone hzone, body, hvalue⟩

private theorem Time.lt_of_readFraction? {cs : List Char} {n : Nat}
    (h : readFraction? cs = some n) : n < nanosPerSecond := by
  unfold readFraction? at h
  split at h
  · rw [← Option.some.inj h]
    decide
  · next digits =>
    split at h
    · next hdigits =>
      have hall : ∀ c ∈ (digits ++ List.replicate 9 '0').take 9, c.isDigit := by
        intro c hc
        obtain hc | hc := List.mem_append.mp (List.mem_of_mem_take hc)
        · exact isDigit_of_isNumeral hdigits c hc
        · rw [List.eq_of_mem_replicate hc]
          rfl
      have hlt := read_lt hall
      rw [List.length_take_of_le (by simp)] at hlt
      rw [← Option.some.inj h]
      exact hlt
    · cases h
  · cases h

private theorem Time.not_isLeap_of_read? {cs : List Char} {t : Time} (h : Time.read? cs = some t) :
    ¬ t.IsLeap := by
  simp only [Time.read?, Option.bind_eq_bind, Option.bind_eq_some_iff, Prod.exists] at h
  obtain ⟨_, _, -, _, -, _, _, -, _, -, _, _, -, nanos, hnanos, htime⟩ := h
  unfold of? at htime
  split at htime
  · rw [← Option.some.inj htime]
    exact Nat.not_le_of_lt (lt_of_readFraction? hnanos)
  · cases htime

/-- No leap second is read. -/
theorem LocalDateTime.not_isLeap_of_read? {cs : List Char} {d : LocalDateTime}
    (h : LocalDateTime.read? cs = some d) : ¬ d.time.IsLeap := by
  simp only [LocalDateTime.read?, Option.bind_eq_bind, Option.bind_eq_some_iff, Prod.exists] at h
  obtain ⟨_, _, -, date, -, time, htime, hresult⟩ := h
  rw [← Option.some.inj hresult]
  exact Time.not_isLeap_of_read? htime

private theorem Duration.nanos_lt_of_read? {cs : List Char} {d : Duration}
    (h : Duration.read? cs = some d) :
    d.nanos.toNat < nanosPerSecond := by
  obtain ⟨p, hproper, -, rfl⟩ := Duration.read?_eq_some_iff.mp h
  rw [(DurationParts.denotes_value hproper).nanos]
  exact fractionValue_lt hproper.fraction

/-! ### Universal time -/

/-- Blanks are cut in front of a text that ends in a zone, as far as they go. -/
theorem trim_append {cs zone : List Char} (h : ∀ c ∈ zone, isBlank c = false) (hne : zone ≠ []) :
    trim (cs ++ zone) = trimStart cs ++ zone := by
  have hfront : trimStart (cs ++ zone) = trimStart cs ++ zone := by
    have hzone : trimStart zone = zone := by
      obtain ⟨c, rest, rfl⟩ := List.exists_cons_of_ne_nil hne
      exact trimStart_cons (h c List.mem_cons_self)
    rw [trimStart, List.dropWhile_append]
    split
    · next hempty =>
      rw [List.isEmpty_iff] at hempty
      rw [trimStart, hempty]
      exact hzone
    · rfl
  have hback :
      (trimStart cs ++ zone).reverse.dropWhile isBlank = (trimStart cs ++ zone).reverse := by
    obtain ⟨c, rest, hrest⟩ := List.exists_cons_of_ne_nil (List.reverse_ne_nil_iff.mpr hne)
    have hc : c ∈ zone := List.mem_reverse.mp (hrest ▸ List.mem_cons_self)
    rw [List.reverse_append, hrest]
    exact trimStart_cons (h c hc)
  rw [trim, hfront, trimEnd, hback, List.reverse_reverse]

/-- The zones that stand for universal time. -/
def universalZones : List String := ["Z", "+00:00", "-00:00"]

private theorem isBlank_of_mem_universalZones {zone : String} (h : zone ∈ universalZones) :
    (∀ c ∈ zone.toList, isBlank c = false) ∧ zone.toList ≠ [] := by
  simp only [universalZones, List.mem_cons, List.not_mem_nil, or_false] at h
  obtain rfl | rfl | rfl := h <;> simp [isBlank]

/-- A literal means the same with any zone that stands for universal time. -/
private theorem Zoned.read?_universal {α : Type} {readBody? : List Char → Option α}
    (hnil : readBody? [] = none) (hzones : ∀ zone ∈ universalZones, readBody? zone.toList = none)
    {zone : String} (hzone : zone ∈ universalZones) (cs : List Char) :
    Zoned.read? readBody? (cs ++ zone.toList) = Zoned.read? readBody? (cs ++ ['Z']) := by
  obtain ⟨hblank, hne⟩ := isBlank_of_mem_universalZones hzone
  have hbody : readBody? zone.toList = none := hzones zone hzone
  have htrim : trim (cs ++ ['Z']) = trimStart cs ++ ['Z'] :=
    trim_append (by simp [isBlank]) (List.cons_ne_nil _ _)
  rw [read?, read?, trim_append hblank hne, htrim]
  simp only [universalZones, List.mem_cons, List.not_mem_nil, or_false] at hzone
  cases hcs : (trimStart cs).reverse with
  | nil =>
    -- Nothing is left in front of the zone: it is not cut off, but it is no literal by itself.
    rw [List.reverse_eq_nil_iff.mp hcs]
    obtain rfl | rfl | rfl := hzone
    · rfl
    · simp_all [readTrimmed?, splitZone]
    · simp_all [readTrimmed?, splitZone]
  | cons c rest =>
    have hstart : trimStart cs = (c :: rest).reverse := by rw [← hcs, List.reverse_reverse]
    have hutc (negative : Bool) : Offset.read? negative ['0', '0'] ['0', '0'] = some .utc := by
      cases negative <;> decide
    obtain rfl | rfl | rfl := hzone
    · rfl
    · simp [hstart, readTrimmed?, splitZone, hutc]
    · simp [hstart, readTrimmed?, splitZone, hutc]

private theorem Duration.read?_universal {zone : String} (hzone : zone ∈ universalZones)
    (cs : List Char) : Duration.read? (cs ++ zone.toList) = none := by
  obtain ⟨hblank, hne⟩ := isBlank_of_mem_universalZones hzone
  have hforeign : ∃ c ∈ zone.toList, c.isDigit = false ∧ c ∉ designators := by
    simp only [universalZones, List.mem_cons, List.not_mem_nil, or_false] at hzone
    obtain rfl | rfl | rfl := hzone
    · exact ⟨'Z', by decide⟩
    · exact ⟨':', by decide⟩
    · exact ⟨':', by decide⟩
  obtain ⟨c, hc, hdigit, hdesignator⟩ := hforeign
  refine Option.eq_none_iff_forall_ne_some.mpr fun d hd ↦ ?_
  obtain ⟨p, hproper, htext, -⟩ := Duration.read?_eq_some_iff.mp hd
  rw [trim_append hblank hne] at htext
  refine DurationParts.not_mem_text hproper hdigit hdesignator ?_
  rw [htext]
  exact List.mem_append_right _ hc

/-- Every moment is the same as itself. -/
theorem DateTime.equiv_refl (d : DateTime) : Equiv d d := by
  obtain ⟨value, offset⟩ := d
  cases offset <;> rfl

end Calendar

open Calendar Text

/-! ### Scalars -/

/-- The types of dates, clock times, both, and durations. -/
def LexicalSpace.IsTemporal (space : LexicalSpace) : Prop :=
  space ∈ [.dateTime, .date, .time, .duration]

instance (space : LexicalSpace) : Decidable space.IsTemporal :=
  inferInstanceAs (Decidable (_ ∈ _))

namespace Scalar

/-- No part of the value is beyond the literals of its type: the offset has whole minutes and no
more than fourteen hours, and the nanoseconds of a duration are less than a second. -/
def IsExpressible : Scalar → Prop
  | .dateTime d => d.IsExpressible
  | .date d => d.IsExpressible
  | .time t => t.IsExpressible
  | .duration d => d.nanos.toNat < nanosPerSecond
  | _ => True

/-- What a literal of the value shows, if it can be read. -/
def shown? : Scalar → Option Scalar
  | .dateTime d => d.shown?.map .dateTime
  | .date d => d.shown?.map .date
  | .time t => t.shown?.map .time
  | .duration d => some (.duration d.shown)
  | s => some s

private theorem isExpressible_iff (s : Scalar) : s.IsExpressible ↔ s.shown? = some s := by
  cases s with
  | dateTime d => simp [IsExpressible, shown?, Zoned.isExpressible_iff]
  | date d => simp [IsExpressible, shown?, Zoned.isExpressible_iff]
  | time t => simp [IsExpressible, shown?, Zoned.isExpressible_iff]
  | duration d => simp [IsExpressible, shown?, Duration.shown_eq_iff]
  | _ => simp [IsExpressible, shown?]

/-- What is shown of a value is equal to it in meaning only if it is the value. -/
theorem eq_of_beq_of_shown? {s w : Scalar} (h : s.shown? = some w) (hbeq : (w == s) = true) :
    w = s := by
  cases s with
  | dateTime d =>
    obtain ⟨z, hz, rfl⟩ := Option.map_eq_some_iff.mp h
    obtain ⟨value, offset⟩ := d
    have hequiv : DateTime.Equiv z ⟨value, offset⟩ := of_decide_eq_true hbeq
    cases offset with
    | none => rw [← Option.some.inj hz]
    | some o =>
      rw [Zoned.shown?, Option.ite_none_right_eq_some] at hz
      rw [← Option.some.inj hz.2] at hequiv ⊢
      have hseconds : (value.instant o.truncate).seconds = (value.instant o).seconds :=
        congrArg Instant.seconds hequiv
      have hsame : o.truncate = o := Offset.ext_seconds (by
        simp only [LocalDateTime.instant] at hseconds
        omega)
      rw [hsame]
  | date d =>
    obtain ⟨z, -, rfl⟩ := Option.map_eq_some_iff.mp h
    exact of_decide_eq_true hbeq
  | time t =>
    obtain ⟨z, -, rfl⟩ := Option.map_eq_some_iff.mp h
    exact of_decide_eq_true hbeq
  | duration d =>
    obtain rfl := Option.some.inj h
    exact of_decide_eq_true hbeq
  | _ => exact (Option.some.inj h).symm

end Scalar

/-! ### Codecs -/

namespace Codec

/-- A moment is read as what the reader of its type makes of the text. -/
theorem readMoment_eq_ok_iff {α : Type} {space : LexicalSpace} {read? : List Char → Option α}
    {make : α → Scalar} {lexical : String} {v : Scalar} :
    readMoment space read? make lexical = .ok v ↔ (read? lexical.toList).map make = some v := by
  unfold readMoment
  cases read? lexical.toList <;> simp

/-- Only a date with a time that is not in a leap second is printed. -/
theorem printDateTime_eq_ok_iff {d : DateTime} {text : String} :
    printDateTime d = .ok (.text text) ↔
      ¬ d.value.time.IsLeap ∧ text = String.ofList (Zoned.write LocalDateTime.write d) := by
  unfold printDateTime
  split
  · next h => simp [h]
  · next h =>
    refine ⟨fun hprint ↦ ⟨h, (Printed.text.inj (Except.ok.inj hprint)).symm⟩, ?_⟩
    rintro ⟨-, rfl⟩
    rfl

/-- Only a time that is not in a leap second is printed. -/
theorem printTime_eq_ok_iff {t : Zoned Time} {text : String} :
    printTime t = .ok (.text text) ↔
      ¬ t.value.IsLeap ∧ text = String.ofList (Zoned.write Time.write t) := by
  unfold printTime
  split
  · next h => simp [h]
  · next h =>
    refine ⟨fun hprint ↦ ⟨h, (Printed.text.inj (Except.ok.inj hprint)).symm⟩, ?_⟩
    rintro ⟨-, rfl⟩
    rfl

/-- What is printed is read back as what it shows. -/
theorem read_of_print {c : Codec} (hspace : c.space.IsTemporal) {v : Scalar} {text : String}
    (hprint : c.print (.scalar v) = .ok (.text text)) (namespaceOf : String → Option String)
    (w : Scalar) : c.read namespaceOf text = .ok w ↔ v.shown? = some w := by
  obtain ⟨space, type⟩ := c
  simp only [LexicalSpace.IsTemporal, List.mem_cons, List.not_mem_nil, or_false] at hspace
  obtain rfl | rfl | rfl | rfl := hspace
  · cases v with
    | dateTime d =>
      obtain ⟨hleap, rfl⟩ := printDateTime_eq_ok_iff.mp hprint
      rw [read, readMoment_eq_ok_iff, String.toList_ofList, DateTime.read?_write hleap]
      rfl
    | _ => cases hprint
  · cases v with
    | date d =>
      obtain rfl : String.ofList (Zoned.write Date.write d) = text :=
        Printed.text.inj (Except.ok.inj hprint)
      rw [read, readMoment_eq_ok_iff, String.toList_ofList, Zoned.read?_write_date]
      rfl
    | _ => cases hprint
  · cases v with
    | time t =>
      obtain ⟨hleap, rfl⟩ := printTime_eq_ok_iff.mp hprint
      rw [read, readMoment_eq_ok_iff, String.toList_ofList, Zoned.read?_write_time hleap]
      rfl
    | _ => cases hprint
  · cases v with
    | duration d =>
      obtain rfl : String.ofList d.write = text := Printed.text.inj (Except.ok.inj hprint)
      rw [read, readMoment_eq_ok_iff, String.toList_ofList, Duration.read?_write]
      rfl
    | _ => cases hprint

/-- Whatever is read can be expressed and is printed. -/
theorem of_read {c : Codec} (hspace : c.space.IsTemporal) {namespaceOf : String → Option String}
    {lexical : String} {v : Scalar} (h : c.read namespaceOf lexical = .ok v) :
    v.IsExpressible ∧ ∃ text, c.print (.scalar v) = .ok (.text text) := by
  obtain ⟨space, type⟩ := c
  simp only [LexicalSpace.IsTemporal, List.mem_cons, List.not_mem_nil, or_false] at hspace
  obtain rfl | rfl | rfl | rfl := hspace <;> rw [read, readMoment_eq_ok_iff] at h <;>
    obtain ⟨x, hx, rfl⟩ := Option.map_eq_some_iff.mp h
  · obtain ⟨hexpressible, body, hbody⟩ := Zoned.isExpressible_of_read? hx
    have hleap := LocalDateTime.not_isLeap_of_read? hbody
    exact ⟨hexpressible, _, printDateTime_eq_ok_iff.mpr ⟨hleap, rfl⟩⟩
  · exact ⟨(Zoned.isExpressible_of_read? hx).1, _, rfl⟩
  · obtain ⟨hexpressible, body, hbody⟩ := Zoned.isExpressible_of_read? hx
    have hleap := Time.not_isLeap_of_read? hbody
    exact ⟨hexpressible, _, printTime_eq_ok_iff.mpr ⟨hleap, rfl⟩⟩
  · exact ⟨Duration.nanos_lt_of_read? hx, _, rfl⟩

/-- A value with a literal is equal to itself in meaning. -/
theorem beq_self_of_print {c : Codec} (hspace : c.space.IsTemporal) {v : Scalar} {text : String}
    (hprint : c.print (.scalar v) = .ok (.text text)) : (v == v) = true := by
  obtain ⟨space, type⟩ := c
  simp only [LexicalSpace.IsTemporal, List.mem_cons, List.not_mem_nil, or_false] at hspace
  obtain rfl | rfl | rfl | rfl := hspace
  · cases v with
    | dateTime d =>
      exact decide_eq_true (DateTime.equiv_refl d)
    | _ => cases hprint
  all_goals cases v with
    | date _ | time _ | duration _ => exact decide_eq_true rfl
    | _ => cases hprint

/-- Texts with any zone that stands for universal time mean the same. -/
theorem read_universal {c : Codec} (hspace : c.space.IsTemporal)
    (namespaceOf : String → Option String) {zone : String} (hzone : zone ∈ universalZones)
    (body : String) (v : Scalar) :
    c.read namespaceOf (body ++ zone) = .ok v ↔ c.read namespaceOf (body ++ "Z") = .ok v := by
  obtain ⟨space, type⟩ := c
  simp only [LexicalSpace.IsTemporal, List.mem_cons, List.not_mem_nil, or_false] at hspace
  obtain rfl | rfl | rfl | rfl := hspace <;>
    rw [read, read, readMoment_eq_ok_iff, readMoment_eq_ok_iff, String.toList_append,
      String.toList_append]
  · rw [Zoned.read?_universal (by decide) (by decide) hzone]
    rfl
  · rw [Zoned.read?_universal (by decide) (by decide) hzone]
    rfl
  · rw [Zoned.read?_universal (by decide) (by decide) hzone]
    rfl
  · rw [Duration.read?_universal hzone, Duration.read?_universal List.mem_cons_self]

/-- A printed date, time or duration is read as what its literal shows. That is equal to what was
printed exactly if the offset has whole minutes and no more than fourteen hours, and the nanoseconds
of a duration are less than a second; and then it is the same. -/
theorem read_print_iff {c : Codec} (hspace : c.space.IsTemporal) {v : Scalar} {text : String}
    (hprint : c.print (.scalar v) = .ok (.text text)) (namespaceOf : String → Option String) :
    (∀ w, c.read namespaceOf text = .ok w ↔ v.shown? = some w) ∧
      (c.read namespaceOf text = .ok v ↔ v.IsExpressible) ∧
      ((∃ w, c.read namespaceOf text = .ok w ∧ (w == v) = true) ↔ v.IsExpressible) := by
  have hread (w : Scalar) : c.read namespaceOf text = .ok w ↔ v.shown? = some w :=
    read_of_print hspace hprint namespaceOf w
  have hsame : c.read namespaceOf text = .ok v ↔ v.IsExpressible :=
    (hread v).trans v.isExpressible_iff.symm
  refine ⟨hread, hsame, ?_, fun h ↦ ⟨v, hsame.mpr h, beq_self_of_print hspace hprint⟩⟩
  rintro ⟨w, hw, hbeq⟩
  obtain rfl : w = v := Scalar.eq_of_beq_of_shown? ((hread w).mp hw) hbeq
  exact hsame.mp hw

/-- A morning before our era is printed, and read back. -/
theorem read_print_iff_morning :
    LexicalSpace.dateTime.IsTemporal ∧
      ∃ v : Scalar, print ⟨.dateTime, .dateTime⟩ (.scalar v) =
          .ok (.text "-0044-03-15T09:30:00.25-01:30") ∧ v.IsExpressible ∧
        read ⟨.dateTime, .dateTime⟩ (fun _ ↦ none) "-0044-03-15T09:30:00.25-01:30" = .ok v := by
  let offset : Offset := ⟨-5400, by decide⟩
  let v : Scalar :=
    .dateTime ⟨⟨⟨-44, 3, 15, by decide⟩, ⟨9, 30, 0, 250000000, by decide⟩⟩, some offset⟩
  have hspace : LexicalSpace.dateTime.IsTemporal := by decide
  have hprint : print ⟨.dateTime, .dateTime⟩ (.scalar v) =
      .ok (.text "-0044-03-15T09:30:00.25-01:30") := by decide +kernel
  have hexpressible : v.IsExpressible := by
    intro o ho
    obtain rfl : offset = o := Option.some.inj ho
    decide
  exact ⟨hspace, v, hprint, hexpressible, (read_print_iff hspace hprint _).2.1.mpr hexpressible⟩

/-- Not everything that is printed is read back as an equal value: the literal of an offset does not
show its seconds, that of a duration not the seconds among its nanoseconds, and an offset of more
than fourteen hours is not read at all. -/
theorem not_read_print :
    let namespaceOf : String → Option String := fun _ ↦ none
    let offset : DateTime :=
      ⟨⟨⟨2024, 1, 1, by decide⟩, ⟨0, 0, 0, 0, by decide⟩⟩, some ⟨3601, by decide⟩⟩
    let length : Duration := ⟨false, 0, 0, 0, 0, 0, 1, 1500000000⟩
    let far : Zoned Time := ⟨⟨0, 0, 0, 0, by decide⟩, some ⟨54000, by decide⟩⟩
    (print ⟨.dateTime, .dateTime⟩ (.scalar (.dateTime offset)) =
        .ok (.text "2024-01-01T00:00:00+01:00") ∧
      ∃ w, read ⟨.dateTime, .dateTime⟩ namespaceOf "2024-01-01T00:00:00+01:00" = .ok w ∧
        (w == .dateTime offset) = false) ∧
    (print ⟨.duration, .duration⟩ (.scalar (.duration length)) = .ok (.text "PT1.5S") ∧
      ∃ w, read ⟨.duration, .duration⟩ namespaceOf "PT1.5S" = .ok w ∧
        (w == .duration length) = false) ∧
    print ⟨.time, .time⟩ (.scalar (.time far)) = .ok (.text "00:00:00+15:00") ∧
      read ⟨.time, .time⟩ namespaceOf "00:00:00+15:00" =
        .error (.invalidMoment .time "00:00:00+15:00") := by
  intro namespaceOf offset length far
  refine ⟨⟨by decide +kernel, .dateTime ⟨offset.value, some ⟨3600, by decide⟩⟩, by decide +kernel, by decide⟩,
    ⟨by decide +kernel, .duration { length with nanos := 500000000 }, by decide +kernel, by decide⟩, by decide +kernel, by decide +kernel⟩

/-- Every text that is read is printed in one normal form: it is read as the same value, it is
printed for no other value that is read, and zones that stand for universal time are one. -/
theorem print_of_read {c : Codec} (hspace : c.space.IsTemporal)
    {namespaceOf : String → Option String} {lexical : String} {v : Scalar}
    (h : c.read namespaceOf lexical = .ok v) :
    (∃ text, c.print (.scalar v) = .ok (.text text) ∧
      (∀ namespaceOf', c.read namespaceOf' text = .ok v) ∧
      ∀ namespaceOf' lexical' w, c.read namespaceOf' lexical' = .ok w →
        (c.print (.scalar w) = .ok (.text text) ↔ w = v)) ∧
      ∀ zone ∈ universalZones, ∀ body : String,
        (c.read namespaceOf (body ++ zone) = .ok v ↔ c.read namespaceOf (body ++ "Z") = .ok v) := by
  obtain ⟨hexpressible, text, hprint⟩ := of_read hspace h
  have hback (namespaceOf' : String → Option String) : c.read namespaceOf' text = .ok v :=
    (read_of_print hspace hprint namespaceOf' v).mpr (v.isExpressible_iff.mp hexpressible)
  refine ⟨⟨text, hprint, hback, fun namespaceOf' lexical' w hw ↦ ⟨fun hprint' ↦ ?_, ?_⟩⟩,
    fun zone hzone body ↦ read_universal hspace namespaceOf hzone body v⟩
  · have hexpressible' : w.IsExpressible := (of_read hspace hw).1
    have hback' : c.read namespaceOf text = .ok w :=
      (read_of_print hspace hprint' namespaceOf w).mpr (w.isExpressible_iff.mp hexpressible')
    exact Except.ok.inj (hback'.symm.trans (hback namespaceOf))
  · rintro rfl
    exact hprint

/-- The normal form has two digits for the hour, no zeros behind the fraction, and the letter for
universal time. -/
theorem print_of_read_clock :
    LexicalSpace.time.IsTemporal ∧
      ∃ v, read ⟨.time, .time⟩ (fun _ ↦ none) " 1:02:03.500-00:00" = .ok v ∧
        print ⟨.time, .time⟩ (.scalar v) = .ok (.text "01:02:03.5Z") ∧
        read ⟨.time, .time⟩ (fun _ ↦ none) "01:02:03.5Z" = .ok v := by
  have hspace : LexicalSpace.time.IsTemporal := by decide
  have hread : read ⟨.time, .time⟩ (fun _ ↦ none) " 1:02:03.500-00:00" =
      .ok (.time ⟨⟨1, 2, 3, 500000000, by decide⟩, some ⟨0, by decide⟩⟩) := by decide +kernel
  have hnormal : print ⟨.time, .time⟩
      (.scalar (.time ⟨⟨1, 2, 3, 500000000, by decide⟩, some ⟨0, by decide⟩⟩)) =
        .ok (.text "01:02:03.5Z") := by decide +kernel
  obtain ⟨⟨text, hprint, hback, -⟩, -⟩ := print_of_read hspace hread
  obtain rfl : text = "01:02:03.5Z" :=
    Printed.text.inj (Except.ok.inj (hprint.symm.trans hnormal))
  exact ⟨hspace, _, hread, hprint, hback _⟩

end Codec

end XmlBinding

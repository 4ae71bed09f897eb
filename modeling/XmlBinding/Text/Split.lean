/-!
# Cutting texts at a character

`splitFirst` cuts at the first occurrence of a separator, `splitAll` at every one. Both drop the
separator itself.
-/

namespace XmlBinding.Text

/-- The parts before and after the first `sep`, if there is one. -/
def splitFirst (sep : Char) : List Char → Option (List Char × List Char)
  | [] => none
  | c :: cs =>
    if c = sep then some ([], cs)
    else (splitFirst sep cs).map fun (before, after) ↦ (c :: before, after)

/-- The parts between all occurrences of the characters that `isSep` names; never the empty list. -/
def splitAll (isSep : Char → Bool) : List Char → List (List Char)
  | [] => [[]]
  | c :: cs =>
    if isSep c then [] :: splitAll isSep cs
    else match splitAll isSep cs with
      | [] => [[c]]
      | part :: parts => (c :: part) :: parts

/-- The cut is at a separator that has none before it, and loses nothing else. -/
theorem splitFirst_eq_some_iff {sep : Char} {cs before after : List Char} :
    splitFirst sep cs = some (before, after) ↔ sep ∉ before ∧ cs = before ++ sep :: after := by
  induction cs generalizing before with
  | nil => simp [splitFirst]
  | cons c cs ih =>
    by_cases h : c = sep
    · cases before <;> simp_all [splitFirst, eq_comm]
    · cases before with
      | nil => simp [splitFirst, h]
      | cons b bs =>
        simp only [splitFirst, h, if_false, Option.map_eq_some_iff, Prod.exists, Prod.mk.injEq,
          List.cons.injEq, List.mem_cons, not_or, List.cons_append]
        constructor
        · rintro ⟨x, y, hxy, ⟨rfl, rfl⟩, rfl⟩
          have := ih.1 hxy
          exact ⟨⟨fun e ↦ h e.symm, this.1⟩, rfl, this.2⟩
        · rintro ⟨⟨_, hb⟩, rfl, rfl⟩
          exact ⟨bs, after, ih.2 ⟨hb, rfl⟩, ⟨rfl, rfl⟩, rfl⟩

/-- There is no cut exactly where there is no separator. -/
theorem splitFirst_eq_none_iff {sep : Char} {cs : List Char} :
    splitFirst sep cs = none ↔ sep ∉ cs := by
  induction cs with
  | nil => simp [splitFirst]
  | cons c cs ih =>
    by_cases h : c = sep
    · simp [splitFirst, h]
    · have h' : ¬ sep = c := fun e ↦ h e.symm
      simp [splitFirst, h, h', ih]

/-- The parts of a text hold its characters and no separator. -/
theorem mem_of_mem_splitAll {isSep : Char → Bool} {cs part : List Char}
    (h : part ∈ splitAll isSep cs) : ∀ c ∈ part, isSep c = false ∧ c ∈ cs := by
  induction cs generalizing part with
  | nil =>
    obtain rfl : part = [] := by simpa [splitAll] using h
    simp
  | cons c cs ih =>
    have hmore {part : List Char} (hp : part ∈ splitAll isSep cs) :
        ∀ x ∈ part, isSep x = false ∧ x ∈ c :: cs :=
      fun x hx ↦ ⟨(ih hp x hx).1, List.mem_cons_of_mem c (ih hp x hx).2⟩
    rw [splitAll] at h
    split at h
    · rcases List.mem_cons.mp h with rfl | h
      · simp
      · exact hmore h
    · next hc =>
      split at h
      · obtain rfl : part = [c] := by simpa using h
        simpa using hc
      · next first others hsplit =>
        rw [hsplit] at hmore
        rcases List.mem_cons.mp h with rfl | h
        · simpa [hc] using hmore List.mem_cons_self
        · exact hmore (List.mem_cons_of_mem first h)

/-- There is always a part. -/
theorem splitAll_ne_nil {isSep : Char → Bool} (cs : List Char) : splitAll isSep cs ≠ [] := by
  cases cs with
  | nil => simp [splitAll]
  | cons c cs =>
    rw [splitAll]
    split
    · simp
    · split <;> simp

/-- A text without separators is one part. -/
theorem splitAll_of_forall {isSep : Char → Bool} {cs : List Char}
    (h : ∀ c ∈ cs, isSep c = false) : splitAll isSep cs = [cs] := by
  induction cs with
  | nil => rfl
  | cons c cs ih =>
    rw [List.forall_mem_cons] at h
    rw [splitAll, if_neg (by simp [h.1]), ih h.2]

/-- A text without the separator is one piece. -/
theorem splitAll_of_not_mem {sep : Char} {cs : List Char} (h : sep ∉ cs) :
    splitAll (· == sep) cs = [cs] :=
  splitAll_of_forall fun _ hc ↦ beq_eq_false_iff_ne.mpr fun e ↦ h (e ▸ hc)

/-- What is before a separator and what is behind it are cut by themselves. -/
theorem splitAll_append_of_isSep (isSep : Char → Bool) {sep : Char} (h : isSep sep)
    (cs ds : List Char) :
    splitAll isSep (cs ++ sep :: ds) = splitAll isSep cs ++ splitAll isSep ds := by
  induction cs with
  | nil => simp [splitAll, h]
  | cons c cs ih =>
    have hne : splitAll isSep cs ≠ [] := splitAll_ne_nil cs
    obtain ⟨part, parts, hparts⟩ := List.exists_cons_of_ne_nil hne
    rw [List.cons_append, splitAll, splitAll, ih, hparts]
    split <;> rfl

/-- A separator divides the pieces in front of it from those behind it. -/
theorem splitAll_append (sep : Char) (cs ds : List Char) :
    splitAll (· == sep) (cs ++ sep :: ds) = splitAll (· == sep) cs ++ splitAll (· == sep) ds :=
  splitAll_append_of_isSep (· == sep) (beq_self_eq_true sep) cs ds

/-- A text is its parts with the separators between them. -/
theorem intercalate_splitAll (sep : Char) (cs : List Char) :
    [sep].intercalate (splitAll (· == sep) cs) = cs := by
  induction cs with
  | nil => rfl
  | cons c cs ih =>
    have hne : splitAll (· == sep) cs ≠ [] := splitAll_ne_nil cs
    rw [splitAll]
    by_cases hc : c = sep
    · subst hc
      rw [if_pos (beq_self_eq_true c), List.intercalate_cons_of_ne_nil hne, ih]
      rfl
    · rw [if_neg (by simpa using hc)]
      obtain ⟨part, parts, hparts⟩ := List.exists_cons_of_ne_nil hne
      rw [hparts] at ih ⊢
      exact (List.intercalate_cons_cons_left ..).trans (congrArg (c :: ·) ih)

end XmlBinding.Text

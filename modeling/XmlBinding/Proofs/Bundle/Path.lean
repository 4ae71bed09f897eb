import Mathlib.Data.List.Basic
import XmlBinding.Bundle.Path

/-!
# Where paths lead

The path of a document below a directory may be written in many ways, but it always comes down to a
row of names. `Path.Names` relates the two; the path written by the names alone leads to the same
place, and is no longer than any other text for it.
-/

namespace XmlBinding

namespace Text

private theorem intercalate_sublist (sep : List Char) {xs ys : List (List Char)}
    (h : xs.Sublist ys) : (sep.intercalate xs).Sublist (sep.intercalate ys) := by
  induction h with
  | slnil => exact .refl _
  | @cons xs ys y h ih =>
    by_cases hys : ys = []
    · subst hys
      obtain rfl := List.sublist_nil.mp h
      simp
    · rw [List.intercalate_cons_of_ne_nil hys]
      exact ih.trans (List.sublist_append_right _ _)
  | @cons_cons xs ys y h ih =>
    by_cases hxs : xs = []
    · subst hxs
      by_cases hys : ys = []
      · subst hys; exact .refl _
      · rw [List.intercalate_cons_of_ne_nil hys, List.intercalate_singleton, List.append_assoc]
        exact List.sublist_append_left _ _
    · have hys : ys ≠ [] := by
        rintro rfl
        exact hxs (List.sublist_nil.mp h)
      rw [List.intercalate_cons_of_ne_nil hxs, List.intercalate_cons_of_ne_nil hys]
      exact (List.Sublist.refl _).append ih

end Text

namespace Path

/-! ### Pieces -/

/-- Only a proper name is a step to itself. -/
theorem eq_of_componentOf? {piece s : String} (h : componentOf? piece = some (.name s)) :
    piece = s := by
  unfold componentOf? at h
  split at h <;> simp_all

/-- Every path has a piece, if only an empty one. -/
theorem pieces_ne_nil (p : Path) : p.pieces ≠ [] := by
  simpa [pieces] using Text.splitAll_ne_nil p.text.toList

/-- No piece holds a slash. -/
theorem slash_not_mem_of_mem_pieces {p : Path} {piece : String} (h : piece ∈ p.pieces) :
    '/' ∉ piece.toList := by
  obtain ⟨part, hpart, rfl⟩ := List.mem_map.mp h
  rw [String.toList_ofList]
  intro hslash
  simpa using (Text.mem_of_mem_splitAll hpart _ hslash).1

private theorem intercalate_pieces (p : Path) :
    ['/'].intercalate (p.pieces.map String.toList) = p.text.toList := by
  rw [pieces, List.map_map]
  exact (congrArg _ (List.map_id'' (fun _ ↦ String.toList_ofList) _)).trans
    (Text.intercalate_splitAll '/' p.text.toList)

private theorem pieces_ofNames {names : List String} (hne : names ≠ [])
    (h : ∀ s ∈ names, '/' ∉ s.toList) : (ofNames names).pieces = names := by
  have hcut : ∀ names : List String, names ≠ [] → (∀ s ∈ names, '/' ∉ s.toList) →
      Text.splitAll (· == '/') (['/'].intercalate (names.map String.toList)) =
        names.map String.toList := by
    intro names hne h
    induction names with
    | nil => exact absurd rfl hne
    | cons s names ih =>
      have hs := Text.splitAll_of_not_mem (h s List.mem_cons_self)
      by_cases hnames : names = []
      · subst hnames
        rw [List.map_cons, List.map_nil, List.intercalate_singleton, hs]
      · have hmap : names.map String.toList ≠ [] := by simpa using hnames
        rw [List.map_cons, List.intercalate_cons_of_ne_nil hmap, List.append_assoc,
          List.singleton_append, Text.splitAll_append, hs,
          ih hnames fun t ht ↦ h t (List.mem_cons_of_mem s ht)]
        rfl
  have htext : (ofNames names).text.toList = ['/'].intercalate (names.map String.toList) :=
    String.toList_intercalate
  rw [pieces, htext, hcut names hne h, List.map_map]
  exact List.map_id'' (fun _ ↦ String.ofList_toList) names

/-! ### Joined paths -/

/-- The path starts at the root. -/
def IsRooted (p : Path) : Prop := p.text.startsWith "/"

private theorem isRooted_iff {p : Path} : p.IsRooted ↔ ∃ cs, p.text.toList = '/' :: cs := by
  rw [IsRooted, String.startsWith_string_iff]
  exact ⟨fun ⟨cs, h⟩ ↦ ⟨cs, h.symm⟩, fun ⟨cs, h⟩ ↦ ⟨cs, h.symm⟩⟩

/-- The first piece of a path from the root is empty, and there is another. -/
private theorem pieces_of_isRooted {p : Path} (h : p.IsRooted) :
    ∃ piece rest, p.pieces = "" :: piece :: rest := by
  obtain ⟨cs, hcs⟩ := isRooted_iff.mp h
  have hne : Text.splitAll (· == '/') cs ≠ [] := Text.splitAll_ne_nil cs
  obtain ⟨part, parts, hparts⟩ := List.exists_cons_of_ne_nil hne
  exact ⟨String.ofList part, parts.map String.ofList, by simp [pieces, hcs, Text.splitAll, hparts]⟩

private theorem endsWith_slash_iff {s : String} :
    s.endsWith "/" ↔ ∃ cs, s.toList = cs ++ ['/'] := by
  rw [← String.endsWith_toSlice, String.Slice.endsWith_string_iff, String.copy_toSlice]
  exact ⟨fun ⟨cs, h⟩ ↦ ⟨cs, h.symm⟩, fun ⟨cs, h⟩ ↦ ⟨cs, h.symm⟩⟩

/-- The text of a path behind another: a slash may stand between them. -/
theorem toList_join (p : Path) {q : Path} (h : ¬ q.IsRooted) :
    (p.join q).text.toList =
      if p.text = "" ∨ p.text.endsWith "/" then p.text.toList ++ q.text.toList
      else p.text.toList ++ '/' :: q.text.toList := by
  unfold IsRooted at h
  unfold join
  by_cases hp : p.text = ""
  · simp [hp]
  · by_cases hend : p.text.endsWith "/" <;> simp [h, hp, hend]

/-- The pieces of a path behind another stand behind the pieces of the other, but for an empty one
at its end. -/
theorem pieces_join (p : Path) {q : Path} (h : ¬ q.IsRooted) :
    (p.join q).pieces = p.pieces ++ q.pieces ∨
      ∃ before, p.pieces = before ++ [""] ∧ (p.join q).pieces = before ++ q.pieces := by
  unfold pieces
  rw [toList_join p h]
  by_cases hp : p.text = ""
  · exact .inr ⟨[], by simp [hp, Text.splitAll]⟩
  by_cases hend : p.text.endsWith "/"
  · obtain ⟨cs, hcs⟩ := endsWith_slash_iff.mp hend
    refine .inr ⟨(Text.splitAll (· == '/') cs).map String.ofList, ?_, ?_⟩
    · rw [hcs, Text.splitAll_append, List.map_append]
      rfl
    · rw [if_pos (.inr hend), hcs, List.append_assoc, List.singleton_append, Text.splitAll_append,
        List.map_append]
  · exact .inl (by simp [hp, hend, Text.splitAll_append])

/-- A path behind another is no shorter for more characters. -/
theorem sublist_join (p : Path) {q q' : Path} (h : ¬ q.IsRooted) (h' : ¬ q'.IsRooted)
    (hsub : q.text.toList.Sublist q'.text.toList) :
    (p.join q).text.toList.Sublist (p.join q').text.toList := by
  rw [toList_join p h, toList_join p h']
  split
  · exact hsub.append_left _
  · exact (hsub.cons_cons '/').append_left _

/-- A path behind another holds the characters of the other. -/
theorem sublist_join_self (p : Path) {q : Path} (h : ¬ q.IsRooted) :
    p.text.toList.Sublist (p.join q).text.toList := by
  rw [toList_join p h]
  split <;> exact List.sublist_append_left _ _

/-! ### Names -/

/-- The path goes down by the given names, at least one, and does nothing else. -/
structure Names (p : Path) (names : List String) : Prop where
  ne_nil : names ≠ []
  components_eq : p.components = names.map .name
  steps_eq : p.pieces.filterMap componentOf? = names.map .name
  not_isRooted : ¬ p.IsRooted

private theorem eq_map_name {components : List PathComponent} {names : List String}
    (h : components.mapM (fun
      | .name s => some s
      | _ => none) = some names) : components = names.map .name := by
  induction components generalizing names with
  | nil =>
    obtain rfl : names = [] := by simpa using h.symm
    rfl
  | cons component components ih =>
    rw [List.mapM_cons] at h
    cases component with
    | name s =>
      obtain ⟨rest, hrest, rfl⟩ := Option.map_eq_some_iff.mp
        (Option.map_eq_bind.trans h : Option.map (s :: ·) _ = some names)
      rw [ih hrest]
      rfl
    | root | current | parent => cases h

/-- A path whose steps are names goes down by them. -/
theorem names_of_components {p : Path} {names : List String} (hne : names ≠ [])
    (h : p.components = names.map .name) : p.Names names := by
  have hsteps : p.components = p.pieces.filterMap componentOf? := by
    rw [components.eq_def] at h ⊢
    split at h
    · cases names <;> cases h
    · cases names <;> cases h
    · rfl
  refine ⟨hne, h, hsteps ▸ h, fun hrooted ↦ ?_⟩
  obtain ⟨piece, rest, hpieces⟩ := pieces_of_isRooted hrooted
  rw [components, hpieces] at h
  cases names <;> cases h

/-- A path inside goes down by its names. -/
theorem names_of_isInside {p : Path} (h : p.isInside) :
    ∃ names, p.names? = some names ∧ p.Names names := by
  obtain ⟨names, hnames, hne⟩ : ∃ names, p.names? = some names ∧ names ≠ [] := by
    simpa [isInside, Option.any_eq_true] using h
  exact ⟨names, hnames, names_of_components hne (eq_map_name hnames)⟩

variable {p : Path} {names : List String}

/-- The names are read back. -/
theorem Names.names? (h : p.Names names) : p.names? = some names := by
  have hall (names : List String) : (names.map PathComponent.name).mapM (fun
      | .name s => some s
      | _ => none) = some names := by
    induction names with
    | nil => rfl
    | cons s names ih => rw [List.map_cons, List.mapM_cons, ih]; rfl
  rw [Path.names?, h.components_eq]
  exact hall names

/-- A path by names stays inside. -/
theorem Names.isInside (h : p.Names names) : p.isInside := by
  rw [Path.isInside, h.names?]
  simpa using h.ne_nil

/-- The names are among the pieces. -/
theorem Names.sublist (h : p.Names names) : names.Sublist p.pieces := by
  have hall : ∀ (pieces : List String) (names : List String),
      pieces.filterMap componentOf? = names.map .name → names.Sublist pieces := by
    intro pieces
    induction pieces with
    | nil =>
      intro names h
      cases names with
      | nil => exact .slnil
      | cons s names => cases h
    | cons piece pieces ih =>
      intro names h
      cases hpiece : componentOf? piece with
      | none =>
        rw [List.filterMap_cons_none hpiece] at h
        exact (ih names h).cons piece
      | some component =>
        rw [List.filterMap_cons_some hpiece] at h
        cases names with
        | nil => cases h
        | cons s names =>
          obtain ⟨rfl, hrest⟩ := List.cons.inj h
          rw [eq_of_componentOf? hpiece]
          exact (ih names hrest).cons_cons s
  exact hall p.pieces names h.steps_eq

/-- A name is a step to itself. -/
theorem Names.componentOf? (h : p.Names names) {s : String} (hs : s ∈ names) :
    Path.componentOf? s = some (.name s) := by
  have hmem : PathComponent.name s ∈ p.pieces.filterMap Path.componentOf? := by
    rw [h.steps_eq]
    exact List.mem_map_of_mem hs
  obtain ⟨piece, -, hpiece⟩ := List.mem_filterMap.mp hmem
  rwa [eq_of_componentOf? hpiece] at hpiece

/-- The pieces of the path of names are the names. -/
theorem Names.pieces_ofNames (h : p.Names names) : (Path.ofNames names).pieces = names :=
  Path.pieces_ofNames h.ne_nil fun _ hs ↦ slash_not_mem_of_mem_pieces (h.sublist.subset hs)

/-- The path written by the names goes the same way. -/
theorem Names.ofNames (h : p.Names names) : (Path.ofNames names).Names names := by
  have hpieces := h.pieces_ofNames
  have hsteps : names.filterMap Path.componentOf? = names.map .name :=
    (List.filterMap_congr fun _ hs ↦ h.componentOf? hs).trans (congrFun List.filterMap_eq_map' _)
  have hfirst {first : String} (hs : first ∈ names) : first ≠ "" ∧ first ≠ "." := by
    have hname := h.componentOf? hs
    constructor <;> rintro rfl <;> cases hname
  refine names_of_components h.ne_nil ?_
  rw [components.eq_def, hpieces]
  split
  · exact absurd rfl (hfirst List.mem_cons_self).1
  · exact absurd rfl (hfirst List.mem_cons_self).2
  · exact hsteps

/-- No text for the names is shorter. -/
theorem Names.sublist_text (h : p.Names names) :
    (Path.ofNames names).text.toList.Sublist p.text.toList := by
  have htext : (Path.ofNames names).text.toList = ['/'].intercalate (names.map String.toList) :=
    String.toList_intercalate
  rw [htext, ← p.intercalate_pieces]
  exact Text.intercalate_sublist ['/'] (h.sublist.map String.toList)

end Path

end XmlBinding

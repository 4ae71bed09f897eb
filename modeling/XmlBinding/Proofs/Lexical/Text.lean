import Mathlib.Data.List.Basic
import XmlBinding.Lexical.Codec

/-!
# Texts in the form of their type

The white space facet brings a text in a form that it does not change again
(`WhiteSpace.apply_apply`). Collapsing leaves the words of the text, its longest parts without
white space (`WhiteSpace.hasWords_iff`), with single spaces between them. So a text is printed just
if it is read, in one form, and that form is read and printed as it is (`Codec.text_normalized`).
-/

namespace XmlBinding

open Text

namespace WhiteSpace

/-! ### Words -/

/-- A part of a text that is not empty and has no white space. -/
def IsWord (word : List Char) : Prop := word ≠ [] ∧ ∀ c ∈ word, isXmlSpace c = false

/-- The words of a text in their order, each of them as long as it can be. -/
inductive HasWords : List Char → List (List Char) → Prop
  /-- White space, if anything, and no words. -/
  | blank {gap : List Char} : (∀ c ∈ gap, isXmlSpace c) → HasWords gap []
  /-- White space, if any, then a word, up to white space or the end of the text. -/
  | word {gap word rest : List Char} {words : List (List Char)} :
      (∀ c ∈ gap, isXmlSpace c) → IsWord word → (∀ c ∈ rest.head?, isXmlSpace c) →
      HasWords rest words → HasWords (gap ++ (word ++ rest)) (word :: words)

variable {cs ds word : List Char} {ws : List (List Char)} {c : Char}

private theorem isWord_of_mem_words (h : word ∈ words cs) : IsWord word := by
  obtain ⟨hpart, hne⟩ := List.mem_filter.mp h
  exact ⟨by simpa using hne, fun c hc ↦ (mem_of_mem_splitAll hpart c hc).1⟩

/-- White space separates words. -/
theorem words_append (hc : isXmlSpace c) (cs ds : List Char) :
    words (cs ++ c :: ds) = words cs ++ words ds := by
  rw [words, splitAll_append_of_isSep _ hc, List.filter_append, words, words]

private theorem words_append_of_blank {gap : List Char} (h : ∀ c ∈ gap, isXmlSpace c)
    (cs : List Char) : words (gap ++ cs) = words cs := by
  induction gap with
  | nil => rfl
  | cons c gap ih =>
    rw [List.forall_mem_cons] at h
    exact (words_append h.1 [] (gap ++ cs)).trans (ih h.2)

private theorem words_of_isWord (h : IsWord word) : words word = [word] := by
  rw [words, splitAll_of_forall h.2]
  exact List.filter_cons_of_pos (by simpa using h.1)

private theorem words_isWord_append (h : IsWord word) (hrest : ∀ c ∈ ds.head?, isXmlSpace c) :
    words (word ++ ds) = word :: words ds := by
  cases ds with
  | nil => rw [List.append_nil, words_of_isWord h]; rfl
  | cons c ds =>
    have hc : isXmlSpace c := hrest c rfl
    rw [words_append hc, words_of_isWord h]
    exact congrArg (word :: ·) (words_append hc [] ds).symm

private theorem HasWords.words_eq (h : HasWords cs ws) : words cs = ws := by
  induction h with
  | @blank gap hgap =>
    have hnil := words_append_of_blank hgap []
    rwa [List.append_nil] at hnil
  | word hgap hword hrest _ ih =>
    rw [words_append_of_blank hgap, words_isWord_append hword hrest, ih]

private theorem HasWords.cons_space (hc : isXmlSpace c) (h : HasWords cs ws) :
    HasWords (c :: cs) ws := by
  cases h with
  | blank hgap => exact .blank (List.forall_mem_cons.mpr ⟨hc, hgap⟩)
  | word hgap hword hrest h =>
    exact .word (List.forall_mem_cons.mpr ⟨hc, hgap⟩) hword hrest h

/-- Another character in front begins a word, or goes in front of the first one. -/
private theorem HasWords.cons_letter (hc : isXmlSpace c = false) (h : HasWords cs ws) :
    ∃ ws', HasWords (c :: cs) ws' := by
  have hnone : ∀ d ∈ ([] : List Char), isXmlSpace d := List.forall_mem_nil _
  have hletter : IsWord [c] := ⟨List.cons_ne_nil c [], by simpa using hc⟩
  have hbegin (hcs : ∀ d ∈ cs.head?, isXmlSpace d) : HasWords (c :: cs) ([c] :: ws) :=
    .word hnone hletter hcs h
  cases h with
  | @blank gap hgap => exact ⟨_, hbegin fun d hd ↦ hgap d (List.mem_of_mem_head? hd)⟩
  | @word gap word rest ws hgap hword hrest h =>
    cases gap with
    | nil =>
      have hlonger : IsWord (c :: word) :=
        ⟨List.cons_ne_nil c word, List.forall_mem_cons.mpr ⟨hc, hword.2⟩⟩
      exact ⟨_, .word hnone hlonger hrest h⟩
    | cons g gap => exact ⟨_, hbegin fun d hd ↦ hgap d (by simp_all)⟩

/-- Every text has words, and no others than `words` finds. -/
theorem hasWords_iff : HasWords cs ws ↔ ws = words cs := by
  refine ⟨fun h ↦ h.words_eq.symm, ?_⟩
  rintro rfl
  obtain ⟨ws, h⟩ : ∃ ws, HasWords cs ws := by
    induction cs with
    | nil => exact ⟨[], .blank (by simp)⟩
    | cons c cs ih =>
      obtain ⟨ws, h⟩ := ih
      cases hc : isXmlSpace c with
      | true => exact ⟨ws, h.cons_space hc⟩
      | false => exact h.cons_letter hc
  rwa [h.words_eq]

/-! ### Collapsed texts -/

private theorem joinWords_eq_intercalate (ws : List (List Char)) :
    joinWords ws = [' '].intercalate ws := by
  fun_induction joinWords ws with
  | case1 => rfl
  | case2 word => simp
  | case3 word rest hne ih =>
    rw [ih, List.intercalate_cons_of_ne_nil hne]
    simp

/-- The words that have been joined are found again. -/
theorem words_joinWords (h : ∀ word ∈ ws, IsWord word) : words (joinWords ws) = ws := by
  fun_induction joinWords ws with
  | case1 => rfl
  | case2 word => exact words_of_isWord (h word (by simp))
  | case3 word rest hne ih =>
    rw [List.forall_mem_cons] at h
    rw [words_append (c := ' ') rfl, words_of_isWord h.1, ih h.2]
    rfl

/-- No white space but spaces, each of them alone and between other characters. -/
structure IsCollapsed (cs : List Char) : Prop where
  tab : '\t' ∉ cs
  carriageReturn : '\r' ∉ cs
  lineFeed : '\n' ∉ cs
  leading : cs.head? ≠ some ' '
  trailing : cs.getLast? ≠ some ' '
  doubled : ¬ [' ', ' '] <:+: cs

private theorem IsWord.not_mem (h : IsWord word) (hc : isXmlSpace c) : c ∉ word := by
  intro hmem
  simp [h.2 c hmem] at hc

private theorem IsWord.isCollapsed (h : IsWord word) : IsCollapsed word where
  tab := h.not_mem rfl
  carriageReturn := h.not_mem rfl
  lineFeed := h.not_mem rfl
  leading := fun hhead ↦ h.not_mem rfl (List.mem_of_head? hhead)
  trailing := fun hlast ↦ h.not_mem rfl (List.mem_of_getLast? hlast)
  doubled := fun hdouble ↦ h.not_mem (c := ' ') rfl (hdouble.subset (by simp))

private theorem doubled_append_iff (h : ' ' ∉ cs) :
    [' ', ' '] <:+: cs ++ ds ↔ [' ', ' '] <:+: ds := by
  induction cs with
  | nil => rfl
  | cons c cs ih =>
    rw [List.mem_cons, not_or] at h
    rw [List.cons_append, List.infix_cons_iff, ih h.2, List.cons_prefix_cons]
    simp [h.1]

/-- A word goes in front of a collapsed text, with a space between them. -/
private theorem IsCollapsed.append (hword : IsWord word) (h : IsCollapsed cs) (hne : cs ≠ []) :
    IsCollapsed (word ++ ' ' :: cs) where
  tab := by simp [hword.not_mem (c := '\t') rfl, h.tab]
  carriageReturn := by simp [hword.not_mem (c := '\r') rfl, h.carriageReturn]
  lineFeed := by simp [hword.not_mem (c := '\n') rfl, h.lineFeed]
  leading := by
    rw [List.head?_append_of_ne_nil _ hword.1]
    exact hword.isCollapsed.leading
  trailing := by
    rw [List.append_cons, List.getLast?_append_of_ne_nil _ hne]
    exact h.trailing
  doubled := by
    rw [doubled_append_iff (hword.not_mem rfl), List.infix_cons_iff, not_or]
    refine ⟨fun hprefix ↦ h.leading ?_, h.doubled⟩
    obtain ⟨rest, hrest⟩ := (List.cons_prefix_cons.mp hprefix).2
    rw [← hrest]
    rfl

private theorem isCollapsed_joinWords (h : ∀ word ∈ ws, IsWord word) :
    IsCollapsed (joinWords ws) := by
  fun_induction joinWords ws with
  | case1 => exact ⟨by simp, by simp, by simp, by simp, by simp, by simp⟩
  | case2 word => exact (h word (by simp)).isCollapsed
  | case3 word rest hne ih =>
    rw [List.forall_mem_cons] at h
    refine (ih h.2).append h.1 fun hnil ↦ hne ?_
    rw [← words_joinWords h.2, hnil]
    rfl

/-! ### Facets -/

/-- A facet changes nothing that it has been applied to. -/
theorem apply_apply (w : WhiteSpace) (cs : List Char) : w.apply (w.apply cs) = w.apply cs := by
  cases w with
  | preserve => rfl
  | replace =>
    rw [apply, apply, List.map_map]
    refine List.map_congr_left fun c _ ↦ ?_
    cases h : isXmlSpace c with
    | true => simp [h]
    | false => simp [h]
  | collapse => rw [apply, apply, words_joinWords fun _ ↦ isWord_of_mem_words]

end WhiteSpace

/-! ### Schema types -/

namespace TextSpace

variable {space : TextSpace} {s w : String}

private theorem normalize_eq_ok_iff :
    space.normalize s = .ok w ↔
      w.toList = space.whiteSpace.apply s.toList ∧ space.admits w.toList := by
  have hw (cs : List Char) : String.ofList cs = w ↔ w.toList = cs := by
    rw [String.ext_iff, String.toList_ofList, eq_comm]
  unfold normalize
  dsimp only
  split
  · next h =>
    rw [Except.ok.injEq, hw]
    exact ⟨fun heq ↦ ⟨heq, heq ▸ h⟩, And.left⟩
  · next h =>
    constructor
    · intro hok
      cases hok
    · rintro ⟨heq, hadmits⟩
      rw [heq] at hadmits
      exact absurd hadmits h

/-- A text in the form of its type stays as it is. -/
theorem normalize_normalized (h : space.normalize s = .ok w) : space.normalize w = .ok w := by
  rw [normalize_eq_ok_iff] at h ⊢
  rw [h.1, WhiteSpace.apply_apply, ← h.1]
  exact ⟨rfl, h.2⟩

end TextSpace

namespace Codec

variable {space : TextSpace} {type : ScalarType} {namespaceOf : String → Option String}
  {s : String}

private theorem read_text_eq_ok_iff {v : Scalar} :
    read ⟨.text space, type⟩ namespaceOf s = .ok v ↔
      ∃ w, v = .string w ∧ space.normalize s = .ok w := by
  change (space.normalize s).map Scalar.string = _ ↔ _
  cases space.normalize s with
  | error cause => simp [Except.map]
  | ok w => simp [Except.map, eq_comm]

private theorem print_text_eq_ok_iff {printed : Printed} :
    print ⟨.text space, type⟩ (.scalar (.string s)) = .ok printed ↔
      ∃ w, printed = .text w ∧ space.normalize s = .ok w := by
  change (space.normalize s).map Printed.text = _ ↔ _
  cases space.normalize s with
  | error cause => simp [Except.map]
  | ok w => simp [Except.map, eq_comm]

/-- A text is printed in a type of texts just if it is read, and in the same form. That form is
read and printed as it is, and is one that the type admits. A type that collapses white space makes
a text of its words, with a space between neighbours and no other white space, and takes it just if
it admits that. -/
theorem text_normalized (space : TextSpace) (type : ScalarType)
    (namespaceOf : String → Option String) (s : String) :
    (∀ printed, print ⟨.text space, type⟩ (.scalar (.string s)) = .ok printed ↔
      ∃ w, printed = .text w ∧ read ⟨.text space, type⟩ namespaceOf s = .ok (.string w)) ∧
    (∀ v, read ⟨.text space, type⟩ namespaceOf s = .ok v ↔
      ∃ w, v = .string w ∧
        print ⟨.text space, type⟩ (.scalar (.string s)) = .ok (.text w)) ∧
    (∀ w, read ⟨.text space, type⟩ namespaceOf s = .ok (.string w) →
      read ⟨.text space, type⟩ namespaceOf w = .ok (.string w) ∧
      print ⟨.text space, type⟩ (.scalar (.string w)) = .ok (.text w) ∧
      space.admits w.toList) ∧
    (space.whiteSpace = .collapse →
      ∃ words, WhiteSpace.HasWords s.toList words ∧
        WhiteSpace.IsCollapsed ([' '].intercalate words) ∧
        ∀ w, read ⟨.text space, type⟩ namespaceOf s = .ok (.string w) ↔
          w.toList = [' '].intercalate words ∧ space.admits w.toList) := by
  have hread (t w : String) :
      read ⟨.text space, type⟩ namespaceOf t = .ok (.string w) ↔ space.normalize t = .ok w := by
    simp [read_text_eq_ok_iff]
  have hprint (t w : String) :
      print ⟨.text space, type⟩ (.scalar (.string t)) = .ok (.text w) ↔
        space.normalize t = .ok w := by
    simp [print_text_eq_ok_iff]
  simp only [hread, hprint]
  refine ⟨fun _ ↦ print_text_eq_ok_iff, fun _ ↦ read_text_eq_ok_iff, fun w hw ↦ ?_,
    fun hcollapse ↦ ?_⟩
  · have hform : space.normalize w = .ok w := TextSpace.normalize_normalized hw
    exact ⟨hform, hform, (TextSpace.normalize_eq_ok_iff.mp hw).2⟩
  · have hjoin : space.whiteSpace.apply s.toList =
        [' '].intercalate (WhiteSpace.words s.toList) := by
      rw [hcollapse, WhiteSpace.apply, WhiteSpace.joinWords_eq_intercalate]
    refine ⟨_, WhiteSpace.hasWords_iff.mpr rfl, ?_, fun w ↦ ?_⟩
    · rw [← WhiteSpace.joinWords_eq_intercalate]
      exact WhiteSpace.isCollapsed_joinWords fun _ ↦ WhiteSpace.isWord_of_mem_words
    · rw [TextSpace.normalize_eq_ok_iff, hjoin]

/-- The code of a language is read and printed without the blanks around it. -/
theorem text_normalized_language :
    let c : Codec := ⟨.text .language, .string⟩
    c.read (fun _ ↦ none) "\t en-US\n " = .ok (.string "en-US") ∧
      c.print (.scalar (.string "\t en-US\n ")) = .ok (.text "en-US") ∧
      c.read (fun _ ↦ none) "en-US" = .ok (.string "en-US") ∧
      c.print (.scalar (.string "en-US")) = .ok (.text "en-US") ∧
      TextSpace.language.whiteSpace = .collapse ∧ WhiteSpace.IsCollapsed "en-US".toList := by
  obtain ⟨hprint, -, hform, hcollapsed⟩ :=
    text_normalized .language .string (fun _ ↦ none) "\t en-US\n "
  have hread : read ⟨.text .language, .string⟩ (fun _ ↦ none) "\t en-US\n " =
      .ok (.string "en-US") := rfl
  obtain ⟨hreread, hreprint, -⟩ := hform "en-US" hread
  obtain ⟨words, -, hjoined, hwords⟩ := hcollapsed rfl
  refine ⟨hread, (hprint _).mpr ⟨"en-US", rfl, hread⟩, hreread, hreprint, rfl, ?_⟩
  rw [((hwords "en-US").mp hread).1]
  exact hjoined

end Codec

end XmlBinding

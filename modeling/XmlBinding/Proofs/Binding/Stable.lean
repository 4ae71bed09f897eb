import Mathlib.Data.List.DropRight
import XmlBinding.Proofs.Binding.Reread

/-!
# Names that are read again

A qualified name is read from the text of another one only by way of empty braces: `{}` says that
there is no namespace, and what a name in no namespace is written as is its local part alone. That
text is read as the name itself as long as the local part begins with neither a brace nor a blank
(`QName.ofClark_clark_iff`). Otherwise it is read as another name, or as none.
-/

namespace XmlBinding

/-! ### Ends of texts -/

namespace Text

private theorem isBlank_of_head?_trim {cs : List Char} {c : Char} (h : c ∈ (trim cs).head?) :
    isBlank c = false := by
  obtain ⟨ds, hds⟩ := List.head?_eq_some_iff.mp h
  obtain ⟨es, hes⟩ := trimEnd_prefix (trimStart cs)
  rw [show trimEnd (trimStart cs) = c :: ds from hds] at hes
  exact isBlank_of_trimStart_eq_cons hes.symm

private theorem isBlank_of_getLast?_trim {cs : List Char} {c : Char} (h : c ∈ (trim cs).getLast?) :
    isBlank c = false := by
  obtain ⟨hne, rfl⟩ := List.mem_getLast?_eq_getLast h
  exact Bool.eq_false_iff.mpr (List.rdropWhile_last_not isBlank (trimStart cs) hne)

private theorem trim_eq_self_of_ends {cs : List Char} (hhead : ∀ c ∈ cs.head?, isBlank c = false)
    (hlast : ∀ c ∈ cs.getLast?, isBlank c = false) : trim cs = cs := by
  cases cs with
  | nil => rfl
  | cons c cs =>
    rw [trim, trimStart_cons (hhead c rfl)]
    apply List.rdropWhile_eq_self_iff.mpr
    intro hne
    simp [hlast _ (List.getLast?_eq_getLast_of_ne_nil hne)]

private theorem head?_trim {c : Char} (cs : List Char) (h : isBlank c = false) :
    c ∈ (trim (c :: cs)).head? := by
  have hne : trimEnd (c :: cs) ≠ [] := by
    intro hnil
    have hblank := List.rdropWhile_eq_nil_iff.mp hnil c List.mem_cons_self
    simp [h] at hblank
  rw [trim, trimStart_cons h]
  obtain ⟨d, ds, hcut⟩ := List.exists_cons_of_ne_nil hne
  obtain ⟨es, hes⟩ := trimEnd_prefix (c :: cs)
  rw [hcut, List.cons_append] at hes
  rw [hcut, (List.cons.inj hes).1]
  rfl

private theorem length_trim_le (cs : List Char) : (trim cs).length ≤ cs.length := by
  have hend := List.IsPrefix.length_le <| trimEnd_prefix (trimStart cs)
  have hstart := (List.dropWhile_suffix (l := cs) isBlank).length_le
  exact hend.trans hstart

private theorem length_trim_lt {c : Char} (cs : List Char) (h : isBlank c = true) :
    (trim (c :: cs)).length < (c :: cs).length := by
  have hcut : trim (c :: cs) = trim cs := by simp [trim, trimStart, h]
  rw [hcut, List.length_cons]
  exact Nat.lt_succ_of_le (length_trim_le cs)

end Text

namespace QName

open Text

/-! ### What names are read from -/

/-- A name is read from a URI in braces with a local part behind it, or from a local part alone. -/
theorem of_ofTrimmed {cs : List Char} {q : QName} (h : ofTrimmed cs = .ok q) :
    q.localPart.toList ≠ [] ∧
      ('}' ∉ q.uri.toList ∧ cs = '{' :: (q.uri.toList ++ '}' :: q.localPart.toList) ∨
        q.uri = "" ∧ cs = q.localPart.toList ∧ '{' ∉ cs.head?) := by
  unfold ofTrimmed at h
  split at h
  · cases h
  · next rest =>
    split at h
    · cases h
    · cases h
    · next uri localPart hne hsplit =>
      obtain ⟨hmem, rfl⟩ := splitFirst_eq_some_iff.mp hsplit
      obtain rfl := Except.ok.inj h
      simp only [String.toList_ofList]
      exact ⟨fun hnil ↦ hne hnil, .inl ⟨hmem, trivial⟩⟩
  · next hne hbrace =>
    obtain rfl := Except.ok.inj h
    refine ⟨by simpa [unqualified] using hne, .inr ⟨rfl, by simp [unqualified], ?_⟩⟩
    intro hmem
    obtain ⟨rest, hrest⟩ := List.head?_eq_some_iff.mp hmem
    exact hbrace rest hrest

private theorem ofTrimmed_of_head? {cs : List Char} (hne : cs ≠ []) (hbrace : '{' ∉ cs.head?) :
    ofTrimmed cs = .ok (unqualified (String.ofList cs)) := by
  unfold ofTrimmed
  split
  · contradiction
  · simp at hbrace
  · rfl

private theorem length_localPart_le {cs : List Char} {q : QName} (h : ofTrimmed cs = .ok q) :
    q.localPart.toList.length ≤ cs.length ∧
      ('{' ∈ cs.head? → q.localPart.toList.length < cs.length) := by
  obtain ⟨-, ⟨-, rfl⟩ | ⟨-, rfl, hbrace⟩⟩ := of_ofTrimmed h
  · simp only [List.length_cons, List.length_append]
    omega
  · exact ⟨le_rfl, fun hmem ↦ absurd hmem hbrace⟩

/-- A local part that was read does not end in a blank, and without braces it does not begin with a
blank or a brace either. -/
theorem of_ofClark {text : String} {q : QName} (h : ofClark text = .ok q) :
    q.localPart.toList ≠ [] ∧ (∀ c ∈ q.localPart.toList.getLast?, isBlank c = false) ∧
      (trim text.toList = '{' :: (q.uri.toList ++ '}' :: q.localPart.toList) ∧
          '}' ∉ q.uri.toList ∨
        trim text.toList = q.localPart.toList ∧ q.uri = "" ∧
          ∀ c ∈ q.localPart.toList.head?, c ≠ '{' ∧ isBlank c = false) := by
  obtain ⟨hne, ⟨hmem, htext⟩ | ⟨huri, htext, hbrace⟩⟩ := of_ofTrimmed h
  · refine ⟨hne, fun c hc ↦ ?_, .inl ⟨htext, hmem⟩⟩
    have hsplit : trim text.toList =
        ('{' :: q.uri.toList ++ ['}']) ++ q.localPart.toList := by simpa using htext
    have hlast : c ∈ (trim text.toList).getLast? := by
      rw [hsplit, List.getLast?_append_of_ne_nil _ hne]
      exact hc
    exact isBlank_of_getLast?_trim hlast
  · refine ⟨hne, fun c hc ↦ ?_, .inr ⟨htext, huri, fun c hc ↦ ?_⟩⟩
    · exact isBlank_of_getLast?_trim (htext ▸ hc)
    · rw [htext] at hbrace
      exact ⟨fun hc' ↦ hbrace (hc' ▸ hc), isBlank_of_head?_trim (htext ▸ hc)⟩

/-! ### Hidden names -/

/-- The text begins with a brace or a blank. -/
def Hides (cs : List Char) : Prop := ∃ c ∈ cs.head?, c = '{' ∨ isBlank c

instance (cs : List Char) : Decidable (Hides cs) :=
  decidable_of_iff (cs.head?.any fun c ↦ c = '{' || isBlank c) (by simp [Hides, Option.any_eq_true])

/-- The name is in no namespace, and nothing but empty braces would tell where it begins. -/
def IsHidden (q : QName) : Prop := q.uri = "" ∧ Hides q.localPart.toList

instance (q : QName) : Decidable q.IsHidden := inferInstanceAs (Decidable (_ ∧ _))

/-- A local part that begins with a brace or a blank is not read as itself. -/
private theorem Hides.ofClark_ne {localPart : String} (h : Hides localPart.toList) :
    ofClark localPart ≠ .ok (unqualified localPart) := by
  intro hread
  obtain ⟨hle, hlt⟩ := length_localPart_le (show ofTrimmed (trim localPart.toList) = _ from hread)
  obtain ⟨c, hc, hhides⟩ := h
  obtain ⟨rest, hrest⟩ := List.head?_eq_some_iff.mp hc
  simp only [unqualified, hrest] at hle hlt
  -- A blank is cut before the name is read, a brace when it is.
  cases hblank : isBlank c with
  | true =>
    have hcut := length_trim_lt rest hblank
    omega
  | false =>
    obtain rfl : c = '{' := by simpa [hblank] using hhides
    have hcut := length_trim_le ('{' :: rest)
    have hbrace := hlt (head?_trim rest hblank)
    omega

/-- Every other local part is, if it does not end in a blank. -/
private theorem ofClark_of_not_hides {localPart : String} (hne : localPart.toList ≠ [])
    (hlast : ∀ c ∈ localPart.toList.getLast?, isBlank c = false)
    (h : ¬ Hides localPart.toList) : ofClark localPart = .ok (unqualified localPart) := by
  have hhead : ∀ c ∈ localPart.toList.head?, c ≠ '{' ∧ isBlank c = false := by
    simpa [Hides] using h
  rw [ofClark, trim_eq_self_of_ends (fun c hc ↦ (hhead c hc).2) hlast,
    ofTrimmed_of_head? hne fun hc ↦ (hhead _ hc).1 rfl, String.ofList_toList]

/-- A name that was read is read back from what it is written as, unless it is hidden. -/
theorem isClark_iff_of_ofClark {text : String} {q : QName} (h : ofClark text = .ok q) :
    q.IsClark ↔ ¬ q.IsHidden := by
  by_cases huri : q.uri = ""
  · obtain ⟨hne, hlast, -⟩ := of_ofClark h
    obtain ⟨uri, localPart⟩ := q
    subst huri
    have hread : IsClark ⟨"", localPart⟩ ↔ ofClark localPart = .ok (unqualified localPart) :=
      Iff.rfl
    have hhidden : IsHidden ⟨"", localPart⟩ ↔ Hides localPart.toList := by simp [IsHidden]
    rw [hread, hhidden]
    exact ⟨fun hread hhides ↦ hhides.ofClark_ne hread, ofClark_of_not_hides hne hlast⟩
  · have hhidden : ¬ q.IsHidden := fun hhidden ↦ huri hhidden.1
    exact iff_of_true (IsRead.isClark ⟨text, h⟩ huri) hhidden

/-- A hidden name is read from behind empty braces only. -/
theorem isHidden_iff_of_ofClark {text : String} {q : QName} (h : ofClark text = .ok q) :
    q.IsHidden ↔ ∃ rest, trim text.toList = '{' :: '}' :: rest ∧ Hides rest := by
  obtain ⟨-, -, ⟨htext, hmem⟩ | ⟨htext, huri, hhead⟩⟩ := of_ofClark h
  · rw [htext]
    constructor
    · rintro ⟨huri, hhides⟩
      exact ⟨_, by simp [huri], hhides⟩
    · rintro ⟨rest, heq, hhides⟩
      cases hcs : q.uri.toList with
      | nil =>
        rw [hcs] at heq
        obtain rfl : q.localPart.toList = rest := by simpa using heq
        exact ⟨String.toList_eq_nil_iff.mp hcs, hhides⟩
      | cons c cs =>
        rw [hcs] at heq hmem
        obtain rfl : c = '}' := by simp_all
        exact absurd List.mem_cons_self hmem
  · have hhides : ¬ Hides q.localPart.toList := by simpa [Hides] using hhead
    refine iff_of_false (fun hhidden ↦ hhides hhidden.2) ?_
    rintro ⟨rest, heq, -⟩
    rw [← htext, heq] at hhead
    exact (hhead '{' rfl).1 rfl

/-- A name that was read from a text is read back from what it is written as, unless the text has
empty braces with a brace or a blank behind them. A descriptor that was read from a text is read
back from what it is written as, unless it has such a name. -/
theorem ofClark_clark_iff (text : String) :
    (∀ q, ofClark text = .ok q →
      (ofClark q.clark = .ok q ↔ ¬ q.IsHidden) ∧
        (q.IsHidden ↔ ∃ rest, trim text.toList = '{' :: '}' :: rest ∧ Hides rest)) ∧
    ∀ d, Descriptor.parse text = .ok d →
      (Descriptor.parse d.toText = .ok d ↔ ∀ q ∈ d.qnames, ¬ q.IsHidden) := by
  refine ⟨fun q h ↦ ⟨isClark_iff_of_ofClark h, isHidden_iff_of_ofClark h⟩, fun d h ↦ ?_⟩
  have hback : Descriptor.parse d.toText = .ok d ↔ d.IsClark := by
    rw [Descriptor.parse_eq_ok_iff, Descriptor.toText, Json.parse?_pretty d.plain_toJson.1,
      Option.bind_some, Descriptor.ofJson?_toJson_iff]
  obtain ⟨v, -, hv⟩ := Option.bind_eq_some_iff.mp (Descriptor.parse_eq_ok_iff.mp h)
  rw [hback]
  apply forall₂_congr
  intro q hq
  obtain ⟨name, hname⟩ := Descriptor.isRead hv q hq
  exact isClark_iff_of_ofClark hname

/-- A name with empty braces and blanks around it is read back, by itself and in a descriptor. -/
theorem ofClark_clark_iff_note :
    ofClark " \x7b\x7dnote\n" = .ok (unqualified "note") ∧
      ofClark (unqualified "note").clark = .ok (unqualified "note") ∧
      Descriptor.parse Descriptor.noteText = .ok Descriptor.note ∧
      Descriptor.parse Descriptor.note.toText = .ok Descriptor.note := by
  have hname : ofClark " \x7b\x7dnote\n" = .ok (unqualified "note") := by decide +kernel
  have hdescriptor : Descriptor.parse Descriptor.noteText = .ok Descriptor.note := by decide +kernel
  exact ⟨hname, ((ofClark_clark_iff _).1 _ hname).1.mpr (by decide), hdescriptor,
    ((ofClark_clark_iff _).2 _ hdescriptor).mpr (by decide)⟩

/-- Behind empty braces a name may be read that is read back as another name, without its blanks or
in a namespace, or not at all. -/
theorem not_ofClark_clark :
    ofClark "\x7b\x7d note" = .ok (unqualified " note") ∧
      ofClark (unqualified " note").clark = .ok (unqualified "note") ∧
      ofClark "\x7b\x7d\x7burn:a\x7dnote" = .ok (unqualified "\x7burn:a\x7dnote") ∧
      ofClark (unqualified "\x7burn:a\x7dnote").clark = .ok ⟨"urn:a", "note"⟩ ∧
      ofClark "\x7b\x7d\x7bnote" = .ok (unqualified "\x7bnote") ∧
      ofClark (unqualified "\x7bnote").clark = .error (.unterminated "\x7bnote") := by
  refine ⟨?_, ?_, ?_, ?_, ?_, ?_⟩ <;> decide +kernel

end QName

end XmlBinding

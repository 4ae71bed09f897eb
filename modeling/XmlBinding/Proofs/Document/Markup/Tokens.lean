import Mathlib.Data.List.Chain
import XmlBinding.Proofs.Document.Markup.Tag
import XmlBinding.Proofs.Document.Written

/-!
# The tokens of what is written

A row of tags and texts has one token for each of its tags, and one for each run of neighbouring
texts that is not empty (`Written.tokens`). These are the tokens that a reader finds in the
characters of the row (`exists_tokens?_joined`): a tag is read up to its end, a text up to the next
tag.
-/

namespace XmlBinding

open Markup

/-! ### Tokens -/

/-- A declaration as an attribute of a tag. -/
def Declaration.tagAttribute (d : Declaration) : TagAttribute :=
  ⟨if d.pre = "" then ⟨[], ['x', 'm', 'l', 'n', 's']⟩
    else ⟨['x', 'm', 'l', 'n', 's'], d.pre.toList⟩, d.uri⟩

/-- An attribute as it stands in a tag, behind its prefix. -/
def Attribute.tagAttribute (pre : String) (a : Attribute) : TagAttribute :=
  ⟨⟨pre.toList, a.name.localPart.toList⟩, a.value⟩

namespace StartTag

/-- The name of a tag. -/
def tagName (t : StartTag) : TagName := ⟨t.pre.toList, t.name.localPart.toList⟩

/-- The attributes of a tag, the declarations first. -/
def tagAttributes (t : StartTag) : List TagAttribute :=
  t.declarations.map Declaration.tagAttribute ++
    t.attributes.map fun a ↦ a.2.tagAttribute a.1

/-- A tag that a document can hold. -/
structure IsLegible (t : StartTag) : Prop where
  name : t.tagName.IsProper
  attributes : ∀ a ∈ t.tagAttributes, a.IsProper

end StartTag

namespace Written

/-- A tag or a text that a document can hold. -/
def IsLegible : Written → Prop
  | startTag tag _ => tag.IsLegible
  | text s => s.toList.all isDocumentChar = true
  | endTag pre localPart => (⟨pre.toList, localPart.toList⟩ : TagName).IsProper

/-- The token of a text, if that is not empty. -/
def textTokens (cs : List Char) : List Token :=
  if cs = [] then [] else [.text cs ((escaped false cs).all Text.isXmlSpace)]

/-- The tokens of a row of tags and texts, behind some text. -/
def tokensFrom (held : List Char) : List Written → List Token
  | [] => textTokens held
  | .text s :: rest => tokensFrom (held ++ s.toList) rest
  | .startTag tag empty :: rest =>
    textTokens held ++ .startTag tag.tagName tag.tagAttributes empty :: tokensFrom [] rest
  | .endTag pre localPart :: rest =>
    textTokens held ++ .endTag ⟨pre.toList, localPart.toList⟩ :: tokensFrom [] rest

/-- The tokens of a row of tags and texts: neighbouring texts make one. -/
def tokens (ws : List Written) : List Token := tokensFrom [] ws

end Written

namespace Markup

/-! ### Characters -/

private theorem toList_declarationText (d : Declaration) :
    (Writer.declarationText d).toList = d.tagAttribute.characters := by
  unfold Writer.declarationText Declaration.tagAttribute TagAttribute.characters
    TagName.characters
  split
  · simp [toList_escape]
  · simp [toList_escape]

private theorem toList_attributeText (pre : String) (a : Attribute) :
    (Writer.attributeText pre a).toList = (a.tagAttribute pre).characters := by
  unfold Writer.attributeText Attribute.tagAttribute TagAttribute.characters
  simp [toList_escape, TagName.toList_joinPrefix]

/-- The characters of a start tag. -/
theorem toList_startTag (tag : StartTag) (empty : Bool) :
    (Written.startTag tag empty).toString.toList =
      startTagCharacters tag.tagName tag.tagAttributes empty := by
  have hend : (if empty = true then "/>" else ">" : String).toList = tagEnd empty := by
    cases empty <;> rfl
  have hdeclarations : (tag.declarations.map Writer.declarationText).flatMap String.toList =
      (tag.declarations.map Declaration.tagAttribute).flatMap TagAttribute.characters := by
    rw [List.flatMap_map, List.flatMap_map]
    exact congrArg List.flatten (List.map_congr_left fun d _ ↦ toList_declarationText d)
  have hattributes : (tag.attributes.map fun a ↦ Writer.attributeText a.1 a.2).flatMap
      String.toList = (tag.attributes.map fun a ↦ a.2.tagAttribute a.1).flatMap
        TagAttribute.characters := by
    rw [List.flatMap_map, List.flatMap_map]
    exact congrArg List.flatten (List.map_congr_left fun a _ ↦ toList_attributeText a.1 a.2)
  simp only [Written.toString, StartTag.text, String.toList_append, String.toList_join,
    TagName.toList_joinPrefix, hend, hdeclarations, hattributes, startTagCharacters,
    StartTag.tagAttributes, StartTag.tagName, List.flatMap_append, List.append_assoc]
  rfl

private theorem toList_endTag (pre localPart : String) :
    (Written.endTag pre localPart).toString.toList =
      endTagCharacters ⟨pre.toList, localPart.toList⟩ := by
  simp [Written.toString, endTagCharacters, TagName.toList_joinPrefix]

/-! ### Scanning -/

/-- A text is scanned as some tokens, wherever it begins. -/
def Scans (cs : List Char) (tokens : List Token) : Prop :=
  ∀ fuel location, cs.length ≤ fuel →
    ∃ located, tokensWithin? fuel location cs = some located ∧ located.map (·.token) = tokens

private theorem scans_nil : Scans [] [] := fun fuel location _ ↦ ⟨[], by cases fuel <;> rfl, rfl⟩

/-- A token is scanned, then what is behind it. -/
theorem Scans.cons {cs rest : List Char} {token : Token} {tokens : List Token}
    (hread : readToken? cs = some (token, rest)) (hlt : rest.length < cs.length)
    (h : Scans rest tokens) : Scans cs (token :: tokens) := by
  intro fuel location hfuel
  obtain ⟨fuel, rfl⟩ : ∃ n, fuel = n + 1 := ⟨fuel - 1, by omega⟩
  obtain ⟨located, hlocated, htokens⟩ :=
    h fuel (location.after (cs.take (cs.length - rest.length))) (by omega)
  refine ⟨⟨token, location⟩ :: located, ?_, by rw [List.map_cons, htokens]⟩
  cases cs with
  | nil => exact absurd hlt (Nat.not_lt_zero _)
  | cons c cs =>
    rw [tokensWithin?, hread]
    · simp only [Option.bind_eq_bind, Option.bind_some, hlocated]
      rfl
    · simp

private theorem readText?_escaped {held behind : List Char} (hheld : held.all isDocumentChar = true)
    (hbehind : behind.head?.all (· == '<') = true) :
    readText? (escaped false held ++ behind) =
      some (.text held ((escaped false held).all Text.isXmlSpace), behind) := by
  have hstop : behind.takeWhile (· != '<') = [] := by
    cases behind with
    | nil => rfl
    | cons b bs => exact List.takeWhile_cons_of_neg (by simpa using hbehind)
  have hraw : (escaped false held ++ behind).takeWhile (· != '<') = escaped false held := by
    rw [List.takeWhile_append_of_pos, hstop, List.append_nil]
    intro c hc
    simpa using (not_markup_of_mem_escaped hc).1
  have hend : upTo? [']', ']', '>'] (escaped false held) = none := by
    apply upTo?_eq_none (show '>' ∈ [']', ']', '>'] by decide)
    intro hc
    exact (not_markup_of_mem_escaped hc).2.1 rfl
  have hchecked : (escaped false held).all isDocumentChar = true ∧
      (upTo? [']', ']', '>'] (escaped false held)).isNone = true :=
    ⟨all_isDocumentChar_escaped false hheld, by rw [hend]; rfl⟩
  rw [readText?, hraw, guard_of hchecked, textValue?_escaped, List.drop_left]
  rfl

private theorem readToken?_of_text {c : Char} (h : c ≠ '<') (cs : List Char) :
    readToken? (c :: cs) = readText? (c :: cs) := by
  unfold readToken?
  split <;> simp_all

private theorem Scans.text {behind : List Char} {tokens : List Token} (h : Scans behind tokens)
    (hbehind : behind.head?.all (· == '<') = true) {held : List Char}
    (hheld : held.all isDocumentChar = true) :
    Scans (escaped false held ++ behind) (Written.textTokens held ++ tokens) := by
  unfold Written.textTokens
  split
  · next hnil =>
    rw [hnil]
    exact h
  · next hne =>
    have hlength : 0 < (escaped false held).length :=
      Nat.lt_of_lt_of_le (List.length_pos_of_ne_nil hne) (length_le_length_escaped false held)
    refine Scans.cons ?_ (by rw [List.length_append]; omega) h
    rw [← readText?_escaped hheld hbehind]
    cases hcs : escaped false held with
    | nil => simp [hcs] at hlength
    | cons c cs =>
      have hc : c ∈ escaped false held := by simp [hcs]
      exact readToken?_of_text (not_markup_of_mem_escaped hc).1 _

private theorem scans_tokensFrom {ws : List Written} (h : ∀ w ∈ ws, w.IsLegible) {held : List Char}
    (hheld : held.all isDocumentChar = true) :
    Scans (escaped false held ++ (Written.joined ws).toList) (Written.tokensFrom held ws) := by
  induction ws generalizing held with
  | nil =>
    have hnil := Scans.text scans_nil rfl hheld
    rw [List.append_nil] at hnil
    simpa [Written.tokensFrom] using hnil
  | cons w ws ih =>
    rw [List.forall_mem_cons] at h
    obtain ⟨hw, hws⟩ := h
    have hnil : ([] : List Char).all isDocumentChar = true := rfl
    have hrest : Scans (Written.joined ws).toList (Written.tokensFrom [] ws) := ih hws hnil
    rw [Written.joined_cons, String.toList_append]
    cases w with
    | text s =>
      have hboth : (held ++ s.toList).all isDocumentChar = true := by
        rw [List.all_append, hheld]
        exact hw
      have htext := ih hws hboth
      rw [escaped_append, List.append_assoc, ← toList_escape] at htext
      exact htext
    | startTag tag empty =>
      rw [Written.tokensFrom, toList_startTag]
      refine Scans.text (Scans.cons (readToken?_startTag hw.name hw.attributes empty _) ?_ hrest)
        rfl hheld
      simp [startTagCharacters]
      omega
    | endTag pre localPart =>
      rw [Written.tokensFrom, toList_endTag]
      refine Scans.text (Scans.cons (readToken?_endTag hw _) ?_ hrest) rfl hheld
      simp [endTagCharacters]
      omega

/-! ### Neighbouring texts -/

/-- A token is text. -/
def Token.IsText : Token → Prop
  | .text _ _ => True
  | _ => False

/-- No two texts are neighbours. -/
def Separated (tokens : List Token) : Prop :=
  tokens.IsChain fun t u ↦ t.IsText → ¬ u.IsText

private theorem joinTexts_eq_self {tokens : List LocatedToken}
    (h : Separated (tokens.map (·.token))) : joinTexts tokens = tokens := by
  induction tokens with
  | nil => rfl
  | cons t rest ih =>
    rw [List.map_cons, Separated, List.isChain_cons] at h
    rw [joinTexts, ih h.2]
    split
    · next htext =>
      have hnot := h.1 _ rfl (by rw [htext]; trivial)
      exact absurd trivial hnot
    · rfl

private theorem Separated.cons {t : Token} {tokens : List Token} (h : Separated tokens)
    (ht : ¬ t.IsText) : Separated (t :: tokens) :=
  List.isChain_cons.mpr ⟨fun _ _ hx ↦ absurd hx ht, h⟩

private theorem Separated.textTokens {t : Token} {tokens : List Token} (h : Separated (t :: tokens))
    (ht : ¬ t.IsText) (held : List Char) :
    Separated (Written.textTokens held ++ t :: tokens) := by
  unfold Written.textTokens
  split
  · exact h
  · exact List.isChain_cons_cons.mpr ⟨fun _ ↦ ht, h⟩

private theorem separated_tokensFrom (held : List Char) (ws : List Written) :
    Separated (Written.tokensFrom held ws) := by
  induction ws generalizing held with
  | nil =>
    unfold Written.tokensFrom Written.textTokens Separated
    split <;> simp
  | cons w ws ih =>
    cases w with
    | text s => exact ih _
    | startTag tag empty => exact ((ih []).cons id).textTokens id held
    | endTag pre localPart => exact ((ih []).cons id).textTokens id held

private theorem skipProlog?_startTag {name : TagName} (hname : name.IsProper)
    (attributes : List TagAttribute) (empty : Bool) (rest : List Char) :
    skipProlog? (startTagCharacters name attributes empty ++ rest) =
      some (startTagCharacters name attributes empty ++ rest) := by
  obtain ⟨c, cs, hcs, hc⟩ := hname.exists_cons
  have hspecial := (not_special_of_isTagNameChar hc).2
  simp only [List.mem_cons, List.not_mem_nil, or_false, not_or] at hspecial
  have hne : c ≠ '?' := hspecial.2.2.2.2.2.1
  simp only [startTagCharacters, hcs, List.cons_append]
  unfold skipProlog? behind?
  simp [hne.symm]

/-- The tokens of a document that is written are those of its tags and texts. -/
theorem exists_tokens?_joined {tag : StartTag} {empty : Bool} {ws : List Written}
    (h : ∀ w ∈ Written.startTag tag empty :: ws, w.IsLegible) :
    ∃ located, (tokens? (Written.joined (.startTag tag empty :: ws)).toList).map joinTexts =
        some located ∧
      located.map (·.token) = Written.tokens (.startTag tag empty :: ws) := by
  have hscans : Scans (Written.joined (.startTag tag empty :: ws)).toList
      (Written.tokens (.startTag tag empty :: ws)) :=
    scans_tokensFrom h (show ([] : List Char).all isDocumentChar = true from rfl)
  have hprolog : skipProlog? (Written.joined (.startTag tag empty :: ws)).toList =
      some (Written.joined (.startTag tag empty :: ws)).toList := by
    rw [Written.joined_cons, String.toList_append, toList_startTag]
    exact skipProlog?_startTag (h _ List.mem_cons_self).name _ _ _
  generalize (Written.joined (.startTag tag empty :: ws)).toList = cs at hscans hprolog
  obtain ⟨located, hlocated, htokens⟩ :=
    hscans cs.length (Location.start.after (cs.take (cs.length - cs.length))) (Nat.le_refl _)
  refine ⟨located, ?_, htokens⟩
  have hseparated : Separated (located.map (·.token)) := by
    rw [htokens]
    exact separated_tokensFrom [] _
  rw [tokens?, hprolog]
  simp only [Option.bind_eq_bind, Option.bind_some, hlocated, Option.map_some,
    joinTexts_eq_self hseparated]

end Markup

end XmlBinding

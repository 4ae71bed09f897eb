import XmlBinding.Proofs.Document.Markup.Tag

/-!
# Tokens are legible

What a tokenizer finds in a text can be written down again: names are names (`readTagName?_proper`),
and a value holds only characters that a document may hold, since what stands literally in the text
is checked, and so is what a reference stands for (`tokens?_legible`).
-/

namespace XmlBinding.Markup

open Text

/-- A token that can be written down again. -/
def Token.IsLegible : Token → Prop
  | .startTag name attributes _ => name.IsProper ∧ ∀ a ∈ attributes, a.IsProper
  | .text value _ => value.all isDocumentChar = true
  | _ => True

/-! ### Names -/

/-- A name that is split is proper, if it is made of name characters. -/
private theorem TagName.of?_proper {cs : List Char} (hcs : ∀ c ∈ cs, isTagNameChar c = true)
    {n : TagName} (h : TagName.of? cs = some n) : n.IsProper := by
  have hpart (part : List Char) (hp : part ∈ splitAll (· == ':') cs)
      (hstart : part.head?.any isTagNameStart = true) : IsNamePart part := by
    have hmem := mem_of_mem_splitAll hp
    refine ⟨hstart, fun c hc ↦ hcs c (hmem c hc).2, fun hc ↦ ?_⟩
    exact absurd (hmem ':' hc).1 (by decide)
  unfold TagName.of? at h
  split at h
  · next hsplit =>
    rw [hsplit] at hpart
    split at h
    · next hstart =>
      cases h
      exact ⟨.inl rfl, hpart _ List.mem_cons_self hstart⟩
    · cases h
  · next pre localPart hsplit =>
    rw [hsplit] at hpart
    split at h
    · next hstart =>
      cases h
      simp only [Bool.and_eq_true, Bool.or_eq_true] at hstart
      refine ⟨?_, hpart _ (by simp) hstart.2⟩
      rcases hstart.1 with hempty | hpre
      · exact .inl (List.isEmpty_iff.mp hempty)
      · exact .inr (hpart _ List.mem_cons_self hpre)
    · cases h
  · cases h

/-- A name that is read is proper. -/
theorem readTagName?_proper {cs rest : List Char} {n : TagName}
    (h : readTagName? cs = some (n, rest)) : n.IsProper := by
  obtain ⟨m, hm, heq⟩ := Option.map_eq_some_iff.mp h
  cases heq
  exact TagName.of?_proper (List.all_eq_true.mp List.all_takeWhile) hm

/-! ### Values -/

/-- The character of a piece. -/
def Piece.char : Piece → Char
  | .literal c => c
  | .reference c => c

private theorem isDocumentChar_of_charOfCode? {code : Nat} {c : Char}
    (h : charOfCode? code = some c) : isDocumentChar c = true := by
  simp only [charOfCode?, Option.ite_none_right_eq_some, Option.some.injEq] at h
  obtain ⟨-, hc, rfl⟩ := h
  exact hc

/-- A reference stands for a character that a document may hold. -/
theorem isDocumentChar_of_referredChar? {body : List Char} {c : Char}
    (h : referredChar? body = some c) : isDocumentChar c = true := by
  unfold referredChar? at h
  split at h
  · cases h
    decide
  · cases h
    decide
  · cases h
    decide
  · cases h
    decide
  · cases h
    decide
  · obtain ⟨code, -, hcode⟩ := Option.bind_eq_some_iff.mp h
    exact isDocumentChar_of_charOfCode? hcode
  · split at h
    · exact isDocumentChar_of_charOfCode? h
    · cases h
  · cases h

/-- The pieces of a text hold characters that a document may hold, if the text does. -/
theorem piecesWithin_legible {fuel : Nat} {cs : List Char} (hcs : cs.all isDocumentChar = true)
    {pieces : List Piece} (h : piecesWithin fuel cs = some pieces) :
    ∀ p ∈ pieces, isDocumentChar p.char = true := by
  induction fuel, cs using piecesWithin.induct generalizing pieces with
  | case1 fuel =>
    cases fuel <;> cases h <;> simp
  | case2 cs hne =>
    cases cs with
    | nil => exact absurd rfl hne
    | cons c cs => cases h
  | case3 fuel cs ih =>
    rw [piecesWithin] at h
    obtain ⟨⟨body, rest⟩, hsplit, h⟩ := Option.bind_eq_some_iff.mp h
    obtain ⟨c, hc, h⟩ := Option.bind_eq_some_iff.mp h
    obtain ⟨more, hmore, h⟩ := Option.bind_eq_some_iff.mp h
    cases h
    have hrest : rest.all isDocumentChar = true := by
      obtain ⟨-, rfl⟩ := splitFirst_eq_some_iff.mp hsplit
      simp only [List.all_cons, List.all_append, Bool.and_eq_true] at hcs
      exact hcs.2.2.2
    exact List.forall_mem_cons.mpr
      ⟨isDocumentChar_of_referredChar? hc, ih rest hrest hmore⟩
  | case4 fuel c cs hc ih =>
    rw [List.all_cons, Bool.and_eq_true] at hcs
    rw [piecesWithin_literal hc] at h
    obtain ⟨more, hmore, rfl⟩ := Option.map_eq_some_iff.mp h
    exact List.forall_mem_cons.mpr ⟨hcs.1, ih hcs.2 hmore⟩

private theorem all_flattenSpaces {pieces : List Piece}
    (h : ∀ p ∈ pieces, isDocumentChar p.char = true) :
    (flattenSpaces pieces).all isDocumentChar = true := by
  induction pieces with
  | nil => rfl
  | cons p rest ih =>
    rw [List.forall_mem_cons] at h
    have hrest := ih h.2
    cases p with
    | reference c =>
      rw [flattenSpaces, List.all_cons, hrest, Bool.and_true]
      exact h.1
    | literal c =>
      rw [flattenSpaces]
      split
      · exact hrest
      · rw [List.all_cons, hrest, Bool.and_true]
        split
        · decide
        · exact h.1

private theorem all_putChar {c : Char} (hc : isDocumentChar c = true) {rest : Bool → List Char}
    (h : ∀ held, (rest held).all isDocumentChar = true) :
    (putChar c rest).all isDocumentChar = true := by
  unfold putChar
  split
  · exact h true
  · rw [List.all_cons, hc, h false, Bool.and_self]

/-- Text with its line ends settled is legible. -/
theorem all_settleLineEnds {pieces : List Piece}
    (h : ∀ p ∈ pieces, isDocumentChar p.char = true) (held verbatim : Bool) :
    (settleLineEnds held verbatim pieces).all isDocumentChar = true := by
  have hheld (held : Bool) (c : Char) (hc : isDocumentChar c = true) :
      (if held then [c] else []).all isDocumentChar = true := by
    cases held
    · rfl
    · simpa using hc
  induction pieces generalizing held verbatim with
  | nil =>
    rw [settleLineEnds]
    exact hheld held '\r' (by decide)
  | cons p rest ih =>
    rw [List.forall_mem_cons] at h
    cases p with
    | reference c =>
      rw [settleLineEnds, List.all_append, hheld held '\r' (by decide), Bool.true_and]
      exact all_putChar h.1 fun held ↦ ih h.2 held true
    | literal c =>
      have hcontinued : (putChar c fun held ↦ settleLineEnds held false rest).all isDocumentChar =
          true := all_putChar h.1 fun held ↦ ih h.2 held false
      rw [settleLineEnds]
      split
      · rw [List.all_append, hheld held '\r' (by decide), Bool.true_and]
        exact hcontinued
      · split
        · rw [List.all_append, hheld held '\n' (by decide)]
          decide
        · split
          · rw [List.all_cons]
            split
            · rw [ih h.2]
              decide
            · rw [hcontinued]
              decide
          · exact hcontinued

/-- The value of an attribute is legible if it is written in legible characters. -/
private theorem attributeValue?_legible {cs value : List Char} (hcs : cs.all isDocumentChar = true)
    (h : attributeValue? cs = some value) : value.all isDocumentChar = true := by
  obtain ⟨pieces, hpieces, rfl⟩ := Option.map_eq_some_iff.mp h
  exact all_flattenSpaces (piecesWithin_legible hcs hpieces)

/-- The value of text is legible if it is written in legible characters. -/
private theorem textValue?_legible {cs value : List Char} (hcs : cs.all isDocumentChar = true)
    (h : textValue? cs = some value) : value.all isDocumentChar = true := by
  obtain ⟨pieces, hpieces, rfl⟩ := Option.map_eq_some_iff.mp h
  exact all_settleLineEnds (piecesWithin_legible hcs hpieces) false false

/-- The value of character data is legible if it is written in legible characters. -/
private theorem dataValue_legible {cs : List Char} (hcs : cs.all isDocumentChar = true) :
    (dataValue cs).all isDocumentChar = true := by
  refine all_settleLineEnds (fun p hp ↦ ?_) false false
  obtain ⟨c, hc, rfl⟩ := List.mem_map.mp hp
  exact List.all_eq_true.mp hcs c hc

/-! ### Tags -/

private theorem readQuoted?_legible {cs rest raw : List Char}
    (h : readQuoted? cs = some (raw, rest)) : raw.all isDocumentChar = true := by
  unfold readQuoted? at h
  split at h
  · cases h
  · split at h
    · dsimp only at h
      split at h
      · split at h
        · next hraw =>
          cases h
          exact hraw.2
        · cases h
      · cases h
    · cases h

/-- A name that is read with its value is proper, and the value is written in legible characters. -/
private theorem readAssignment?_legible {cs rest raw : List Char} {name : TagName}
    (h : readAssignment? cs = some ((name, raw), rest)) :
    name.IsProper ∧ raw.all isDocumentChar = true := by
  obtain ⟨⟨n, behind⟩, hname, h⟩ := Option.bind_eq_some_iff.mp h
  obtain ⟨behind', -, h⟩ := Option.bind_eq_some_iff.mp h
  obtain ⟨⟨value, behind''⟩, hvalue, h⟩ := Option.bind_eq_some_iff.mp h
  cases h
  exact ⟨readTagName?_proper hname, readQuoted?_legible hvalue⟩

private theorem readAttributes?_proper {fuel : Nat} {cs rest : List Char}
    {attributes : List TagAttribute} {empty : Bool}
    (h : readAttributes? fuel cs = some ((attributes, empty), rest)) :
    ∀ a ∈ attributes, a.IsProper := by
  induction fuel generalizing cs attributes with
  | zero => cases h
  | succ fuel ih =>
    rw [readAttributes?] at h
    split at h
    · cases h
      simp
    · cases h
      simp
    · obtain ⟨-, -, h⟩ := Option.bind_eq_some_iff.mp h
      obtain ⟨⟨⟨name, raw⟩, behind⟩, hassignment, h⟩ := Option.bind_eq_some_iff.mp h
      obtain ⟨value, hvalue, h⟩ := Option.bind_eq_some_iff.mp h
      obtain ⟨⟨⟨others, empty⟩, behind'⟩, hothers, h⟩ := Option.bind_eq_some_iff.mp h
      cases h
      obtain ⟨hname, hraw⟩ := readAssignment?_legible hassignment
      refine List.forall_mem_cons.mpr ⟨⟨hname, ?_⟩, ih hothers⟩
      rw [String.toList_ofList]
      exact attributeValue?_legible hraw hvalue

private theorem readToken?_legible {cs rest : List Char} {token : Token}
    (h : readToken? cs = some (token, rest)) : token.IsLegible := by
  unfold readToken? at h
  split at h
  · obtain ⟨⟨body, behind⟩, -, h⟩ := Option.bind_eq_some_iff.mp h
    obtain ⟨_, -, h⟩ := Option.bind_eq_some_iff.mp h
    cases h
    trivial
  · obtain ⟨behind, -, h⟩ := Option.bind_eq_some_iff.mp h
    obtain ⟨⟨body, behind'⟩, -, h⟩ := Option.bind_eq_some_iff.mp h
    obtain ⟨_, hbody, h⟩ := Option.bind_eq_some_iff.mp h
    cases h
    exact dataValue_legible (of_guard hbody)
  · obtain ⟨_, -, h⟩ := Option.bind_eq_some_iff.mp h
    obtain ⟨_, -, h⟩ := Option.bind_eq_some_iff.mp h
    obtain ⟨⟨body, behind⟩, -, h⟩ := Option.bind_eq_some_iff.mp h
    obtain ⟨_, -, h⟩ := Option.bind_eq_some_iff.mp h
    cases h
    trivial
  · obtain ⟨⟨name, behind⟩, -, h⟩ := Option.bind_eq_some_iff.mp h
    dsimp only at h
    split at h
    · cases h
      trivial
    · cases h
  · obtain ⟨⟨name, behind⟩, hname, h⟩ := Option.bind_eq_some_iff.mp h
    obtain ⟨⟨⟨attributes, empty⟩, behind'⟩, hattributes, h⟩ := Option.bind_eq_some_iff.mp h
    cases h
    exact ⟨readTagName?_proper hname, readAttributes?_proper hattributes⟩
  · obtain ⟨_, hraw, h⟩ := Option.bind_eq_some_iff.mp h
    obtain ⟨value, hvalue, h⟩ := Option.bind_eq_some_iff.mp h
    cases h
    exact textValue?_legible (of_guard hraw).1 hvalue

/-- The tokens of a text are legible. -/
theorem tokensWithin?_legible {fuel : Nat} {location : Location} {cs : List Char}
    {located : List LocatedToken} (h : tokensWithin? fuel location cs = some located) :
    ∀ t ∈ located, t.token.IsLegible := by
  induction fuel generalizing location cs located with
  | zero =>
    cases cs with
    | nil =>
      cases h
      simp
    | cons c cs => cases h
  | succ fuel ih =>
    cases cs with
    | nil =>
      cases h
      simp
    | cons c cs =>
      rw [tokensWithin?] at h
      · obtain ⟨⟨token, behind⟩, htoken, h⟩ := Option.bind_eq_some_iff.mp h
        obtain ⟨more, hmore, h⟩ := Option.bind_eq_some_iff.mp h
        cases h
        exact List.forall_mem_cons.mpr ⟨readToken?_legible htoken, ih hmore⟩
      · simp

/-- Texts that are joined stay legible. -/
theorem joinTexts_legible {located : List LocatedToken} (h : ∀ t ∈ located, t.token.IsLegible) :
    ∀ t ∈ joinTexts located, t.token.IsLegible := by
  induction located with
  | nil => simp [joinTexts]
  | cons t rest ih =>
    rw [List.forall_mem_cons] at h
    have hrest := ih h.2
    rw [joinTexts]
    split
    · next value layout more moreLayout location behind htext hjoined =>
      rw [hjoined, List.forall_mem_cons] at hrest
      refine List.forall_mem_cons.mpr ⟨?_, hrest.2⟩
      have hvalue := h.1
      rw [htext] at hvalue
      change (value ++ more).all isDocumentChar = true
      rw [List.all_append, hvalue, hrest.1]
      rfl
    · exact List.forall_mem_cons.mpr ⟨h.1, hrest⟩

end XmlBinding.Markup

import XmlBinding.Proofs.Document.Markup.Lexer

/-!
# Every character is checked

A tokenizer passes over no character that a document may not hold: names are made of others, and
values, texts, comments and instructions are checked as a whole (`tokens?_checked`). The readers
are taken one by one, each by what it leaves of the text.
-/

namespace XmlBinding.Markup

open Text

/-! ### Classes of characters -/

private theorem isDocumentChar_of_isXmlSpace {c : Char} (h : isXmlSpace c = true) :
    isDocumentChar c = true := by
  simp only [isXmlSpace, Bool.or_eq_true, beq_iff_eq] at h
  rcases h with ((rfl | rfl) | rfl) | rfl <;> decide

/-- A document may hold the characters of a class that has none of those it may not hold. -/
theorem isDocumentChar_of_class {p : Char → Bool} (hcontrol : ∀ n < 0x20, p (Char.ofNat n) = false)
    (hlast : p '\uFFFE' = false ∧ p '\uFFFF' = false) {c : Char} (h : p c = true) :
    isDocumentChar c = true := by
  have hlow : ¬ c.toNat < 0x20 := by
    intro hlow
    have := hcontrol _ hlow
    rw [Char.ofNat_toNat, h] at this
    cases this
  have hne (d : Char) (hd : p d = false) : c.toNat ≠ d.toNat := by
    intro he
    rw [Char.toNat_inj.mp he, hd] at h
    cases h
  unfold isDocumentChar
  rw [if_neg hlow]
  simpa using ⟨hne _ hlast.1, hne _ hlast.2⟩

/-- A document may hold the characters of names in tags. -/
theorem isDocumentChar_of_isTagNameChar {c : Char} (h : isTagNameChar c = true) :
    isDocumentChar c = true :=
  isDocumentChar_of_class (by decide +kernel) (by decide +kernel) h

/-! ### Texts up to some rest -/

/-- What stands behind a given beginning stands behind it. -/
theorem eq_append_of_behind? {lead cs rest : List Char} (h : behind? lead cs = some rest) :
    cs = lead ++ rest := by
  unfold behind? at h
  split at h
  · next hprefix =>
    cases h
    obtain ⟨rest, rfl⟩ := List.isPrefixOf_iff_prefix.mp hprefix
    rw [List.drop_left]
  · cases h

/-- A text holds nothing before `rest` but characters that a document may hold. -/
def CheckedUpTo (cs rest : List Char) : Prop :=
  ∃ front : List Char, cs = front ++ rest ∧ front.all isDocumentChar = true

namespace CheckedUpTo

variable {cs behind rest : List Char}

/-- There is nothing before the whole text. -/
theorem refl (cs : List Char) : CheckedUpTo cs cs := ⟨[], rfl, rfl⟩

/-- What stands before the rest is read in two parts. -/
theorem trans (h : CheckedUpTo cs behind) (h' : CheckedUpTo behind rest) :
    CheckedUpTo cs rest := by
  obtain ⟨front, rfl, hfront⟩ := h
  obtain ⟨more, rfl, hmore⟩ := h'
  exact ⟨front ++ more, (List.append_assoc _ _ _).symm, by rw [List.all_append, hfront, hmore]; rfl⟩

/-- One more character stands before the rest. -/
theorem cons {c : Char} (hc : isDocumentChar c = true) (h : CheckedUpTo cs rest) :
    CheckedUpTo (c :: cs) rest :=
  trans ⟨[c], rfl, by simpa using hc⟩ h

/-- A text is checked if it is up to a rest that is. -/
theorem all (h : CheckedUpTo cs rest) (hrest : rest.all isDocumentChar = true) :
    cs.all isDocumentChar = true := by
  obtain ⟨front, rfl, hfront⟩ := h
  rw [List.all_append, hfront, hrest]
  rfl

private theorem dropWhile {p : Char → Bool} (hp : ∀ c, p c = true → isDocumentChar c = true)
    (cs : List Char) : CheckedUpTo cs (cs.dropWhile p) := by
  refine ⟨cs.takeWhile p, List.takeWhile_append_dropWhile.symm, ?_⟩
  exact List.all_eq_true.mpr fun c hc ↦ hp c (List.all_eq_true.mp List.all_takeWhile c hc)

/-- Whatever was taken off the front and checked may be passed over. -/
theorem drop_takeWhile {p : Char → Bool} (h : (cs.takeWhile p).all isDocumentChar = true) :
    CheckedUpTo cs (cs.drop (cs.takeWhile p).length) := by
  have hdrop : cs.drop (cs.takeWhile p).length = cs.dropWhile p := by
    conv => lhs; arg 2; rw [← List.takeWhile_append_dropWhile (p := p) (l := cs)]
    exact List.drop_left
  rw [hdrop]
  exact ⟨cs.takeWhile p, List.takeWhile_append_dropWhile.symm, h⟩

/-- White space may be passed over. -/
theorem skipSpaces (cs : List Char) : CheckedUpTo cs (skipSpaces cs) :=
  dropWhile (fun _ ↦ isDocumentChar_of_isXmlSpace) cs

/-- A given beginning may be passed over. -/
theorem behind? {lead : List Char} (hlead : lead.all isDocumentChar = true)
    (h : behind? lead cs = some rest) : CheckedUpTo cs rest :=
  ⟨lead, eq_append_of_behind? h, hlead⟩

/-- What stands before a stop may be passed over with it, if both are checked. -/
theorem upTo? {stop before : List Char} (hstop : stop.all isDocumentChar = true)
    (h : upTo? stop cs = some (before, rest)) (hbefore : before.all isDocumentChar = true) :
    CheckedUpTo cs rest := by
  induction cs generalizing before with
  | nil =>
    rw [Markup.upTo?] at h
    split at h
    · cases h
      exact refl []
    · cases h
  | cons c cs ih =>
    rw [Markup.upTo?] at h
    split at h
    · next hbehind =>
      cases h
      exact behind? hstop hbehind
    · obtain ⟨⟨more, rest'⟩, hmore, heq⟩ := Option.map_eq_some_iff.mp h
      cases heq
      rw [List.all_cons, Bool.and_eq_true] at hbefore
      exact cons hbefore.1 (ih hmore hbefore.2)

end CheckedUpTo

/-! ### Tags -/

/-- A name is checked. -/
theorem readTagName?_checked {cs rest : List Char} {n : TagName}
    (h : readTagName? cs = some (n, rest)) : CheckedUpTo cs rest := by
  obtain ⟨m, -, heq⟩ := Option.map_eq_some_iff.mp h
  cases heq
  apply CheckedUpTo.drop_takeWhile
  exact List.all_eq_true.mpr fun c hc ↦
    isDocumentChar_of_isTagNameChar (List.all_eq_true.mp List.all_takeWhile c hc)

private theorem readEquals?_checked {cs rest : List Char} (h : readEquals? cs = some rest) :
    CheckedUpTo cs rest := by
  unfold readEquals? at h
  split at h
  · next behind hbehind =>
    cases h
    have hfront := CheckedUpTo.skipSpaces cs
    rw [hbehind] at hfront
    exact hfront.trans (.cons (by decide) (.skipSpaces behind))
  · cases h

private theorem readQuoted?_checked {cs rest raw : List Char}
    (h : readQuoted? cs = some (raw, rest)) : CheckedUpTo cs rest := by
  unfold readQuoted? at h
  split at h
  · cases h
  · next quote cs =>
    split at h
    · next hquote =>
      have hlegible : isDocumentChar quote = true := by
        rcases hquote with rfl | rfl <;> decide
      dsimp only at h
      split at h
      · next last rest' hrest =>
        split at h
        · next hraw =>
          cases h
          obtain ⟨rfl, hraw⟩ := hraw
          have hvalue := CheckedUpTo.drop_takeWhile hraw
          rw [hrest] at hvalue
          exact .cons hlegible (hvalue.trans (.cons hlegible (.refl _)))
        · cases h
      · cases h
    · cases h

/-- A name is checked with its value. -/
theorem readAssignment?_checked {cs rest : List Char} {a : TagName × List Char}
    (h : readAssignment? cs = some (a, rest)) : CheckedUpTo cs rest := by
  obtain ⟨⟨n, behind⟩, hname, h⟩ := Option.bind_eq_some_iff.mp h
  obtain ⟨behind', hequals, h⟩ := Option.bind_eq_some_iff.mp h
  obtain ⟨⟨value, behind''⟩, hvalue, h⟩ := Option.bind_eq_some_iff.mp h
  cases h
  exact (readTagName?_checked hname).trans
    ((readEquals?_checked hequals).trans (readQuoted?_checked hvalue))

private theorem readAttributes?_checked {fuel : Nat} {cs rest : List Char}
    {result : List TagAttribute × Bool} (h : readAttributes? fuel cs = some (result, rest)) :
    CheckedUpTo cs rest := by
  induction fuel generalizing cs result with
  | zero => cases h
  | succ fuel ih =>
    have hspaces := CheckedUpTo.skipSpaces cs
    rw [readAttributes?] at h
    split at h
    · next hend =>
      cases h
      rw [hend] at hspaces
      exact hspaces.trans (.cons (by decide) (.refl _))
    · next hend =>
      cases h
      rw [hend] at hspaces
      exact hspaces.trans (.cons (by decide) (.cons (by decide) (.refl _)))
    · obtain ⟨-, -, h⟩ := Option.bind_eq_some_iff.mp h
      obtain ⟨⟨⟨name, raw⟩, behind⟩, hassignment, h⟩ := Option.bind_eq_some_iff.mp h
      obtain ⟨value, -, h⟩ := Option.bind_eq_some_iff.mp h
      obtain ⟨⟨⟨others, empty⟩, behind'⟩, hothers, h⟩ := Option.bind_eq_some_iff.mp h
      cases h
      exact hspaces.trans ((readAssignment?_checked hassignment).trans (ih hothers))

private theorem readStartTag?_checked {cs rest : List Char} {token : Token}
    (h : readStartTag? cs = some (token, rest)) : CheckedUpTo cs rest := by
  obtain ⟨⟨name, behind⟩, hname, h⟩ := Option.bind_eq_some_iff.mp h
  obtain ⟨⟨⟨attributes, empty⟩, behind'⟩, hattributes, h⟩ := Option.bind_eq_some_iff.mp h
  cases h
  exact (readTagName?_checked hname).trans (readAttributes?_checked hattributes)

private theorem readEndTag?_checked {cs rest : List Char} {token : Token}
    (h : readEndTag? cs = some (token, rest)) : CheckedUpTo cs rest := by
  obtain ⟨⟨name, behind⟩, hname, h⟩ := Option.bind_eq_some_iff.mp h
  dsimp only at h
  split at h
  · next hend =>
    cases h
    have hspaces := CheckedUpTo.skipSpaces behind
    rw [hend] at hspaces
    exact (readTagName?_checked hname).trans (hspaces.trans (.cons (by decide) (.refl _)))
  · cases h

/-! ### Other tokens -/

private theorem readComment?_checked {cs rest : List Char} {token : Token}
    (h : readComment? cs = some (token, rest)) : CheckedUpTo cs rest := by
  obtain ⟨⟨body, behind⟩, hbody, h⟩ := Option.bind_eq_some_iff.mp h
  obtain ⟨_, hguard, h⟩ := Option.bind_eq_some_iff.mp h
  cases h
  exact .upTo? (by decide) hbody (of_guard hguard).1

private theorem readInstruction?_checked {cs rest : List Char} {token : Token}
    (h : readInstruction? cs = some (token, rest)) : CheckedUpTo cs rest := by
  obtain ⟨_, -, h⟩ := Option.bind_eq_some_iff.mp h
  obtain ⟨_, -, h⟩ := Option.bind_eq_some_iff.mp h
  obtain ⟨⟨body, behind⟩, hbody, h⟩ := Option.bind_eq_some_iff.mp h
  obtain ⟨_, hguard, h⟩ := Option.bind_eq_some_iff.mp h
  cases h
  have htarget : CheckedUpTo cs (cs.drop (cs.takeWhile isTagNameChar).length) :=
    .drop_takeWhile <| List.all_eq_true.mpr fun c hc ↦
      isDocumentChar_of_isTagNameChar (List.all_eq_true.mp List.all_takeWhile c hc)
  exact htarget.trans ((CheckedUpTo.skipSpaces _).trans
    (.upTo? (by decide) hbody (of_guard hguard)))

private theorem readData?_checked {cs rest : List Char} {token : Token}
    (h : readData? cs = some (token, rest)) : CheckedUpTo cs rest := by
  obtain ⟨⟨body, behind⟩, hbody, h⟩ := Option.bind_eq_some_iff.mp h
  obtain ⟨_, hguard, h⟩ := Option.bind_eq_some_iff.mp h
  cases h
  exact .upTo? (by decide) hbody (of_guard hguard)

private theorem readText?_checked {cs rest : List Char} {token : Token}
    (h : readText? cs = some (token, rest)) : CheckedUpTo cs rest := by
  obtain ⟨_, hguard, h⟩ := Option.bind_eq_some_iff.mp h
  obtain ⟨value, -, h⟩ := Option.bind_eq_some_iff.mp h
  cases h
  exact .drop_takeWhile (of_guard hguard).1

private theorem readToken?_checked {cs rest : List Char} {token : Token}
    (h : readToken? cs = some (token, rest)) : CheckedUpTo cs rest := by
  have hbracket : isDocumentChar '<' = true := by decide
  unfold readToken? at h
  split at h
  · exact .cons hbracket <| .cons (by decide) <| .cons (by decide) <| .cons (by decide)
      (readComment?_checked h)
  · obtain ⟨behind, hbehind, h⟩ := Option.bind_eq_some_iff.mp h
    exact .cons hbracket <| .cons (by decide) <|
      (CheckedUpTo.behind? (by decide) hbehind).trans (readData?_checked h)
  · exact .cons hbracket (.cons (by decide) (readInstruction?_checked h))
  · exact .cons hbracket (.cons (by decide) (readEndTag?_checked h))
  · exact .cons hbracket (readStartTag?_checked h)
  · exact readText?_checked h

private theorem tokensWithin?_checked {fuel : Nat} {location : Location} {cs : List Char}
    {located : List LocatedToken} (h : tokensWithin? fuel location cs = some located) :
    cs.all isDocumentChar = true := by
  induction fuel generalizing location cs located with
  | zero =>
    cases cs with
    | nil => rfl
    | cons c cs => cases h
  | succ fuel ih =>
    cases cs with
    | nil => rfl
    | cons c cs =>
      rw [tokensWithin?] at h
      · obtain ⟨⟨token, behind⟩, htoken, h⟩ := Option.bind_eq_some_iff.mp h
        obtain ⟨more, hmore, -⟩ := Option.bind_eq_some_iff.mp h
        exact (readToken?_checked htoken).all (ih hmore)
      · simp

/-! ### Documents -/

/-- A gap is checked. -/
theorem readGap?_checked {cs rest : List Char} (h : readGap? cs = some rest) :
    CheckedUpTo cs rest := by
  unfold readGap? at h
  split at h
  · cases h
    exact .skipSpaces cs
  · split at h
    · cases h
      exact .refl cs
    · cases h

private theorem readPart?_checked {name cs rest : List Char} (h : readPart? name cs = some rest) :
    CheckedUpTo cs rest := by
  unfold readPart? at h
  split at h
  · obtain ⟨⟨_, behind⟩, hassignment, h⟩ := Option.bind_eq_some_iff.mp h
    exact (readAssignment?_checked hassignment).trans (readGap?_checked h)
  · cases h
    exact .refl cs

private theorem readDeclaration?_checked {cs rest : List Char}
    (h : readDeclaration? cs = some rest) : CheckedUpTo cs rest := by
  obtain ⟨gap, hgap, h⟩ := Option.bind_eq_some_iff.mp h
  obtain ⟨_, -, h⟩ := Option.bind_eq_some_iff.mp h
  obtain ⟨version, hversion, h⟩ := Option.bind_eq_some_iff.mp h
  obtain ⟨encoding, hencoding, h⟩ := Option.bind_eq_some_iff.mp h
  have hend : CheckedUpTo encoding rest := by
    dsimp only at h
    split at h
    · obtain ⟨standalone, hstandalone, h⟩ := Option.bind_eq_some_iff.mp h
      obtain ⟨⟨_, behind⟩, hassignment, rfl⟩ := Option.map_eq_some_iff.mp hstandalone
      exact (readAssignment?_checked hassignment).trans
        ((CheckedUpTo.skipSpaces _).trans (.behind? (by decide) h))
    · exact (CheckedUpTo.skipSpaces _).trans (.behind? (by decide) h)
  exact (readGap?_checked hgap).trans
    ((readPart?_checked hversion).trans ((readPart?_checked hencoding).trans hend))

private theorem skipProlog?_checked {cs rest : List Char} (h : skipProlog? cs = some rest) :
    CheckedUpTo cs rest := by
  unfold skipProlog? at h
  extract_lets body at h
  have hmark : CheckedUpTo cs body := by
    unfold body
    split
    · exact .cons (by decide) (.refl _)
    · exact .refl cs
  refine hmark.trans ?_
  split at h
  · next behind hbehind =>
    rw [eq_append_of_behind? hbehind]
    exact .cons (by decide) <| .cons (by decide) <| .cons (by decide) <| .cons (by decide) <|
      .cons (by decide) (readDeclaration?_checked h)
  · rw [Option.some.inj h]
    exact .refl rest

/-- A text with tokens holds only characters that a document may hold. -/
theorem tokens?_checked {cs : List Char} {located : List LocatedToken}
    (h : tokens? cs = some located) : cs.all isDocumentChar = true := by
  obtain ⟨body, hbody, h⟩ := Option.bind_eq_some_iff.mp h
  exact (skipProlog?_checked hbody).all (tokensWithin?_checked h)

end XmlBinding.Markup

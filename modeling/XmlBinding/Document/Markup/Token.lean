import XmlBinding.Document.Event
import XmlBinding.Document.Markup.Reference

/-!
# Markup tokens

A document text as a sequence of tags, pieces of text, comments and processing instructions, each
with the place where it begins. `tokens?` finds them; it knows the form of each token and nothing of
their nesting.
-/

namespace XmlBinding.Markup

open Text

/-- An attribute as it stands in a tag, its value normalized. -/
structure TagAttribute where
  name : TagName
  value : String
  deriving DecidableEq, Repr

/-- A unit of markup. -/
inductive Token where
  /-- A start tag; `empty` if it is an end tag too. -/
  | startTag (name : TagName) (attributes : List TagAttribute) (empty : Bool)
  | endTag (name : TagName)
  /-- Text in its final form; `layout` if it is white space and nothing else, and was written
  literally. -/
  | text (value : List Char) (layout : Bool)
  /-- A comment or a processing instruction. -/
  | aside
  deriving DecidableEq, Repr

/-- Read an equals sign with white space around it. -/
def readEquals? (cs : List Char) : Option (List Char) :=
  match skipSpaces cs with
  | '=' :: rest => some (skipSpaces rest)
  | _ => none

/-- Read a quoted value, which holds no angle bracket; the quotes are dropped. -/
def readQuoted? : List Char → Option (List Char × List Char)
  | [] => none
  | quote :: cs =>
    if quote = '"' ∨ quote = '\'' then
      let value := cs.takeWhile fun c ↦ c != quote && c != '<'
      match cs.drop value.length with
      | c :: rest => if c = quote ∧ value.all isDocumentChar then some (value, rest) else none
      | [] => none
    else none

/-- Read a name, an equals sign and a quoted value. -/
def readAssignment? (cs : List Char) : Option ((TagName × List Char) × List Char) := do
  let (name, cs) ← readTagName? cs
  let (value, cs) ← readQuoted? (← readEquals? cs)
  return ((name, value), cs)

/-- Read the rest of a start tag behind its name: the attributes, each behind white space, and
whether the tag is an end tag too. `fuel` bounds the number of attributes. -/
def readAttributes? : (fuel : Nat) → List Char → Option ((List TagAttribute × Bool) × List Char)
  | 0, _ => none
  | fuel + 1, cs =>
    match skipSpaces cs with
    | '>' :: rest => some (([], false), rest)
    | '/' :: '>' :: rest => some (([], true), rest)
    | inner => do
      guard (cs.head?.any isXmlSpace)
      let ((name, raw), rest) ← readAssignment? inner
      let value ← attributeValue? raw
      let ((attributes, empty), rest) ← readAttributes? fuel rest
      return ((⟨name, String.ofList value⟩ :: attributes, empty), rest)

/-- Read a start tag behind its angle bracket. -/
def readStartTag? (cs : List Char) : Option (Token × List Char) := do
  let (name, cs) ← readTagName? cs
  let ((attributes, empty), cs) ← readAttributes? (cs.length + 1) cs
  return (.startTag name attributes empty, cs)

/-- Read an end tag behind its slash. -/
def readEndTag? (cs : List Char) : Option (Token × List Char) := do
  let (name, cs) ← readTagName? cs
  match skipSpaces cs with
  | '>' :: rest => some (.endTag name, rest)
  | _ => none

/-- Read a comment behind its opening. Two hyphens end it, and no hyphen stands before these. -/
def readComment? (cs : List Char) : Option (Token × List Char) := do
  let (body, rest) ← upTo? ['-', '-', '>'] cs
  guard (body.all isDocumentChar ∧ (upTo? ['-', '-'] (body ++ ['-'])).isNone)
  return (.aside, rest)

/-- Read a processing instruction behind its opening; an XML declaration is none. -/
def readInstruction? (cs : List Char) : Option (Token × List Char) := do
  guard (behind? ['x', 'm', 'l', ' '] cs).isNone
  let target := cs.takeWhile isTagNameChar
  guard (target.head?.any isTagNameStart)
  let (body, rest) ← upTo? ['?', '>'] (skipSpaces (cs.drop target.length))
  guard (body.all isDocumentChar)
  return (.aside, rest)

/-- Read a section of character data behind its opening. -/
def readData? (cs : List Char) : Option (Token × List Char) := do
  let (body, rest) ← upTo? [']', ']', '>'] cs
  guard (body.all isDocumentChar)
  return (.text (dataValue body) false, rest)

/-- Read text up to the next angle bracket. -/
def readText? (cs : List Char) : Option (Token × List Char) := do
  let raw := cs.takeWhile (· != '<')
  guard (raw.all isDocumentChar ∧ (upTo? [']', ']', '>'] raw).isNone)
  let value ← textValue? raw
  return (.text value (raw.all isXmlSpace), cs.drop raw.length)

/-- Read one token off the front of a text that is not empty. -/
def readToken? : List Char → Option (Token × List Char)
  | '<' :: '!' :: '-' :: '-' :: cs => readComment? cs
  | '<' :: '!' :: cs => (behind? ['[', 'C', 'D', 'A', 'T', 'A', '['] cs).bind readData?
  | '<' :: '?' :: cs => readInstruction? cs
  | '<' :: '/' :: cs => readEndTag? cs
  | '<' :: cs => readStartTag? cs
  | cs => readText? cs

/-- A token and the place where it begins. -/
structure LocatedToken where
  token : Token
  location : Location
  deriving DecidableEq, Repr

/-- The tokens of a text that begins at `location`; `fuel` bounds their number. -/
def tokensWithin? : (fuel : Nat) → (location : Location) → List Char → Option (List LocatedToken)
  | _, _, [] => some []
  | 0, _, _ :: _ => none
  | fuel + 1, location, cs => do
    let (token, rest) ← readToken? cs
    let next := location.after (cs.take (cs.length - rest.length))
    return ⟨token, location⟩ :: (← tokensWithin? fuel next rest)

/-- Read the white space that must follow a part of the XML declaration, unless the declaration ends
there. -/
def readGap? (cs : List Char) : Option (List Char) :=
  if cs.head?.any isXmlSpace then some (skipSpaces cs)
  else if (behind? ['?', '>'] cs).isSome then some cs
  else none

/-- Read a part of the XML declaration whose name begins with `name`, and the white space after it;
nothing if another part stands there. -/
def readPart? (name : List Char) (cs : List Char) : Option (List Char) :=
  if name.isPrefixOf cs then do
    let (_, cs) ← readAssignment? cs
    readGap? cs
  else some cs

/-- Read an XML declaration behind its opening: version, encoding and standalone in this order, the
version being required. -/
def readDeclaration? (cs : List Char) : Option (List Char) := do
  let cs ← readGap? cs
  guard (['v', 'e', 'r', 's', 'i', 'o', 'n'].isPrefixOf cs)
  let cs ← readPart? ['v', 'e', 'r', 's', 'i', 'o', 'n'] cs
  let cs ← readPart? ['e', 'n', 'c', 'o', 'd', 'i', 'n', 'g'] cs
  let cs ←
    if ['s', 't', 'a', 'n', 'd', 'a', 'l', 'o', 'n', 'e'].isPrefixOf cs then
      (readAssignment? cs).map (·.2)
    else some cs
  behind? ['?', '>'] (skipSpaces cs)

/-- The text behind a byte order mark and an XML declaration, if the text starts with these. -/
def skipProlog? (cs : List Char) : Option (List Char) :=
  let body := match cs with
    | '\uFEFF' :: rest => rest
    | cs => cs
  match behind? ['<', '?', 'x', 'm', 'l', ' '] body with
  | some rest => readDeclaration? (' ' :: rest)
  | none => some body

/-- The tokens of a document text. -/
def tokens? (cs : List Char) : Option (List LocatedToken) := do
  let body ← skipProlog? cs
  let location := Location.start.after (cs.take (cs.length - body.length))
  tokensWithin? body.length location body

/-- Neighbouring texts made one, which begins where the first of them does. -/
def joinTexts : List LocatedToken → List LocatedToken
  | [] => []
  | t :: rest =>
    match t.token, joinTexts rest with
    | .text value layout, ⟨.text more moreLayout, _⟩ :: rest =>
      ⟨.text (value ++ more) (layout && moreLayout), t.location⟩ :: rest
    | _, rest => t :: rest

end XmlBinding.Markup

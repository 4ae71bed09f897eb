import XmlBinding.Lexical.Error
import XmlBinding.Text.Letter

/-!
# Texts, names and their white space

The white space facet of a text type is applied both when text is read and when it is written, and
some types admit only certain texts. A qualified name is written with a prefix for its namespace and
read back through the prefixes in scope.
-/

namespace XmlBinding

open Text

/-- What becomes of white space in the text of a schema type. -/
inductive WhiteSpace where
  | preserve
  /-- Every white space character becomes a space. -/
  | replace
  /-- Every run of white space becomes one space, and none is left at the ends. -/
  | collapse
  deriving DecidableEq, Repr

namespace WhiteSpace

/-- The words of a text: its longest parts without white space. -/
def words (cs : List Char) : List (List Char) :=
  (splitAll isXmlSpace cs).filter fun word ↦ !word.isEmpty

/-- Words with one space between neighbours. -/
def joinWords : List (List Char) → List Char
  | [] => []
  | [word] => word
  | word :: rest => word ++ ' ' :: joinWords rest

/-- The text after its white space has been treated. -/
def apply : WhiteSpace → List Char → List Char
  | .preserve, cs => cs
  | .replace, cs => cs.map fun c ↦ if isXmlSpace c then ' ' else c
  | .collapse, cs => joinWords (words cs)

end WhiteSpace

/-- Whether a name may start with the character. -/
def isNameStart (c : Char) : Bool := c.isAlpha || c == '_' || c == ':' || isForeignLetter c

/-- Whether the character may stand in a name. -/
def isNameChar (c : Char) : Bool :=
  isNameStart c || c.isDigit || c == '-' || c == '.' || c == '\u00b7' || isForeignNumber c

/-- A name: a starting character, then name characters. -/
def isName : List Char → Bool
  | [] => false
  | c :: cs => isNameStart c && cs.all isNameChar

/-- A name without a colon. -/
def isNCName (cs : List Char) : Bool := isName cs && !cs.contains ':'

/-- One or more name characters. -/
def isNmToken (cs : List Char) : Bool := !cs.isEmpty && cs.all isNameChar

/-- One to eight of the characters that `p` names. -/
def isSubtag (p : Char → Bool) (cs : List Char) : Bool :=
  !cs.isEmpty && cs.length ≤ 8 && cs.all p

/-- A language tag: a subtag of letters, then subtags of letters and digits, joined by hyphens. -/
def isLanguage (cs : List Char) : Bool :=
  match splitAll (· == '-') cs with
  | [] => false
  | primary :: rest => isSubtag Char.isAlpha primary && rest.all (isSubtag Char.isAlphanum)

namespace TextSpace

/-- The white space facet of a text type. -/
def whiteSpace : TextSpace → WhiteSpace
  | .string => .preserve
  | .normalizedString => .replace
  | _ => .collapse

/-- Whether a text, its white space treated, belongs to the type. -/
def admits : TextSpace → List Char → Bool
  | .language, cs => isLanguage cs
  | .name, cs => isName cs
  | .ncName, cs => isNCName cs
  | .id, cs => isNCName cs
  | .idRef, cs => isNCName cs
  | .entity, cs => isNCName cs
  | .nmToken, cs => isNmToken cs
  | .string, _ => true
  | .normalizedString, _ => true
  | .token, _ => true
  | .anyUri, _ => true

/-- The text in the form that the type gives it, if it belongs to the type. -/
def normalize (space : TextSpace) (s : String) : Except ConversionError String :=
  let cs := space.whiteSpace.apply s.toList
  if space.admits cs then .ok (String.ofList cs)
  else .error (.invalidText (String.ofList cs) space)

end TextSpace

/-- The prefix and the local part of a written name; the prefix is empty if there is no colon. -/
def splitPrefix (cs : List Char) : List Char × List Char := (splitFirst ':' cs).getD ([], cs)

namespace QName

/-- Resolve a written name through the prefixes in scope, blanks around it being cut. A name without
a prefix is in no namespace where no default is declared. -/
def resolve (namespaceOf : String → Option String) (lexical : String) :
    Except ConversionError QName :=
  let text := trim lexical.toList
  let (pre, localPart) := splitPrefix text
  if ¬ isNCName localPart ∨ (pre ≠ [] ∧ ¬ isNCName pre) then
    .error (.invalidName (String.ofList text))
  else match namespaceOf (String.ofList pre) with
    | some uri => .ok ⟨uri, String.ofList localPart⟩
    | none =>
      if pre = [] then .ok (.unqualified (String.ofList localPart))
      else .error (.undeclaredPrefix (String.ofList pre) (String.ofList text))

end QName

end XmlBinding

import XmlBinding.Document.Scope
import XmlBinding.Error

/-!
# Events as document text

A `Writer` turns events into text one by one. It chooses a prefix for every name whose namespace has
none in scope and declares it on the tag at hand, and it shortens an element without content to a
single tag. `EventStream.toXml` writes a whole stream.
-/

namespace XmlBinding

/-- What a character of content or of an attribute value is written as. -/
def escapeChar (inAttribute : Bool) (c : Char) : List Char :=
  match c with
  | '&' => ['&', 'a', 'm', 'p', ';']
  | '<' => ['&', 'l', 't', ';']
  | '>' => ['&', 'g', 't', ';']
  | '\r' => ['&', '#', '1', '3', ';']
  | '"' => if inAttribute then ['&', 'q', 'u', 'o', 't', ';'] else ['"']
  | '\t' => if inAttribute then ['&', '#', '9', ';'] else ['\t']
  | '\n' => if inAttribute then ['&', '#', '1', '0', ';'] else ['\n']
  | c => [c]

/-- The text with every character escaped that markup or a reader's normalization would take. -/
def escape (inAttribute : Bool) (s : String) : String :=
  String.ofList (s.toList.flatMap (escapeChar inAttribute))

/-- The state of writing: what is in scope and open, and whether the last start tag still lacks its
end. -/
structure Writer where
  /-- The declarations written so far on the open tags. -/
  scope : NamespaceScope
  opened : List QName
  /-- The start tag of the innermost element is written up to its attributes. -/
  pending : Bool
  /-- The number of the last generated prefix. -/
  generated : Nat
  deriving DecidableEq, Repr

namespace Writer

/-- Nothing written. -/
def initial : Writer := ⟨.empty, [], false, 0⟩

/-- A prefix chosen for a name: the prefix, the declaration it needs on the tag at hand, and the
writer that has it in scope. -/
structure Choice where
  pre : String
  declaration : Option Declaration
  writer : Writer

/-- Use a prefix that is in scope. -/
def keep (w : Writer) (pre : String) : Choice := ⟨pre, none, w⟩

/-- Declare a prefix on the tag at hand and use it. -/
def introduce (w : Writer) (d : Declaration) : Choice :=
  ⟨d.pre, some d, { w with scope := w.scope.declare d }⟩

/-- The prefix in scope that a namespace has, if it is not the default namespace; else a new one. -/
def choosePrefix (w : Writer) (uri : String) : Choice :=
  match (w.scope.prefixOf? uri).filter (· ≠ "") with
  | some pre => w.keep pre
  | none =>
    let n := w.scope.fresh w.generated
    { w with generated := n }.introduce ⟨NamespaceScope.generatedPrefix n, uri⟩

/-- The prefix of an attribute; the default namespace never serves. -/
def chooseForAttribute (w : Writer) (uri : String) : Choice :=
  if uri = "" then w.keep "" else w.choosePrefix uri

/-- The prefix of an element: none in its default namespace, which an element in no namespace takes
back. -/
def chooseForElement (w : Writer) (uri : String) : Choice :=
  let inherited := w.scope.namespaceOf? ""
  if uri = "" then
    if (inherited.getD "") ≠ "" then w.introduce ⟨"", ""⟩ else w.keep ""
  else if inherited = some uri then w.keep ""
  else w.choosePrefix uri

/-- The prefixes of attributes in order, and the declarations that they need. -/
def chooseForAttributes (w : Writer) : List Attribute → List String × List Declaration × Writer
  | [] => ([], [], w)
  | a :: rest =>
    let choice := w.chooseForAttribute a.name.uri
    let (prefixes, declarations, last) := choice.writer.chooseForAttributes rest
    (choice.pre :: prefixes, choice.declaration.toList ++ declarations, last)

/-- A declaration as it stands in a tag, with a space in front. -/
def declarationText (d : Declaration) : String :=
  (if d.pre = "" then " xmlns" else " xmlns:" ++ d.pre) ++ "=\"" ++ escape true d.uri ++ "\""

/-- An attribute as it stands in a tag, with a space in front. -/
def attributeText (pre : String) (a : Attribute) : String :=
  " " ++ joinPrefix pre a.name.localPart ++ "=\"" ++ escape true a.value ++ "\""

/-- The end that a start tag still lacks. -/
def pendingText (w : Writer) : String := if w.pending then ">" else ""

/-- Write a start tag up to its attributes. -/
def writeOpening (w : Writer) (name : QName) (attributes : List Attribute)
    (declarations : List Declaration) : String × Writer :=
  let element := { w with scope := w.scope.push declarations }.chooseForElement name.uri
  let (prefixes, added, w') := element.writer.chooseForAttributes attributes
  let text := w.pendingText ++ "<" ++ joinPrefix element.pre name.localPart ++
    String.join ((declarations ++ element.declaration.toList ++ added).map declarationText) ++
    String.join (List.zipWith attributeText prefixes attributes)
  (text, { w' with opened := name :: w.opened, pending := true })

/-- The prefix of an end tag. -/
def closingPrefix (w : Writer) (uri : String) : String :=
  if uri = "" ∨ w.scope.namespaceOf? "" = some uri then ""
  else (w.scope.prefixOf? uri).getD ""

/-- Write the end of the innermost element, which leaves the open ones. -/
def writeClosing (w : Writer) (name : QName) : String × Writer :=
  let text :=
    if w.pending then "/>"
    else "</" ++ joinPrefix (w.closingPrefix name.uri) name.localPart ++ ">"
  (text, { w with scope := w.scope.pop, opened := w.opened.tail, pending := false })

/-- Write one event. A closing that does not fit is refused without any text, but takes the
innermost element off the open ones all the same. -/
def write (w : Writer) : Event → Except Error String × Writer
  | .opening name attributes declarations =>
    let (text, w') := w.writeOpening name attributes declarations
    (.ok text, w')
  | .text s => (.ok (w.pendingText ++ escape false s), { w with pending := false })
  | .closing name =>
    match w.opened with
    | [] => (.error (.structural (.unmatchedClosing name) none), w)
    | innermost :: rest =>
      if innermost = name then
        let (text, w') := w.writeClosing name
        (.ok text, w')
      else
        (.error (.structural (.mismatchedClosing name innermost) none), { w with opened := rest })

/-- Check that no element is left open. -/
def finish (w : Writer) : Except Error Unit :=
  match w.opened with
  | [] => .ok ()
  | innermost :: _ => .error (.structural (.unclosed innermost) none)

/-- Write events until one is refused. -/
def writeAll (w : Writer) : List Event → Except Error (String × Writer)
  | [] => .ok ("", w)
  | e :: rest =>
    match w.write e with
    | (.error error, _) => .error error
    | (.ok text, w') => (w'.writeAll rest).map fun (more, last) ↦ (text ++ more, last)

end Writer

/-- The stream as document text, without an XML declaration. -/
def EventStream.toXml (s : EventStream) : Except Error String := do
  let (text, w) ← Writer.initial.writeAll s.events
  w.finish
  return text

end XmlBinding

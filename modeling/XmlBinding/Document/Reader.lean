import XmlBinding.Document.Markup.Token
import XmlBinding.Error

/-!
# Document text as events

The tokens of a text are nested into elements and their prefixes resolved. An event's declarations
are those that its tag adds to what is in scope around it; a declaration that repeats one in scope
adds nothing. `EventStream.parse` reads a whole document, which has one root element and no document
type.
-/

namespace XmlBinding.Markup

/-- The namespace that no prefix may be declared for. -/
def declarationUri : String := "http://www.w3.org/2000/xmlns/"

/-- Whether a tag that has declared `own` may declare a prefix for a namespace. The prefix `xml` and
its namespace belong to each other. -/
def mayDeclare (own : List Declaration) (d : Declaration) : Bool :=
  d.uri ≠ declarationUri && (d.pre == "xml") == (d.uri == QName.xmlUri) &&
    (d.pre == "" || !own.any (·.pre = d.pre))

/-- The declaration that an attribute is, if it is one: named `xmlns:` and a prefix, or `xmlns`
behind any prefix. -/
def TagAttribute.declaration? (a : TagAttribute) : Option Declaration :=
  if a.name.pre = ['x', 'm', 'l', 'n', 's'] then some ⟨String.ofList a.name.localPart, a.value⟩
  else if a.name.localPart = ['x', 'm', 'l', 'n', 's'] then some ⟨"", a.value⟩
  else none

/-- The declarations among the attributes of a tag, in order, after those in `own`; `none` if one of
them is not allowed. The prefix `xml` needs no declaration and is left out. -/
def ownDeclarations? (own : List Declaration) : List TagAttribute → Option (List Declaration)
  | [] => some own
  | a :: rest =>
    match a.declaration? with
    | none => ownDeclarations? own rest
    | some d =>
      if ¬ mayDeclare own d then none
      else ownDeclarations? (if d.pre = "xml" then own else own ++ [d]) rest

/-- A scope with one more declaration behind the others, unless it has one of the same prefix. -/
def extend (scope : List Declaration) (d : Declaration) : List Declaration :=
  if scope.any (·.pre = d.pre) then scope else scope ++ [d]

/-- The declarations in scope on an element: all those around it if it has none of its own, else its
own, then for every other prefix the first one around it. -/
def inScope (own around : List Declaration) : List Declaration :=
  if own.isEmpty then around else around.foldl extend own

/-- The namespace of a prefix: the outer `none` if the prefix is unknown, the inner one if there is
no default namespace. -/
def lookUp? (scope : List Declaration) (pre : String) : Option (Option String) :=
  match scope.find? (·.pre = pre) with
  | some d => some (some d.uri)
  | none => if pre = "" then some none else none

/-- The namespace of an attribute, which the default namespace does not reach. -/
def attributeNamespace? (scope : List Declaration) (pre : String) : Option (Option String) :=
  if pre = "xml" then some (some QName.xmlUri)
  else if pre = "" then some none
  else lookUp? scope pre

/-- The attributes of a tag that are no declarations, resolved, each with its namespace if it has
one. -/
def resolveAttributes? (scope : List Declaration) :
    List TagAttribute → Option (List (Option String × Attribute))
  | [] => some []
  | a :: rest =>
    match a.declaration? with
    | some _ => resolveAttributes? scope rest
    | none => do
      let uri ← attributeNamespace? scope (String.ofList a.name.pre)
      let more ← resolveAttributes? scope rest
      return (uri, ⟨⟨uri.getD "", String.ofList a.name.localPart⟩, a.value⟩) :: more

/-- Whether no two attributes have the same namespace and local part. -/
def distinct : List (Option String × Attribute) → Bool
  | [] => true
  | (uri, a) :: rest =>
    !rest.any (fun (u, b) ↦ u = uri && b.name.localPart = a.name.localPart) && distinct rest

/-- An open element. -/
structure OpenElement where
  /-- The name as it stands in the tag. -/
  tag : TagName
  name : QName
  scope : List Declaration
  deriving DecidableEq, Repr

/-- Resolve a start tag within the declarations around it: the element, its attributes and the
declarations that it adds. -/
def openElement? (around : List Declaration) (tag : TagName) (attributes : List TagAttribute) :
    Option (OpenElement × List Attribute × List Declaration) := do
  guard (tag.pre ≠ ['x', 'm', 'l', 'n', 's'])
  let own ← ownDeclarations? [] attributes
  let scope := inScope own around
  let resolved ← resolveAttributes? scope attributes
  guard (distinct resolved)
  let uri ← lookUp? scope (String.ofList tag.pre)
  let name : QName := ⟨uri.getD "", String.ofList tag.localPart⟩
  return (⟨tag, name, scope⟩, resolved.map (·.2), own.filter fun d ↦ !around.contains d)

/-- The events of tokens. `opened` are the open elements, innermost first, and `rooted` tells
whether the root element has been seen. -/
def nest? (opened : List OpenElement) (rooted : Bool) :
    List LocatedToken → Option (List LocatedEvent)
  | [] => if opened.isEmpty && rooted then some [] else none
  | ⟨.aside, _⟩ :: rest => nest? opened rooted rest
  | ⟨.text value layout, location⟩ :: rest =>
    if opened.isEmpty then if layout then nest? opened rooted rest else none
    else do return ⟨.text (String.ofList value), some location⟩ :: (← nest? opened rooted rest)
  | ⟨.endTag tag, _⟩ :: rest =>
    match opened with
    | [] => none
    | innermost :: outer =>
      if innermost.tag = tag then do
        return ⟨.closing innermost.name, none⟩ :: (← nest? outer rooted rest)
      else none
  | ⟨.startTag tag attributes empty, location⟩ :: rest =>
    if opened.isEmpty && rooted then none
    else do
      let around := (opened.head?.map (·.scope)).getD []
      let (element, attributes, declarations) ← openElement? around tag attributes
      let opening := ⟨.opening element.name attributes declarations, some location⟩
      if empty then
        return opening :: ⟨.closing element.name, none⟩ :: (← nest? opened true rest)
      else return opening :: (← nest? (element :: opened) true rest)

/-- A document text as its tokens and the events that these make. -/
def read? (text : String) : Option (List LocatedToken × List LocatedEvent) := do
  let tokens := joinTexts (← tokens? text.toList)
  return (tokens, ← nest? [] false tokens)

/-- The attributes of the first start tag, as they are written. -/
def rootAttributes (tokens : List LocatedToken) : List TagAttribute :=
  (tokens.findSome? fun t ↦
    match t.token with
    | .startTag _ attributes _ => some attributes
    | _ => none).getD []

/-- The value of the attribute that is written with the given name and no prefix. -/
def plainAttribute? (attributes : List TagAttribute) (name : String) : Option String :=
  (attributes.find? fun a ↦ a.name.pre = [] ∧ a.name.localPart = name.toList).map (·.value)

end XmlBinding.Markup

namespace XmlBinding

/-- Read a document text as events. -/
def EventStream.parse (text : String) : Except Error EventStream :=
  match Markup.read? text with
  | some (_, entries) => .ok ⟨entries⟩
  | none => .error (.structural .malformedDocument none)

end XmlBinding

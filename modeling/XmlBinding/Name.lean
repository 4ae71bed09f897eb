import XmlBinding.Text.Blank
import XmlBinding.Text.Split

/-!
# Qualified names and binding names

A qualified name is a namespace URI and a local part, always resolved: prefixes belong to documents
and never to names. `QName.clark` writes a name as text and `QName.ofClark` reads it back. A binding
name pairs the identifier of a native type with the qualified name of a schema type.
-/

namespace XmlBinding

open Text

/-- A resolved name: a namespace URI, empty for none, and a local part. -/
structure QName where
  /-- The namespace URI; empty for a name in no namespace. -/
  uri : String
  localPart : String
  deriving DecidableEq, Hashable, Repr, Inhabited

namespace QName

/-- The namespace of XML Schema, where the built-in schema types live. -/
def schemaUri : String := "http://www.w3.org/2001/XMLSchema"

/-- The namespace of the attributes that steer a schema processor from inside a document. -/
def instanceUri : String := "http://www.w3.org/2001/XMLSchema-instance"

/-- The namespace that the prefix `xml` always stands for. -/
def xmlUri : String := "http://www.w3.org/XML/1998/namespace"

/-- A name in no namespace. -/
def unqualified (localPart : String) : QName := ⟨"", localPart⟩

/-- A name in the namespace of XML Schema. -/
def ofSchema (localPart : String) : QName := ⟨schemaUri, localPart⟩

/-- The attribute that names an element's type. -/
def typeMarker : QName := ⟨instanceUri, "type"⟩

/-- The attribute that marks an element as null. -/
def nilMarker : QName := ⟨instanceUri, "nil"⟩

/-- The name as text: the URI in braces, unless it is empty, then the local part. -/
def clark (q : QName) : String :=
  if q.uri = "" then q.localPart else "\x7b" ++ q.uri ++ "\x7d" ++ q.localPart

/-- Why a text is no name. -/
inductive ClarkError where
  /-- The brace before the URI is never closed. -/
  | unterminated (text : String)
  | missingLocal (text : String)
  | empty
  deriving DecidableEq, Repr

/-- The wording of a `ClarkError`. -/
def ClarkError.message : ClarkError → String
  | .unterminated text => "unterminated namespace in '" ++ text ++ "'"
  | .missingLocal text => "missing local part in '" ++ text ++ "'"
  | .empty => "empty qualified name"

/-- Read a name whose surrounding blanks have been cut. -/
def ofTrimmed (text : List Char) : Except ClarkError QName :=
  match text with
  | [] => .error .empty
  | '{' :: rest =>
    match splitFirst '}' rest with
    | none => .error (.unterminated (String.ofList text))
    | some (_, []) => .error (.missingLocal (String.ofList text))
    | some (uri, localPart) => .ok ⟨String.ofList uri, String.ofList localPart⟩
  | text => .ok (unqualified (String.ofList text))

/-- Read a name as `clark` writes it, with blanks around it allowed. -/
def ofClark (text : String) : Except ClarkError QName := ofTrimmed (trim text.toList)

end QName

/-- A prefix and a local part, joined by a colon unless the prefix is empty. -/
def joinPrefix (pre localPart : String) : String :=
  if pre = "" then localPart else pre ++ ":" ++ localPart

/-- The identifier of a native type. -/
structure NativeId where
  text : String
  deriving DecidableEq, Hashable, Repr, Inhabited

/-- The key of a binding: a native type with the schema type that it is written as. -/
structure BindingName where
  native : NativeId
  schema : QName
  deriving DecidableEq, Hashable, Repr, Inhabited

/-- The name as messages show it. -/
def BindingName.display (n : BindingName) : String := n.native.text ++ "<->" ++ n.schema.clark

end XmlBinding

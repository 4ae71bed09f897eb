import XmlBinding.Document.Event
import XmlBinding.Lexical.Error

/-!
# Diagnostics

Problems that do not end a call: a session notes them and goes on. Each is a cause with the names it
is about; its severity and wording follow from the cause.
-/

namespace XmlBinding

/-- How bad a problem is. -/
inductive Severity where
  /-- Something was passed over. -/
  | warning
  /-- Something was lost. -/
  | error
  deriving DecidableEq, Repr

/-- A problem that a session goes on from. -/
inductive Problem where
  | unresolvedType (name : BindingName)
  /-- A value has no text, or a text no value. -/
  | conversion (cause : ConversionError)
  /-- The value of an attribute has no text, or its text no value. -/
  | attribute (name : QName) (cause : ConversionError)
  /-- The value of an element has no text. -/
  | element (name : QName) (cause : ConversionError)
  /-- The value of a structure is none. -/
  | notAStructure (type : BindingName) (found : String)
  /-- The value of a list is none. -/
  | notAList (type : BindingName) (found : String)
  /-- The value of a repeated property is no list. -/
  | notRepeated (property : String) (found : String)
  /-- An item of a repeated property is null where nulls are not written. -/
  | nullItem (property : String) (index : Nat)
  /-- The type of an attribute is not plain text. -/
  | complexAttribute (name : QName) (type : BindingName)
  /-- The value's own type does not narrow the declared structure. -/
  | notNarrowing (name : QName) (found declared : BindingName)
  /-- An element stands where only text is expected. -/
  | elementInText (name : QName)
  /-- A structure has no property of the element's name. -/
  | elementInStructure (name : QName) (type : BindingName)
  /-- The element is not that of the list's items. -/
  | elementInList (name : QName) (type : BindingName)
  /-- An element is left over at the end. -/
  | elementSkipped (name : QName)
  /-- Text stands where only elements are expected. -/
  | strayText (text : String)
  /-- The type that an element names may not stand in for the declared one. -/
  | typeNotAdmitted (found declared : BindingName)
  /-- The type that an element names has no binding; there may be a declared type to fall back
  to. -/
  | unknownTypeMarker (schema : QName) (declared : Bool)
  /-- The type that an element names is no qualified name. -/
  | invalidTypeMarker (cause : ConversionError)
  /-- Whatever a converter of the host has to say. -/
  | host (severity : Severity) (text : String)
  deriving DecidableEq, Repr

namespace Problem

/-- How bad a problem is: an element or text that is passed over, and a type marker that is ignored,
are warnings. -/
def severity : Problem → Severity
  | .elementInText _ => .warning
  | .elementInStructure _ _ => .warning
  | .elementInList _ _ => .warning
  | .elementSkipped _ => .warning
  | .strayText _ => .warning
  | .typeNotAdmitted _ _ => .warning
  | .unknownTypeMarker _ _ => .warning
  | .host severity _ => severity
  | _ => .error

/-- The wording of a problem. -/
def message : Problem → String
  | .unresolvedType name => "no binding type for " ++ name.display
  | .conversion cause => cause.message
  | .attribute name cause => "attribute " ++ name.clark ++ ": " ++ cause.message
  | .element name cause => name.clark ++ ": " ++ cause.message
  | .notAStructure type found =>
    "expected a structure for " ++ type.display ++ ", found " ++ found
  | .notAList type found => "expected a list for " ++ type.display ++ ", found " ++ found
  | .notRepeated property found => "property " ++ property ++ " expects a list, found " ++ found
  | .nullItem property index =>
    "property " ++ property ++ " item " ++ toString index ++ " is null and not nillable; dropped"
  | .complexAttribute name type =>
    "attribute " ++ name.clark ++ " has complex type " ++ type.display
  | .notNarrowing name found declared =>
    name.clark ++ ": " ++ found.display ++ " does not narrow " ++ declared.display
  | .elementInText name => "unexpected element " ++ name.clark ++ " in simple content"
  | .elementInStructure name type =>
    "unexpected element " ++ name.clark ++ " in " ++ type.display
  | .elementInList name type => "unexpected element " ++ name.clark ++ " in list " ++ type.display
  | .elementSkipped name => "unexpected element " ++ name.clark ++ " skipped"
  | .strayText text => "unexpected text " ++ quoted text
  | .typeNotAdmitted found declared =>
    "xsi:type " ++ found.display ++ " is not allowed for " ++ declared.display ++ "; ignored"
  | .unknownTypeMarker schema declared =>
    "unknown xsi:type " ++ schema.clark ++ if declared then "; using the declared type" else ""
  | .invalidTypeMarker cause => "invalid xsi:type: " ++ cause.message
  | .host _ text => text

end Problem

/-- A problem and where it was met, if that is known. -/
structure Diagnostic where
  problem : Problem
  location : Option Location
  deriving DecidableEq, Repr

/-- The word for a severity. -/
def Severity.word : Severity → String
  | .warning => "warning"
  | .error => "error"

/-- The diagnostic as a line of text. -/
def Diagnostic.display (d : Diagnostic) : String :=
  d.problem.severity.word ++
    (match d.location with
    | some location => " at " ++ location.display
    | none => "") ++
    ": " ++ d.problem.message

end XmlBinding

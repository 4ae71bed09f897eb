import XmlBinding.Document.Event
import XmlBinding.Text.Utf8
import XmlBinding.Text.Utf16

/-!
# Fatal errors

What ends a call. Each error is a cause with the names it is about; `Error.message` gives the
wording. Problems with single values are no errors of this kind: sessions report them and go on.
-/

namespace XmlBinding

/-- What is wrong with a document or an event sequence. -/
inductive StructuralFault where
  /-- No element opens where one has to. -/
  | expectedOpening
  /-- The events end before the element does. -/
  | unexpectedEnd
  /-- A null or a list as the root of a document has no type of its own. -/
  | undetectableType
  /-- The runtime type of the root does not narrow its declared type. -/
  | notNarrowing (element : QName) (found declared : BindingName)
  /-- An element closes while another one is innermost. -/
  | mismatchedClosing (name innermost : QName)
  /-- An element closes while none is open. -/
  | unmatchedClosing (name : QName)
  /-- The events end while an element is open. -/
  | unclosed (name : QName)
  | malformedDocument
  | utf8 (fault : Text.Utf8.Fault)
  | utf16 (fault : Text.Utf16.Fault)
  deriving DecidableEq, Repr

/-- The wording of a structural fault. -/
def StructuralFault.message : StructuralFault → String
  | .expectedOpening => "expected a start element"
  | .unexpectedEnd => "unexpected end of document"
  | .undetectableType => "cannot detect the native type of a null or list value"
  | .notNarrowing element found declared =>
    element.clark ++ ": " ++ found.display ++ " does not narrow " ++ declared.display
  | .mismatchedClosing name innermost =>
    "end of " ++ name.clark ++ " while " ++ innermost.clark ++ " is open"
  | .unmatchedClosing name => "unmatched end of " ++ name.clark
  | .unclosed name => "unclosed element " ++ name.clark
  | .malformedDocument => "failed to parse XML"
  | .utf8 fault => fault.message
  | .utf16 fault => fault.message

/-- Why nothing can be done with a path. -/
inductive Obstacle where
  /-- The path holds the character that ends names, so that it is none. -/
  | nul
  | missing
  /-- Something is in the way, such as a file in place of a directory. -/
  | blocked
  deriving DecidableEq, Repr

/-- What a message says of an obstacle. What the operating system says is left out. -/
def Obstacle.remark : Obstacle → String
  | .nul => ": file name contained an unexpected NUL byte"
  | .missing => ""
  | .blocked => ""

/-- What is wrong with an input or output device or the files of a bundle. -/
inductive IoFault where
  /-- The device of the caller failed, in its own words. -/
  | device (message : String)
  | unreadable (path : String) (obstacle : Obstacle)
  /-- The file cannot be read as text. -/
  | notUtf8 (path : String)
  | unwritable (path : String) (obstacle : Obstacle)
  | noDirectory (path : String) (obstacle : Obstacle)
  deriving DecidableEq, Repr

/-- The wording of an input or output fault. -/
def IoFault.message : IoFault → String
  | .device message => message
  | .unreadable path obstacle => "failed to read " ++ path ++ obstacle.remark
  | .notUtf8 path => "failed to read " ++ path ++ ": stream did not contain valid UTF-8"
  | .unwritable path obstacle => "failed to write " ++ path ++ obstacle.remark
  | .noDirectory path obstacle => "failed to create directory " ++ path ++ obstacle.remark

/-- What is wrong with a descriptor, a manifest or a schema document. -/
inductive DescriptorFault where
  | malformed
  /-- The file cannot be read or written. -/
  | file (fault : IoFault)
  /-- The text of the file does not describe what the file is for. -/
  | undecodable (path : String)
  /-- The text of the schema document is no well-formed document. -/
  | malformedSchema (path : String)
  /-- The root of the document is not that of a schema. -/
  | notASchema (path root : String)
  /-- The path does not stay inside of the bundle. -/
  | outsideBundle (path : String)
  deriving DecidableEq, Repr

/-- The wording of a descriptor fault. -/
def DescriptorFault.message : DescriptorFault → String
  | .malformed => "malformed text"
  | .file fault => fault.message
  | .undecodable path => "failed to deserialize " ++ path
  | .malformedSchema path => "failed to parse schema " ++ path
  | .notASchema path root =>
    path ++ " is not a schema document (root element <" ++ root ++ ">)"
  | .outsideBundle path => "schema path " ++ path ++ " must be relative to the bundle"

/-- Why a bundle cannot be loaded. -/
inductive LoadFault where
  | missingDescriptor (path : String)
  /-- One of the files is not what it should be. -/
  | descriptor (fault : DescriptorFault)
  /-- One of the files cannot be read. -/
  | io (fault : IoFault)
  deriving DecidableEq, Repr

/-- The wording of a load fault. -/
def LoadFault.message : LoadFault → String
  | .missingDescriptor path => "no binding descriptor at " ++ path
  | .descriptor fault => "invalid descriptor: " ++ fault.message
  | .io fault => "I/O error: " ++ fault.message

/-- Why a call failed. -/
inductive Error where
  | unresolvedType (name : BindingName)
  /-- The native type has no default binding. -/
  | unresolvedNative (native : NativeId)
  /-- The schema type, named by a document, has no binding. -/
  | unresolvedSchemaType (schema : QName)
  /-- The root element has no binding and names no type. -/
  | unresolvedElement (element : QName)
  /-- The document or the event sequence is malformed. -/
  | structural (fault : StructuralFault) (location : Option Location)
  | io (fault : IoFault)
  /-- The bundle at the location cannot be loaded. -/
  | bundleLoad (location : String) (fault : LoadFault)
  | unsupportedEncoding (label : String)
  | unsupported (operation : String)
  | bundleClosed
  /-- The session has done its one call before. -/
  | sessionReused
  /-- A descriptor, manifest or schema document is not what it should be. -/
  | descriptor (fault : DescriptorFault)
  deriving DecidableEq, Repr

/-- The wording of an error. -/
def Error.message : Error → String
  | .unresolvedType name => "no binding type for " ++ name.display
  | .unresolvedNative id => "no default binding for native type " ++ id.text
  | .unresolvedSchemaType schema => "no binding for schema type " ++ schema.clark
  | .unresolvedElement element => "no binding for element " ++ element.clark
  | .structural fault none => "structural error: " ++ fault.message
  | .structural fault (some location) =>
    "structural error at " ++ location.display ++ ": " ++ fault.message
  | .io fault => "I/O error: " ++ fault.message
  | .bundleLoad location fault =>
    "failed to load bundle " ++ location ++ ": " ++ fault.message
  | .unsupportedEncoding label => "unsupported character encoding: " ++ label
  | .unsupported operation => "unsupported operation: " ++ operation
  | .bundleClosed => "bundle is closed"
  | .sessionReused => "session already used"
  | .descriptor fault => "invalid descriptor: " ++ fault.message

end XmlBinding

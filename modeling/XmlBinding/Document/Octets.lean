import XmlBinding.Document.Encoding
import XmlBinding.Document.Reader
import XmlBinding.Document.Writer

/-!
# Documents as octets

A document in an encoding, behind an XML declaration that names it, and back.
-/

namespace XmlBinding

/-- The XML declaration of a document in an encoding. -/
def CharacterEncoding.xmlDeclaration (encoding : CharacterEncoding) : String :=
  "<?xml version=\"1.0\" encoding=\"" ++ encoding.label ++ "\"?>"

namespace EventStream

/-- The stream as a document in an encoding. -/
def toOctets (s : EventStream) (encoding : CharacterEncoding) : Except Error (List UInt8) :=
  s.toXml.map fun text ↦ encoding.encode (encoding.xmlDeclaration ++ text)

/-- Write the stream as a document to a device, which may answer with a fault. -/
def send (s : EventStream) (encoding : CharacterEncoding) (fault : Option IoFault) :
    Except Error (List UInt8) := do
  let octets ← s.toOctets encoding
  match fault with
  | some fault => throw (.io fault)
  | none => return octets

/-- Read a document in the encoding of its byte order mark, else in the given one. -/
def ofOctets (octets : List UInt8) (hint : Option CharacterEncoding) : Except Error EventStream :=
  CharacterEncoding.decode hint octets >>= parse

end EventStream

end XmlBinding

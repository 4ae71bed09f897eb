import XmlBinding.Error
import XmlBinding.Text.Blank

/-!
# Character encodings

Documents as octets. When they are read, a byte order mark decides the encoding, then what the
caller says, then whether the octets begin with the angle bracket of UTF-16; what is left is UTF-8.
-/

namespace XmlBinding

open Text

/-- The encodings of documents. -/
inductive CharacterEncoding where
  | utf8
  /-- UTF-16, written with the high octet first behind a byte order mark. -/
  | utf16
  | utf16be
  | utf16le
  deriving DecidableEq, Repr

namespace CharacterEncoding

/-- The label of an encoding in an XML declaration. -/
def label : CharacterEncoding → String
  | .utf8 => "UTF-8"
  | .utf16 => "UTF-16"
  | .utf16be => "UTF-16BE"
  | .utf16le => "UTF-16LE"

/-- The encoding of a label; case and blanks around it do not matter. -/
def ofLabel (label : String) : Except Error CharacterEncoding :=
  match (trimmed label).map Char.toUpper with
  | "UTF-8" | "UTF8" => .ok .utf8
  | "UTF-16" | "UTF16" => .ok .utf16
  | "UTF-16BE" | "UTF16BE" => .ok .utf16be
  | "UTF-16LE" | "UTF16LE" => .ok .utf16le
  | _ => .error (.unsupportedEncoding label)

/-- The octets of a text. -/
def encode (encoding : CharacterEncoding) (s : String) : List UInt8 :=
  match encoding with
  | .utf8 => Utf8.encode s.toList
  | .utf16 => 0xFE :: 0xFF :: Utf16.encode .big s.toList
  | .utf16be => Utf16.encode .big s.toList
  | .utf16le => Utf16.encode .little s.toList

/-- Read octets as UTF-8. -/
def decodeUtf8 (octets : List UInt8) : Except Error String :=
  match Utf8.decode octets with
  | .ok cs => .ok (String.ofList cs)
  | .error fault => .error (.structural (.utf8 fault) none)

/-- Read octets as UTF-16. -/
def decodeUtf16 (order : Utf16.ByteOrder) (octets : List UInt8) : Except Error String :=
  match Utf16.decode order octets with
  | .ok cs => .ok (String.ofList cs)
  | .error fault => .error (.structural (.utf16 fault) none)

/-- Read octets that have no byte order mark. -/
def decodeUnmarked (hint : Option CharacterEncoding) (octets : List UInt8) : Except Error String :=
  match hint with
  | some .utf8 => decodeUtf8 octets
  | some .utf16 => decodeUtf16 .big octets
  | some .utf16be => decodeUtf16 .big octets
  | some .utf16le => decodeUtf16 .little octets
  | none =>
    match octets with
    | 0x00 :: 0x3C :: _ => decodeUtf16 .big octets
    | 0x3C :: 0x00 :: _ => decodeUtf16 .little octets
    | _ => decodeUtf8 octets

/-- Read octets as text; `hint` is what the caller knows of the encoding. -/
def decode (hint : Option CharacterEncoding) (octets : List UInt8) : Except Error String :=
  match octets with
  | 0xEF :: 0xBB :: 0xBF :: rest => decodeUtf8 rest
  | 0xFE :: 0xFF :: rest => decodeUtf16 .big rest
  | 0xFF :: 0xFE :: rest => decodeUtf16 .little rest
  | _ => decodeUnmarked hint octets

end CharacterEncoding

end XmlBinding

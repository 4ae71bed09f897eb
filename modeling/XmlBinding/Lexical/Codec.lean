import XmlBinding.Lexical.Text
import XmlBinding.Number.Binary.Decimal

/-!
# Codecs

A codec ties a lexical space to the native type that holds its values, reads texts of the space and
prints values in it. Only a qualified name needs more than itself to be printed: a prefix for its
namespace, which the caller supplies to `Printed.text`.
-/

namespace XmlBinding

open Number Calendar

/-- What a value is printed as. -/
inductive Printed where
  | text (s : String)
  /-- A qualified name, still without a prefix. -/
  | name (q : QName)
  deriving DecidableEq, Repr

namespace Printed

/-- The namespace that needs a prefix, if one does. -/
def namespace? : Printed → Option String
  | .text _ => none
  | .name q => if q.uri = "" then none else some q.uri

/-- The final text; `pre` is the prefix for the namespace. -/
def finish (pre : String) : Printed → String
  | .text s => s
  | .name q => if q.uri = "" then q.localPart else joinPrefix pre q.localPart

end Printed

/-- A lexical space with the native type that holds its values. -/
structure Codec where
  space : LexicalSpace
  type : ScalarType
  deriving DecidableEq, Repr

namespace Codec

/-- Read `true`, `false`, `1` or `0`. -/
def readBoolean (lexical : String) : Except ConversionError Scalar :=
  match Text.trimmed lexical with
  | "true" | "1" => .ok (.bool true)
  | "false" | "0" => .ok (.bool false)
  | text => .error (.invalidBoolean text)

/-- The number in a native type, if that holds whole numbers and this one. -/
def narrow? (type : ScalarType) (number : Int) : Option NativeInteger :=
  match type with
  | .integer kind => NativeInteger.of? kind number
  | _ => none

/-- Check that a number is in the range of its schema type and fits its native type. -/
def checkInteger (space : IntegerSpace) (type : ScalarType) (number : Int) :
    Except ConversionError NativeInteger :=
  if ¬ space.bounds.Holds number then .error (.outOfRange number space)
  else match narrow? type number with
    | some n => .ok n
    | none => .error (.doesNotFit number type)

/-- Read an optional sign and digits. -/
def readInteger (space : IntegerSpace) (type : ScalarType) (lexical : String) :
    Except ConversionError Scalar :=
  let text := Text.trim lexical.toList
  let (negative, digits) := splitSign text
  if isNumeral digits then
    (checkInteger space type (applySign negative (read digits))).map Scalar.integer
  else .error (.invalidInteger space (String.ofList text))

/-- Read a decimal number. -/
def readDecimal (lexical : String) : Except ConversionError Scalar :=
  let text := Text.trim lexical.toList
  match Decimal.read? text with
  | some d => .ok (.decimal d)
  | none => .error (.invalidDecimal (String.ofList text))

/-- Whether the character occurs in floating point literals. -/
def isFloatChar (c : Char) : Bool :=
  c.isDigit || c == '+' || c == '-' || c == '.' || c == 'e' || c == 'E'

/-- Read a floating point number, an infinity or a NaN. -/
def readBinary (f : BinaryFormat) (lexical : String) : Except ConversionError (Binary f) :=
  match Text.trimmed lexical with
  | "INF" | "+INF" => .ok (.infinity false)
  | "-INF" => .ok (.infinity true)
  | "NaN" => .ok .nan
  | text =>
    if text = "" ∨ ¬ text.toList.all isFloatChar then .error (.invalidFloat text)
    else match Binary.read? f text.toList with
      | some x => .ok x
      | none => .error (.misplacedFloat text)

/-- Read a floating point number into 32 bits if the native type has so many, else into 64. -/
def readFloat (type : ScalarType) (lexical : String) : Except ConversionError Scalar :=
  match type with
  | .binary32 => (readBinary .single lexical).map Scalar.binary32
  | _ => (readBinary .double lexical).map Scalar.binary64

/-- Read a date, a time or a duration by the given reader. -/
def readMoment {α : Type} (space : LexicalSpace) (read? : List Char → Option α)
    (make : α → Scalar) (lexical : String) : Except ConversionError Scalar :=
  match read? lexical.toList with
  | some moment => .ok (make moment)
  | none => .error (.invalidMoment space (Text.trimmed lexical))

/-- Read a text of the codec's space; `namespaceOf` resolves the prefixes in scope. -/
def read (c : Codec) (namespaceOf : String → Option String) (lexical : String) :
    Except ConversionError Scalar :=
  match c.space with
  | .boolean => readBoolean lexical
  | .integer space => readInteger space c.type lexical
  | .decimal => readDecimal lexical
  | .float => readFloat c.type lexical
  | .double => readFloat c.type lexical
  | .text space => (space.normalize lexical).map Scalar.string
  | .dateTime => readMoment .dateTime (Zoned.read? LocalDateTime.read?) .dateTime lexical
  | .date => readMoment .date (Zoned.read? Date.read?) .date lexical
  | .time => readMoment .time (Zoned.read? Time.read?) .time lexical
  | .duration => readMoment .duration Duration.read? .duration lexical
  | .qname => (QName.resolve namespaceOf lexical).map Scalar.name

/-- A text from characters. -/
private def plain (cs : List Char) : Printed := .text (String.ofList cs)

/-- Print a qualified name, whose local part must stand behind a prefix. -/
def printName (q : QName) : Except ConversionError Printed :=
  if isNCName q.localPart.toList then .ok (.name q) else .error (.invalidLocalPart q.localPart)

/-- Print a date with a time of day that is not in a leap second. -/
def printDateTime (d : DateTime) : Except ConversionError Printed :=
  if d.value.time.IsLeap then
    .error (.leapSecond .dateTime (String.ofList d.value.display))
  else .ok (plain (Zoned.write LocalDateTime.write d))

/-- Print a time of day that is not in a leap second. -/
def printTime (t : Zoned Time) : Except ConversionError Printed :=
  if t.value.IsLeap then .error (.leapSecond .time (String.ofList t.value.display))
  else .ok (plain (Zoned.write Time.write t))

/-- Print a scalar in the codec's space, if it is of the right kind. -/
def printScalar (c : Codec) (s : Scalar) : Except ConversionError Printed :=
  match c.space, s with
  | .boolean, .bool b => .ok (.text (if b then "true" else "false"))
  | .integer space, .integer n =>
    (checkInteger space c.type n.number).map fun n ↦ plain (writeInt n.number)
  | .decimal, .decimal d => .ok (plain d.write)
  | .decimal, .integer n => .ok (plain (writeInt n.number))
  | .float, .binary32 x => .ok (plain x.write)
  | .double, .binary32 x => .ok (plain x.write)
  | .double, .binary64 x => .ok (plain x.write)
  | .text space, .string s => (space.normalize s).map Printed.text
  | .dateTime, .dateTime d => printDateTime d
  | .date, .date d => .ok (plain (Zoned.write Date.write d))
  | .time, .time t => printTime t
  | .duration, .duration d => .ok (plain d.write)
  | .qname, .name q => printName q
  | space, s => .error (.wrongShape space s.type.id)

/-- Print a value in the codec's space, if it is a scalar of the right kind. -/
def print (c : Codec) : Value → Except ConversionError Printed
  | .scalar s => c.printScalar s
  | v => .error (.wrongShape c.space v.describe)

end Codec

end XmlBinding

import XmlBinding.Value

/-!
# Lexical spaces

The built-in simple types of XML Schema: what the text of a value looks like. `builtinPairs` lists
which native types may hold the values of which space; the first pair of a space, or of a native
type, is its default.
-/

namespace XmlBinding

open Number

/-- The schema types of whole numbers. -/
inductive IntegerSpace where
  | byte
  | short
  | int
  | long
  | unsignedByte
  | unsignedShort
  | unsignedInt
  | unsignedLong
  | integer
  | nonPositiveInteger
  | negativeInteger
  | nonNegativeInteger
  | positiveInteger
  deriving DecidableEq, Repr

/-- The range of a schema type of whole numbers. -/
def IntegerSpace.bounds : IntegerSpace → Bounds
  | .byte => .signed 8
  | .short => .signed 16
  | .int => .signed 32
  | .long => .signed 64
  | .unsignedByte => .unsigned 8
  | .unsignedShort => .unsigned 16
  | .unsignedInt => .unsigned 32
  | .unsignedLong => .unsigned 64
  | .integer => .all
  | .nonPositiveInteger => .atMost 0
  | .negativeInteger => .atMost (-1)
  | .nonNegativeInteger => .atLeast 0
  | .positiveInteger => .atLeast 1

/-- The local name of a schema type of whole numbers. -/
def IntegerSpace.schemaName : IntegerSpace → String
  | .byte => "byte"
  | .short => "short"
  | .int => "int"
  | .long => "long"
  | .unsignedByte => "unsignedByte"
  | .unsignedShort => "unsignedShort"
  | .unsignedInt => "unsignedInt"
  | .unsignedLong => "unsignedLong"
  | .integer => "integer"
  | .nonPositiveInteger => "nonPositiveInteger"
  | .negativeInteger => "negativeInteger"
  | .nonNegativeInteger => "nonNegativeInteger"
  | .positiveInteger => "positiveInteger"

/-- The schema types of texts. -/
inductive TextSpace where
  | string
  | normalizedString
  | token
  | language
  | name
  | ncName
  | nmToken
  | id
  | idRef
  | entity
  | anyUri
  deriving DecidableEq, Repr

/-- The local name of a schema type of texts. -/
def TextSpace.schemaName : TextSpace → String
  | .string => "string"
  | .normalizedString => "normalizedString"
  | .token => "token"
  | .language => "language"
  | .name => "Name"
  | .ncName => "NCName"
  | .nmToken => "NMTOKEN"
  | .id => "ID"
  | .idRef => "IDREF"
  | .entity => "ENTITY"
  | .anyUri => "anyURI"

/-- The built-in simple types of XML Schema. -/
inductive LexicalSpace where
  | boolean
  | integer (space : IntegerSpace)
  | decimal
  | float
  | double
  | text (space : TextSpace)
  | dateTime
  | date
  | time
  | duration
  | qname
  deriving DecidableEq, Repr

namespace LexicalSpace

/-- All spaces, in the order of their listing. -/
def all : List LexicalSpace :=
  [.boolean, .integer .byte, .integer .short, .integer .int, .integer .long, .integer .unsignedByte,
    .integer .unsignedShort, .integer .unsignedInt, .integer .unsignedLong, .integer .integer,
    .integer .nonPositiveInteger, .integer .negativeInteger, .integer .nonNegativeInteger,
    .integer .positiveInteger, .decimal, .float, .double, .text .string, .text .normalizedString,
    .text .token, .text .language, .text .name, .text .ncName, .text .nmToken, .text .id,
    .text .idRef, .text .entity, .text .anyUri, .dateTime, .date, .time, .duration, .qname]

/-- The local name of the schema type. -/
def schemaName : LexicalSpace → String
  | .boolean => "boolean"
  | .integer space => space.schemaName
  | .decimal => "decimal"
  | .float => "float"
  | .double => "double"
  | .text space => space.schemaName
  | .dateTime => "dateTime"
  | .date => "date"
  | .time => "time"
  | .duration => "duration"
  | .qname => "QName"

/-- The space of a schema type, by local name. -/
def ofSchemaName? (name : String) : Option LexicalSpace := all.find? (·.schemaName = name)

/-- The qualified name of the schema type. -/
def name (space : LexicalSpace) : QName := .ofSchema space.schemaName

/-- The schema type as messages show it. -/
def display (space : LexicalSpace) : String := "xs:" ++ space.schemaName

end LexicalSpace

/-- Which native type may hold the values of which lexical space. The first pair of a space names
its default native type, and the first pair of a native type its default space. -/
def builtinPairs : List (LexicalSpace × ScalarType) :=
  [(.boolean, .bool),
    (.integer .byte, .integer .i8),
    (.integer .short, .integer .i16),
    (.integer .unsignedByte, .integer .u8),
    (.integer .unsignedByte, .integer .i16),
    (.integer .int, .integer .i32),
    (.integer .unsignedShort, .integer .u16),
    (.integer .unsignedShort, .integer .i32),
    (.integer .long, .integer .i64),
    (.integer .integer, .integer .big),
    (.integer .integer, .integer .i64),
    (.integer .nonPositiveInteger, .integer .big),
    (.integer .negativeInteger, .integer .big),
    (.integer .nonNegativeInteger, .integer .big),
    (.integer .positiveInteger, .integer .big),
    (.integer .unsignedInt, .integer .u32),
    (.integer .unsignedInt, .integer .i64),
    (.integer .unsignedLong, .integer .u64),
    (.integer .unsignedLong, .integer .big),
    (.decimal, .decimal),
    (.float, .binary32),
    (.double, .binary64),
    (.text .string, .string),
    (.text .normalizedString, .string),
    (.text .token, .string),
    (.text .language, .string),
    (.text .name, .string),
    (.text .ncName, .string),
    (.text .nmToken, .string),
    (.text .id, .string),
    (.text .idRef, .string),
    (.text .entity, .string),
    (.text .anyUri, .string),
    (.dateTime, .dateTime),
    (.date, .date),
    (.time, .time),
    (.duration, .duration),
    (.qname, .name)]

/-- The default native type of a lexical space. -/
def LexicalSpace.defaultType (space : LexicalSpace) : ScalarType :=
  ((builtinPairs.find? (·.1 = space)).map (·.2)).getD .string

/-- The native type of a scalar, by identifier. -/
def ScalarType.ofId? (id : String) : Option ScalarType :=
  (builtinPairs.find? (·.2.id = id)).map (·.2)

/-- The value that stands in for text that cannot be converted: zero or false where the native type
has a fixed width, null elsewhere. -/
def ScalarType.defaultValue : ScalarType → Value
  | .bool => .scalar (.bool false)
  | .integer .big => .null
  | .integer kind => .scalar (.integer (.zero kind))
  | .binary32 => .scalar (.binary32 .zero)
  | .binary64 => .scalar (.binary64 .zero)
  | _ => .null

end XmlBinding

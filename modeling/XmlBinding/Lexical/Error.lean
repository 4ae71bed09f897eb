import XmlBinding.Lexical.Space

/-!
# Conversion errors

Why a value has no text in a lexical space, or a text no value. Such an error concerns one value and
never ends a whole document by itself.
-/

namespace XmlBinding

open Number Calendar

/-- A value that cannot be written, or a text that cannot be read. -/
inductive ConversionError where
  | invalidBoolean (text : String)
  | invalidInteger (space : IntegerSpace) (text : String)
  /-- The number lies outside of the schema type. -/
  | outOfRange (number : Int) (space : IntegerSpace)
  /-- The native type cannot hold the number. -/
  | doesNotFit (number : Int) (type : ScalarType)
  | invalidDecimal (text : String)
  /-- The text has characters that no floating point number has. -/
  | invalidFloat (text : String)
  /-- The characters of the text are those of floating point numbers, but it is none. -/
  | misplacedFloat (text : String)
  /-- The text breaks the rules of its schema type. -/
  | invalidText (text : String) (space : TextSpace)
  /-- The local part of a name cannot be written behind a prefix. -/
  | invalidLocalPart (text : String)
  | invalidName (text : String)
  /-- The prefix of the text is not bound to a namespace. -/
  | undeclaredPrefix (pre text : String)
  | invalidMoment (space : LexicalSpace) (text : String)
  /-- The schema type has no second 60. -/
  | leapSecond (space : LexicalSpace) (moment : String)
  /-- The value is not of the kind that the schema type describes. -/
  | wrongShape (space : LexicalSpace) (found : String)
  /-- Values of the type are not plain text. -/
  | notSimple (type : BindingName) (found : String)
  /-- The type cannot be read from an attribute. -/
  | notAnAttribute (type : BindingName)
  /-- Nothing is known of the value's own type. -/
  | unknownRuntimeType (found : String) (type : BindingName)
  /-- A converter supplied by the host refused. -/
  | host (text : String)
  deriving DecidableEq, Repr

/-- A text in single quotes. -/
def quoted (text : String) : String := "'" ++ text ++ "'"

/-- The wording of a conversion error. -/
def ConversionError.message : ConversionError → String
  | .invalidBoolean text => "invalid boolean " ++ quoted text
  | .invalidInteger space text =>
    "invalid " ++ (LexicalSpace.integer space).display ++ " " ++ quoted text
  | .outOfRange number space =>
    intText number ++ " is out of range for " ++ (LexicalSpace.integer space).display
  | .doesNotFit number type => intText number ++ " does not fit in " ++ type.id
  | .invalidDecimal text => "invalid decimal " ++ quoted text
  | .invalidFloat text => "invalid floating point " ++ quoted text
  | .misplacedFloat text =>
    "invalid floating point " ++ quoted text ++ ": invalid float literal"
  | .invalidText text space =>
    quoted text ++ " is not a valid " ++ (LexicalSpace.text space).display
  | .invalidLocalPart text => quoted text ++ " is not a valid QName local part"
  | .invalidName text => "invalid QName " ++ quoted text
  | .undeclaredPrefix pre text =>
    "undeclared prefix " ++ quoted pre ++ " in QName " ++ quoted text
  | .invalidMoment space text => "invalid " ++ space.schemaName ++ " " ++ quoted text
  | .leapSecond space moment => "leap second in " ++ space.schemaName ++ " " ++ moment
  | .wrongShape space found =>
    "expected a value for " ++ space.display ++ ", found " ++ found
  | .notSimple type found =>
    type.display ++ " has no simple lexical form (" ++ found ++ " given)"
  | .notAnAttribute type => type.display ++ " cannot be read from an attribute"
  | .unknownRuntimeType found type =>
    "no binding for a value of type " ++ found ++ " under " ++ type.display
  | .host text => text

end XmlBinding

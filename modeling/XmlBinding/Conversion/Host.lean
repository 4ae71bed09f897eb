import XmlBinding.Conversion.Converter

/-!
# Ready-made host converters

Four converters that a host may register: `upper` holds texts in upper case that documents show in
lower case, `raw` puts a mark before a text, `boxed` writes a list with its length, and `via` hands
everything on to the converter of another type.
-/

namespace XmlBinding.HostConverter

/-- The text of a string by a function; anything else has none, for the given reason. -/
def printString (f : String → String) (reason : String) (value : Value) :
    Except ConversionError String :=
  match value with
  | .scalar (.string s) => .ok (f s)
  | _ => .error (.host reason)

/-- A text in lower case as a value in upper case, ASCII letters only. -/
def upper : HostConverter where
  label := "Upper"
  isSimple := true
  default := .null
  print _ value := return printString (·.map Char.toLower) "upper needs a string" value
  write _ value :=
    Drafting.printed
      (fun value ↦ return printString (·.map Char.toLower) "upper needs a string" value) value
  read _ := do return .ofString ((← Reading.text).map Char.toUpper)
  readAttribute _ text := return .ok (.ofString (text.map Char.toUpper))

/-- A text behind the mark `raw:`, which reading leaves in place. -/
def raw : HostConverter where
  label := "Raw"
  isSimple := false
  default := .null
  print _ value := return printString ("raw:" ++ ·) "raw needs a string" value
  write _ value :=
    Drafting.printed (fun value ↦ return printString ("raw:" ++ ·) "raw needs a string" value) value
  read _ := do return .ofString (← Reading.text)
  readAttribute _ _ := return .error (.host "raw is not an attribute")

/-- The attribute that tells the length of a boxed list. -/
def lengthName : QName := .unqualified "n"

/-- The element of an item of a boxed list. -/
def itemName : QName := .unqualified "item"

/-- Read the next child element of a boxed list; one that is no item is passed over. -/
def readBoxed (item : BindingName) (s : ReadSession) (child : QName) : Reading (List Value) := do
  if child.localPart = itemName.localPart then return [← s.childNamed item]
  else
    Reading.skipElement
    return []

/-- A list of items of the given type, its length in front. -/
def boxed (item : BindingName) : HostConverter where
  label := "Boxed"
  isSimple := false
  default := .null
  print _ _ := return .error (.host "boxed is complex")
  write s value :=
    match value with
    | .list items => do
      Drafting.addAttribute lengthName (toString items.length)
      if s.strict then
        Drafting.addAttribute (.unqualified "strict") "true"
      items.forM fun v ↦ s.childNamed itemName v item false
    | _ => Drafting.report (.host .warning "boxed needs a list")
  read s := do
    let count := (← Reading.current).attributes.length
    if (← Reading.attribute? lengthName).isNone then
      Reading.report
        (.host .warning ("boxed without n among " ++ toString count ++ " attribute(s)"))
    return .list (← Reading.gather (readBoxed item s))
  readAttribute _ _ := return .error (.host "boxed is not an attribute")

/-- The text of a value by the converter of another type. -/
def printVia (target : BindingName) (s : WriteSession) (value : Value) :
    Drafting (Except ConversionError String) :=
  match s.writer? target with
  | some writer => writer.print value
  | none => return .error (.host "via finds no marshaller")

/-- Whatever the converter of another type does, with the text of the value as an attribute. -/
def via (target : BindingName) : HostConverter where
  label := "Via"
  isSimple := false
  default := .null
  print := printVia target
  write s value := do
    match ← printVia target s value with
    | .ok text => Drafting.addAttribute (.unqualified "via") text
    | .error cause => Drafting.report (.host .warning ("via: " ++ cause.message))
    match s.writer? target with
    | some writer => writer.content value
    | none => s.unresolved target
  read s := do
    if s.strict then
      Reading.report (.host .warning
        ("via under " ++ toString (← Reading.current).scope.depth ++ " namespace frame(s)"))
    match s.reader? target with
    | some reader => reader.content
    | none =>
      s.unresolved target
      return .null
  readAttribute s text :=
    match s.reader? target with
    | some reader => reader.ofAttribute text
    | none => return .error (.host "via finds no unmarshaller")

end XmlBinding.HostConverter

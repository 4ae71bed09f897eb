import XmlBinding.Calendar.DateTime
import XmlBinding.Calendar.Duration
import XmlBinding.Name
import XmlBinding.Number.Binary.Basic
import XmlBinding.Number.Decimal
import XmlBinding.Number.Integer

/-!
# Native values

A value is null, a scalar, a list of values, or a structure: a native type with named fields. Every
scalar and structure knows its native type. Values are compared by meaning (`Value.beq`): decimal
numbers by number, moments by instant, and a field that was never set equals one that is null.
`Value.beq?` compares them in this way one after the other, and has no answer once it comes to a
moment that the calendar does not reach.
-/

namespace XmlBinding

open Number Calendar

/-- The native types of scalars. -/
inductive ScalarType where
  | bool
  | integer (kind : IntegerKind)
  | decimal
  | binary32
  | binary64
  | string
  | name
  | dateTime
  | date
  | time
  | duration
  deriving DecidableEq, Repr

/-- The identifier of a native type. -/
def ScalarType.id : ScalarType → String
  | .bool => "bool"
  | .integer kind => kind.id
  | .decimal => "BigDecimal"
  | .binary32 => "f32"
  | .binary64 => "f64"
  | .string => "String"
  | .name => "QName"
  | .dateTime => "DateTime"
  | .date => "Date"
  | .time => "Time"
  | .duration => "Duration"

/-- A value without parts. -/
inductive Scalar where
  | bool (b : Bool)
  | integer (n : NativeInteger)
  | decimal (d : Decimal)
  /-- A floating point number of 32 bits. -/
  | binary32 (x : Binary32)
  /-- A floating point number of 64 bits. -/
  | binary64 (x : Binary64)
  | string (s : String)
  | name (q : QName)
  /-- A date with a time of day. -/
  | dateTime (d : DateTime)
  | date (d : Zoned Date)
  | time (t : Zoned Time)
  | duration (d : Duration)
  deriving DecidableEq

namespace Scalar

/-- The native type of a scalar. -/
def type : Scalar → ScalarType
  | .bool _ => .bool
  | .integer n => .integer n.kind
  | .decimal _ => .decimal
  | .binary32 _ => .binary32
  | .binary64 _ => .binary64
  | .string _ => .string
  | .name _ => .name
  | .dateTime _ => .dateTime
  | .date _ => .date
  | .time _ => .time
  | .duration _ => .duration

/-- Equal in meaning: decimals by number, floating point numbers as numbers, moments by instant, and
everything else field by field. -/
def beq : Scalar → Scalar → Bool
  | .decimal a, .decimal b => a.Equiv b
  | .binary32 a, .binary32 b => a.Equiv b
  | .binary64 a, .binary64 b => a.Equiv b
  | .dateTime a, .dateTime b => DateTime.Equiv a b
  | a, b => a = b

instance : BEq Scalar := ⟨beq⟩

/-- Compare by `beq`; no answer for moments that cannot be compared. -/
def beq? : Scalar → Scalar → Option Bool
  | .dateTime a, .dateTime b => DateTime.equiv? a b
  | a, b => some (a == b)

end Scalar

/-- A native value. In a structure the first field of a name counts. -/
inductive Value where
  /-- Absent or nil. -/
  | null
  | scalar (s : Scalar)
  | list (items : List Value)
  /-- An instance of a structure: its native type and its fields. -/
  | struct (type : NativeId) (fields : List (String × Value))
  deriving Inhabited

/-- The named fields of a structure. -/
abbrev Fields := List (String × Value)

namespace Fields

/-- The value of a field, if it was ever set. -/
def get? (name : String) : Fields → Option Value
  | [] => none
  | (n, v) :: rest => if n = name then some v else get? name rest

/-- The value of a field; null if it was never set. -/
def get (fields : Fields) (name : String) : Value := (get? name fields).getD .null

/-- The fields with one of them set, in place if it was set before. -/
def set (name : String) (value : Value) : Fields → Fields
  | [] => [(name, value)]
  | (n, v) :: rest => if n = name then (name, value) :: rest else (n, v) :: set name value rest

/-- A field that was just set has its new value, and every other field keeps its own. -/
theorem get?_set (fields : Fields) (name : String) (value : Value) (n : String) :
    get? n (set name value fields) = if n = name then some value else get? n fields := by
  induction fields with
  | nil => grind [set, get?]
  | cons field rest ih => grind [set, get?]

end Fields

namespace Value

/-- The value is null. -/
def isNull : Value → Bool
  | .null => true
  | _ => false

/-- The native type of a scalar or a structure; nulls and lists have none. -/
def nativeId? : Value → Option NativeId
  | .null => none
  | .list _ => none
  | .scalar s => some ⟨s.type.id⟩
  | .struct type _ => some type

/-- What messages call a value: its native type, or else its shape. -/
def describe : Value → String
  | .null => "null"
  | .list _ => "list"
  | .scalar s => s.type.id
  | .struct type _ => type.text

mutual

/-- Equal in meaning, part by part; structures have one type and the same fields, where a field
that was never set is null. -/
def beq : Value → Value → Bool
  | .null, .null => true
  | .scalar a, .scalar b => a == b
  | .list as, .list bs => beqItems as bs
  | .struct t fs, .struct u gs =>
    decide (t = u) && beqFields [] fs gs &&
      gs.all fun g ↦ (Fields.get? g.1 fs).isSome || (Fields.get gs g.1).isNull
  | _, _ => false

/-- Equal in length and item by item. -/
def beqItems : List Value → List Value → Bool
  | [], [] => true
  | a :: as, b :: bs => beq a b && beqItems as bs
  | _, _ => false

/-- Every field that is not among those already `seen` has an equal in the second structure. -/
def beqFields (seen : List String) : List (String × Value) → List (String × Value) → Bool
  | [], _ => true
  | (name, v) :: rest, gs =>
    (seen.contains name || beq v (Fields.get gs name)) && beqFields (name :: seen) rest gs

end

instance : BEq Value := ⟨beq⟩

mutual

/-- Compare by `beq`, part by part up to the first difference; no answer if moments that cannot be
compared come before it. -/
def beq? : Value → Value → Option Bool
  | .null, .null => some true
  | .scalar a, .scalar b => Scalar.beq? a b
  | .list as, .list bs => if as.length = bs.length then beqItems? as bs else some false
  | .struct t fs, .struct u gs =>
    if t = u then
      (beqFields? [] fs gs).map fun equal ↦ equal &&
        gs.all fun g ↦ (Fields.get? g.1 fs).isSome || (Fields.get gs g.1).isNull
    else some false
  | _, _ => some false

/-- Compare item by item. -/
def beqItems? : List Value → List Value → Option Bool
  | [], [] => some true
  | a :: as, b :: bs => do if ← beq? a b then beqItems? as bs else return false
  | _, _ => some false

/-- Compare every field that is not among those already `seen` with that of the second structure. -/
def beqFields? (seen : List String) : List (String × Value) → List (String × Value) → Option Bool
  | [], _ => some true
  | (name, v) :: rest, gs => do
    let equal ← if seen.contains name then some true else beq? v (Fields.get gs name)
    if equal then beqFields? (name :: seen) rest gs else return false

end

mutual

/-- The number of values on the longest way from a value into its parts; zero for null. -/
def height : Value → Nat
  | .null => 0
  | .scalar _ => 1
  | .list items => heightOfItems items + 1
  | .struct _ fields => heightOfFields fields + 1

/-- The greatest height of the items. -/
def heightOfItems : List Value → Nat
  | [] => 0
  | v :: rest => max (height v) (heightOfItems rest)

/-- The greatest height of the fields. -/
def heightOfFields : List (String × Value) → Nat
  | [] => 0
  | (_, v) :: rest => max (height v) (heightOfFields rest)

end

/-- The truth value, if it is one. -/
def asBool? : Value → Option Bool
  | .scalar (.bool b) => some b
  | _ => none

/-- The whole number of fixed width, if it is one and fits in 64 bits with a sign. -/
def asInt64? : Value → Option Int
  | .scalar (.integer n) =>
    if n.kind ≠ .big ∧ IntegerKind.i64.bounds.Holds n.number then some n.number else none
  | _ => none

/-- The floating point number, if it is one, in 64 bits. -/
def asBinary64? : Value → Option Binary64
  | .scalar (.binary32 x) => some x.widen
  | .scalar (.binary64 x) => some x
  | _ => none

/-- The text, if it is one. -/
def asString? : Value → Option String
  | .scalar (.string s) => some s
  | _ => none

/-- The items, if it is a list. -/
def asList? : Value → Option (List Value)
  | .list items => some items
  | _ => none

/-- The native type and the fields, if it is a structure. -/
def asStruct? : Value → Option (NativeId × Fields)
  | .struct type fields => some (type, fields)
  | _ => none

/-- A text as a value. -/
def ofString (s : String) : Value := .scalar (.string s)

end Value

end XmlBinding

import XmlBinding.Conversion.Generated

/-!
# The native types of values that were read

A codec of a built-in pair reads values of the native type of the pair. A binding to a lexical space
has such a codec unless its native type is that of other spaces alone.
-/

namespace XmlBinding

open Number

/-- The native type of the values that a codec reads. -/
def Codec.readType (space : LexicalSpace) (type : ScalarType) : ScalarType :=
  match space with
  | .boolean => .bool
  | .integer _ => type
  | .decimal => .decimal
  | .float => if type = .binary32 then .binary32 else .binary64
  | .double => if type = .binary32 then .binary32 else .binary64
  | .text _ => .string
  | .dateTime => .dateTime
  | .date => .date
  | .time => .time
  | .duration => .duration
  | .qname => .name

/-- The values of a built-in pair are read into its native type. -/
theorem Codec.readType_of_mem {space : LexicalSpace} {type : ScalarType}
    (h : (space, type) ∈ builtinPairs) : readType space type = type := by
  have hall : ∀ p ∈ builtinPairs, readType p.1 p.2 = p.2 := by decide
  exact hall _ h

private theorem Codec.kind_of_narrow? {type : ScalarType} {number : Int} {n : NativeInteger}
    (h : narrow? type number = some n) : type = .integer n.kind := by
  unfold narrow? at h
  split at h
  · unfold NativeInteger.of? at h
    split at h
    · cases h
      rfl
    · cases h
  · cases h

private theorem type_of_readBoolean {text : String} {s : Scalar}
    (h : Codec.readBoolean text = .ok s) : s.type = .bool := by
  unfold Codec.readBoolean at h
  split at h <;> cases h <;> rfl

private theorem type_of_readInteger {space : IntegerSpace} {type : ScalarType} {text : String}
    {s : Scalar} (h : Codec.readInteger space type text = .ok s) : s.type = type := by
  unfold Codec.readInteger at h
  dsimp only at h
  split at h
  · unfold Codec.checkInteger at h
    split at h
    · cases h
    · split at h
      · next n hn =>
        cases h
        exact (Codec.kind_of_narrow? hn).symm
      · cases h
  · cases h

private theorem type_of_readFloat {type : ScalarType} {text : String} {s : Scalar}
    (h : Codec.readFloat type text = .ok s) :
    s.type = if type = .binary32 then .binary32 else .binary64 := by
  unfold Codec.readFloat at h
  split at h
  · cases hr : Codec.readBinary .single text with
    | error cause => rw [hr] at h; cases h
    | ok x =>
      rw [hr] at h
      cases h
      rfl
  · next hne =>
    rw [if_neg hne]
    cases hr : Codec.readBinary .double text with
    | error cause => rw [hr] at h; cases h
    | ok x =>
      rw [hr] at h
      cases h
      rfl

private theorem type_of_readMoment {α : Type} {space : LexicalSpace}
    {read? : List Char → Option α} {make : α → Scalar} {text : String} {s : Scalar}
    {type : ScalarType} (hm : ∀ a, (make a).type = type)
    (h : Codec.readMoment space read? make text = .ok s) : s.type = type := by
  unfold Codec.readMoment at h
  split at h
  · cases h
    exact hm _
  · cases h

/-- Whatever a codec reads has the native type of its values. -/
theorem Codec.type_of_read {c : Codec} {namespaceOf : String → Option String} {text : String}
    {s : Scalar} (h : c.read namespaceOf text = .ok s) : s.type = readType c.space c.type := by
  obtain ⟨space, type⟩ := c
  unfold Codec.read at h
  cases space with
  | boolean => exact type_of_readBoolean h
  | integer space => exact type_of_readInteger h
  | decimal =>
    unfold Codec.readDecimal at h
    dsimp only at h
    split at h
    · cases h
      rfl
    · cases h
  | float => exact type_of_readFloat h
  | double => exact type_of_readFloat h
  | text space =>
    dsimp only at h
    cases hn : space.normalize text with
    | error cause => rw [hn] at h; cases h
    | ok normal =>
      rw [hn] at h
      cases h
      rfl
  | dateTime => exact type_of_readMoment (fun _ ↦ rfl) h
  | date => exact type_of_readMoment (fun _ ↦ rfl) h
  | time => exact type_of_readMoment (fun _ ↦ rfl) h
  | duration => exact type_of_readMoment (fun _ ↦ rfl) h
  | qname =>
    dsimp only at h
    cases hr : QName.resolve namespaceOf text with
    | error cause => rw [hr] at h; cases h
    | ok q =>
      rw [hr] at h
      cases h
      rfl

/-- The native type suits the space: they are a built-in pair, or the native type is none that a
lexical space has. -/
def BindingName.Suits (name : BindingName) (space : LexicalSpace) : Prop :=
  ∀ type, ScalarType.ofId? name.native.text = some type → (space, type) ∈ builtinPairs

private theorem LexicalSpace.defaultType_mem (space : LexicalSpace) :
    (space, space.defaultType) ∈ builtinPairs := by
  have hall : ∀ p ∈ builtinPairs, (p.1, p.1.defaultType) ∈ builtinPairs := by decide
  have hpaired : ∃ p ∈ builtinPairs, p.1 = space := by
    cases space with
    | integer space => cases space <;> decide
    | text space => cases space <;> decide
    | _ => decide
  obtain ⟨p, hp, rfl⟩ := hpaired
  exact hall p hp

/-- The codec of a binding whose native type suits the space is that of a built-in pair. -/
theorem BindingName.Suits.codec_mem {name : BindingName} {space : LexicalSpace}
    (h : name.Suits space) :
    ((name.codec space).space, (name.codec space).type) ∈ builtinPairs := by
  change (space, (ScalarType.ofId? name.native.text).getD space.defaultType) ∈ builtinPairs
  cases ht : ScalarType.ofId? name.native.text with
  | none => exact space.defaultType_mem
  | some type => exact h type ht

end XmlBinding

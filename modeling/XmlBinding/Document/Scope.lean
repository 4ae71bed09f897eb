import XmlBinding.Document.Event

/-!
# Namespaces in scope

The declarations of all open elements, innermost first. Both lookups see the latest declaration of a
prefix: `namespaceOf?` gives the namespace of a prefix, and `prefixOf?` a prefix that means a given
namespace here. `fresh` numbers generated prefixes so that they are unbound.
-/

namespace XmlBinding

/-- The declarations in scope, one frame per open element, the innermost frame and the latest
declaration first. -/
structure NamespaceScope where
  frames : List (List Declaration)
  deriving DecidableEq, Repr

namespace NamespaceScope

/-- No frame. -/
def empty : NamespaceScope := ⟨[]⟩

/-- A new innermost frame with the given declarations in document order. -/
def push (declarations : List Declaration) (s : NamespaceScope) : NamespaceScope :=
  ⟨declarations.reverse :: s.frames⟩

/-- Drop the innermost frame. -/
def pop (s : NamespaceScope) : NamespaceScope := ⟨s.frames.tail⟩

/-- Add a declaration to the innermost frame; without a frame it opens one. -/
def declare (d : Declaration) (s : NamespaceScope) : NamespaceScope :=
  match s.frames with
  | [] => ⟨[[d]]⟩
  | frame :: rest => ⟨(d :: frame) :: rest⟩

/-- The number of frames. -/
def depth (s : NamespaceScope) : Nat := s.frames.length

/-- All declarations, the latest first. -/
def declarations (s : NamespaceScope) : List Declaration := s.frames.flatten

/-- The namespace that a prefix is bound to; the empty prefix stands for the default namespace. The
prefix `xml` is always bound, and a prefix bound to the empty namespace is not bound. -/
def namespaceOf? (s : NamespaceScope) (pre : String) : Option String :=
  if pre = "xml" then some QName.xmlUri
  else match s.declarations.find? (·.pre = pre) with
    | some d => if d.uri ≠ "" ∨ pre = "" then some d.uri else none
    | none => none

/-- The latest prefix that was declared for a namespace and still means it. -/
def prefixOf? (s : NamespaceScope) (uri : String) : Option String :=
  (s.declarations.find? fun d ↦ d.uri = uri ∧ s.namespaceOf? d.pre = some uri).map (·.pre)

/-- The generated prefix of a number. -/
def generatedPrefix (n : Nat) : String := "ns" ++ toString n

/-- The first number after `counter` whose generated prefix is unbound; `bound` more may be
bound. -/
def freshAfter (s : NamespaceScope) : (bound counter : Nat) → Nat
  | 0, counter => counter + 1
  | bound + 1, counter =>
    if (s.namespaceOf? (generatedPrefix (counter + 1))).isNone then counter + 1
    else s.freshAfter bound (counter + 1)

/-- The first number after `counter` whose generated prefix is unbound: there are no more bound
prefixes than declarations. -/
def fresh (s : NamespaceScope) (counter : Nat) : Nat :=
  s.freshAfter s.declarations.length counter

/-- The declarations of a new frame stand in front of the others, the last one first. -/
@[simp] theorem declarations_push (ds : List Declaration) (s : NamespaceScope) :
    (s.push ds).declarations = ds.reverse ++ s.declarations := by
  simp [push, declarations]

/-- A declaration that is added stands in front of all others. -/
@[simp] theorem declarations_declare (d : Declaration) (s : NamespaceScope) :
    (s.declare d).declarations = d :: s.declarations := by
  unfold declare
  split <;> simp_all [declarations]

/-- What is pushed is taken off again. -/
@[simp] theorem pop_push (ds : List Declaration) (s : NamespaceScope) : (s.push ds).pop = s := by
  simp [push, pop]

end NamespaceScope

end XmlBinding

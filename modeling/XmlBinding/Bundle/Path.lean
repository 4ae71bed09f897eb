import XmlBinding.Text.Split

/-!
# Paths

A path is a text of names separated by slashes. Empty pieces and single dots between names say
nothing, so that one place has many paths: `components` is what paths are compared by, and the text
is what messages show.
-/

namespace XmlBinding

/-- A path as it is written. -/
structure Path where
  text : String
  deriving DecidableEq, Repr

/-- One step of a path. -/
inductive PathComponent where
  | root
  | current
  | parent
  | name (s : String)
  deriving DecidableEq, Repr

namespace Path

/-- The texts between the slashes. -/
def pieces (p : Path) : List String :=
  (Text.splitAll (· == '/') p.text.toList).map String.ofList

/-- The step that a piece stands for; empty pieces and single dots stand for none. -/
def componentOf? : String → Option PathComponent
  | "" => none
  | "." => none
  | ".." => some .parent
  | s => some (.name s)

/-- The steps of a path. Only at its start is a slash or a single dot one of them. -/
def components (p : Path) : List PathComponent :=
  match p.pieces with
  | "" :: rest@(_ :: _) => .root :: rest.filterMap componentOf?
  | "." :: rest => .current :: rest.filterMap componentOf?
  | pieces => pieces.filterMap componentOf?

/-- The names of a path that consists of nothing else. -/
def names? (p : Path) : Option (List String) :=
  p.components.mapM fun
    | .name s => some s
    | _ => none

/-- The path leads to something below the place where it starts, by names alone. -/
def isInside (p : Path) : Bool := p.names?.any (!·.isEmpty)

/-- One path behind the other; a path from the root replaces what is before it. -/
def join (p q : Path) : Path :=
  if q.text.startsWith "/" ∨ p.text = "" then q
  else if p.text.endsWith "/" then ⟨p.text ++ q.text⟩
  else ⟨p.text ++ "/" ++ q.text⟩

/-- The path of names. -/
def ofNames (names : List String) : Path := ⟨"/".intercalate names⟩

/-- A reversed text without the pieces at its end that say nothing. -/
def trimTail : List Char → List Char
  | ['/'] => ['/']
  | '/' :: rest => trimTail rest
  | '.' :: '/' :: rest => trimTail ('/' :: rest)
  | cs => cs

/-- The path without its last step. -/
def parent (p : Path) : Path :=
  let rest := (trimTail p.text.toList.reverse).dropWhile (· != '/')
  ⟨String.ofList (trimTail rest).reverse⟩

/-- A path, the path without its last step, and so on until nothing can be taken off. -/
def ancestors (p : Path) : List Path :=
  if p.parent.text.length < p.text.length then p :: ancestors p.parent else [p]
termination_by p.text.length

/-- The part of a file name behind its last dot; a dot at the start does not count. -/
def extension? (name : String) : Option String :=
  let reversed := name.toList.reverse
  match Text.splitFirst '.' reversed with
  | some (_, []) => none
  | some (ending, _) => some (String.ofList ending.reverse)
  | none => none

end Path

end XmlBinding

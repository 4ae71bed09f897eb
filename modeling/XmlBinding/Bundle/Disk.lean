import XmlBinding.Bundle.Path
import XmlBinding.Error

/-!
# Disks

The files that bundles are kept in: a finite map from places to files and directories. A path leads
to a place if every step on the way starts from a directory. What changes a disk may fail half way,
and then leaves what it has changed so far.
-/

namespace XmlBinding

/-- What is at a place. -/
inductive DiskItem where
  | file (octets : List UInt8)
  | directory
  deriving DecidableEq, Repr

/-- A place: the names on the way to it. The top directory has none. -/
abbrev Place := List String

/-- Files and directories by place. -/
structure Disk where
  /-- The items, each place once. -/
  items : List (Place × DiskItem)
  deriving DecidableEq, Repr

namespace Disk

/-- No files and no directories but the top one. -/
def empty : Disk := ⟨[]⟩

/-- The greatest number of octets in a name. -/
def maxNameSize : Nat := 255

/-- The greatest number of octets in a path. -/
def maxPathSize : Nat := 4095

/-- What is at a place. -/
def item? (d : Disk) (place : Place) : Option DiskItem :=
  if place = [] then some .directory else (d.items.find? (·.1 = place)).map (·.2)

/-- There is a directory at the place. -/
def isDirectoryAt (d : Disk) (place : Place) : Bool := d.item? place == some .directory

/-- Put an item at a place, instead of what was there. -/
def put (d : Disk) (place : Place) (item : DiskItem) : Disk :=
  ⟨d.items.filter (·.1 ≠ place) ++ [(place, item)]⟩

/-- The place that a piece of a path leads to from another place, which has to be a directory. -/
def step (d : Disk) (place : Place) (piece : String) : Except Obstacle Place :=
  match d.item? place with
  | none => .error .missing
  | some (.file _) => .error .blocked
  | some .directory =>
    match Path.componentOf? piece with
    | some .parent => .ok place.dropLast
    | some (.name s) => if s.utf8ByteSize ≤ maxNameSize then .ok (place ++ [s]) else .error .blocked
    | _ => .ok place

/-- The place that pieces of a path lead to, one after the other. -/
def walk (d : Disk) (pieces : List String) : Except Obstacle Place := pieces.foldlM d.step []

/-- The pieces of a path that may be used at all. -/
def usablePieces (p : Path) : Except Obstacle (List String) :=
  if '\x00' ∈ p.text.toList then .error .nul
  else if maxPathSize < p.text.utf8ByteSize then .error .blocked
  else .ok p.pieces

/-- The place that a path leads to, whether or not there is something. -/
def place (d : Disk) (p : Path) : Except Obstacle Place := usablePieces p >>= d.walk

/-- The octets of the file that a path leads to. -/
def readFile (d : Disk) (p : Path) : Except Obstacle (List UInt8) := do
  match d.item? (← d.place p) with
  | some (.file octets) => return octets
  | some .directory => throw .blocked
  | none => throw .missing

/-- A path leads to a file. -/
def isFile (d : Disk) (p : Path) : Bool := (d.readFile p).isOk

/-- The files below a place, each by the names behind it. -/
def filesBelow (d : Disk) (place : Place) : List (Place × List UInt8) :=
  d.items.filterMap fun (p, item) ↦
    match item with
    | .file octets =>
      if place.isPrefixOf p then some (p.drop place.length, octets) else none
    | .directory => none

/-- A step that changes a disk. It may fail, and keeps what it has changed when it does. -/
abbrev Change := ExceptT Obstacle (StateM Disk)

/-- Make a directory at the end of a path if there is none. Slashes at the end of the path make no
difference, but a last step that is no name asks for a directory that is there. -/
def makeDirectory (p : Path) : Change Unit := do
  let d ← get
  let pieces := ((← usablePieces p).reverse.dropWhile (· = "")).reverse
  let place ← d.walk pieces
  match d.item? place with
  | none => set (d.put place .directory)
  | some .directory => return
  | some (.file _) => throw .blocked

/-- Make the first of the directories. If one around it is missing, make the others before. -/
def makeFirst : List Path → Change Unit
  | [] => return
  | p :: around =>
    tryCatch (makeDirectory p) fun
      | .missing => do
        makeFirst around
        makeDirectory p
      | obstacle => throw obstacle

/-- Make a directory at the end of a path and on the way to it. The way is known by the text of the
path alone, so that `a/..` makes the directory `a`. -/
def makeDirectories (p : Path) : Change Unit := makeFirst p.ancestors

/-- Put a file at the end of a path, unless there is a directory. -/
def writeFile (p : Path) (octets : List UInt8) : Change Unit := do
  let d ← get
  let place ← d.place p
  if d.isDirectoryAt place then throw .blocked
  set (d.put place (.file octets))

end Disk

end XmlBinding

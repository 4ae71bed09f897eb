import XmlBinding.Binding.Decode
import XmlBinding.Binding.Encode
import XmlBinding.Bundle.Basic
import XmlBinding.Bundle.Disk
import XmlBinding.Text.Utf8

/-!
# Bundles on disk

A saved bundle is a directory with its descriptor, a directory of schema documents, and a manifest
if there are native types to list. Loading looks for the same files; every schema document at any
depth is read, in the order of their paths.
-/

namespace XmlBinding

/-- The file of the descriptor. -/
def descriptorFile : Path := ⟨"binding-config.json"⟩

/-- The directory of the schema documents. -/
def schemaDirectory : Path := ⟨"schemas"⟩

/-- The ending of the names of schema documents. -/
def schemaExtension : String := "xsd"

/-- The file of the manifest. -/
def manifestFile : Path := ⟨"manifest.json"⟩

namespace Disk

/-- The text of a file. -/
def readText (d : Disk) (p : Path) : Except IoFault String :=
  match d.readFile p with
  | .error obstacle => .error (.unreadable p.text obstacle)
  | .ok octets =>
    match Text.Utf8.decode octets with
    | .ok cs => .ok (String.ofList cs)
    | .error _ => .error (.notUtf8 p.text)

end Disk

/-- Read the descriptor in a file. -/
def Descriptor.load (d : Disk) (p : Path) : Except DescriptorFault Descriptor :=
  match d.readText p with
  | .error fault => .error (.file fault)
  | .ok text =>
    match Descriptor.parse text with
    | .ok descriptor => .ok descriptor
    | .error _ => .error (.undecodable p.text)

namespace Bundle

/-- The manifest as JSON. -/
def manifestJson (compiled : List NativeId) : Json :=
  .object [("compiled_types", .array (compiled.map fun native ↦ .string native.text))]

/-- Read a manifest. -/
def manifestOfJson? (v : Json) : Option (List NativeId) := do
  let members ← Json.record? ["compiled_types"] v
  Json.optional? [] (Json.items? NativeId.ofJson?) "compiled_types" members

/-- The native types that the manifest in a file lists; none without the file. -/
def loadManifest (d : Disk) (p : Path) : Except LoadFault (List NativeId) :=
  if ¬ d.isFile p then .ok []
  else match d.readText p with
    | .error fault => .error (.io fault)
    | .ok text =>
      match (Json.parse? text).bind manifestOfJson? with
      | some compiled => .ok compiled
      | none => .error (.descriptor (.undecodable p.text))

/-- The names of a schema document come before those of another, piece by piece. -/
def comesBefore : Place → Place → Bool
  | [], _ => true
  | _ :: _, [] => false
  | a :: as, b :: bs => a < b || (a = b && comesBefore as bs)

/-- The files below a directory that are named as schema documents, by the names behind it, in
order. -/
def schemaPlaces (d : Disk) (directory : Path) : List Place :=
  match d.place directory with
  | .error _ => []
  | .ok place =>
    let names := (d.filesBelow place).map (·.1)
    (names.filter fun names ↦ names.getLast?.bind Path.extension? = some schemaExtension).mergeSort
      comesBefore

/-- Read the schema document of the given names in a directory. -/
def loadSchema (d : Disk) (directory : Path) (names : Place) : Except LoadFault SchemaDocument :=
  let path := Path.ofNames names
  match d.readText (directory.join path) with
  | .error fault => .error (.io fault)
  | .ok text =>
    match SchemaDocument.parse path text with
    | .ok document => .ok document
    | .error (.descriptor fault) => .error (.descriptor fault)
    | .error _ => .error (.descriptor (.malformedSchema path.text))

/-- Where a location keeps its files and its descriptor: the location is a directory, or the
descriptor itself. -/
def filesOf (d : Disk) (location : Path) : Path × Path :=
  if d.isFile location then (location.parent, location)
  else (location, location.join descriptorFile)

/-- Load a bundle, with the cause if it fails. -/
def loadFrom (d : Disk) (location : Path) : Except LoadFault Bundle := do
  let (directory, descriptorPath) := filesOf d location
  if ¬ d.isFile descriptorPath then
    throw (.missingDescriptor descriptorPath.text)
  let descriptor ← (Descriptor.load d descriptorPath).mapError LoadFault.descriptor
  let schemas := directory.join schemaDirectory
  let documents ← (schemaPlaces d schemas).mapM (loadSchema d schemas)
  let compiled ← loadManifest d (directory.join manifestFile)
  return ⟨some location, descriptor, documents, compiled⟩

/-- Load the bundle at a location: its directory, or its descriptor file. -/
def load (d : Disk) (location : Path) : Except Error Bundle :=
  (loadFrom d location).mapError (.bundleLoad location.text)

/-- The bundle that a descriptor file alone makes. -/
def ofDescriptorFile (d : Disk) (p : Path) : Except Error Bundle :=
  match Descriptor.load d p with
  | .ok descriptor => .ok ⟨none, descriptor, [], []⟩
  | .error fault => .error (.bundleLoad p.text (.descriptor fault))

/-- A step that changes the disk and may fail, keeping what it has changed so far. -/
abbrev Saving := ExceptT Error (StateM Disk)

/-- Make a directory and those around it. -/
def makeDirectories (p : Path) : Saving Unit :=
  (Disk.makeDirectories p).adapt fun obstacle ↦ .io (.noDirectory p.text obstacle)

/-- Write a text as a file; the error is made of what is in the way. -/
def writeText (p : Path) (text : String) (error : IoFault → Error) : Saving Unit :=
  (Disk.writeFile p (Text.Utf8.encode text.toList)).adapt fun obstacle ↦
    error (.unwritable p.text obstacle)

/-- Write a schema document into a directory. -/
def saveSchema (directory : Path) (document : SchemaDocument) : Saving Unit := do
  let path := directory.join document.path
  makeDirectories path.parent
  writeText path document.text .io

/-- Save a bundle as a directory. Files that are there already are replaced, and none is removed. -/
def save (b : Bundle) (directory : Path) : Saving Unit := do
  makeDirectories directory
  let path := directory.join descriptorFile
  writeText path b.descriptor.toText fun fault ↦ .descriptor (.file fault)
  b.schemas.forM (saveSchema (directory.join schemaDirectory))
  if ¬ b.compiled.isEmpty then
    let path := directory.join manifestFile
    writeText path (manifestJson b.compiled).pretty .io

end Bundle

end XmlBinding

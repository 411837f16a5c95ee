import Reckoner.Path
import Reckoner.Text.Utf8

/-! Disks: a tree of folders and files, and what can be done to it.  A path is followed name by
name; each name but the last must be that of a folder that exists. -/

namespace Reckoner

open Utf8 (Bytes)

/-- What a disk holds at a place. -/
inductive Node
  | file (bytes : Bytes)
  | folder
  deriving DecidableEq, Repr

/-- A place on a disk: the names on the way from the root to it. -/
abbrev Place := List Text

/-- The files and folders of a disk, at their places.  The root is a folder without being listed. -/
structure Disk where
  entries : List (Place × Node)
  deriving DecidableEq, Repr

/-- Why something cannot be done on a disk. -/
inductive DiskFault
  | missing
  | notFolder
  | isFolder
  | alreadyThere
  | nameTooLong
  /-- The system does not allow it. -/
  | refused
  /-- A name with the character that ends a name in system calls. -/
  | zeroInName
  deriving DecidableEq, Repr

/-- The longest name of a file or folder, in bytes. -/
def maxNameBytes : Nat := 255

/-- The longest path, in bytes. -/
def maxPathBytes : Nat := 4095

namespace Disk

/-- What is at a place. -/
def find? (disk : Disk) (place : Place) : Option Node :=
  if place = [] then some .folder else disk.entries.lookup place

/-- The disk with something else at a place. -/
def put (disk : Disk) (place : Place) (node : Node) : Disk :=
  ⟨(place, node) :: disk.entries.filter (·.1 != place)⟩

/-- The disk with nothing at a place and below it. -/
def without (disk : Disk) (place : Place) : Disk :=
  ⟨disk.entries.filter fun entry => !place.isPrefixOf entry.1⟩

/-- The place that a name leads to from another one. -/
def step (disk : Disk) (place : Place) (name : Text) : Except DiskFault Place :=
  match disk.find? place with
  | none => .error .missing
  | some (.file _) => .error .notFolder
  | some .folder =>
    if name = "..".toList then .ok place.dropLast
    else if maxNameBytes < (Utf8.encode name).length then .error .nameTooLong
    else .ok (place ++ [name])

/-- The place that a path leads to from a folder; nothing need be there. -/
def locate (disk : Disk) (folder : Place) (path : Path) : Except DiskFault Place :=
  if path.hasZero then .error .zeroInName
  else if maxPathBytes < (Utf8.encode path.text).length then .error .nameTooLong
  else path.names.foldlM disk.step (if path.isAbsolute then [] else folder)

/-- Whether a path leads to a file.  A path that leads nowhere does not. -/
def isFile (disk : Disk) (folder : Place) (path : Path) : Except DiskFault Bool :=
  match disk.locate folder path with
  | .ok place =>
    match disk.find? place with
    | some (.file _) => .ok true
    | _ => .ok false
  | .error .nameTooLong => .error .nameTooLong
  | .error _ => .ok false

/-- The bytes of a file. -/
def read (disk : Disk) (folder : Place) (path : Path) : Except DiskFault Bytes := do
  match disk.find? (← disk.locate folder path) with
  | some (.file bytes) => return bytes
  | some .folder => throw .isFolder
  | none => throw .missing

/-- The disk with a file of these bytes in place of the old file, if there was one. -/
def write (disk : Disk) (folder : Place) (path : Path) (bytes : Bytes) : Except DiskFault Disk := do
  let place ← disk.locate folder path
  match disk.find? place with
  | some .folder => throw .isFolder
  | _ => return disk.put place (.file bytes)

/-- The disk without a file, which need not have been there. -/
def remove (disk : Disk) (folder : Place) (path : Path) : Except DiskFault Disk :=
  match disk.locate folder path with
  | .error .missing => .ok disk
  | .error fault => .error fault
  | .ok place =>
    match disk.find? place with
    | none => .ok disk
    | some .folder => .error .isFolder
    | some (.file _) => .ok (disk.without place)

/-- Whether a path leads to a folder. -/
def isFolder (disk : Disk) (folder : Place) (path : Path) : Bool :=
  match disk.locate folder path with
  | .ok place => disk.find? place = some .folder
  | .error _ => false

/-- The disk with a new folder. -/
def makeFolder (disk : Disk) (folder : Place) (path : Path) : Except DiskFault Disk := do
  let place ← disk.locate folder path
  match disk.find? place with
  | some _ => throw .alreadyThere
  | none => return disk.put place .folder

/-- The disk with a folder, and with all folders on the way to it, of which some may have been there
and others may have been made before the fault. -/
def makeFolders (disk : Disk) (folder : Place) (path : Path) : Except DiskFault Unit × Disk :=
  match disk.makeFolder folder path with
  | .ok disk => (.ok (), disk)
  | .error .missing =>
    if _ : path.names = [] then (.error .missing, disk)
    else
      match makeFolders disk folder path.parent with
      | (.error fault, disk) => (.error fault, disk)
      | (.ok (), disk) =>
        match disk.makeFolder folder path with
        | .ok disk => (.ok (), disk)
        | .error fault => (if disk.isFolder folder path then .ok () else .error fault, disk)
  | .error fault => (if disk.isFolder folder path then .ok () else .error fault, disk)
  termination_by path.names.length
  decreasing_by
    simp only [Path.parent, List.length_dropLast]
    have := List.length_pos_iff.mpr ‹path.names ≠ []›
    omega

/-- The folder that a path leads to. -/
def enter (disk : Disk) (folder : Place) (path : Path) : Except DiskFault Place := do
  let place ← disk.locate folder path
  match disk.find? place with
  | some .folder => return place
  | some (.file _) => throw .notFolder
  | none => throw .missing

end Disk

end Reckoner

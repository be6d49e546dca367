import ByteTower.Medium.DirectoryHandle
import ByteTower.Medium.File
import ByteTower.Medium.Path

namespace ByteTower

/-- Regular files by name, each name once. -/
structure Directory where
  files : List (String × Bytes) := []

namespace Directory

def find? (d : Directory) (name : String) : Option Bytes := d.files.lookup name

def put (d : Directory) (name : String) (bytes : Bytes) : Directory :=
  if d.files.any (·.1 == name) then
    { files := d.files.map fun file => if file.1 == name then (name, bytes) else file }
  else { files := d.files ++ [(name, bytes)] }

inductive Target
  | directory
  /-- The entry of this name, there or not, of the directory itself or of some other one. -/
  | entry (within : Bool) (name : String)

/-- Follows the names of a path, from within the directory or from outside it. No file is known to
be outside. The last name is not looked up. -/
def follow (d : Directory) : (within : Bool) → List String → Except SystemError Target
  | _, [] => .ok .directory
  | within, name :: rest =>
    if name = "." then follow d within rest
    else if name = ".." then follow d false rest
    else if rest = [] then .ok (.entry within name)
    else if Path.maxNameSize < name.utf8ByteSize then .error .nameTooLong
    else if within ∧ (d.find? name).isSome then .error .notADirectory
    else .error .noSuchFile

def resolve (d : Directory) (path : Path) : Except IoError Target :=
  (d.follow (!path.fromRoot) path.steps).mapError .system

/-- What becomes of a file that is opened for reading and writing. -/
inductive OpenMode
  /-- It is emptied. -/
  | create
  /-- It stays as it is. -/
  | update
deriving DecidableEq

def OpenMode.initial : OpenMode → Option Bytes → Bytes
  | create, _ => ByteArray.empty
  | update, before => before.getD ByteArray.empty

/-- Opens the file at `path` for reading and writing. One that is not there is created, though not
outside the directory. A path that ends in a slash asks for a new directory, whatever is there. -/
def openFile (d : Directory) (mode : OpenMode) (path : String) :
    Except IoError (FileHandle × Directory) := do
  let path ← Path.read path
  match ← d.resolve path with
  | .directory => throw (.system .isADirectory)
  | .entry within name =>
    if path.slashed then throw (.system .isADirectory)
    else if Path.maxNameSize < name.utf8ByteSize then throw (.system .nameTooLong)
    else if within then
      let bytes := mode.initial (d.find? name)
      return ({ name, bytes }, d.put name bytes)
    else throw (.system .noSuchFile)

/-- Opens what is at `path` for reading only: a directory or a file. -/
def openReadOnly (d : Directory) (path : String) :
    Except IoError (DirectoryHandle ⊕ FileHandle) := do
  let path ← Path.read path
  match ← d.resolve path with
  | .directory => return .inl {}
  | .entry within name =>
    if Path.maxNameSize < name.utf8ByteSize then throw (.system .nameTooLong)
    else
      match if within then d.find? name else none with
      | none => throw (.system .noSuchFile)
      | some bytes =>
        if path.slashed then throw (.system .notADirectory)
        else return .inr { name, bytes, writable := false }

end Directory

end ByteTower

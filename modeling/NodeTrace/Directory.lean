import NodeTrace.Source

/-!
# Directories

A run of the program opens files by their paths.  `Files` is all that it knows of them: what opening a path
gives.  A `Directory` is files in memory, reached by paths that are taken apart at their slashes and walked
from the working directory.  Outside of the working directory there are directories, but no files.  Paths and
their parts have a greatest length, in bytes: nothing is opened by a longer one.
-/

namespace NodeTrace

/-- What opening a path gives. -/
abbrev Files : Type := String → Except Fault Source

/-- The source that an opened directory is: it cannot be read. -/
def Source.ofDirectory : Source := { unread := [], failure := some (0, .isADirectory) }

/-- Files in memory, by the parts of their paths. -/
structure Directory where
  files : List (List String × List UInt8) := []

/-- Where a walk along a path has come to. -/
inductive Place where
  /-- A directory outside of the working directory. -/
  | outside
  /-- The working directory or a directory inside it. -/
  | inside (parts : List String)
  | file (bytes : List UInt8)

namespace Directory

/-- Files by their paths. -/
def ofFiles (files : List (String × List UInt8)) : Directory where
  files := files.map fun (path, bytes) => (path.splitOn "/", bytes)

/-- Some file lies below a path. -/
def isBelow (d : Directory) (parts : List String) : Bool :=
  d.files.any fun (path, _) => parts.length < path.length ∧ path.take parts.length = parts

/-- The most bytes that a path has. -/
def pathLimit : Nat := 4095

/-- The most bytes that a part of a path has. -/
def partLimit : Nat := 255

/-- Why there is nothing of a name. -/
def absence (part : String) : Fault :=
  if partLimit < part.utf8ByteSize then .nameTooLong else .notFound

/-- Walk along one part of a path. -/
def step (d : Directory) (place : Place) (part : String) : Except Fault Place :=
  match place with
  | .file _ => .error .notADirectory
  | .outside => if part = "" ∨ part = "." ∨ part = ".." then .ok .outside else .error (absence part)
  | .inside parts =>
    if part = "" ∨ part = "." then .ok place
    else if part = ".." then .ok (if parts.isEmpty then .outside else .inside parts.dropLast)
    else
      let parts := parts ++ [part]
      match d.files.lookup parts with
      | some bytes => .ok (.file bytes)
      | none => if d.isBelow parts then .ok (.inside parts) else .error (absence part)

/-- What a place is read as. -/
def source : Place → Source
  | .file bytes => .ofBytes bytes
  | _ => .ofDirectory

/-- Open a path.  A path that begins with a slash leads outside. -/
def open? (d : Directory) : Files := fun path => do
  if '\x00' ∈ path.toList then
    throw (.invalidInput "file name contained an unexpected NUL byte")
  if path.isEmpty then throw .notFound
  if pathLimit < path.utf8ByteSize then throw .nameTooLong
  let start := if path.toList.head? = some '/' then Place.outside else .inside []
  return source (← (path.splitOn "/").foldlM d.step start)

end Directory

end NodeTrace

import TinyScript.Source.File

/-! Directories: which file stands at a path. A path is walked part by part, and every part but the
last has to lead to a directory. -/
namespace TinyScript

/-- Where a path leads to: down from the working directory, up and out of it, or to a name outside
of it, of which nothing is known. -/
inductive Place where
  | inside (names : List String)
  | outside
  | unknown
deriving DecidableEq

namespace Place

def parent : Place → Place
  | inside [] => outside
  | inside names => inside names.dropLast
  | outside => outside
  | unknown => unknown

/-- The place of a name in the directory at a place. -/
def child (name : String) : Place → Place
  | inside names => inside (names ++ [name])
  | _ => unknown

/-- One part further. Empty parts and single dots stay, double dots go up. -/
def step (place : Place) (part : String) : Place :=
  if part = "" ∨ part = "." then place
  else if part = ".." then place.parent
  else place.child part

end Place

/-- The working directory as the files put into it, the latest first. -/
structure Directory where
  entries : List (List String × File) := []

namespace Directory

/-- The longest part of a path, in bytes. -/
def longestName : Nat := 255

/-- The longest path, in bytes. -/
def longestPath : Nat := 4095

/-- What stands at a place. Above a file there are directories. -/
def fileAt (directory : Directory) : Place → File
  | .inside names =>
    match directory.entries.lookup names with
    | some file => file
    | none =>
      if names = [] || directory.entries.any fun entry => names.isPrefixOf entry.1 then .directory
      else .absent .notFound
  | .outside => .directory
  | .unknown => .absent .notFound

/-- Follows the parts of a path. -/
def walk (directory : Directory) (place : Place) : List String → Except InputFault Place
  | [] => .ok place
  | part :: parts =>
    match directory.fileAt place with
    | .directory =>
      if longestName < part.utf8ByteSize then .error .invalidName
      else directory.walk (place.step part) parts
    | .contents _ => .error .notADirectory
    | .absent fault => .error fault

/-- Where the parts of a path begin: a slash in front leads out of the working directory. -/
def origin (path : String) : Place := if path.startsWith "/" then .outside else .inside []

/-- The file at a path. -/
def file (directory : Directory) (path : String) : File :=
  if path.contains '\x00' then .absent .invalidInput
  else if path = "" then .absent .notFound
  else if longestPath < path.utf8ByteSize then .absent .invalidName
  else
    match directory.walk (origin path) (path.splitOn "/") with
    | .ok place => directory.fileAt place
    | .error fault => .absent fault

/-- The directory with a file put at a path inside of it. -/
def put (directory : Directory) (path : String) (file : File) : Directory :=
  match (path.splitOn "/").foldl Place.step (origin path) with
  | .inside names => ⟨(names, file) :: directory.entries⟩
  | _ => directory

end Directory

end TinyScript

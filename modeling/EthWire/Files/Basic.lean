import EthWire.Bytes
import EthWire.Text.Basic

/-!
# Files

The files around a run: places under names in directories, and a working directory,
where paths start that do not start at the top.
-/

namespace EthWire

/-- What there is under a name. -/
inductive Place
  | file (content : Bytes)
  | directory
  /-- a device that takes whatever is written and is always empty -/
  | sink
  /-- something that may not be opened -/
  | locked
deriving DecidableEq

/-- The names that lead to a place from the top directory. -/
abbrev Location := List Bytes

/-- What is known of the files. There is nothing elsewhere, except for the working
directory and those above it. -/
structure Files where
  workingDirectory : Location
  places : List (Location × Place)

/-- Why a file cannot be opened. -/
inductive FileProblem
  | missing
  | denied
  | isDirectory
  | notDirectory
  | nameTooLong
deriving DecidableEq, Repr

/-- The number and the text of a problem. -/
def FileProblem.message : FileProblem → Text
  | missing => "[Errno 2] No such file or directory"
  | denied => "[Errno 13] Permission denied"
  | notDirectory => "[Errno 20] Not a directory"
  | isDirectory => "[Errno 21] Is a directory"
  | nameTooLong => "[Errno 36] File name too long"

namespace Files

/-- What there is at a location. -/
def place? (files : Files) (location : Location) : Option Place :=
  match files.places.lookup location with
  | some place => some place
  | none => if location.isPrefixOf files.workingDirectory then some .directory else none

/-- Takes away what there is at a location. -/
def remove (files : Files) (location : Location) : Files :=
  { files with places := files.places.filter fun entry => entry.1 != location }

/-- Puts something at a location. -/
def put (files : Files) (location : Location) (place : Place) : Files :=
  { files with places := (location, place) :: (files.remove location).places }

/-- Moves what there is at one location to another one. -/
def move (files : Files) (source target : Location) : Files :=
  match files.places.lookup source with
  | some place => (files.remove source).put target place
  | none => files

/-- The files with their contents. -/
def contents (files : Files) : List (Location × Bytes) :=
  files.places.filterMap fun (location, place) =>
    match place with
    | .file content => some (location, content)
    | _ => none

end Files

end EthWire

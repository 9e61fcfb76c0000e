import EthWire.Files.Access
import EthWire.Text.Class

/-!
# Log files

A file to which lines are added. Before a line would bring it to its size limit, the
file is set aside under a number, and the files set aside before move up by one; those
beyond the greatest number are lost. Where none are kept, the file just grows.
-/

namespace EthWire.Logging

structure LogFile where
  /-- from the top directory, without steps that lead nowhere -/
  path : Bytes
  /-- a size in bytes that the file stays below -/
  sizeLimit : Nat
  /-- how many files are kept beside it -/
  backups : Nat

namespace LogFile

/-- The location of the file. -/
def location (f : LogFile) (files : Files) : Location := files.plainLocation f.path

/-- The location of the file that was set aside as number `i`. -/
def backup (f : LogFile) (files : Files) (i : Nat) : Location :=
  files.plainLocation (f.path ++ Text.toUtf8 (CodePoint.ofChar '.' :: Text.ofNat i))

/-- The number under which a location was set aside. -/
def backupNumber? (f : LogFile) (files : Files) (location : Location) : Option Nat := do
  let name ← location.getLast?
  let own ← (f.location files).getLast?
  let t ← Text.ofUtf8? (name.drop (own.length + 1))
  let digits ← t.mapM Text.digit?
  let i := Positional.value 10 digits
  if f.backup files i = location then some i else none

/-- The numbers under which files are set aside, the greatest first. -/
def backupNumbers (f : LogFile) (files : Files) : List Nat :=
  (files.places.filterMap fun entry => f.backupNumber? files entry.1).mergeSort fun i j => j ≤ i

/-- Sets the file aside, and begins a new one. -/
def rotate (f : LogFile) (files : Files) : Files :=
  if f.backups = 0 then files
  else
    let moved := (f.backupNumbers files).foldl (fun files i =>
      if 1 ≤ i ∧ i < f.backups then files.move (f.backup files i) (f.backup files (i + 1))
      else files) files
    (moved.move (f.location files) (f.backup files 1)).put (f.location files) (.file [])

/-- Whether a line has to go into a new file. -/
def isFull (f : LogFile) (line : Text) (files : Files) : Bool :=
  match files.place? (f.location files) with
  | some (.file content) => f.sizeLimit ≤ content.length + line.length
  | _ => false

/-- Makes the file unless it is there. -/
def create (f : LogFile) (files : Files) : Except FileProblem Files :=
  files.updateAt f.path id

/-- The files after a line is added; a line with surrogates cannot be. -/
def add (f : LogFile) (files : Files) (line : Text) : Files :=
  let files := if f.isFull line files then f.rotate files else files
  match line.toUtf8? with
  | none => files
  | some bytes =>
      match files.updateAt f.path (· ++ bytes) with
      | .ok files => files
      | .error _ => files

end LogFile

end EthWire.Logging

import EthWire.Fault.Basic
import EthWire.Files.Path
import EthWire.Text.FileName
import EthWire.Text.Quoted

/-!
# Reading and writing files

Files by the text of their paths. A path without bytes, or with the byte zero in it, is
no path at all.
-/

namespace EthWire

/-- Why a run stops: a fault, or a file that cannot be opened. -/
inductive Failure
  | fault (f : Fault)
  | file (path : Text) (problem : FileProblem)

/-- The report on a file to the user. -/
def Failure.fileMessage (path : Text) (problem : FileProblem) : Text :=
  problem.message ++ Text.ofString ": " ++ path.quoted

namespace Files

/-- The bytes of a path. -/
def encodePath (path : Text) : Except Failure Bytes :=
  match Text.fileName? path with
  | none => .error (.fault (.misuse .loneSurrogate))
  | some bytes => if bytes.contains 0 then .error (.fault (.misuse .badPath)) else .ok bytes

/-- The content of a file. -/
def readAt (files : Files) (path : Bytes) : Except FileProblem Bytes := do
  match files.place? (← files.locate path) with
  | some (.file content) => pure content
  | some .sink => pure []
  | some .directory => .error .isDirectory
  | some .locked => .error .denied
  | none => .error .missing

/-- Gives a file a content, which may depend on the one it has; a file that is not there
is made. -/
def updateAt (files : Files) (path : Bytes) (change : Bytes → Bytes) :
    Except FileProblem Files := do
  let location ← files.locateToWrite path
  match files.place? location with
  | some (.file content) => pure (files.put location (.file (change content)))
  | none => pure (files.put location (.file (change [])))
  | some .sink => pure files
  | some .directory => .error .isDirectory
  | some .locked => .error .denied

/-- The content of a file. -/
def read (files : Files) (path : Text) : Except Failure Bytes := do
  let bytes ← encodePath path
  (files.readAt bytes).mapError (.file path)

/-- The text in a file. -/
def readText (files : Files) (path : Text) : Except Failure Text := do
  match Text.ofUtf8? (← files.read path) with
  | some t => pure t
  | none => .error (.fault (.misuse .notText))

/-- Gives a file a new content. -/
def write (files : Files) (path : Text) (content : Bytes) : Except Failure Files := do
  let bytes ← encodePath path
  (files.updateAt bytes fun _ => content).mapError (.file path)

end Files

end EthWire

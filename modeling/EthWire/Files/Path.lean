import EthWire.Files.Basic

/-!
# Paths

A path is a byte string of parts between slashes. It is walked part by part, and each
part but the last has to lead to a directory. One dot stays in place and two dots lead
to the directory above; the top directory is above itself.
-/

namespace EthWire.Files

def slash : UInt8 := 0x2f

def dot : Bytes := [0x2e]

def dotDot : Bytes := [0x2e, 0x2e]

/-- The parts of a path between its slashes. -/
def parts (path : Bytes) : List Bytes :=
  path.foldr (fun b parts =>
    if b = slash then [] :: parts
    else match parts with
      | part :: rest => (b :: part) :: rest
      | [] => [[b]]) [[]]

/-- The path of a location. -/
def pathOf (location : Location) : Bytes :=
  if location.isEmpty then [slash] else location.flatMap fun name => slash :: name

/-- Where a path starts. -/
def start (files : Files) (path : Bytes) : Location :=
  if path.head? == some slash then [] else files.workingDirectory

/-- The greatest number of bytes in a name. -/
def maxNameLength : Nat := 255

/-- The greatest number of bytes in a path. -/
def maxPathLength : Nat := 4095

/-- One part of a path from a place, which has to be a directory. -/
def step (files : Files) (location : Location) (part : Bytes) : Except FileProblem Location :=
  match files.place? location with
  | none => .error .missing
  | some .locked => .error .denied
  | some .directory =>
      if part.isEmpty || part == dot then .ok location
      else if part = dotDot then .ok location.dropLast
      else if maxNameLength < part.length then .error .nameTooLong
      else .ok (location ++ [part])
  | some _ => .error .notDirectory

/-- Where parts of a path lead. -/
def walk (files : Files) (location : Location) (parts : List Bytes) :
    Except FileProblem Location :=
  parts.foldlM files.step location

/-- Refuses a path that is empty or too long. -/
def checkLength (path : Bytes) : Except FileProblem Unit :=
  if path.isEmpty then .error .missing
  else if maxPathLength < path.length then .error .nameTooLong
  else .ok ()

/-- Where a path to be read leads. -/
def locate (files : Files) (path : Bytes) : Except FileProblem Location := do
  checkLength path
  files.walk (files.start path) (parts path)

/-- Where a path to be written leads. One that ends in a slash is taken for a directory
as soon as there is the directory that it would be in. -/
def locateToWrite (files : Files) (path : Bytes) : Except FileProblem Location := do
  checkLength path
  match (parts path).reverse with
  | [] :: before =>
      let front := ((before.dropWhile List.isEmpty).drop 1).reverse
      let _ ← files.walk (files.start path) (front ++ [[]])
      .error .isDirectory
  | _ => files.walk (files.start path) (parts path)

/-! ## Spelling -/

/-- One part of a path by its spelling alone, whatever there is on the way. -/
def plainStep (location : Location) (part : Bytes) : Location :=
  if part.isEmpty || part == dot then location
  else if part = dotDot then location.dropLast
  else location ++ [part]

/-- Where a path leads by its spelling alone. -/
def plainLocation (files : Files) (path : Bytes) : Location :=
  (parts path).foldl plainStep (files.start path)

/-- The locations that a path passes by its spelling alone, from its start to its end. -/
def waypoints (files : Files) (path : Bytes) : List Location :=
  (parts path).foldl (fun passed part => passed ++ [plainStep (passed.getLastD []) part])
    [files.start path]

end EthWire.Files

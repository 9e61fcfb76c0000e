import EthWire.CommandLine.Run
import Std.Time

/-!
# The program

The outer layer of the command line tool: it looks up the files that a run may use,
runs the command line, and writes what the run leaves behind.
-/

open EthWire EthWire.CommandLine

/-- The path of a location on disk. -/
def diskPath (location : Location) : String := (Text.ofFileName (Files.pathOf location)).toString

/-- Looks up a location. -/
def lookUpLocation (files : Files) (location : Location) : IO Files := do
  try
    pure (files.put location (.file (← IO.FS.readBinFile (diskPath location)).toList))
  catch
    | .noFileOrDirectory .. => pure files
    | .inappropriateType .. => pure (files.put location .directory)
    | _ => pure (files.put location .locked)

/-- Looks up the place of a path, and the directories on the way. -/
def lookUp (files : Files) (path : Option Text) : IO Files := do
  match path.bind Text.fileName? with
  | none => pure files
  | some path => (files.waypoints path).foldlM lookUpLocation files

/-- The greatest number up to which files that were set aside are looked up. -/
def maxBackups : Nat := 1000

/-- Looks up a log file, and the files that were set aside from it. -/
def lookUpLog (files : Files) (settings : Config.LogSection) : IO Files := do
  let files ← lookUp files (Logging.Logger.pathOf settings.file)
  match Logging.Logger.fileOf settings files with
  | .ok (some f) =>
      (List.range (min f.backups maxBackups)).foldlM (fun files i =>
        lookUpLocation files (f.backup files (i + 1))) files
  | _ => pure files

/-- The working directory, and nothing known of the files. -/
def emptyFiles : IO Files := do
  let here := Text.ofString (← IO.currentDir).toString
  let files : Files := { workingDirectory := [], places := [] }
  pure { files with workingDirectory := files.plainLocation here.toUtf8 }

/-- The paths that a command uses. -/
def pathsOf : Command → List (Option Text)
  | .keygen output => [output]
  | .address source => [source.keyfile]
  | .sign request => [request.source.keyfile]
  | _ => []

/-- Whether a command reads the standard input. -/
def readsInput : Command → Bool
  | .decode _ data _ => data == some [dash]
  | .sender raw => raw == some [dash]
  | _ => false

/-- The files that an invocation may use. -/
def filesFor (i : Invocation) : IO Files := do
  let files ← (i.config :: pathsOf i.command).foldlM lookUp (← emptyFiles)
  match loadConfig i files with
  | .error _ => pure files
  | .ok config =>
      let keyfile := match config.keyfile with
        | .text t => some t
        | _ => none
      lookUpLog (← lookUp files keyfile) config.log

/-- The time; the tool was started at `begun` on the steady clock. -/
def momentNow (begun : Nat) : IO Logging.Moment := do
  let now ← Std.Time.PlainDateTime.now
  let stamp ← Std.Time.Timestamp.now
  pure
    { shown := now.format "uuuu-MM-dd HH:mm:ss,SSS"
      seconds := stamp.toSecondsSinceUnixEpoch.val.toNat
      milliseconds := now.nanosecond.val.toNat / 1000000
      elapsed := (← IO.monoMsNow) - begun }

/-- The number of this process, zero where the system does not tell it. -/
def processNumber : IO Nat := do
  try
    let status ← IO.FS.readFile "/proc/self/stat"
    pure ((Text.readInt? 10 ((Text.ofString status).takeWhile fun c => c.val != 0x20)).getD 0).toNat
  catch _ => pure 0

/-- The tool as it runs; its only thread has the number of the process. -/
def hostNow : IO Logging.Host := do
  let path := Text.ofString (← IO.appPath).toString
  let process ← processNumber
  let name := path.reverse.takeWhile fun c => c.val != 0x2f
  pure { directory := path.take (path.length - name.length - 1), process, thread := process }

/-- A key from the entropy of the system, drawn until one is in range. -/
partial def drawKey : IO PrivateKey := do
  match PrivateKey.ofBytes (← IO.getRandomBytes 32).toList with
  | .ok key => pure key
  | .error _ => drawKey

/-- Removes the files that a run has moved away, and writes those that it has changed. -/
def writeBack (before after : Files) : IO Unit := do
  for (location, _) in before.contents do
    if (after.contents.lookup location).isNone then
      IO.FS.removeFile (diskPath location)
  for (location, content) in after.contents do
    if before.contents.lookup location != some content then
      IO.FS.writeBinFile (diskPath location) ⟨content.toArray⟩

def main (args : List String) : IO UInt32 := do
  let begun ← IO.monoMsNow
  let args := args.map Text.ofString
  let (files, input) ← match Invocation.read args with
    | .error _ => pure (← emptyFiles, "")
    | .ok i => do
        let input ← if readsInput i.command then (← IO.getStdin).readToEnd else pure ""
        pure (← filesFor i, input)
  match run args ⟨files, input, ← momentNow begun, ← hostNow, ← drawKey⟩ with
  | .usage =>
      IO.eprint (unlines helpLines).toString
      pure 2
  | .finished code output errors after => do
      writeBack files after
      IO.eprint errors.toString
      IO.print output.toString
      pure code.toUInt32
  | .broken _ =>
      IO.eprintln "error: the run cannot go on"
      pure 1

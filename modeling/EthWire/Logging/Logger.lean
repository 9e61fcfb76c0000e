import EthWire.Config.Basic
import EthWire.Logging.Field
import EthWire.Logging.Format
import EthWire.Logging.LogFile

/-!
# Loggers

A logger writes the lines of entries that reach its threshold to the error output,
and to a file if it has one. The file is made when the logger starts. An entry that
the format cannot show is passed over.
-/

namespace EthWire.Logging

structure Logger where
  threshold : Nat
  format : Text
  file : Option LogFile

namespace Logger

/-- The format of a setting; an empty one shows the message alone. -/
def formatOf : Value → Text
  | .text [] => "%(message)s"
  | .text t => t
  | _ => "%(message)s"

/-- The path of a setting; an empty one stands for none. -/
def pathOf : Value → Option Text
  | .text [] => none
  | .text t => some t
  | _ => none

/-- The level of a setting. -/
def levelOf : Value → Text
  | .text t => t
  | _ => "INFO"

/-- The number of a setting. -/
def countOf : Value → Nat
  | .int n => n.toNat
  | _ => 0

/-- The bytes in a megabyte. -/
def megabyte : Nat := 1048576

/-- The log file of the settings. -/
def fileOf (settings : Config.LogSection) (files : Files) : Except Failure (Option LogFile) :=
  match pathOf settings.file with
  | none => .ok none
  | some path => do
      let bytes ← Files.encodePath path
      pure (some
        { path := Files.pathOf (files.plainLocation bytes)
          sizeLimit := countOf settings.maxSizeMb * megabyte
          backups := countOf settings.backupCount })

/-- Makes the log file ready. -/
def openFile (file : Option LogFile) (files : Files) : Except Failure Files :=
  match file with
  | none => .ok files
  | some f => (f.create files).mapError (.file (Text.ofFileName f.path))

/-- The logger of a configuration, with its file ready. -/
def start (settings : Config.LogSection) (files : Files) : Except Failure (Logger × Files) := do
  let file ← fileOf settings files
  let files ← openFile file files
  let format := formatOf settings.format
  if !hasField format then .error (.fault (.misuse .badLogging))
  let threshold ← (thresholdOf (levelOf settings.level)).mapError fun m => .fault (.misuse m)
  pure ({ threshold, format, file }, files)

/-- The lines of the entries that are logged. -/
def lines (logger : Logger) (entries : List Entry) : List Text :=
  entries.filterMap fun e =>
    if e.level.number < logger.threshold then none
    else (e.line? logger.format).map (· ++ [CodePoint.ofChar '\n'])

/-- The files after lines are logged. -/
def record (logger : Logger) (lines : List Text) (files : Files) : Files :=
  match logger.file with
  | none => files
  | some f => lines.foldl f.add files

end Logger

end EthWire.Logging

import EthWire.Fault.Basic
import EthWire.Text.Class
import EthWire.Value.Description

/-!
# Configuration

The settings of the command line tool. A setting may hold a value of any type until
the configuration is checked; what the check reports is all that is wrong with it.
-/

namespace EthWire

namespace Config

/-- The chain to sign for; none selects the legacy signer. -/
structure SignerSection where
  chainId : Value := .int 1

/-- The layout of JSON output. -/
structure CodecSection where
  jsonIndent : Value := .null
  jsonSortKeys : Value := .bool false

/-- What is logged, in which format, and into which file beside the error output. -/
structure LogSection where
  level : Value := .text "INFO"
  file : Value := .null
  format : Value := .text "%(asctime)s - %(name)s - %(levelname)s - %(message)s"
  maxSizeMb : Value := .int 100
  backupCount : Value := .int 5

end Config

structure Config where
  signer : Config.SignerSection := {}
  codec : Config.CodecSection := {}
  log : Config.LogSection := {}
  /-- The file with the private key to use where no key is given. -/
  keyfile : Value := .null

namespace Config

/-- The default configuration, for the main network. -/
def mainnet : Config := {}

/-- The configuration for the legacy signer. -/
def legacy : Config := { signer := { chainId := .null } }

/-! ## Checks -/

/-- An integer that is at least `least`; a truth value is none. -/
def isIntegerFrom (least : Int) : Value → Bool
  | .int n => least ≤ n
  | _ => false

def isNullOr (check : Value → Bool) : Value → Bool
  | .null => true
  | v => check v

def isText : Value → Bool
  | .text _ => true
  | _ => false

def isBool : Value → Bool
  | .bool _ => true
  | _ => false

/-- The names of levels that a configuration may set. -/
def levelNames : List Text := ["DEBUG", "INFO", "WARNING", "ERROR", "CRITICAL"]

def isLevel : Value → Bool
  | .text t => levelNames.contains t.upper
  | _ => false

/-- A problem that shows the value. -/
def invalid (what : String) (v : Value) : Text :=
  Text.ofString "Invalid " ++ Text.ofString what ++ Text.ofString ": " ++ v.describe

/-- The check of one setting. -/
structure Check where
  passes : Bool
  /-- The problem to report otherwise. -/
  problem : Text
  /-- Whether that problem can be written; one that shows a value may be too long. -/
  isWritten : Bool

/-- A check whose problem shows the value. -/
def Check.showing (what : String) (v : Value) (check : Value → Bool) : Check :=
  ⟨check v, invalid what v, v.isWritten⟩

/-- The report of a check that does not pass. -/
def Check.report (check : Check) : Except Fault Text :=
  if check.isWritten then .ok check.problem else .error (.misuse .longNumeral)

/-- The checks in the order in which they report. -/
def checks (c : Config) : List Check :=
  [.showing "chain id" c.signer.chainId (isNullOr (isIntegerFrom 1)),
   .showing "JSON indent" c.codec.jsonIndent (isNullOr (isIntegerFrom 0)),
   .showing "json_sort_keys" c.codec.jsonSortKeys isBool,
   .showing "log level" c.log.level isLevel,
   .showing "log format" c.log.format isText,
   .showing "log file" c.log.file (isNullOr isText),
   ⟨isIntegerFrom 1 c.log.maxSizeMb, "max_size_mb must be an integer of at least 1", true⟩,
   ⟨isIntegerFrom 0 c.log.backupCount, "backup_count must be a non-negative integer", true⟩,
   .showing "keyfile" c.keyfile (isNullOr isText)]

/-- All that is wrong with a configuration. -/
def validate (c : Config) : Except Fault (List Text) :=
  (c.checks.filter fun check => !check.passes).mapM Check.report

end Config

end EthWire

import EthWire.Fault.Basic
import EthWire.Text.Class

/-!
# Log levels

Levels are numbers; a message is logged if its level is at least the threshold.
-/

namespace EthWire.Logging

/-- The levels at which this tool logs. -/
inductive Level
  | debug
  | info
deriving DecidableEq, Repr

namespace Level

def number : Level → Nat
  | debug => 10
  | info => 20

def name : Level → Text
  | debug => "DEBUG"
  | info => "INFO"

end Level

/-- The thresholds by name. -/
def thresholds : List (Text × Nat) :=
  [("NOTSET", 0), ("DEBUG", 10), ("INFO", 20), ("WARN", 30), ("WARNING", 30), ("ERROR", 40),
   ("CRITICAL", 50), ("FATAL", 50)]

/-- The threshold that a name in any case sets. A name of no level sets the one of
`INFO`; the two reserved names are refused. -/
def thresholdOf (name : Text) : Except Misuse Nat :=
  let name := name.upper
  if name = Text.ofString "BASIC_FORMAT" then .error .badLogging
  else if name = Text.ofString "_STYLES" then .error .reservedLevel
  else .ok ((thresholds.lookup name).getD Level.info.number)

end EthWire.Logging

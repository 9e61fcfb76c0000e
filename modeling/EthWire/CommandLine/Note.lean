import EthWire.CommandLine.Invocation
import EthWire.Fault.Report
import EthWire.Logging.Format

/-!
# Notes for the log

What the tool logs while it runs a command.
-/

namespace EthWire.CommandLine

inductive Note
  /-- a new key went into a file -/
  | keyWritten (path : Text)
  /-- a transaction was signed for a chain -/
  | signed (summary : Text) (chainId : Value)
  /-- a command came to a fault -/
  | failed (command : Command) (fault : Fault)

namespace Note

def level : Note → Logging.Level
  | keyWritten _ => .info
  | signed .. => .debug
  | failed .. => .debug

def origin : Note → Logging.Origin
  | keyWritten _ => ⟨"cmd_keygen", 136⟩
  | signed .. => ⟨"cmd_sign", 172⟩
  | failed .. => ⟨"main", 217⟩

def message : Note → Text
  | keyWritten path => Text.ofString "Private key written to " ++ path
  | signed summary chainId =>
      Text.ofString "Signed " ++ summary ++ Text.ofString " for chain id " ++ chainId.display
  | failed command fault =>
      command.name ++ Text.ofString " failed: " ++ fault.report.describe

end Note

end EthWire.CommandLine

import EthWire.Block.Basic
import EthWire.Receipt.Basic
import EthWire.Whisper.Basic

/-!
# Records of any kind

The eight kinds of records as one type, for the places that take any of them.
-/

namespace EthWire

inductive RecordKind
  | header
  | transaction
  | block
  | log
  | receipt
  | newMessage
  | message
  | criteria
deriving DecidableEq, Repr

def RecordKind.name : RecordKind → Text
  | header => "Header"
  | transaction => "Transaction"
  | block => "Block"
  | log => "Log"
  | receipt => "Receipt"
  | newMessage => "NewMessage"
  | message => "Message"
  | criteria => "Criteria"

inductive Record
  | header (h : Header)
  | transaction (t : Transaction)
  | block (b : Block)
  | log (l : Log)
  | receipt (r : Receipt)
  | newMessage (m : NewMessage)
  | message (m : Message)
  | criteria (c : Criteria)

namespace Record

def kind : Record → RecordKind
  | header _ => .header
  | transaction _ => .transaction
  | block _ => .block
  | log _ => .log
  | receipt _ => .receipt
  | newMessage _ => .newMessage
  | message _ => .message
  | criteria _ => .criteria

def toJson : Record → Json
  | header h => h.toJson
  | transaction t => t.toJson
  | block b => b.toJson
  | log l => l.toJson
  | receipt r => r.toJson
  | newMessage m => m.toJson
  | message m => m.toJson
  | criteria c => c.toJson

/-- Whether two records are of one kind and agree there. -/
def agrees : Record → Record → Bool
  | header a, header b => a == b
  | transaction a, transaction b => a == b
  | block a, block b => a == b
  | log a, log b => a.agrees b
  | receipt a, receipt b => a.agrees b
  | newMessage a, newMessage b => a.agrees b
  | message a, message b => a.agrees b
  | criteria a, criteria b => a.agrees b
  | _, _ => false

/-- Whether the record never changes; messages to send and filters do. -/
def isFrozen : Record → Bool
  | newMessage _ => false
  | criteria _ => false
  | _ => true

/-- A short description; the kinds without one of their own show their name. -/
def summary : Record → Text
  | header h => h.summary
  | transaction t => t.summary
  | block b => b.summary
  | r => r.kind.name ++ Text.ofString "(...)"

end Record

end EthWire

import EthWire.Record.Build
import EthWire.Record.Codec
import EthWire.Whisper.Assign

/-!
# Records of a named kind

Reading, building and encoding records whose kind is only known as a value. Messages
and filters have no encoding in bytes.
-/

namespace EthWire

namespace RecordKind

/-- The kinds, in no particular order. -/
def all : List RecordKind :=
  [header, transaction, block, log, receipt, newMessage, message, criteria]

def ofName? (name : Text) : Option RecordKind := all.find? fun kind => kind.name == name

end RecordKind

namespace Record

/-- The record of a JSON value. -/
def ofJson (kind : RecordKind) (j : Json) : Except Fault Record :=
  match kind with
  | .header => (Header.ofJson j).map header
  | .transaction => (Transaction.ofJson j).map transaction
  | .block => (Block.ofJson j).map block
  | .log => (Log.ofJson j).map log
  | .receipt => (Receipt.ofJson j).map receipt
  | .newMessage => (NewMessage.ofJson j).map newMessage
  | .message => (Message.ofJson j).map message
  | .criteria => (Criteria.ofJson j).map criteria

/-- The record of a JSON text. -/
def decodeJson (kind : RecordKind) (text : Text) : Except Fault Record := do
  let j ← Json.parse text kind.name
  (ofJson kind j).mapError (Fault.inRecord .json kind.name)

/-- The record of an encoding. -/
def decodeRlp (kind : RecordKind) (data : Bytes) : Except Fault Record :=
  match kind with
  | .header => (EthWire.decodeRlp data).map header
  | .transaction => (EthWire.decodeRlp data).map transaction
  | .block => (EthWire.decodeRlp data).map block
  | .log => (EthWire.decodeRlp data).map log
  | .receipt => (EthWire.decodeRlp data).map receipt
  | _ => .error (.misuse .noOperation)

/-- The record of named arguments. -/
def build (kind : RecordKind) (args : Arguments) : Except Fault Record :=
  match kind with
  | .header => (Header.build args).map header
  | .transaction => (Transaction.build args).map transaction
  | .block => (Block.build args).map block
  | .log => (Log.build args).map log
  | .receipt => (Receipt.build args).map receipt
  | .newMessage => (NewMessage.build args).map newMessage
  | .message => (Message.build args).map message
  | .criteria => (Criteria.build args).map criteria

/-- The JSON text of a record. -/
def encodeJson (r : Record) (layout : Json.Layout) : Except Fault Text := Json.dump layout r.toJson

/-- The encoding of a record, if its kind has one. -/
def encodeRlp? : Record → Option Bytes
  | header h => some (EthWire.encodeRlp h)
  | transaction t => some (EthWire.encodeRlp t)
  | block b => some (EthWire.encodeRlp b)
  | log l => some (EthWire.encodeRlp l)
  | receipt r => some (EthWire.encodeRlp r)
  | _ => none

end Record

end EthWire

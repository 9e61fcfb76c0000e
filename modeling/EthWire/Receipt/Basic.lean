import EthWire.Log.Basic

/-!
# Receipts

The outcome of a transaction is a failure, a success or, before the Byzantium fork,
a state root, which leaves the status at zero.
-/

namespace EthWire

inductive Outcome
  | failed
  | successful
  | stateRoot (root : Hash)
deriving DecidableEq

namespace Outcome

def status : Outcome → Nat
  | successful => 1
  | _ => 0

/-- The state root, empty if there is none. -/
def postState : Outcome → Bytes
  | stateRoot root => root.bytes
  | _ => []

/-- The outcome as the first field of an encoded receipt. -/
def toBytes : Outcome → Bytes
  | failed => []
  | successful => [1]
  | stateRoot root => root.bytes

end Outcome

structure Receipt where
  outcome : Outcome := .successful
  cumulativeGasUsed : Word 64 := .zero
  bloom : Bloom := .zero
  logs : List Log := []
  transactionHash : Hash := .zero
  contractAddress : Option Address := none
  gasUsed : Word 64 := .zero
deriving DecidableEq

namespace Receipt

def isSuccessful (r : Receipt) : Bool := r.outcome.status == 1

def toItem (r : Receipt) : Rlp.Item :=
  .list
    [.bytes r.outcome.toBytes,
     .nat r.cumulativeGasUsed.val,
     .bytes r.bloom.bytes,
     .list (r.logs.map Log.toItem)]

def jsonMembers (r : Receipt) : List (String × Json) :=
  [("root", .str (Bytes.hexMarked r.outcome.postState)),
   ("status", .str (Text.quantity r.outcome.status)),
   ("cumulativeGasUsed", .str (Text.quantity r.cumulativeGasUsed.val)),
   ("logsBloom", .str r.bloom.hex),
   ("logs", .arr (r.logs.map Log.toJson)),
   ("transactionHash", .str r.transactionHash.hex),
   ("contractAddress", match r.contractAddress with
    | some address => .str address.hex
    | none => .null),
   ("gasUsed", .str (Text.quantity r.gasUsed.val))]

def toJson (r : Receipt) : Json := Json.object r.jsonMembers

/-- Whether two lists of logs agree log by log. -/
def agreeLogs : List Log → List Log → Bool
  | [], [] => true
  | a :: as, b :: bs => a.agrees b && agreeLogs as bs
  | _, _ => false

/-- Whether two receipts agree in all that their encodings hold. -/
def agrees (a b : Receipt) : Bool :=
  a.outcome == b.outcome && a.cumulativeGasUsed == b.cumulativeGasUsed
    && a.bloom == b.bloom && agreeLogs a.logs b.logs

/-- The receipt without what only a node knows, of the receipt and of its logs. -/
def withoutMetadata (r : Receipt) : Receipt :=
  { outcome := r.outcome, cumulativeGasUsed := r.cumulativeGasUsed, bloom := r.bloom,
    logs := r.logs.map Log.withoutMetadata }

end Receipt

end EthWire

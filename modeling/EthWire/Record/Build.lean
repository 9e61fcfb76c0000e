import EthWire.Receipt.Decode
import EthWire.Value.Argument

/-!
# Building records

Records from named arguments of any type, each checked in turn. An argument that is
not given keeps the value of the record it starts from.
-/

namespace EthWire

namespace Header

def argumentNames : List Text :=
  ["parent_hash", "uncle_hash", "coinbase", "root", "tx_hash", "receipt_hash", "bloom",
   "difficulty", "number", "gas_limit", "gas_used", "time", "extra", "mix_digest", "nonce"]

def build (args : Arguments) : Except Fault Header := do
  let base : Header := {}
  args.checkNames argumentNames
  let parentHash ← args.get "parent_hash" Value.asFixed base.parentHash
  let uncleHash ← args.get "uncle_hash" Value.asFixed base.uncleHash
  let stateRoot ← args.get "root" Value.asFixed base.stateRoot
  let transactionsRoot ← args.get "tx_hash" Value.asFixed base.transactionsRoot
  let receiptsRoot ← args.get "receipt_hash" Value.asFixed base.receiptsRoot
  let mixDigest ← args.get "mix_digest" Value.asFixed base.mixDigest
  let coinbase ← args.get "coinbase" Value.asFixed base.coinbase
  let bloom ← args.get "bloom" Value.asFixed base.bloom
  let nonce ← args.get "nonce" Value.asFixed base.nonce
  let extra ← args.get "extra" Value.asBytes base.extra
  let difficulty ← args.get "difficulty" Value.asWord base.difficulty
  let number ← args.get "number" Value.asWord base.number
  let gasLimit ← args.get "gas_limit" Value.asWord base.gasLimit
  let gasUsed ← args.get "gas_used" Value.asWord base.gasUsed
  let time ← args.get "time" Value.asWord base.time
  pure { parentHash, uncleHash, coinbase, stateRoot, transactionsRoot, receiptsRoot, bloom,
         difficulty, number, gasLimit, gasUsed, time, extra, mixDigest, nonce }

end Header

namespace Transaction

def argumentNames : List Text :=
  ["nonce", "gas_price", "gas", "to", "value", "data", "v", "r", "s"]

/-- A recipient, or nothing. -/
def recipientArgument (v : Value) (name : Text) : Except Fault (Option Address) :=
  match v with
  | .null => .ok none
  | v => (v.asFixed name).map some

/-- The transaction `base` with some fields replaced. -/
def replace (base : Transaction) (args : Arguments) : Except Fault Transaction := do
  args.checkNames argumentNames
  let nonce ← args.get "nonce" Value.asWord base.nonce
  let gasPrice ← args.get "gas_price" Value.asWord base.gasPrice
  let gas ← args.get "gas" Value.asWord base.gas
  let value ← args.get "value" Value.asWord base.value
  let v ← args.get "v" Value.asWord base.v
  let r ← args.get "r" Value.asWord base.r
  let s ← args.get "s" Value.asWord base.s
  let recipient ← args.get "to" recipientArgument base.recipient
  let data ← args.get "data" Value.asBytes base.data
  pure { nonce, gasPrice, gas, recipient, value, data, v, r, s }

def build (args : Arguments) : Except Fault Transaction := replace {} args

/-- The arguments of `create` that must be given. -/
def creationNames : List Text := ["nonce", "to", "value", "gas", "gas_price"]

/-- The arguments of `createContract`, all of which must be given. -/
def contractNames : List Text := ["nonce", "value", "gas", "gas_price", "data"]

/-- Refuses to go on unless each of the names is given. -/
def requireNames (names : List Text) (args : Arguments) : Except Fault Unit :=
  if names.all fun n => (args.lookup n).isSome then .ok () else .error (.misuse .arguments)

/-- An unsigned transaction. -/
def create (args : Arguments) : Except Fault Transaction := do
  args.checkNames (Text.ofString "data" :: creationNames)
  requireNames creationNames args
  build args

/-- An unsigned transaction that creates a contract. -/
def createContract (args : Arguments) : Except Fault Transaction := do
  args.checkNames contractNames
  requireNames contractNames args
  build args

end Transaction

namespace Log

def argumentNames : List Text :=
  ["address", "topics", "data", "block_number", "tx_hash", "tx_index", "block_hash", "index",
   "removed"]

/-- Hashes in a list or a tuple. -/
def topicsArgument (v : Value) (name : Text) : Except Fault (List Hash) := do
  (← v.asSequence "hashes" name).mapM fun t => t.asFixed name

def build (args : Arguments) : Except Fault Log := do
  let base : Log := {}
  args.checkNames argumentNames
  let address ← args.get "address" Value.asFixed base.address
  let topics ← args.get "topics" topicsArgument base.topics
  let data ← args.get "data" Value.asBytes base.data
  let transactionHash ← args.get "tx_hash" Value.asFixed base.transactionHash
  let blockHash ← args.get "block_hash" Value.asFixed base.blockHash
  let blockNumber ← args.get "block_number" Value.asWord base.blockNumber
  let transactionIndex ← args.get "tx_index" Value.asWord base.transactionIndex
  let index ← args.get "index" Value.asWord base.index
  let removed ← args.get "removed" Value.asBool base.removed
  pure { address, topics, data, blockNumber, transactionHash, transactionIndex, blockHash, index,
         removed }

end Log

namespace Receipt

def argumentNames : List Text :=
  ["status", "post_state", "cumulative_gas_used", "bloom", "logs", "tx_hash", "contract_address",
   "gas_used"]

def pickLog : Record → Option Log
  | .log l => some l
  | _ => none

def build (args : Arguments) : Except Fault Receipt := do
  let base : Receipt := {}
  args.checkNames argumentNames
  let status ← args.get "status" (Value.asNat 1) base.outcome.status
  let postState ← args.get "post_state" Value.asBytes base.outcome.postState
  let outcome ← Outcome.ofParts status postState
  let cumulativeGasUsed ← args.get "cumulative_gas_used" Value.asWord base.cumulativeGasUsed
  let gasUsed ← args.get "gas_used" Value.asWord base.gasUsed
  let bloom ← args.get "bloom" Value.asFixed base.bloom
  let logs ← args.get "logs" (Value.asRecords pickLog "Log") base.logs
  let transactionHash ← args.get "tx_hash" Value.asFixed base.transactionHash
  let contractAddress ← args.get "contract_address" Transaction.recipientArgument
    base.contractAddress
  pure { outcome, cumulativeGasUsed, bloom, logs, transactionHash, contractAddress, gasUsed }

end Receipt

namespace Block

def argumentNames : List Text := ["header", "transactions", "uncles"]

def pickHeader : Record → Option Header
  | .header h => some h
  | _ => none

def pickTransaction : Record → Option Transaction
  | .transaction t => some t
  | _ => none

def headerArgument (v : Value) (name : Text) : Except Fault Header :=
  match v with
  | .record (.header h) => .ok h
  | _ => .error (.argument name (.mustBe "Header"))

def build (args : Arguments) : Except Fault Block := do
  let base : Block := {}
  args.checkNames argumentNames
  let header ← args.get "header" headerArgument base.header
  let transactions ← args.get "transactions" (Value.asRecords pickTransaction "Transaction")
    base.transactions
  let uncles ← args.get "uncles" (Value.asRecords pickHeader "Header") base.uncles
  pure { header, transactions, uncles }

end Block

end EthWire

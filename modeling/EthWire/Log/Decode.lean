import EthWire.Json.Field
import EthWire.Log.Basic
import EthWire.Rlp.Field

/-!
# Reading logs
-/

namespace EthWire.Log

def ofItem (item : Rlp.Item) : Except Fault Log := do
  match ← item.asList "Log" with
  | [address, topics, data] =>
      let address ← address.asFixed "address"
      let topics ← (← topics.asList "topics").mapM fun t => t.asFixed "topics"
      let data ← data.asBytes "data"
      pure { address, topics, data }
  | items => .error (Rlp.Item.fieldFault "Log" (.elementCount 3 items.length))

/-- A hash that is zero where it is missing or null. -/
def hashMember (members : List (Text × Json)) (key : String) : Except Fault Hash :=
  match Json.optional? members key with
  | some s => s.asFixed key
  | none => .ok .zero

/-- A word that is zero where it is missing or null. -/
def wordMember (members : List (Text × Json)) (key : String) : Except Fault (Word 64) :=
  match Json.optional? members key with
  | some s => s.asWord key
  | none => .ok .zero

def ofMembers (members : List (Text × Json)) : Except Fault Log := do
  let topicTexts ← (← Json.require members "topics" "Log").asArray "topics"
  let removed ← match Json.member? members "removed" with
    | some s => s.asBool "removed"
    | none => .ok false
  let address ← (← Json.require members "address" "Log").asFixed "address"
  let topics ← topicTexts.mapM fun t => t.shape.asFixed "topics"
  let data ← (← Json.require members "data" "Log").asBytes "data"
  let blockNumber ← wordMember members "blockNumber"
  let transactionHash ← hashMember members "transactionHash"
  let transactionIndex ← wordMember members "transactionIndex"
  let blockHash ← hashMember members "blockHash"
  let index ← wordMember members "logIndex"
  pure { address, topics, data, blockNumber, transactionHash, transactionIndex, blockHash, index,
         removed }

def ofJson (j : Json) : Except Fault Log := do
  ofMembers (← j.shape.asObject "Log")

end EthWire.Log

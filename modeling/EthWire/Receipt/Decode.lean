import EthWire.Log.Decode
import EthWire.Receipt.Basic

/-!
# Reading receipts
-/

namespace EthWire

namespace Outcome

/-- The outcome that the first field of an encoded receipt tells. -/
def ofBytes (b : Bytes) : Except Fault Outcome :=
  if b = [] then .ok .failed
  else if b = [1] then .ok .successful
  else match Fixed.ofBytes? b with
    | some root => .ok (.stateRoot root)
    | none => .error (Rlp.Item.fieldFault "status" (.receiptStatus b))

/-- The outcome of a status and a state root, which is empty if there is none. A state
root stands in the place of the status, which has to be zero then. -/
def ofParts (status : Nat) (postState : Bytes) : Except Fault Outcome :=
  match postState with
  | [] => .ok (if status = 1 then .successful else .failed)
  | _ =>
      match Fixed.ofBytes? postState with
      | none => .error (.argument "post_state" .stateRootWidth)
      | some root =>
          if status = 0 then .ok (.stateRoot root)
          else .error (.argument "status" .statusWithStateRoot)

end Outcome

namespace Receipt

def ofItem (item : Rlp.Item) : Except Fault Receipt := do
  match ← item.asList "Receipt" with
  | [outcome, cumulativeGasUsed, bloom, logs] =>
      let outcome ← Outcome.ofBytes (← outcome.asBytes "status")
      let cumulativeGasUsed ← cumulativeGasUsed.asWord "cumulativeGasUsed"
      let bloom ← bloom.asFixed "bloom"
      let logs ← (← logs.asList "logs").mapM Log.ofItem
      pure { outcome, cumulativeGasUsed, bloom, logs }
  | items => .error (Rlp.Item.fieldFault "Receipt" (.elementCount 4 items.length))

/-- The state root of a receipt object, empty where it is missing or null. -/
def rootMember (members : List (Text × Json)) : Except Fault Bytes := do
  let b ← match Json.optional? members "root" with
    | some s => s.asBytes "root"
    | none => .ok []
  if b.length = 0 ∨ b.length = FixedKind.hash.size then pure b
  else .error (jsonFault "root" (.stateRootSize b.length))

/-- The status of a receipt object. Where it is missing or null the transaction counts
as successful, unless there is a state root. -/
def statusMember (members : List (Text × Json)) (postState : Bytes) : Except Fault Nat :=
  match Json.optional? members "status" with
  | none => .ok (if postState.isEmpty then 1 else 0)
  | some s => do
      let n ← s.asQuantity (Word.max 256) "status"
      if n = 0 ∨ n = 1 then pure n else .error (jsonFault "status" (.receiptStatusValue n))

def ofMembers (members : List (Text × Json)) : Except Fault Receipt := do
  let req (key : String) := Json.require members key "Receipt"
  let postState ← rootMember members
  let status ← statusMember members postState
  let cumulativeGasUsed ← (← req "cumulativeGasUsed").asWord "cumulativeGasUsed"
  let bloom ← (← req "logsBloom").asFixed "logsBloom"
  let logs ← (← (← req "logs").asArray "logs").mapM Log.ofJson
  let transactionHash ← (← req "transactionHash").asFixed "transactionHash"
  let contractAddress ← match Json.optional? members "contractAddress" with
    | some s => (s.asFixed "contractAddress").map some
    | none => .ok none
  let gasUsed ← (← req "gasUsed").asWord "gasUsed"
  let outcome ← Outcome.ofParts status postState
  pure { outcome, cumulativeGasUsed, bloom, logs, transactionHash, contractAddress, gasUsed }

def ofJson (j : Json) : Except Fault Receipt := do
  ofMembers (← j.shape.asObject "Receipt")

end Receipt

end EthWire

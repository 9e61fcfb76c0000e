import EthWire.Json.Field
import EthWire.Rlp.Field
import EthWire.Transaction.Basic

/-!
# Reading transactions
-/

namespace EthWire.Transaction

/-- The recipient: none for the empty string, else an address. -/
def recipientOfBytes (b : Bytes) : Except Fault (Option Address) :=
  if b.isEmpty then .ok none else ((Rlp.Item.bytes b).asFixed "to").map some

def ofItem (item : Rlp.Item) : Except Fault Transaction := do
  match ← item.asList "Transaction" with
  | [nonce, gasPrice, gas, recipient, value, data, v, r, s] =>
      let address ← recipient.asBytes "to"
      let nonce ← nonce.asWord "nonce"
      let gasPrice ← gasPrice.asWord "gasPrice"
      let gas ← gas.asWord "gas"
      let recipient ← recipientOfBytes address
      let value ← value.asWord "value"
      let data ← data.asBytes "data"
      let v ← v.asWord "v"
      let r ← r.asWord "r"
      let s ← s.asWord "s"
      pure { nonce, gasPrice, gas, recipient, value, data, v, r, s }
  | items => .error (Rlp.Item.fieldFault "Transaction" (.elementCount 9 items.length))

/-- The address in a member, none where it is missing or null. -/
def addressMember? (members : List (Text × Json)) (key : String) :
    Except Fault (Option Address) :=
  match Json.optional? members key with
  | some s => (s.asFixed key).map some
  | none => .ok none

def ofMembers (members : List (Text × Json)) : Except Fault Transaction := do
  let req (key : String) := Json.require members key "Transaction"
  let nonce ← (← req "nonce").asWord "nonce"
  let gasPrice ← (← req "gasPrice").asWord "gasPrice"
  let gas ← (← req "gas").asWord "gas"
  let recipient ← addressMember? members "to"
  let value ← (← req "value").asWord "value"
  let data ← (← req "input").asBytes "input"
  let v ← (← req "v").asWord "v"
  let r ← (← req "r").asWord "r"
  let s ← (← req "s").asWord "s"
  pure { nonce, gasPrice, gas, recipient, value, data, v, r, s }

def ofJson (j : Json) : Except Fault Transaction := do
  ofMembers (← j.shape.asObject "Transaction")

end EthWire.Transaction

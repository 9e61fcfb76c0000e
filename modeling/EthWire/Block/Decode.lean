import EthWire.Block.Basic
import EthWire.Header.Decode
import EthWire.Transaction.Decode

/-!
# Reading blocks
-/

namespace EthWire.Block

def ofItem (item : Rlp.Item) : Except Fault Block := do
  match ← item.asList "Block" with
  | [header, transactions, uncles] =>
      let header ← Header.ofItem header
      let transactions ← (← transactions.asList "transactions").mapM Transaction.ofItem
      let uncles ← (← uncles.asList "uncles").mapM Header.ofItem
      pure { header, transactions, uncles }
  | items => .error (Rlp.Item.fieldFault "Block" (.elementCount 3 items.length))

def ofMembers (members : List (Text × Json)) : Except Fault Block := do
  let transactions ← (← Json.require members "transactions" "Block").asArray "transactions"
  let uncles ← match Json.member? members "uncles" with
    | some s => s.asArray "uncles"
    | none => .ok []
  let header ← Header.ofMembers members
  let transactions ← transactions.mapM Transaction.ofJson
  let uncles ← uncles.mapM Header.ofJson
  pure { header, transactions, uncles }

def ofJson (j : Json) : Except Fault Block := do
  ofMembers (← j.shape.asObject "Block")

end EthWire.Block

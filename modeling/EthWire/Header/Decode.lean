import EthWire.Header.Basic
import EthWire.Json.Field
import EthWire.Rlp.Field

/-!
# Reading headers
-/

namespace EthWire.Header

def ofItem (item : Rlp.Item) : Except Fault Header := do
  match ← item.asList "Header" with
  | [parentHash, uncleHash, coinbase, stateRoot, transactionsRoot, receiptsRoot, bloom,
      difficulty, number, gasLimit, gasUsed, time, extra, mixDigest, nonce] =>
      let parentHash ← parentHash.asFixed "parentHash"
      let uncleHash ← uncleHash.asFixed "uncleHash"
      let coinbase ← coinbase.asFixed "coinbase"
      let stateRoot ← stateRoot.asFixed "root"
      let transactionsRoot ← transactionsRoot.asFixed "txHash"
      let receiptsRoot ← receiptsRoot.asFixed "receiptHash"
      let bloom ← bloom.asFixed "bloom"
      let difficulty ← difficulty.asWord "difficulty"
      let number ← number.asWord "number"
      let gasLimit ← gasLimit.asWord "gasLimit"
      let gasUsed ← gasUsed.asWord "gasUsed"
      let time ← time.asWord "time"
      let extra ← extra.asBytes "extra"
      let mixDigest ← mixDigest.asFixed "mixDigest"
      let nonce ← nonce.asFixed "nonce"
      pure { parentHash, uncleHash, coinbase, stateRoot, transactionsRoot, receiptsRoot, bloom,
             difficulty, number, gasLimit, gasUsed, time, extra, mixDigest, nonce }
  | items => .error (Rlp.Item.fieldFault "Header" (.elementCount 15 items.length))

/-- A fixed-width member that is zero where it is missing or null. -/
def fixedOrZero {kind : FixedKind} (members : List (Text × Json)) (key : String) :
    Except Fault (Fixed kind) :=
  match Json.optional? members key with
  | some s => s.asFixed key
  | none => .ok .zero

/-- A header from the members of an object; members of other names are ignored. -/
def ofMembers (members : List (Text × Json)) : Except Fault Header := do
  let req (key : String) := Json.require members key "Header"
  let parentHash ← (← req "parentHash").asFixed "parentHash"
  let uncleHash ← (← req "sha3Uncles").asFixed "sha3Uncles"
  let coinbase ← (← req "miner").asFixed "miner"
  let stateRoot ← (← req "stateRoot").asFixed "stateRoot"
  let transactionsRoot ← (← req "transactionsRoot").asFixed "transactionsRoot"
  let receiptsRoot ← (← req "receiptsRoot").asFixed "receiptsRoot"
  let bloom ← (← req "logsBloom").asFixed "logsBloom"
  let difficulty ← (← req "difficulty").asWord "difficulty"
  let number ← (← req "number").asWord "number"
  let gasLimit ← (← req "gasLimit").asWord "gasLimit"
  let gasUsed ← (← req "gasUsed").asWord "gasUsed"
  let time ← (← req "timestamp").asWord "timestamp"
  let extra ← (← req "extraData").asBytes "extraData"
  let mixDigest ← fixedOrZero members "mixHash"
  let nonce ← fixedOrZero members "nonce"
  pure { parentHash, uncleHash, coinbase, stateRoot, transactionsRoot, receiptsRoot, bloom,
         difficulty, number, gasLimit, gasUsed, time, extra, mixDigest, nonce }

def ofJson (j : Json) : Except Fault Header := do
  ofMembers (← j.shape.asObject "Header")

end EthWire.Header

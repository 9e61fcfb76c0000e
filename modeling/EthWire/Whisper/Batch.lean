import EthWire.Collection
import EthWire.Record.Codec

/-!
# Batches of messages
-/

namespace EthWire.Message

/-- The messages of a JSON array; one that is refused refuses the batch. -/
def decodeBatch (text : Text) : Except Fault (Collection Message) := do
  let entries ← (← Json.parse text "Messages").shape.asArray "Messages"
  let items ← (entries.mapM Message.ofJson).mapError (Fault.inRecord .json "Messages")
  pure ⟨.messages, items⟩

end EthWire.Message

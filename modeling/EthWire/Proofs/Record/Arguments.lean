import EthWire.Proofs.Record.JsonRoundTrip

/-!
# Records and their arguments

The fields of a record as the named arguments that it is built from. The checks of the
constructors pass on them, one by one, and give the record back.
-/

namespace EthWire

/-! ## Checks -/

namespace Value

variable {kind : FixedKind} {bits : Nat} {name : Text}

@[simp] theorem asFixed_fixed (v : Fixed kind) : (fixed kind v).asFixed name = .ok v := by
  rw [asFixed, dif_pos rfl]

theorem asNat_int {max : Int} {n : Nat} (h : (n : Int) ≤ max) :
    (int n).asNat max name = .ok n := by
  rw [asNat, if_neg (by omega)]
  rfl

@[simp] theorem asWord_int (w : Word bits) : (int w.val).asWord name = .ok w := by
  have hle := w.val_le_max
  rw [asWord, asNat_int (by omega), ok_bind, Word.ofNat?_eq_some.mpr rfl]
  rfl

@[simp] theorem asBytes_bytes (b : Bytes) : (bytes b).asBytes name = .ok b := rfl

@[simp] theorem asTopic_fixed (t : Topic) : (fixed .topic t).asTopic name = .ok t := rfl

@[simp] theorem asText_text (t : Text) : (text t).asText name = .ok t := rfl

@[simp] theorem asBool_bool (b : Bool) : (bool b).asBool name = .ok b := rfl

theorem asFloat_float {x : Binary64} (h : x.isNegative = false) :
    (float x).asFloat name = .ok x := by
  rw [asFloat, h]
  rfl

@[simp] theorem asSequence_tuple {what : Text} (vs : List Value) :
    (tuple vs).asSequence what name = .ok vs := rfl

theorem mapM_map_some {α β : Type} {write : α → β} {read : β → Option α}
    (h : ∀ a, read (write a) = some a) (as : List α) : (as.map write).mapM read = some as := by
  induction as with
  | nil => rfl
  | cons a as ih => rw [List.map_cons, List.mapM_cons, h, ih]; rfl

/-- Records of one kind in a tuple. -/
def records {α : Type} (wrap : α → Record) (as : List α) : Value :=
  tuple (as.map fun a => record (wrap a))

theorem asRecords_records {α : Type} {pick : Record → Option α} {wrap : α → Record} {what : Text}
    (h : ∀ a, pick (wrap a) = some a) (as : List α) :
    (records wrap as).asRecords pick what name = .ok as := by
  rw [asRecords, records, asSequence_tuple, ok_bind, mapM_map_some]
  · rfl
  · exact h

end Value

/-! ## Constructors -/

/-- Arguments whose names are given as string literals. -/
def Arguments.named (args : List (String × Value)) : Arguments :=
  args.map fun a => (Text.ofString a.1, a.2)

/-- The argument for an address that there may not be. -/
def addressArgument : Option Address → Value
  | none => .null
  | some address => .fixed .address address

@[simp] theorem recipientArgument_addressArgument (address : Option Address) (name : Text) :
    Transaction.recipientArgument (addressArgument address) name = .ok address := by
  cases address with
  | none => rfl
  | some address => simp [addressArgument, Transaction.recipientArgument]

namespace Header

def arguments (h : Header) : Arguments :=
  .named
    [("parent_hash", .fixed .hash h.parentHash),
     ("uncle_hash", .fixed .hash h.uncleHash),
     ("coinbase", .fixed .address h.coinbase),
     ("root", .fixed .hash h.stateRoot),
     ("tx_hash", .fixed .hash h.transactionsRoot),
     ("receipt_hash", .fixed .hash h.receiptsRoot),
     ("bloom", .fixed .bloom h.bloom),
     ("difficulty", .int h.difficulty.val),
     ("number", .int h.number.val),
     ("gas_limit", .int h.gasLimit.val),
     ("gas_used", .int h.gasUsed.val),
     ("time", .int h.time.val),
     ("extra", .bytes h.extra),
     ("mix_digest", .fixed .hash h.mixDigest),
     ("nonce", .fixed .nonce h.nonce)]

theorem build_arguments (h : Header) : build h.arguments = .ok h := by
  simp [build, arguments, Arguments.named, Arguments.get, Arguments.checkNames, argumentNames]

end Header

namespace Transaction

def arguments (t : Transaction) : Arguments :=
  .named
    [("nonce", .int t.nonce.val),
     ("gas_price", .int t.gasPrice.val),
     ("gas", .int t.gas.val),
     ("to", addressArgument t.recipient),
     ("value", .int t.value.val),
     ("data", .bytes t.data),
     ("v", .int t.v.val),
     ("r", .int t.r.val),
     ("s", .int t.s.val)]

theorem build_arguments (t : Transaction) : build t.arguments = .ok t := by
  simp [build, replace, arguments, Arguments.named, Arguments.get, Arguments.checkNames,
    argumentNames]

end Transaction

namespace Log

def arguments (l : Log) : Arguments :=
  .named
    [("address", .fixed .address l.address),
     ("topics", .tuple (l.topics.map (.fixed .hash))),
     ("data", .bytes l.data),
     ("block_number", .int l.blockNumber.val),
     ("tx_hash", .fixed .hash l.transactionHash),
     ("tx_index", .int l.transactionIndex.val),
     ("block_hash", .fixed .hash l.blockHash),
     ("index", .int l.index.val),
     ("removed", .bool l.removed)]

theorem build_arguments (l : Log) : build l.arguments = .ok l := by
  simp [build, topicsArgument, arguments, Arguments.named, Arguments.get, Arguments.checkNames,
    argumentNames, Function.comp_def]

end Log

namespace Receipt

def arguments (r : Receipt) : Arguments :=
  .named
    [("status", .int r.outcome.status),
     ("post_state", .bytes r.outcome.postState),
     ("cumulative_gas_used", .int r.cumulativeGasUsed.val),
     ("bloom", .fixed .bloom r.bloom),
     ("logs", .records .log r.logs),
     ("tx_hash", .fixed .hash r.transactionHash),
     ("contract_address", addressArgument r.contractAddress),
     ("gas_used", .int r.gasUsed.val)]

theorem build_arguments (r : Receipt) : build r.arguments = .ok r := by
  have hstatus : ∀ name, (Value.int r.outcome.status).asNat 1 name = .ok r.outcome.status := by
    intro name
    refine Value.asNat_int ?_
    rcases r.outcome.status_le_one with h | h
    · rw [h]; decide
    · rw [h]; decide
  have hlogs : ∀ l, pickLog (.log l) = some l := fun _ => rfl
  simp [build, arguments, Arguments.named, Arguments.get, Arguments.checkNames, argumentNames,
    hstatus, Value.asRecords_records hlogs, Outcome.ofParts_parts]

end Receipt

namespace Block

def arguments (b : Block) : Arguments :=
  .named
    [("header", .record (.header b.header)),
     ("transactions", .records .transaction b.transactions),
     ("uncles", .records .header b.uncles)]

theorem build_arguments (b : Block) : build b.arguments = .ok b := by
  have htransactions : ∀ t, pickTransaction (.transaction t) = some t := fun _ => rfl
  have huncles : ∀ h, pickHeader (.header h) = some h := fun _ => rfl
  simp [build, headerArgument, arguments, Arguments.named, Arguments.get, Arguments.checkNames,
    argumentNames, Value.asRecords_records htransactions, Value.asRecords_records huncles]

end Block

namespace NewMessage

def arguments (m : NewMessage) : Arguments :=
  .named
    [("sym_key_id", .text m.symKeyId),
     ("public_key", .bytes m.publicKey),
     ("sig", .text m.sig),
     ("ttl", .int m.ttl.val),
     ("topic", .fixed .topic m.topic),
     ("payload", .bytes m.payload),
     ("padding", .bytes m.padding),
     ("pow_time", .int m.powTime.val),
     ("pow_target", .float m.powTarget),
     ("target_peer", .text m.targetPeer)]

theorem build_arguments {m : NewMessage} (h : m.powTarget.isNegative = false) :
    build m.arguments = .ok m := by
  simp [build, Field.all, Field.name, assign, arguments, Arguments.named, Arguments.checkNames,
    Value.asFloat_float h]

end NewMessage

namespace Message

def arguments (m : Message) : Arguments :=
  .named
    [("sig", .bytes m.sig),
     ("ttl", .int m.ttl.val),
     ("timestamp", .int m.timestamp.val),
     ("topic", .fixed .topic m.topic),
     ("payload", .bytes m.payload),
     ("padding", .bytes m.padding),
     ("pow", .float m.pow),
     ("hash", .bytes m.hash),
     ("dst", .bytes m.dst)]

theorem build_arguments {m : Message} (h : m.pow.isNegative = false) :
    build m.arguments = .ok m := by
  simp [build, arguments, Arguments.named, Arguments.get, Arguments.checkNames, argumentNames,
    Value.asFloat_float h]

end Message

namespace Criteria

def arguments (c : Criteria) : Arguments :=
  .named
    [("sym_key_id", .text c.symKeyId),
     ("private_key_id", .text c.privateKeyId),
     ("sig", .bytes c.sig),
     ("min_pow", .float c.minPow),
     ("topics", .tuple (c.topics.map (.fixed .topic))),
     ("allow_p2p", .bool c.allowP2P)]

theorem build_arguments {c : Criteria} (h : c.minPow.isNegative = false) :
    build c.arguments = .ok c := by
  simp [build, Field.all, Field.name, assign, topicsArgument, arguments, Arguments.named,
    Arguments.checkNames, Function.comp_def, Value.asFloat_float h]

end Criteria

namespace Record

/-- The arguments that a record of any kind is built from. -/
def arguments : Record → Arguments
  | header h => h.arguments
  | transaction t => t.arguments
  | block b => b.arguments
  | log l => l.arguments
  | receipt r => r.arguments
  | newMessage m => m.arguments
  | message m => m.arguments
  | criteria c => c.arguments

/-- The proof of work that a record states, if it is of a kind that states one. -/
def work? : Record → Option Binary64
  | newMessage m => some m.powTarget
  | message m => some m.pow
  | criteria c => some c.minPow
  | _ => none

/-- The bounds of the fields are those of their types, but for the proof of work. -/
theorem build_arguments {r : Record} (h : ∀ x, r.work? = some x → x.isNegative = false) :
    Record.build r.kind r.arguments = .ok r := by
  cases r with
  | header k => exact map_eq_ok.mpr ⟨k, k.build_arguments, rfl⟩
  | transaction t => exact map_eq_ok.mpr ⟨t, t.build_arguments, rfl⟩
  | block b => exact map_eq_ok.mpr ⟨b, b.build_arguments, rfl⟩
  | log l => exact map_eq_ok.mpr ⟨l, l.build_arguments, rfl⟩
  | receipt p => exact map_eq_ok.mpr ⟨p, p.build_arguments, rfl⟩
  | newMessage m => exact map_eq_ok.mpr ⟨m, NewMessage.build_arguments (h _ rfl), rfl⟩
  | message m => exact map_eq_ok.mpr ⟨m, Message.build_arguments (h _ rfl), rfl⟩
  | criteria c => exact map_eq_ok.mpr ⟨c, Criteria.build_arguments (h _ rfl), rfl⟩

end Record

end EthWire

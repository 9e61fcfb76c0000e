import EthWire.Proofs.Rlp.Canonical
import EthWire.Proofs.Rlp.Field
import EthWire.Record.Read

/-!
# Records on the wire

Each record is read back from its item, a log or a receipt without what only a node knows.
-/

namespace EthWire

open Rlp (Item)
open Rlp.Item (depthAll)

theorem Header.ofItem_toItem (h : Header) : Header.ofItem h.toItem = .ok h := by
  simp [Header.ofItem, Header.toItem]

namespace Transaction

theorem recipientOfBytes_recipientBytes (t : Transaction) :
    recipientOfBytes t.recipientBytes = .ok t.recipient := by
  unfold recipientBytes recipientOfBytes
  cases t.recipient with
  | none => rfl
  | some address =>
    have hlength := address.length_bytes
    have hne : address.bytes ≠ [] := List.ne_nil_of_length_pos (by rw [hlength]; decide)
    dsimp only
    rw [if_neg (by simpa using hne), Rlp.Item.asFixed_bytes, map_ok]

theorem ofItem_toItem (t : Transaction) : Transaction.ofItem t.toItem = .ok t := by
  simp [Transaction.ofItem, toItem, payloadItems, recipientOfBytes_recipientBytes]

end Transaction

theorem Block.ofItem_toItem (b : Block) : Block.ofItem b.toItem = .ok b := by
  have htransactions := mapM_map_ok Transaction.ofItem_toItem b.transactions
  have huncles := mapM_map_ok Header.ofItem_toItem b.uncles
  simp [Block.ofItem, Block.toItem, Header.ofItem_toItem, htransactions, huncles]

theorem Log.ofItem_toItem (l : Log) : Log.ofItem l.toItem = .ok l.withoutMetadata := by
  have htopics : (l.topics.map fun t => Item.bytes t.bytes).mapM (fun t => t.asFixed "topics")
      = .ok (l.topics.map id) := mapM_map_ok (fun t => Item.asFixed_bytes t) l.topics
  simp [Log.ofItem, Log.toItem, Log.withoutMetadata, htopics]

/-- A state root is too long for a status. -/
theorem Outcome.ofBytes_toBytes (o : Outcome) : Outcome.ofBytes o.toBytes = .ok o := by
  unfold Outcome.ofBytes
  cases o with
  | failed => rfl
  | successful => rfl
  | stateRoot root =>
    have hlength : root.bytes.length = 32 := root.length_bytes
    rw [toBytes, if_neg, if_neg, Fixed.ofBytes?_bytes]
    · intro h
      rw [h] at hlength
      cases hlength
    · intro h
      rw [h] at hlength
      cases hlength

theorem Receipt.ofItem_toItem (r : Receipt) : Receipt.ofItem r.toItem = .ok r.withoutMetadata := by
  have hlogs := mapM_map_ok Log.ofItem_toItem r.logs
  simp [Receipt.ofItem, Receipt.toItem, Receipt.withoutMetadata, Outcome.ofBytes_toBytes, hlogs]

/-! ## How deep the items of records nest -/

theorem depthAll_map_le {α : Type} {write : α → Item} {n : Nat} (h : ∀ a, (write a).depth ≤ n)
    (as : List α) : depthAll (as.map write) ≤ n := by
  induction as with
  | nil => exact Nat.zero_le n
  | cons a as ih =>
    rw [List.map_cons, depthAll]
    exact Nat.max_le.mpr ⟨h a, ih⟩

theorem Header.depth_toItem (h : Header) : h.toItem.depth = 1 := by
  simp [Header.toItem, Item.nat, Item.depth, depthAll]

theorem Transaction.depth_toItem (t : Transaction) : t.toItem.depth = 1 := by
  simp [Transaction.toItem, Transaction.payloadItems, Item.nat, Item.depth, depthAll]

theorem Block.depth_toItem_le (b : Block) : b.toItem.depth ≤ 3 := by
  have htransactions := depthAll_map_le (fun t => (Transaction.depth_toItem t).le) b.transactions
  have huncles := depthAll_map_le (fun h => (Header.depth_toItem h).le) b.uncles
  simp only [Block.toItem, Item.depth, depthAll, Header.depth_toItem]
  omega

theorem Log.depth_toItem_le (l : Log) : l.toItem.depth ≤ 2 := by
  have htopics : depthAll (l.topics.map fun t => .bytes t.bytes) ≤ 0 :=
    depthAll_map_le (fun t => by rw [Item.depth]) l.topics
  simp only [Log.toItem, Item.depth, depthAll]
  omega

theorem Receipt.depth_toItem_le (r : Receipt) : r.toItem.depth ≤ 4 := by
  have hlogs := depthAll_map_le Log.depth_toItem_le r.logs
  simp only [Receipt.toItem, Item.nat, Item.depth, depthAll]
  omega

/-! ## The encodings -/

section Encoding

variable {α : Type} [WireRecord α] {r view u : α}

/-- A record that is read back from its item is read back from its encoding. -/
theorem decodeRlp_of_ofItem (hitem : WireRecord.ofItem (WireRecord.toItem r) = .ok view)
    (hdepth : (WireRecord.toItem r).depth ≤ Rlp.maxDepth)
    (hsize : (WireRecord.toItem r).payloadLength < Rlp.lengthLimit) :
    decodeRlp (encodeRlp r) = .ok view := by
  rw [decodeRlp, encodeRlp, Rlp.decode_encode _ hsize, if_pos hdepth, ok_bind, hitem]
  rfl

theorem decodeRlp_encodeRlp (hitem : WireRecord.ofItem (WireRecord.toItem r) = .ok view)
    (hdepth : (WireRecord.toItem r).depth ≤ Rlp.maxDepth) (hsize : (encodeRlp r).length < 2 ^ 64) :
    decodeRlp (encodeRlp r) = .ok view := by
  have hpayload := Rlp.payloadLength_le (WireRecord.toItem r)
  exact decodeRlp_of_ofItem hitem hdepth (Nat.lt_of_le_of_lt hpayload hsize)

/-- Nothing else is read from its encoding, of any size. -/
theorem eq_of_decodeRlp_encodeRlp (hitem : WireRecord.ofItem (WireRecord.toItem r) = .ok view)
    (h : decodeRlp (encodeRlp r) = .ok u) : u = view := by
  obtain ⟨item, hread, hview⟩ := bind_eq_ok.mp h
  rw [encodeRlp, ← List.append_nil (WireRecord.toItem r).encode] at hread
  obtain ⟨rfl, -⟩ := Rlp.eq_of_decode_append hread
  rw [hitem] at hview
  cases hview
  rfl

end Encoding

/-! ## What logs and receipts are compared by -/

theorem Log.agrees_iff {a b : Log} :
    a.agrees b = true ↔ b.withoutMetadata = a.withoutMetadata := by
  rw [agrees, Bool.and_eq_true, Bool.and_eq_true, beq_iff_eq, beq_iff_eq, beq_iff_eq,
    eq_comm (a := b.withoutMetadata)]
  simp [withoutMetadata, and_assoc]

theorem Receipt.agreeLogs_iff {as bs : List Log} :
    agreeLogs as bs = true ↔ bs.map Log.withoutMetadata = as.map Log.withoutMetadata := by
  induction as generalizing bs with
  | nil => cases bs <;> simp [agreeLogs]
  | cons a as ih =>
    cases bs with
    | nil => simp [agreeLogs]
    | cons b bs => simp [agreeLogs, Log.agrees_iff, ih]

theorem Receipt.agrees_iff {a b : Receipt} :
    a.agrees b = true ↔ b.withoutMetadata = a.withoutMetadata := by
  rw [agrees, Bool.and_eq_true, Bool.and_eq_true, Bool.and_eq_true, beq_iff_eq, beq_iff_eq,
    beq_iff_eq, agreeLogs_iff]
  simp [withoutMetadata, and_assoc, eq_comm]

theorem Log.withoutMetadata_agrees (l : Log) : l.withoutMetadata.agrees l = true :=
  agrees_iff.mpr rfl

theorem Receipt.withoutMetadata_agrees (r : Receipt) : r.withoutMetadata.agrees r = true := by
  have hlogs : (r.logs.map Log.withoutMetadata).map Log.withoutMetadata
      = r.logs.map Log.withoutMetadata := by
    rw [List.map_map]
    exact List.map_congr_left fun _ _ => rfl
  rw [agrees_iff, withoutMetadata, withoutMetadata, hlogs]

/-! ## Records of any kind -/

namespace Record

/-- The record without what only a node knows. -/
def withoutMetadata : Record → Record
  | log l => log l.withoutMetadata
  | receipt r => receipt r.withoutMetadata
  | r => r

section Kind

variable {α : Type} [WireRecord α] {r view : α}

/-- What is read back of a record, as a record of any kind. -/
theorem decodeRlp_map_encodeRlp (wrap : α → Record)
    (hitem : WireRecord.ofItem (WireRecord.toItem r) = .ok view)
    (hdepth : (WireRecord.toItem r).depth ≤ Rlp.maxDepth) :
    ((EthWire.encodeRlp r).length < 2 ^ 64 →
      (EthWire.decodeRlp (EthWire.encodeRlp r)).map wrap = .ok (wrap view)) ∧
    ∀ u, (EthWire.decodeRlp (EthWire.encodeRlp r)).map wrap = .ok u → u = wrap view := by
  constructor
  · intro hsize
    rw [decodeRlp_encodeRlp hitem hdepth hsize, map_ok]
  · intro u hu
    obtain ⟨v, hv, rfl⟩ := map_eq_ok.mp hu
    rw [eq_of_decodeRlp_encodeRlp hitem hv]

end Kind

/-- A record comes back from its encoding with everything that the encoding covers, and a log
or a receipt with defaults in place of what only a node knows. No other record comes back,
whatever the size; the bound is the one of the lengths that a mark can hold. -/
theorem wire_round_trip (r : Record) (b : Bytes) (hb : r.encodeRlp? = some b) :
    r.withoutMetadata.agrees r = true ∧
    (b.length < 2 ^ 64 → Record.decodeRlp r.kind b = .ok r.withoutMetadata) ∧
    ∀ u, Record.decodeRlp r.kind b = .ok u → u = r.withoutMetadata := by
  cases r with
  | header h =>
    cases hb
    have hdepth : h.toItem.depth ≤ Rlp.maxDepth := h.depth_toItem.trans_le (by decide)
    exact ⟨beq_self_eq_true h, decodeRlp_map_encodeRlp header h.ofItem_toItem hdepth⟩
  | transaction t =>
    cases hb
    have hdepth : t.toItem.depth ≤ Rlp.maxDepth := t.depth_toItem.trans_le (by decide)
    exact ⟨beq_self_eq_true t, decodeRlp_map_encodeRlp transaction t.ofItem_toItem hdepth⟩
  | block k =>
    cases hb
    have hdepth : k.toItem.depth ≤ Rlp.maxDepth := k.depth_toItem_le.trans (by decide)
    exact ⟨beq_self_eq_true k, decodeRlp_map_encodeRlp block k.ofItem_toItem hdepth⟩
  | log l =>
    cases hb
    have hdepth : l.toItem.depth ≤ Rlp.maxDepth := l.depth_toItem_le.trans (by decide)
    exact ⟨l.withoutMetadata_agrees, decodeRlp_map_encodeRlp log l.ofItem_toItem hdepth⟩
  | receipt p =>
    cases hb
    have hdepth : p.toItem.depth ≤ Rlp.maxDepth := p.depth_toItem_le.trans (by decide)
    exact ⟨p.withoutMetadata_agrees, decodeRlp_map_encodeRlp receipt p.ofItem_toItem hdepth⟩
  | newMessage m => cases hb
  | message m => cases hb
  | criteria c => cases hb

/-- A receipt with a state root and a log with a topic loses its gas and the log its place. -/
theorem wire_round_trip_receipt :
    ∃ b, (receipt
          { outcome := .stateRoot .zero
            logs := [{ topics := [.zero], data := [7], index := ⟨3, by decide⟩, removed := true }]
            gasUsed := ⟨21000, by decide⟩ }).encodeRlp? = some b ∧
      Record.decodeRlp .receipt b = .ok (receipt
          { outcome := .stateRoot .zero, logs := [{ topics := [.zero], data := [7] }] }) := by
  refine ⟨_, rfl, ?_⟩
  exact (wire_round_trip (receipt _) _ rfl).2.1 (by decide +kernel)

end Record

end EthWire

import EthWire.Proofs.Record.Canonical
import EthWire.Proofs.Rlp.Misspelling

/-!
# The bytes of the records in a block

A block is read out of one byte string, and each of the records in it out of a slice of that
string. The slices lie one behind the other, and what is read in a slice is a record whose
encoding is that slice, so its hash is the hash of the bytes that came in.
-/

namespace EthWire

open Rlp (Item)
open Rlp.Item (encodeAll depthAll)

/-- A run of bytes of a byte string, by its place. -/
structure Slice where
  start : Nat
  length : Nat
deriving DecidableEq, Repr

namespace Slice

/-- The place behind the last byte. -/
def stop (p : Slice) : Nat := p.start + p.length

/-- The bytes of the slice. -/
def of (p : Slice) (b : Bytes) : Bytes := (b.drop p.start).take p.length

/-- Slices that lie between two places, each behind the ones before it. -/
structure InOrder (low high : Nat) (ps : List Slice) : Prop where
  within : ∀ p ∈ ps, low ≤ p.start ∧ p.stop ≤ high
  apart : ps.Pairwise fun p q => p.stop ≤ q.start

variable {low high : Nat} {p : Slice} {ps qs : List Slice}

theorem InOrder.nil : InOrder low high [] :=
  ⟨fun _ hp => (List.not_mem_nil hp).elim, .nil⟩

theorem InOrder.singleton (hlow : low ≤ p.start) (hhigh : p.stop ≤ high) : InOrder low high [p] :=
  ⟨fun q hq => by rw [List.mem_singleton.mp hq]; exact ⟨hlow, hhigh⟩, List.pairwise_singleton _ p⟩

/-- There may be a gap between the ones and the others. -/
theorem InOrder.append {gap next : Nat} (hp : InOrder low gap ps) (hq : InOrder next high qs)
    (hlow : low ≤ next) (hgap : gap ≤ next) (hhigh : gap ≤ high) :
    InOrder low high (ps ++ qs) := by
  constructor
  · intro p hmem
    rcases List.mem_append.mp hmem with h | h
    · have hwithin := hp.within p h
      exact ⟨hwithin.1, hwithin.2.trans hhigh⟩
    · have hwithin := hq.within p h
      exact ⟨hlow.trans hwithin.1, hwithin.2⟩
  · refine List.pairwise_append.mpr ⟨hp.apart, hq.apart, fun p hpm q hqm => ?_⟩
    exact (hp.within p hpm).2.trans (hgap.trans (hq.within q hqm).1)

theorem of_append (before middle after : Bytes) :
    Slice.of ⟨before.length, middle.length⟩ (before ++ (middle ++ after)) = middle := by
  rw [of, List.drop_left, List.take_left]

end Slice

namespace Rlp

/-- The decoder at the place of an encoding, with any limit behind it. -/
theorem decodeItemAt_append {x : Item} {before after : Bytes} {limit depth : Nat}
    (hsize : x.payloadLength < lengthLimit) (hdepth : depth + x.depth ≤ maxDepth)
    (hroom : before.length + x.encode.length ≤ limit)
    (hlimit : limit ≤ (before ++ (x.encode ++ after)).length) :
    decodeItemAt (before ++ (x.encode ++ after)) before.length limit depth
      = .ok (x, x.encode.length) := by
  have hlevels : x.depth ≤ ((maxDepth : Int) - (depth : Int)).toNat := by omega
  rw [List.length_append] at hlimit
  rw [decodeItemAt, if_neg (by omega), List.drop_left, Int.toNat_natCast,
    decodeItem_encode _ _ _ x after hsize (by omega) (by omega), if_pos hlevels]

end Rlp

/-- A record that is read in a slice: by the decoder of the whole, with `depth` lists around the
slice, and out of the bytes of the slice alone, whose hash is the hash of the record. -/
structure Arrived {α : Type} [WireRecord α] (hash : α → Hash) (depth : Nat) (b : Bytes) (p : Slice)
    (r : α) : Prop where
  read_at : ∀ limit : Nat, p.stop ≤ limit → limit ≤ b.length →
    ∃ item, Rlp.decodeItemAt b p.start limit depth = .ok (item, p.length) ∧
      WireRecord.ofItem item = .ok r
  read_of : decodeRlp (p.of b) = .ok r
  hash_eq : (hash r).bytes = Keccak.keccak256 (p.of b)

section Arrived

variable {α : Type} [WireRecord α] {hash : α → Hash} {depth : Nat}
  (hhash : ∀ r, (hash r).bytes = Keccak.keccak256 (encodeRlp r))
  (hread : ∀ r : α, WireRecord.ofItem (WireRecord.toItem r) = .ok r)
  (hdepth : ∀ r : α, depth + (WireRecord.toItem r).depth ≤ Rlp.maxDepth)

include hhash hread hdepth

/-- The encoding of a record, anywhere in a byte string. -/
theorem arrived_append (before after : Bytes) (r : α)
    (hsize : (WireRecord.toItem r).payloadLength < Rlp.lengthLimit) :
    Arrived hash depth (before ++ (encodeRlp r ++ after)) ⟨before.length, (encodeRlp r).length⟩
      r := by
  have hlevels : (WireRecord.toItem r).depth ≤ Rlp.maxDepth :=
    (Nat.le_add_left _ _).trans (hdepth r)
  refine ⟨fun limit hstop hlimit => ⟨WireRecord.toItem r, ?_, hread r⟩, ?_, ?_⟩
  · exact Rlp.decodeItemAt_append hsize (hdepth r) hstop hlimit
  · rw [Slice.of_append, decodeRlp, encodeRlp, Rlp.decode_encode _ hsize, if_pos hlevels, ok_bind,
      hread]
    rfl
  · rw [Slice.of_append, hhash]

/-- The encodings of several records, one behind the other: each record has a slice, and the
slices are in order. The induction is on the records, with the bytes before them growing. -/
theorem arrived_encodeAll (before after : Bytes) (rs : List α)
    (hsize : (encodeAll (rs.map WireRecord.toItem)).length < Rlp.lengthLimit) :
    ∃ ps, Slice.InOrder before.length
        (before.length + (encodeAll (rs.map WireRecord.toItem)).length) ps ∧
      List.Forall₂ (Arrived hash depth
        (before ++ (encodeAll (rs.map WireRecord.toItem) ++ after))) ps rs := by
  induction rs generalizing before with
  | nil => exact ⟨[], .nil, .nil⟩
  | cons r rs ih =>
    have hall : encodeAll ((r :: rs).map WireRecord.toItem)
        = encodeRlp r ++ encodeAll (rs.map WireRecord.toItem) := by
      rw [List.map_cons, Rlp.encodeAll_cons]
      rfl
    have hpayload : (WireRecord.toItem r).payloadLength ≤ (encodeRlp r).length :=
      Rlp.payloadLength_le _
    rw [hall, List.length_append] at hsize
    rw [hall, List.length_append, List.append_assoc]
    obtain ⟨ps, horder, harrived⟩ := ih (before ++ encodeRlp r) (by omega)
    rw [List.length_append] at horder
    rw [List.append_assoc] at harrived
    have hfirst := arrived_append hhash hread hdepth before
      (encodeAll (rs.map WireRecord.toItem) ++ after) r (by omega)
    have hhead : Slice.InOrder before.length (before.length + (encodeRlp r).length)
        [⟨before.length, (encodeRlp r).length⟩] := .singleton (Nat.le_refl _) (Nat.le_refl _)
    refine ⟨⟨before.length, (encodeRlp r).length⟩ :: ps, ?_, .cons hfirst harrived⟩
    rw [← Nat.add_assoc]
    exact hhead.append horder (by omega) (Nat.le_refl _) (by omega)

end Arrived

/-! ## The records of a block -/

theorem Header.bytes_hash (h : Header) : h.hash.bytes = Keccak.keccak256 (encodeRlp h) := rfl

theorem Transaction.bytes_hash (t : Transaction) :
    t.hash.bytes = Keccak.keccak256 (encodeRlp t) := rfl

namespace Block

/-- The encodings of the transactions, without the mark of their list. -/
def transactionBytes (k : Block) : Bytes := encodeAll (k.transactions.map WireRecord.toItem)

/-- The encodings of the uncles, without the mark of their list. -/
def uncleBytes (k : Block) : Bytes := encodeAll (k.uncles.map WireRecord.toItem)

/-- A block is written as the encodings of its records and three marks. -/
theorem exists_marks (k : Block) :
    ∃ outer first second : Bytes, encodeRlp k =
      outer ++ (encodeRlp k.header ++
        (first ++ (k.transactionBytes ++ (second ++ (k.uncleBytes ++ []))))) := by
  refine ⟨Rlp.lengthMark Rlp.listOffset k.toItem.payloadLength,
    Rlp.lengthMark Rlp.listOffset k.transactionBytes.length,
    Rlp.lengthMark Rlp.listOffset k.uncleBytes.length, ?_⟩
  show k.toItem.encode = _
  simp only [toItem, Item.payloadLength, Rlp.encode_list, Rlp.encodeAll_cons, Rlp.encodeAll_nil,
    List.append_assoc]
  rfl

/-- A length that a mark of the block can tell bounds those of its parts. -/
theorem sizes_lt {k : Block} (h : k.toItem.payloadLength < Rlp.lengthLimit) :
    k.header.toItem.payloadLength < Rlp.lengthLimit ∧
    k.transactionBytes.length < Rlp.lengthLimit ∧ k.uncleBytes.length < Rlp.lengthLimit := by
  have hpart := Rlp.payloadLength_lt_of_mem h
  refine ⟨hpart _ (by simp), ?_, ?_⟩
  · exact hpart (.list (k.transactions.map Transaction.toItem)) (by simp)
  · exact hpart (.list (k.uncles.map Header.toItem)) (by simp)

/-- The slices of the records in a byte string that holds the block. -/
structure SlicesIn (k : Block) (b : Bytes) (header : Slice) (transactions uncles : List Slice) :
    Prop where
  in_order : Slice.InOrder 0 b.length (header :: (transactions ++ uncles))
  header_arrived : Arrived Header.hash 1 b header k.header
  transactions_arrived : List.Forall₂ (Arrived Transaction.hash 2 b) transactions k.transactions
  uncles_arrived : List.Forall₂ (Arrived Header.hash 2 b) uncles k.uncles

theorem exists_slicesIn (k : Block) (h : k.toItem.payloadLength < Rlp.lengthLimit) :
    ∃ header transactions uncles, k.SlicesIn (encodeRlp k) header transactions uncles := by
  obtain ⟨hheaderSize, htransactionsSize, hunclesSize⟩ := sizes_lt h
  obtain ⟨outer, first, second, hmarks⟩ := k.exists_marks
  have hheader := arrived_append Header.bytes_hash Header.ofItem_toItem
    (fun h => Nat.le_trans (Nat.add_le_add_left h.depth_toItem.le 1) (by decide))
    outer (first ++ (k.transactionBytes ++ (second ++ (k.uncleBytes ++ [])))) k.header hheaderSize
  obtain ⟨transactions, htransactionsOrder, htransactions⟩ := arrived_encodeAll
    Transaction.bytes_hash Transaction.ofItem_toItem
    (fun t => Nat.le_trans (Nat.add_le_add_left t.depth_toItem.le 2) (by decide))
    (outer ++ (encodeRlp k.header ++ first)) (second ++ (k.uncleBytes ++ [])) k.transactions
    htransactionsSize
  obtain ⟨uncles, hunclesOrder, huncles⟩ := arrived_encodeAll
    Header.bytes_hash Header.ofItem_toItem
    (fun h => Nat.le_trans (Nat.add_le_add_left h.depth_toItem.le 2) (by decide))
    (outer ++ (encodeRlp k.header ++ (first ++ (k.transactionBytes ++ second)))) [] k.uncles
    hunclesSize
  -- the three runs follow each other, with a mark before each
  change Slice.InOrder _ (_ + k.transactionBytes.length) _ at htransactionsOrder
  change Slice.InOrder _ (_ + k.uncleBytes.length) _ at hunclesOrder
  simp only [List.append_assoc] at htransactions huncles
  have hlength := congrArg List.length hmarks
  simp only [List.length_append, List.length_nil] at htransactionsOrder hunclesOrder hlength
  have hheaderOrder : Slice.InOrder 0 (outer.length + (encodeRlp k.header).length)
      [⟨outer.length, (encodeRlp k.header).length⟩] :=
    .singleton (Nat.zero_le _) (Nat.le_refl _)
  have hrest := htransactionsOrder.append hunclesOrder (by omega) (by omega) (by omega)
  have horder := hheaderOrder.append hrest (Nat.zero_le _) (by omega) (by omega)
  refine ⟨⟨outer.length, (encodeRlp k.header).length⟩, transactions, uncles, ?_, ?_, ?_, ?_⟩
  · convert horder using 1
    · omega
    · rfl
  all_goals rw [hmarks]
  · exact hheader
  · exact htransactions
  · exact huncles

end Block

/-- Whatever is accepted as a block has a slice for its header, one for each transaction and one
for each uncle, in this order, and each record has the hash of the bytes in its slice; so the
hash of the block is the hash of the bytes of its header. -/
theorem block_slices (b : Bytes) (k : Block) (h : decodeRlp b = .ok k) :
    ∃ header transactions uncles, k.SlicesIn b header transactions uncles ∧
      k.hash.bytes = Keccak.keccak256 (header.of b) := by
  obtain ⟨item, hitem, hrecord⟩ := bind_eq_ok.mp h
  obtain rfl := Block.toItem_of_ofItem (mapError_eq_ok.mp hrecord)
  obtain ⟨rfl, -, hsize⟩ := Rlp.decode_eq_ok hitem
  obtain ⟨header, transactions, uncles, hslices⟩ := k.exists_slicesIn hsize
  exact ⟨header, transactions, uncles, hslices, hslices.header_arrived.hash_eq⟩

/-- A block of one transaction and one uncle. -/
theorem block_slices_small :
    let k : Block := { transactions := [{ nonce := ⟨1024, by decide⟩ }], uncles := [{}] }
    decodeRlp (encodeRlp k) = .ok k ∧
      ∃ header transactions uncles,
        k.SlicesIn (encodeRlp k) header transactions uncles ∧
          k.hash.bytes = Keccak.keccak256 (header.of (encodeRlp k)) := by
  intro k
  have hread : decodeRlp (encodeRlp k) = .ok k :=
    decodeRlp_encodeRlp k.ofItem_toItem (k.depth_toItem_le.trans (by decide))
      (by decide +kernel)
  exact ⟨hread, block_slices _ k hread⟩

end EthWire

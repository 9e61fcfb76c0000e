import EthWire.Proofs.Record.Wire

/-!
# One encoding for each record

Whatever item is read as a record is the item of that record, field by field: no reader of a
field is more lenient than its writer. With it every accepted encoding is the one that the
record is written as, and its hash is the hash of the bytes that came in. Accepted encodings are those of
items, so none of them is the beginning of another one.
-/

namespace EthWire

open Rlp (Item)
open Rlp.Item (asList_eq_ok asBytes_eq_ok asFixed_eq_ok asWord_eq_ok)

variable {item : Item}

theorem Header.toItem_of_ofItem {h : Header} (hread : Header.ofItem item = .ok h) :
    h.toItem = item := by
  unfold Header.ofItem at hread
  obtain ⟨items, hitems, hfields⟩ := bind_eq_ok.mp hread
  obtain rfl := asList_eq_ok.mp hitems
  split at hfields
  · simp only [bind_eq_ok, asFixed_eq_ok, asWord_eq_ok, asBytes_eq_ok] at hfields
    obtain ⟨_, rfl, _, rfl, _, rfl, _, rfl, _, rfl, _, rfl, _, rfl, _, rfl, _, rfl, _, rfl, _, rfl,
      _, rfl, _, rfl, _, rfl, _, rfl, hh⟩ := hfields
    obtain rfl := Except.ok.inj hh
    rfl
  · cases hfields

namespace Transaction

/-- An address is not empty, so contract creation has a spelling of its own. -/
theorem recipientBytes_of_recipientOfBytes {b : Bytes} {t : Transaction}
    (hread : recipientOfBytes b = .ok t.recipient) : t.recipientBytes = b := by
  unfold recipientOfBytes at hread
  split at hread
  next hempty =>
    obtain hnone := Except.ok.inj hread
    rw [recipientBytes, ← hnone, List.isEmpty_iff.mp hempty]
  next =>
    obtain ⟨address, haddress, hsome⟩ := map_eq_ok.mp hread
    obtain hb := Item.bytes.inj (asFixed_eq_ok.mp haddress)
    rw [recipientBytes, ← hsome, hb]

theorem toItem_of_ofItem {t : Transaction} (hread : Transaction.ofItem item = .ok t) :
    t.toItem = item := by
  unfold Transaction.ofItem at hread
  obtain ⟨items, hitems, hfields⟩ := bind_eq_ok.mp hread
  obtain rfl := asList_eq_ok.mp hitems
  split at hfields
  · simp only [bind_eq_ok, asWord_eq_ok, asBytes_eq_ok] at hfields
    obtain ⟨_, rfl, _, rfl, _, rfl, _, rfl, recipient, hrecipient, _, rfl, _, rfl, _, rfl, _, rfl,
      _, rfl, ht⟩ := hfields
    obtain rfl := Except.ok.inj ht
    rw [toItem, payloadItems, recipientBytes_of_recipientOfBytes hrecipient]
    rfl
  · cases hfields

end Transaction

theorem Block.toItem_of_ofItem {b : Block} (hread : Block.ofItem item = .ok b) :
    b.toItem = item := by
  unfold Block.ofItem at hread
  obtain ⟨items, hitems, hfields⟩ := bind_eq_ok.mp hread
  obtain rfl := asList_eq_ok.mp hitems
  split at hfields
  · simp only [bind_eq_ok, asList_eq_ok] at hfields
    obtain ⟨h, hheader, _, rfl, ts, htransactions, _, rfl, us, huncles, hb⟩ := hfields
    obtain rfl := Except.ok.inj hb
    have hts := map_of_mapM_eq_ok (fun _ _ => Transaction.toItem_of_ofItem) htransactions
    have hus := map_of_mapM_eq_ok (fun _ _ => Header.toItem_of_ofItem) huncles
    rw [Block.toItem, Header.toItem_of_ofItem hheader, hts, hus]
  · cases hfields

theorem Log.toItem_of_ofItem {l : Log} (hread : Log.ofItem item = .ok l) : l.toItem = item := by
  unfold Log.ofItem at hread
  obtain ⟨items, hitems, hfields⟩ := bind_eq_ok.mp hread
  obtain rfl := asList_eq_ok.mp hitems
  split at hfields
  · simp only [bind_eq_ok, asFixed_eq_ok, asBytes_eq_ok, asList_eq_ok] at hfields
    obtain ⟨_, rfl, _, rfl, topics, htopics, _, rfl, hl⟩ := hfields
    obtain rfl := Except.ok.inj hl
    have hts : (topics.map fun t => Item.bytes t.bytes) = _ :=
      map_of_mapM_eq_ok (fun _ _ hread => (asFixed_eq_ok.mp hread).symm) htopics
    rw [Log.toItem, hts]
  · cases hfields

/-- The three spellings of an outcome have different lengths. -/
theorem Outcome.toBytes_of_ofBytes {b : Bytes} {o : Outcome} (hread : Outcome.ofBytes b = .ok o) :
    o.toBytes = b := by
  unfold Outcome.ofBytes at hread
  split at hread
  next hb =>
    obtain rfl := Except.ok.inj hread
    exact hb.symm
  next =>
    split at hread
    next hb =>
      obtain rfl := Except.ok.inj hread
      exact hb.symm
    next =>
      split at hread
      next root hroot =>
        obtain rfl := Except.ok.inj hread
        exact (Fixed.ofBytes?_eq_some.mp hroot).symm
      next => cases hread

theorem Receipt.toItem_of_ofItem {r : Receipt} (hread : Receipt.ofItem item = .ok r) :
    r.toItem = item := by
  unfold Receipt.ofItem at hread
  obtain ⟨items, hitems, hfields⟩ := bind_eq_ok.mp hread
  obtain rfl := asList_eq_ok.mp hitems
  split at hfields
  · simp only [bind_eq_ok, asFixed_eq_ok, asWord_eq_ok, asBytes_eq_ok, asList_eq_ok] at hfields
    obtain ⟨_, rfl, outcome, houtcome, _, rfl, _, rfl, _, rfl, logs, hlogs, hr⟩ := hfields
    obtain rfl := Except.ok.inj hr
    have hls := map_of_mapM_eq_ok (fun _ _ => Log.toItem_of_ofItem) hlogs
    rw [Receipt.toItem, Outcome.toBytes_of_ofBytes houtcome, hls]
  · cases hfields

/-! ## Encodings -/

/-- The encoding that a record is written as, with its size. -/
structure EncodedAs {α : Type} [WireRecord α] (r : α) (b : Bytes) : Prop where
  encode_eq : encodeRlp r = b
  size_eq : encodedSize r = b.length

theorem encodedAs_of_decodeRlp {α : Type} [WireRecord α] {b : Bytes} {r : α}
    (hitem : ∀ item, WireRecord.ofItem item = .ok r → WireRecord.toItem r = item)
    (h : decodeRlp b = .ok r) : EncodedAs r b := by
  obtain ⟨item, hitemRead, hrecord⟩ := bind_eq_ok.mp h
  rw [mapError_eq_ok] at hrecord
  have hencode : encodeRlp r = b := by
    rw [encodeRlp, hitem item hrecord, (Rlp.decode_eq_ok hitemRead).1]
  exact ⟨hencode, by rw [encodedSize, hencode]⟩

/-- What is accepted as a record is the one encoding of that record, byte for byte, so the hash
of a header or of a transaction is the hash of the bytes that came in. -/
theorem decodeRlp_canonical (b : Bytes) :
    (∀ h : Header, decodeRlp b = .ok h → EncodedAs h b ∧ h.hash.bytes = Keccak.keccak256 b) ∧
    (∀ t : Transaction, decodeRlp b = .ok t → EncodedAs t b ∧ t.hash.bytes = Keccak.keccak256 b) ∧
    (∀ k : Block, decodeRlp b = .ok k → EncodedAs k b) ∧
    (∀ l : Log, decodeRlp b = .ok l → EncodedAs l b) ∧
    ∀ r : Receipt, decodeRlp b = .ok r → EncodedAs r b := by
  refine ⟨?_, ?_, ?_, ?_, ?_⟩
  · intro h hread
    have hencoded := encodedAs_of_decodeRlp (fun _ => Header.toItem_of_ofItem) hread
    exact ⟨hencoded, congrArg Keccak.keccak256 hencoded.encode_eq⟩
  · intro t hread
    have hencoded := encodedAs_of_decodeRlp (fun _ => Transaction.toItem_of_ofItem) hread
    exact ⟨hencoded, congrArg Keccak.keccak256 hencoded.encode_eq⟩
  · intro k hread
    exact encodedAs_of_decodeRlp (fun _ => Block.toItem_of_ofItem) hread
  · intro l hread
    exact encodedAs_of_decodeRlp (fun _ => Log.toItem_of_ofItem) hread
  · intro r hread
    exact encodedAs_of_decodeRlp (fun _ => Receipt.toItem_of_ofItem) hread

/-- A signed transaction that creates a contract. -/
theorem decodeRlp_canonical_creation :
    let b : Bytes := [0xce, 0x82, 4, 0, 0x80, 0x82, 0x52, 8, 0x80, 5, 0x81, 0xff, 27, 1, 2]
    let t : Transaction :=
      { nonce := ⟨1024, by decide⟩, gas := ⟨21000, by decide⟩, value := ⟨5, by decide⟩
        data := [0xff], v := ⟨27, by decide⟩, r := ⟨1, by decide⟩, s := ⟨2, by decide⟩ }
    decodeRlp b = .ok t ∧ EncodedAs t b ∧ t.hash.bytes = Keccak.keccak256 b := by
  intro b t
  have hb : encodeRlp t = b := by decide +kernel
  have hread : decodeRlp (encodeRlp t) = .ok t :=
    decodeRlp_encodeRlp t.ofItem_toItem (t.depth_toItem.trans_le (by decide)) (by rw [hb]; decide)
  rw [hb] at hread
  exact ⟨hread, (decodeRlp_canonical b).2.1 t hread⟩

/-- A truncated encoding is malformed, and so is one with bytes behind it: the encodings that are
accepted, be it as items or as records of one kind, form a code of which no word begins another. -/
theorem accepted_prefixFree :
    Rlp.PrefixFree Rlp.decode ∧
    Rlp.PrefixFree (decodeRlp : Bytes → Except Fault Header) ∧
    Rlp.PrefixFree (decodeRlp : Bytes → Except Fault Transaction) ∧
    Rlp.PrefixFree (decodeRlp : Bytes → Except Fault Block) ∧
    Rlp.PrefixFree (decodeRlp : Bytes → Except Fault Log) ∧
    Rlp.PrefixFree (decodeRlp : Bytes → Except Fault Receipt) :=
  ⟨Rlp.decode_prefixFree, .bind _, .bind _, .bind _, .bind _, .bind _⟩

end EthWire

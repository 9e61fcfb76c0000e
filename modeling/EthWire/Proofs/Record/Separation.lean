import EthWire.Proofs.Record.Canonical
import EthWire.Proofs.Signer.Payload

/-!
# Kinds of encodings

The shape of an item tells of which kind the record is that it can be read as. The shape is the
number of elements, and of three elements also whether the first one is a list. The item of a
payload without a chain has the shape of no record, and the one for a chain that of a
transaction, with the chain in the place of the recovery value.
-/

namespace EthWire

open Rlp (Item)

namespace Rlp.Item

/-- The kind of record that an item has the shape of. A block starts with its header, which is a
list, a log with an address. -/
def recordKind? : Item → Option RecordKind
  | .list [.list _, _, _] => some .block
  | .list [.bytes _, _, _] => some .log
  | .list items =>
      match items.length with
      | 4 => some .receipt
      | 9 => some .transaction
      | 15 => some .header
      | _ => none
  | .bytes _ => none

end Rlp.Item

namespace Record

/-- The item that is encoded for a record, if its kind has one. -/
def item? : Record → Option Item
  | header h => some h.toItem
  | transaction t => some t.toItem
  | block b => some b.toItem
  | log l => some l.toItem
  | receipt r => some r.toItem
  | _ => none

variable {kind other : RecordKind} {b : Bytes} {r u : Record} {x : Item}

theorem recordKind?_of_item? (h : r.item? = some x) : x.recordKind? = some r.kind := by
  cases r with
  | newMessage m => cases h
  | message m => cases h
  | criteria c => cases h
  | _ =>
    obtain rfl := Option.some.inj h
    rfl

/-! ## Accepted bytes -/

theorem decodeRlp_map_eq_ok {α : Type} [WireRecord α] {wrap : α → Record}
    (hitem : ∀ (item : Item) (a : α), WireRecord.ofItem item = .ok a → WireRecord.toItem a = item)
    (h : (EthWire.decodeRlp b).map wrap = .ok r) :
    ∃ a, Rlp.decode b = .ok (WireRecord.toItem a) ∧ r = wrap a := by
  obtain ⟨a, ha, rfl⟩ := map_eq_ok.mp h
  obtain ⟨item, hread, hrecord⟩ := bind_eq_ok.mp ha
  rw [mapError_eq_ok] at hrecord
  refine ⟨a, ?_, rfl⟩
  rw [hitem item a hrecord, hread]

/-- What is accepted as a record of a kind is of that kind, and its item is the one that the
bytes encode. -/
theorem item?_of_decodeRlp (h : Record.decodeRlp kind b = .ok r) :
    r.kind = kind ∧ ∃ x, r.item? = some x ∧ Rlp.decode b = .ok x := by
  cases kind with
  | header =>
    obtain ⟨a, ha, rfl⟩ := decodeRlp_map_eq_ok (fun _ _ => Header.toItem_of_ofItem) h
    exact ⟨rfl, _, rfl, ha⟩
  | transaction =>
    obtain ⟨a, ha, rfl⟩ := decodeRlp_map_eq_ok (fun _ _ => Transaction.toItem_of_ofItem) h
    exact ⟨rfl, _, rfl, ha⟩
  | block =>
    obtain ⟨a, ha, rfl⟩ := decodeRlp_map_eq_ok (fun _ _ => Block.toItem_of_ofItem) h
    exact ⟨rfl, _, rfl, ha⟩
  | log =>
    obtain ⟨a, ha, rfl⟩ := decodeRlp_map_eq_ok (fun _ _ => Log.toItem_of_ofItem) h
    exact ⟨rfl, _, rfl, ha⟩
  | receipt =>
    obtain ⟨a, ha, rfl⟩ := decodeRlp_map_eq_ok (fun _ _ => Receipt.toItem_of_ofItem) h
    exact ⟨rfl, _, rfl, ha⟩
  | newMessage => cases h
  | message => cases h
  | criteria => cases h

/-- The bytes tell the kind. -/
theorem recordKind?_of_decodeRlp (h : Record.decodeRlp kind b = .ok r) :
    ∃ x, Rlp.decode b = .ok x ∧ x.recordKind? = some kind := by
  obtain ⟨rfl, x, hitem, hread⟩ := item?_of_decodeRlp h
  exact ⟨x, hread, recordKind?_of_item? hitem⟩

theorem kind_unique (h : Record.decodeRlp kind b = .ok r) (h' : Record.decodeRlp other b = .ok u) :
    other = kind := by
  obtain ⟨x, hx, hkind⟩ := recordKind?_of_decodeRlp h
  obtain ⟨y, hy, hother⟩ := recordKind?_of_decodeRlp h'
  rw [hx] at hy
  obtain rfl := Except.ok.inj hy
  rw [hkind] at hother
  exact (Option.some.inj hother).symm

/-- Of the bytes of an item no other item is accepted. -/
theorem item?_of_decodeRlp_encode (h : Record.decodeRlp kind x.encode = .ok r) :
    r.kind = kind ∧ r.item? = some x := by
  obtain ⟨hkind, y, hitem, hread⟩ := item?_of_decodeRlp h
  rw [← List.append_nil x.encode] at hread
  obtain ⟨rfl, -⟩ := Rlp.eq_of_decode_append hread
  exact ⟨hkind, hitem⟩

end Record

/-! ## Payloads -/

namespace Signer

open Transaction (SamePayload)

variable {kind : RecordKind} {r : Record} {t u : Transaction} {c : ChainId}

theorem recordKind?_legacy (t : Transaction) : (legacy.payloadItem t).recordKind? = none := rfl

theorem recordKind?_replayProtected (c : ChainId) (t : Transaction) :
    ((replayProtected c).payloadItem t).recordKind? = some .transaction := rfl

/-- The transaction whose item is the payload for a chain. -/
theorem toItem_of_chain {v : Word 256} (hv : v.val = c.val) :
    Transaction.toItem { t with v, r := .zero, s := .zero }
      = (replayProtected c).payloadItem t := by
  rw [payloadItem, ← hv]
  rfl

theorem eq_of_toItem_eq_payloadItem (h : u.toItem = (replayProtected c).payloadItem t) :
    u.v.val = c.val ∧ u = { t with v := u.v, r := .zero, s := .zero } := by
  obtain ⟨hitems, hvalues⟩ := List.append_inj (Item.list.inj h) rfl
  obtain ⟨hv, hvalues⟩ := List.cons.inj hvalues
  obtain ⟨hr, hvalues⟩ := List.cons.inj hvalues
  obtain ⟨hs, -⟩ := List.cons.inj hvalues
  have hr : u.r = .zero := Word.val_inj.mp (Item.nat_inj.mp hr)
  have hs : u.s = .zero := Word.val_inj.mp (Item.nat_inj.mp hs)
  have hsame : SamePayload t u := Transaction.payloadItems_inj.mp hitems
  refine ⟨Item.nat_inj.mp hv, ?_⟩
  cases u
  obtain ⟨rfl, rfl, rfl, rfl, rfl, rfl⟩ := hsame
  dsimp only at hr hs
  rw [hr, hs]

theorem decodeRlp_legacy_payload : Record.decodeRlp kind (legacy.payload t) ≠ .ok r := by
  intro h
  obtain ⟨-, hitem⟩ := Record.item?_of_decodeRlp_encode h
  have hkind := Record.recordKind?_of_item? hitem
  rw [recordKind?_legacy] at hkind
  cases hkind

theorem eq_of_decodeRlp_payload
    (h : Record.decodeRlp kind ((replayProtected c).payload t) = .ok r) :
    kind = .transaction ∧
      ∃ v : Word 256, v.val = c.val ∧ r = .transaction { t with v, r := .zero, s := .zero } := by
  obtain ⟨rfl, hitem⟩ := Record.item?_of_decodeRlp_encode h
  have hkind := Record.recordKind?_of_item? hitem
  rw [recordKind?_replayProtected] at hkind
  cases r with
  | transaction u =>
    obtain ⟨hv, hu⟩ := eq_of_toItem_eq_payloadItem (Option.some.inj hitem)
    exact ⟨rfl, u.v, hv, congrArg Record.transaction hu⟩
  | _ => cases hkind

theorem decodeRlp_payload {v : Word 256} (hv : v.val = c.val)
    (hsize : ((replayProtected c).payloadItem t).payloadLength < Rlp.lengthLimit) :
    Record.decodeRlp .transaction ((replayProtected c).payload t)
      = .ok (.transaction { t with v, r := .zero, s := .zero }) := by
  let u : Transaction := { t with v, r := .zero, s := .zero }
  have hitem : u.toItem = (replayProtected c).payloadItem t := toItem_of_chain hv
  have hdepth : u.toItem.depth ≤ Rlp.maxDepth := u.depth_toItem.trans_le (by decide)
  rw [← hitem] at hsize
  have hread : decodeRlp (encodeRlp u) = .ok u := decodeRlp_of_ofItem u.ofItem_toItem hdepth hsize
  rw [payload, ← hitem]
  exact congrArg (Except.map Record.transaction) hread

end Signer

/-- No bytes are accepted as records of two kinds, and those that are hashed for a signature
without a chain as none at all. Those that are hashed for a chain are the encoding of a
transaction with the chain in the place of the recovery value, and they are accepted, as nothing
else, if the chain fits there. The bound is the one of the lengths that a mark can hold: beyond
it there is no payload. -/
theorem Record.decodeRlp_separates :
    (∀ b kind other r u, Record.decodeRlp kind b = .ok r → Record.decodeRlp other b = .ok u →
      other = kind) ∧
    (∀ t kind r, Record.decodeRlp kind (Signer.legacy.payload t) ≠ .ok r) ∧
    ∀ (c : ChainId) (t : Transaction),
      (∀ kind r, Record.decodeRlp kind ((Signer.replayProtected c).payload t) = .ok r →
        kind = .transaction ∧
          ∃ v : Word 256, v.val = c.val ∧ r = .transaction { t with v, r := .zero, s := .zero }) ∧
      (((Signer.replayProtected c).payloadItem t).payloadLength < Rlp.lengthLimit →
        ((∃ r, Record.decodeRlp .transaction ((Signer.replayProtected c).payload t) = .ok r) ↔
          c.val < 2 ^ 256)) := by
  refine ⟨fun b kind other r u => kind_unique, fun t kind r => Signer.decodeRlp_legacy_payload, ?_⟩
  intro c t
  refine ⟨fun kind r => Signer.eq_of_decodeRlp_payload, fun hsize => ⟨?_, ?_⟩⟩
  · intro h
    obtain ⟨r, hr⟩ := h
    obtain ⟨-, v, hv, -⟩ := Signer.eq_of_decodeRlp_payload hr
    rw [← hv]
    exact v.val_lt
  · intro hc
    let v : Word 256 := ⟨c.val, hc⟩
    exact ⟨_, Signer.decodeRlp_payload (v := v) rfl hsize⟩

/-- The payload of a signed transaction, for the greatest chain that fits and for the first that
does not. -/
theorem Record.decodeRlp_separates_chains :
    let t : Transaction := { nonce := ⟨9, by decide⟩, data := [0x60, 0], v := ⟨37, by decide⟩ }
    let last : Signer := .replayProtected ⟨2 ^ 256 - 1, by decide⟩
    let next : Signer := .replayProtected ⟨2 ^ 256, by decide⟩
    (last.payloadItem t).payloadLength < Rlp.lengthLimit ∧
      (∃ r, Record.decodeRlp .transaction (last.payload t) = .ok r) ∧
      (∀ r, Record.decodeRlp .log (last.payload t) ≠ .ok r) ∧
      ∀ kind r, Record.decodeRlp kind (next.payload t) ≠ .ok r := by
  intro t last next
  have hsize : (last.payloadItem t).payloadLength < Rlp.lengthLimit := by decide +kernel
  have hfits := (decodeRlp_separates.2.2 ⟨2 ^ 256 - 1, by decide⟩ t).2 hsize
  have haccepted : ∃ r, Record.decodeRlp .transaction (last.payload t) = .ok r :=
    hfits.mpr (by decide)
  refine ⟨hsize, haccepted, ?_, ?_⟩
  · intro r hr
    obtain ⟨u, hu⟩ := haccepted
    exact absurd (decodeRlp_separates.1 _ _ _ u r hu hr) (by decide)
  · intro kind r hr
    obtain ⟨-, v, hv, -⟩ := (decodeRlp_separates.2.2 ⟨2 ^ 256, by decide⟩ t).1 kind r hr
    have hlt : v.val < 2 ^ 256 := v.val_lt
    rw [hv] at hlt
    exact absurd hlt (by decide)

end EthWire

import EthWire.Proofs.Record.Wire

/-!
# Equality of records

Records of one kind agree exactly if their encodings are the same bytes. Both leave out what only a
node knows, and nothing else: the record without it is what is read back from the item, and it has
the same item.
-/

namespace EthWire

/-- Two byte strings with one digest. -/
structure Keccak.Collision (b c : Bytes) : Prop where
  ne : b ≠ c
  keccak256_eq : keccak256 b = keccak256 c

/-! ## Items and encodings -/

theorem Log.toItem_withoutMetadata (l : Log) : l.withoutMetadata.toItem = l.toItem := rfl

theorem Receipt.toItem_withoutMetadata (r : Receipt) : r.withoutMetadata.toItem = r.toItem := by
  have hlogs : (r.logs.map Log.withoutMetadata).map Log.toItem = r.logs.map Log.toItem := by
    rw [List.map_map]
    exact List.map_congr_left fun l _ => l.toItem_withoutMetadata
  rw [toItem, toItem, withoutMetadata, hlogs]

section Encoding

variable {α : Type} [WireRecord α] {view : α → α} {a b : α}

/-- Records have one item exactly if the same is read back of them. -/
theorem toItem_eq_iff (hread : ∀ r : α, WireRecord.ofItem (WireRecord.toItem r) = .ok (view r))
    (hwrite : ∀ r : α, WireRecord.toItem (view r) = WireRecord.toItem r) :
    WireRecord.toItem b = WireRecord.toItem a ↔ view b = view a := by
  constructor
  · intro h
    have hb := hread b
    rw [h, hread a] at hb
    exact (Except.ok.inj hb).symm
  · intro h
    rw [← hwrite b, h, hwrite a]

theorem encodeRlp_eq_iff (hread : ∀ r : α, WireRecord.ofItem (WireRecord.toItem r) = .ok (view r))
    (hwrite : ∀ r : α, WireRecord.toItem (view r) = WireRecord.toItem r)
    (hsize : (encodeRlp a).length < Rlp.lengthLimit + 9) :
    encodeRlp b = encodeRlp a ↔ view b = view a := by
  rw [← toItem_eq_iff hread hwrite]
  exact Rlp.encode_eq_iff ((Rlp.payloadLength_lt_iff _).mpr hsize)

end Encoding

/-! ## Records of any kind -/

namespace Record

/-- Two records of one kind that has an encoding. -/
inductive Wired : Record → Record → Prop
  | header (h k : Header) : Wired (header h) (header k)
  | transaction (t u : Transaction) : Wired (transaction t) (transaction u)
  | block (k l : Block) : Wired (block k) (block l)
  | log (l m : Log) : Wired (log l) (log m)
  | receipt (r p : Receipt) : Wired (receipt r) (receipt p)

/-- The hash of a whole encoding; the one of a block covers its header only. -/
def hash? : Record → Option Hash
  | header h => some h.hash
  | transaction t => some t.hash
  | _ => none

variable {a b : Record} {c : Bytes}

theorem wired_of_kind (hkind : b.kind = a.kind) (hc : a.encodeRlp? = some c) : Wired a b := by
  cases a <;> cases hc <;> cases b <;> cases hkind <;> constructor

theorem hash?_eq {hash : Hash} (hc : a.encodeRlp? = some c) (h : a.hash? = some hash) :
    hash = Hash.ofBytes c := by
  cases a with
  | header => cases hc; cases h; rfl
  | transaction => cases hc; cases h; rfl
  | _ => cases h

theorem Wired.agrees_iff (h : Wired a b) :
    a.agrees b = true ↔ b.withoutMetadata = a.withoutMetadata := by
  cases h with
  | header h k => simp [agrees, withoutMetadata, eq_comm (a := h)]
  | transaction t u => simp [agrees, withoutMetadata, eq_comm (a := t)]
  | block k l => simp [agrees, withoutMetadata, eq_comm (a := k)]
  | log l m => simp [agrees, withoutMetadata, Log.agrees_iff]
  | receipt r p => simp [agrees, withoutMetadata, Receipt.agrees_iff]

theorem Wired.encodeRlp?_eq_iff (h : Wired a b) (hc : a.encodeRlp? = some c)
    (hsize : c.length < Rlp.lengthLimit + 9) :
    b.encodeRlp? = some c ↔ b.withoutMetadata = a.withoutMetadata := by
  cases h with
  | header h k =>
    cases hc
    have hencoded := encodeRlp_eq_iff (b := k) Header.ofItem_toItem (fun _ => rfl) hsize
    simp [encodeRlp?, withoutMetadata, hencoded]
  | transaction t u =>
    cases hc
    have hencoded := encodeRlp_eq_iff (b := u) Transaction.ofItem_toItem (fun _ => rfl) hsize
    simp [encodeRlp?, withoutMetadata, hencoded]
  | block k l =>
    cases hc
    have hencoded := encodeRlp_eq_iff (b := l) Block.ofItem_toItem (fun _ => rfl) hsize
    simp [encodeRlp?, withoutMetadata, hencoded]
  | log l m =>
    cases hc
    have hencoded := encodeRlp_eq_iff (b := m) Log.ofItem_toItem Log.toItem_withoutMetadata hsize
    simp [encodeRlp?, withoutMetadata, hencoded]
  | receipt r p =>
    cases hc
    have hencoded := encodeRlp_eq_iff (b := p) Receipt.ofItem_toItem
      Receipt.toItem_withoutMetadata hsize
    simp [encodeRlp?, withoutMetadata, hencoded]

/-- Records of one kind are equal exactly if they have one encoding, so neither side leaves out a
field that the other one tells: what only a node knows never matters, and everything else does.
Unequal headers and unequal transactions of one hash are a collision of the digest. The bound is
where encodings end: behind its first byte a mark has eight bytes at most, too few for a payload of
`lengthLimit` bytes. The other record needs none of its own. -/
theorem agrees_iff_encodeRlp (hkind : b.kind = a.kind) (hc : a.encodeRlp? = some c)
    (hsize : c.length < Rlp.lengthLimit + 9) :
    (a.agrees b = true ↔ b.encodeRlp? = some c) ∧
    (a.agrees b = true ↔ b.withoutMetadata = a.withoutMetadata) ∧
    ∀ hash, a.hash? = some hash → b.hash? = some hash → a.agrees b = false →
      ∃ d, b.encodeRlp? = some d ∧ Keccak.Collision c d := by
  have hwired := wired_of_kind hkind hc
  have hsame : a.agrees b = true ↔ b.encodeRlp? = some c :=
    hwired.agrees_iff.trans (hwired.encodeRlp?_eq_iff hc hsize).symm
  refine ⟨hsame, hwired.agrees_iff, ?_⟩
  intro hash ha hb hdiffer
  obtain ⟨d, hd⟩ : ∃ d, b.encodeRlp? = some d := by
    cases hwired <;> exact ⟨_, rfl⟩
  have hhash : Hash.ofBytes c = Hash.ofBytes d := (hash?_eq hc ha).symm.trans (hash?_eq hd hb)
  refine ⟨d, hd, ?_, congrArg Fixed.bytes hhash⟩
  rintro rfl
  rw [hsame.mpr hd] at hdiffer
  cases hdiffer

/-- Two receipts that differ in what only a node knows, of them and of their logs, and one that has
a failure in the place of their state root. -/
theorem agrees_iff_encodeRlp_receipts :
    let found : Log := { topics := [.zero], data := [7], index := ⟨3, by decide⟩, removed := true }
    let a : Receipt := { outcome := .stateRoot .zero, logs := [found], gasUsed := ⟨21000, by decide⟩ }
    let b : Receipt := { outcome := .stateRoot .zero, logs := [found.withoutMetadata] }
    let failure : Receipt := { a with outcome := .failed }
    ∃ c, (receipt a).encodeRlp? = some c ∧ (receipt b).encodeRlp? = some c ∧
      (receipt failure).encodeRlp? ≠ some c := by
  intro found a b failure
  have ha : (receipt a).encodeRlp? = some (EthWire.encodeRlp a) := rfl
  have hsize : (EthWire.encodeRlp a).length < Rlp.lengthLimit + 9 := by decide +kernel
  have hagrees : (receipt a).agrees (receipt b) = true := Receipt.agrees_iff.mpr rfl
  have hdiffer : (receipt a).agrees (receipt failure) = false := by decide +kernel
  have hb := agrees_iff_encodeRlp (b := receipt b) (a := receipt a) rfl ha hsize
  have hfailure := agrees_iff_encodeRlp (b := receipt failure) (a := receipt a) rfl ha hsize
  refine ⟨_, ha, hb.1.mp hagrees, ?_⟩
  intro h
  rw [hfailure.1.mpr h] at hdiffer
  cases hdiffer

end Record

end EthWire

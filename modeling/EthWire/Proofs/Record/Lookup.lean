import EthWire.Proofs.Record.Equality
import EthWire.Proofs.Record.JsonRoundTrip

/-!
# Looking transactions up

A block finds its transactions by their hashes, which it takes anew each time. It answers with the
first one of a hash. Unless two of its transactions collide, that is the transaction that was asked
for, and it still is after the block has been written and read back in either form.
-/

namespace EthWire

/-- A hash tells the transaction, up to collisions. The bound is where encodings end. -/
theorem Transaction.eq_of_hash_eq {t u : Transaction}
    (hsize : t.toItem.payloadLength < Rlp.lengthLimit)
    (hapart : ¬Keccak.Collision (encodeRlp t) (encodeRlp u)) (h : u.hash = t.hash) : u = t := by
  have hdigest : Keccak.keccak256 (encodeRlp u) = Keccak.keccak256 (encodeRlp t) :=
    congrArg Fixed.bytes h
  have hencoded : encodeRlp u = encodeRlp t := by
    by_contra hne
    exact hapart ⟨Ne.symm hne, hdigest.symm⟩
  have hlength := (Rlp.payloadLength_lt_iff t.toItem).mp hsize
  exact (encodeRlp_eq_iff Transaction.ofItem_toItem (fun _ => rfl) hlength).mp hencoded

namespace Block

variable {k : Block} {t : Transaction}

/-- No two transactions of the block have different encodings of one digest. -/
def HashesApart (k : Block) : Prop :=
  ∀ t ∈ k.transactions, ∀ u ∈ k.transactions, ¬Keccak.Collision (encodeRlp t) (encodeRlp u)

/-! ## The first transaction of a hash -/

theorem transaction?_eq_some_iff {hash : Hash} :
    k.transaction? hash = some t ↔
      ∃ before after, k.transactions = before ++ t :: after ∧ t.hash = hash ∧
        ∀ u ∈ before, u.hash ≠ hash := by
  rw [transaction?, List.find?_eq_some_iff_append]
  constructor
  · intro h
    obtain ⟨hfound, before, after, hsplit, hbefore⟩ := h
    exact ⟨before, after, hsplit, by simpa using hfound, by simpa using hbefore⟩
  · intro h
    obtain ⟨before, after, hsplit, hfound, hbefore⟩ := h
    exact ⟨by simpa using hfound, before, after, hsplit, by simpa using hbefore⟩

theorem transaction?_eq_none_iff {hash : Hash} :
    k.transaction? hash = none ↔ ∀ t ∈ k.transactions, t.hash ≠ hash := by
  simp [transaction?, List.find?_eq_none]

/-- Whatever else has the hash of a transaction is that transaction. -/
theorem transaction?_hash (hapart : k.HashesApart) (ht : t ∈ k.transactions)
    (hsize : t.toItem.payloadLength < Rlp.lengthLimit) : k.transaction? t.hash = some t := by
  cases hfound : k.transaction? t.hash with
  | none => exact absurd rfl (transaction?_eq_none_iff.mp hfound t ht)
  | some u =>
    obtain ⟨before, after, hsplit, hhash, -⟩ := transaction?_eq_some_iff.mp hfound
    have hu : u ∈ k.transactions := by simp [hsplit]
    rw [Transaction.eq_of_hash_eq hsize (hapart t ht u hu) hhash]

/-! ## Reading a block again -/

/-- What a block can be written to: bytes, or a JSON text in some layout. -/
inductive Medium
  | wire
  | document (layout : Json.Layout)

/-- Whether a block can be written to a medium: in bytes unless it is too long for the mark, as a
text in every layout that can be written. -/
def Medium.Holds (k : Block) : Medium → Prop
  | .wire => k.toItem.payloadLength < Rlp.lengthLimit
  | .document layout => layout.Fits

/-- The block that is read from what is written of the block. -/
def reload (k : Block) : Medium → Except Fault Block
  | .wire => decodeRlp (encodeRlp k)
  | .document layout => do decodeJson (← encodeJson k layout)

theorem reload_eq {medium : Medium} (h : medium.Holds k) : k.reload medium = .ok k := by
  cases medium with
  | wire => exact decodeRlp_of_ofItem k.ofItem_toItem (k.depth_toItem_le.trans (by decide)) h
  | document layout =>
    have hwrite : encodeJson k layout = .ok (k.toJson.write layout) := Json.dump_of_fits h k.toJson
    rw [reload, hwrite, ok_bind, k.decodeJson_write layout]

/-- The block stays what it is, however often it is read again. -/
theorem foldlM_reload {media : List Medium} (h : ∀ medium ∈ media, medium.Holds k) :
    media.foldlM reload k = .ok k := by
  induction media with
  | nil => rfl
  | cons medium media ih =>
    obtain ⟨hfirst, hrest⟩ := List.forall_mem_cons.mp h
    rw [List.foldlM_cons, reload_eq hfirst, ok_bind, ih hrest]

/-- A block finds the first of its transactions that has a hash, and nothing exactly if none of
them has it. Without a collision it finds each of its transactions by the hash of that one, as it
is and after any number of rounds through media that hold it. Only a transaction that can be encoded
has a hash: hence the bound. -/
theorem lookup_by_hash (k : Block) :
    (∀ hash t, k.transaction? hash = some t ↔
      ∃ before after, k.transactions = before ++ t :: after ∧ t.hash = hash ∧
        ∀ u ∈ before, u.hash ≠ hash) ∧
    (∀ hash, k.transaction? hash = none ↔ ∀ t ∈ k.transactions, t.hash ≠ hash) ∧
    (k.HashesApart → ∀ media : List Medium, (∀ medium ∈ media, medium.Holds k) →
      ∃ loaded, media.foldlM reload k = .ok loaded ∧
        ∀ i (hi : i < k.transactions.length),
          k.transactions[i].toItem.payloadLength < Rlp.lengthLimit →
            loaded.transaction? k.transactions[i].hash = some k.transactions[i]) := by
  refine ⟨fun _ _ => transaction?_eq_some_iff, fun _ => transaction?_eq_none_iff, ?_⟩
  intro hapart media hmedia
  exact ⟨k, foldlM_reload hmedia, fun i hi => transaction?_hash hapart (List.getElem_mem hi)⟩

/-- A block that holds one transaction twice and one that differs from it in a signature value. -/
theorem lookup_by_hash_signatures :
    let t : Transaction := { nonce := ⟨9, by decide⟩, v := ⟨27, by decide⟩ }
    let u : Transaction := { t with v := ⟨28, by decide⟩ }
    let k : Block := { transactions := [t, t, u] }
    k.HashesApart ∧ ∃ loaded, [Medium.wire, .document {}].foldlM reload k = .ok loaded ∧
      loaded.transaction? t.hash = some t ∧ loaded.transaction? u.hash = some u := by
  intro t u k
  have hdigest : Keccak.keccak256 (encodeRlp t) ≠ Keccak.keccak256 (encodeRlp u) := by
    decide +kernel
  have hmember : ∀ x ∈ k.transactions, x = t ∨ x = u := by
    intro x hx
    simpa [k] using hx
  have hapart : k.HashesApart := by
    intro x hx y hy hcollision
    obtain hx | hx := hmember x hx
    · obtain hy | hy := hmember y hy
      · exact hcollision.ne (by rw [hx, hy])
      · rw [hx, hy] at hcollision
        exact hdigest hcollision.keccak256_eq
    · obtain hy | hy := hmember y hy
      · rw [hx, hy] at hcollision
        exact hdigest hcollision.keccak256_eq.symm
      · exact hcollision.ne (by rw [hx, hy])
  obtain ⟨-, -, hlookup⟩ := lookup_by_hash k
  have hwire : k.toItem.payloadLength < Rlp.lengthLimit := by decide +kernel
  have hlines : Json.Layout.Fits {} := by decide
  obtain ⟨loaded, hloaded, hfound⟩ := hlookup hapart [.wire, .document {}] <| by
    simp only [List.forall_mem_cons]
    exact ⟨hwire, hlines, List.forall_mem_nil _⟩
  exact ⟨hapart, loaded, hloaded, hfound 0 (by decide) (by decide +kernel),
    hfound 2 (by decide) (by decide +kernel)⟩

end Block

end EthWire

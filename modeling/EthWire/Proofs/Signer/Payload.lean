import EthWire.Proofs.Rlp.Canonical
import EthWire.Proofs.Signer.Sender

/-!
# What a signature covers

The bytes that are hashed for a signature tell the six fields of the payload and the scheme of
signing, and nothing else. So a signature is never one over another payload or for another
chain.
-/

namespace EthWire

theorem Rlp.Item.nat_inj {m n : Nat} : nat m = nat n ↔ m = n := by
  constructor
  · intro h
    have hbytes : Bytes.ofNat m = Bytes.ofNat n := Rlp.Item.bytes.inj h
    rw [← Bytes.toNat_ofNat m, hbytes, Bytes.toNat_ofNat]
  · rintro rfl
    rfl

namespace Transaction

variable {t u : Transaction}

/-- An address is never empty, so it is not taken for contract creation. -/
theorem recipientBytes_inj : u.recipientBytes = t.recipientBytes ↔ u.recipient = t.recipient := by
  have hne : ∀ a : Address, a.bytes ≠ [] := by
    intro a ha
    have hlength := a.length_bytes
    rw [ha] at hlength
    cases hlength
  unfold recipientBytes
  cases u.recipient with
  | none =>
    cases t.recipient with
    | none => simp
    | some b => simp [(hne b).symm]
  | some a =>
    cases t.recipient with
    | none => simp [hne a]
    | some b =>
      cases a
      cases b
      simp

theorem payloadItems_inj : u.payloadItems = t.payloadItems ↔ SamePayload t u := by
  constructor
  · intro h
    simp only [payloadItems, List.cons.injEq, Rlp.Item.nat_inj, Rlp.Item.bytes.injEq, Word.val_inj,
      recipientBytes_inj, and_true] at h
    obtain ⟨hnonce, hgasPrice, hgas, hrecipient, hvalue, hdata⟩ := h
    exact ⟨hnonce, hgasPrice, hgas, hrecipient, hvalue, hdata⟩
  · exact SamePayload.payloadItems_eq

end Transaction

namespace Signer

open Transaction (SamePayload)

variable {signer other : Signer} {t u : Transaction}

/-- The schemes differ in the number of items, and two chains in the seventh. -/
theorem payloadItem_inj :
    other.payloadItem u = signer.payloadItem t ↔ SamePayload t u ∧ other = signer := by
  have hsix : ∀ w : Transaction, w.payloadItems.length = 6 := fun w => rfl
  cases other with
  | legacy =>
    cases signer with
    | legacy => simp [payloadItem, Transaction.payloadItems_inj]
    | replayProtected c =>
      have hlength : u.payloadItems ≠ t.payloadItems ++ [.nat c.val, .nat 0, .nat 0] := by
        intro h
        have hcount := congrArg List.length h
        rw [List.length_append, hsix, hsix] at hcount
        cases hcount
      simp [payloadItem, hlength]
  | replayProtected d =>
    cases signer with
    | legacy =>
      have hlength : u.payloadItems ++ [.nat d.val, .nat 0, .nat 0] ≠ t.payloadItems := by
        intro h
        have hcount := congrArg List.length h
        rw [List.length_append, hsix, hsix] at hcount
        cases hcount
      simp [payloadItem, hlength]
    | replayProtected c =>
      constructor
      · intro h
        obtain ⟨hitems, hchain⟩ := List.append_inj (Rlp.Item.list.inj h) (by rw [hsix, hsix])
        have hval : d.val = c.val := Rlp.Item.nat_inj.mp (List.cons.inj hchain).1
        exact ⟨Transaction.payloadItems_inj.mp hitems,
          congrArg replayProtected (Subtype.ext hval)⟩
      · rintro ⟨hsame, hsigner⟩
        rw [hsigner, payloadItem, payloadItem, hsame.payloadItems_eq]

theorem payloadItem_eq_of_payload_eq (hsize : (signer.payloadItem t).payloadLength < Rlp.lengthLimit)
    (h : other.payload u = signer.payload t) : other.payloadItem u = signer.payloadItem t := by
  have hother : (other.payloadItem u).payloadLength < Rlp.lengthLimit := by
    rw [Rlp.payloadLength_lt_iff] at hsize ⊢
    exact (congrArg List.length h).trans_lt hsize
  have happend : (other.payloadItem u).encode ++ [] = (signer.payloadItem t).encode ++ [] :=
    congrArg (· ++ []) h
  exact (Rlp.encode_append_inj hother hsize happend).1

/-- Two payloads are the same bytes exactly if they are of the same six fields under the same
scheme. The bound is the one of the lengths that a mark can hold: beyond it there is no payload.
The other payload needs none of its own, because the length of the bytes tells it. -/
theorem payload_eq_iff (hsize : (signer.payloadItem t).payloadLength < Rlp.lengthLimit) :
    other.payload u = signer.payload t ↔ SamePayload t u ∧ other = signer := by
  constructor
  · intro h
    exact payloadItem_inj.mp (payloadItem_eq_of_payload_eq hsize h)
  · intro h
    exact congrArg Rlp.Item.encode (payloadItem_inj.mpr h)

/-- A signed transaction has the payload of the unsigned one for its chain, and another one for
another chain or for none. -/
theorem payload_eq_iff_chains :
    let t : Transaction := { nonce := ⟨9, by decide⟩, data := [0x60, 0], v := ⟨37, by decide⟩ }
    let main : Signer := replayProtected ⟨1, by decide⟩
    (main.payloadItem t).payloadLength < Rlp.lengthLimit ∧
      main.payload t.unsigned = main.payload t ∧
      (replayProtected ⟨2, by decide⟩).payload t ≠ main.payload t ∧
      legacy.payload t ≠ main.payload t := by
  intro t main
  have hsize : (main.payloadItem t).payloadLength < Rlp.lengthLimit := by decide
  refine ⟨hsize, (payload_eq_iff hsize).mpr ⟨⟨rfl, rfl, rfl, rfl, rfl, rfl⟩, rfl⟩, ?_, ?_⟩
  · intro h
    exact absurd ((payload_eq_iff hsize).mp h).2 (by decide)
  · intro h
    exact absurd ((payload_eq_iff hsize).mp h).2 (by decide)

/-- Two digests are the same if they are of the same six fields under the same scheme, or if two
different payloads have the same hash. -/
theorem digest_eq_iff (hsize : (signer.payloadItem t).payloadLength < Rlp.lengthLimit) :
    other.digest u = signer.digest t ↔
      (SamePayload t u ∧ other = signer) ∨
        (other.payload u ≠ signer.payload t ∧
          Keccak.keccak256 (other.payload u) = Keccak.keccak256 (signer.payload t)) := by
  rw [← digest_bytes, ← digest_bytes]
  constructor
  · intro h
    by_cases hpayload : other.payload u = signer.payload t
    · exact .inl (payloadItem_inj.mp (payloadItem_eq_of_payload_eq hsize hpayload))
    · exact .inr ⟨hpayload, congrArg Fixed.bytes h⟩
  · rintro (⟨hsame, rfl⟩ | ⟨-, hhash⟩)
    · exact digest_eq hsame
    · cases hother : other.digest u
      cases hdigest : signer.digest t
      rw [hother, hdigest] at hhash
      cases hhash
      rfl

end Signer

end EthWire

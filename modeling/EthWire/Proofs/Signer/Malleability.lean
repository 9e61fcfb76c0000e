import EthWire.Proofs.Secp256k1.Twin
import EthWire.Proofs.Signer.Outcome

/-!
# One signature of each pair

A signature and its twin recover the same key, and the signers take exactly one of the two: the
one with the smaller `s`. So a transaction whose sender is told has no sender any more once `s` is
replaced by its opposite, under either recovery value of its scheme.
-/

namespace EthWire.Signer

open Secp256k1 (Parts halfOrder recover split)

/-- The other one of the two recovery values of a scheme. -/
def otherValue (v : Nat) : Nat := if v % 2 = 1 then v + 1 else v - 1

theorem exists_otherValue {v : Word 256} (h : v.val + 1 < Nat.pow 2 256) :
    ∃ w : Word 256, w.val = otherValue v.val := by
  have hlt : otherValue v.val < Nat.pow 2 256 := by
    unfold otherValue
    split <;> omega
  exact ⟨⟨otherValue v.val, hlt⟩, rfl⟩

theorem Names.other {v id : Nat} {scheme : Signer} (h : Names v scheme id) :
    Names (otherValue v) scheme (1 - id) := by
  cases h with
  | legacy hv =>
    simp only [List.mem_cons, List.not_mem_nil, or_false] at hv
    have hother : otherValue v ∈ [27, 28] := by
      rcases hv with rfl | rfl <;> decide
    have hid : 1 - (v - 27) = otherValue v - 27 := by
      rcases hv with rfl | rfl <;> rfl
    rw [hid]
    exact .legacy hother
  | chain c hv =>
    simp only [List.mem_cons, List.not_mem_nil, or_false] at hv
    have hcases : otherValue v = 36 + 2 * c.val ∧ v = 35 + 2 * c.val ∨
        otherValue v = 35 + 2 * c.val ∧ v = 36 + 2 * c.val := by
      unfold otherValue
      split <;> omega
    have hother : otherValue v ∈ [35 + 2 * c.val, 36 + 2 * c.val] := by
      simp only [List.mem_cons, List.not_mem_nil, or_false]
      omega
    have hid : 1 - (v - 35 - 2 * c.val) = otherValue v - 35 - 2 * c.val := by omega
    rw [hid]
    exact .chain c hother

section Gate

variable {digest : Hash} {x : Parts}

/-- Past the ranges the greater `s` is refused, and nothing else for that reason. -/
theorem recoverAddress_eq_highS (hx : x.InRange) :
    recoverAddress digest x.r x.s x.recoveryId = .error (.signature .highS) ↔ halfOrder < x.s := by
  have hrpos := hx.r_pos
  have hrlt := hx.r_lt
  have hspos := hx.s_pos
  have hslt := hx.s_lt
  have hid := hx.recoveryId_le
  unfold recoverAddress
  rw [if_neg (by omega), if_neg (by omega), Int.toNat_natCast]
  split
  next hhigh => exact iff_of_true rfl hhigh
  next hlow =>
    refine iff_of_false (fun h => ?_) hlow
    cases hrecover : recover digest.bytes x with
    | ok key =>
      rw [hrecover] at h
      cases h
    | error f =>
      rw [hrecover] at h
      obtain rfl : f = .signature .highS := Except.error.inj h
      rcases Secp256k1.recover_eq_error hx hrecover with hf | hf <;> cases hf

end Gate

variable {signer scheme : Signer} {t : Transaction} {id : Nat}

theorem sender_of_names (h : Names t.v.val scheme id) (hscheme : scheme = legacy ∨ scheme = signer) :
    signer.sender t = recoverAddress (scheme.digest t) t.r.val t.s.val id := by
  obtain ⟨-, hid, hv⟩ := h.recoveryId
  have hsigned : t.hasSignature = true :=
    hasSignature_of_not_isUnsigned fun hunsigned => by have := hunsigned.1; omega
  rw [← hid]
  cases h with
  | legacy hmem =>
    have hprotected : t.isProtected = false :=
      Transaction.isProtected_eq_false.mpr (List.mem_cons_of_mem 0 (List.mem_cons_of_mem 1 hmem))
    simp [sender, hsigned, hprotected]
  | chain c hmem =>
    obtain rfl : replayProtected c = signer := hscheme.resolve_left (by simp)
    have hchain : t.chainId? = some c.val := chainId?_eq_some.mpr hmem
    have hprotected : t.isProtected = true := by
      by_contra hnone
      simp [Transaction.chainId?, hnone] at hchain
    simp [sender, hsigned, hprotected, hchain]

/-- A sender is told of a transaction only with the smaller `s` and a recovery value of a scheme. -/
theorem exists_names_of_sender {address : Address} (h : signer.sender t = .ok address) :
    ∃ scheme id, Names t.v.val scheme id ∧ (scheme = legacy ∨ scheme = signer) ∧
      Parts.InRange ⟨t.r.val, t.s.val, id⟩ ∧ t.s.val ≤ halfOrder := by
  have houtcome := sender_outcome signer t
  rw [h] at houtcome
  cases houtcome with
  | recovered _ _ hformed hnames hscheme _ =>
    refine ⟨_, _, hnames, hscheme, inRange_of_not_isMalformed hnames.recoveryId.1 hformed, ?_⟩
    unfold Transaction.IsMalformed at hformed
    rw [halfOrder]
    omega

/-- A twin has the greater `s`, so whatever recovery value of the scheme it has, it is refused. -/
theorem sender_of_twin {u : Transaction} {i : Nat} (hnames : Names u.v.val scheme i)
    (hscheme : scheme = legacy ∨ scheme = signer) (hx : Parts.InRange ⟨u.r.val, u.s.val, i⟩)
    (hhigh : halfOrder < u.s.val) : signer.sender u = .error (.signature .highS) := by
  rw [sender_of_names hnames hscheme]
  exact (recoverAddress_eq_highS hx).mpr hhigh

/-- A signature and its twin recover the same key, or are both refused; of the two exactly one
passes the check of `s`, by whatever recovery identifiers; and a transaction with a sender has none
with the opposite `s`, whichever of the two recovery values of its scheme it has. The greatest word
is the only recovery value without another one among the words. -/
theorem twin_refused :
    (∀ (digest : Bytes) (x : Parts), x.InRange →
      (split x.twin.toBytes >>= recover digest) = (split x.toBytes >>= recover digest) ∧
      ((∃ key, (split x.toBytes >>= recover digest) = .ok key) ∨
        ∃ problem, (split x.toBytes >>= recover digest) = .error (.signature problem))) ∧
    (∀ (digest : Hash) (x : Parts) (id : Nat), x.InRange → id ≤ 1 →
      Xor (recoverAddress digest x.r x.s x.recoveryId = .error (.signature .highS))
        (recoverAddress digest x.twin.r x.twin.s id = .error (.signature .highS))) ∧
    ∀ (signer : Signer) (t : Transaction) (address : Address), signer.sender t = .ok address →
      (t.v.val + 1 < Nat.pow 2 256 → ∃ v : Word 256, v.val = otherValue t.v.val) ∧
      ∃ s : Word 256, s.val = Secp256k1.n - t.s.val ∧
        ∀ v : Word 256, v = t.v ∨ v.val = otherValue t.v.val →
          signer.sender { t with v, s } = .error (.signature .highS) := by
  refine ⟨?_, ?_, ?_⟩
  · intro digest x hx
    rw [hx.split_toBytes, hx.twin.split_toBytes, ok_bind, ok_bind]
    refine ⟨Secp256k1.recover_twin hx, ?_⟩
    exact Secp256k1.recover_cases hx |>.imp_left fun ⟨R, _, _, hok⟩ => ⟨_, hok⟩
  · intro digest x id hx hid
    have hy : Parts.InRange ⟨x.twin.r, x.twin.s, id⟩ := hx.twin.withRecoveryId hid
    rw [recoverAddress_eq_highS hx, recoverAddress_eq_highS hy, hx.halfOrder_lt_twin_iff,
      xor_iff_iff_not, not_le]
  · intro signer t address h
    obtain ⟨scheme, id, hnames, hscheme, hx, hlow⟩ := exists_names_of_sender h
    have hy := hx.twin
    refine ⟨exists_otherValue, ⟨Secp256k1.n - t.s.val, hy.s_lt.trans (by decide)⟩, rfl, ?_⟩
    intro v hv
    have hhigh := hx.halfOrder_lt_twin_iff.mpr hlow
    rcases hv with rfl | hv
    · exact sender_of_twin hnames hscheme (hy.withRecoveryId hx.recoveryId_le) hhigh
    · have hother := hnames.other
      rw [← hv] at hother
      exact sender_of_twin hother hscheme hy hhigh

/-- The abscissa of the base point and 1 or 2 are the values of a signature over the empty
transaction for the first chain, whatever its digest is: one of the two is not the residue of it. -/
theorem twin_refused_base :
    let main : Signer := replayProtected ⟨1, by decide⟩
    ∃ (t : Transaction) (address : Address), t.v.val = 37 ∧ main.sender t = .ok address ∧
      ∃ s : Word 256, s.val = Secp256k1.n - t.s.val ∧
        ∀ v : Word 256, v.val = 37 ∨ v.val = 38 →
          main.sender { t with v, s } = .error (.signature .highS) := by
  intro main
  let r : Word 256 :=
    ⟨0x79be667ef9dcbbac55a06295ce870b07029bfcdb2dce28d959f2815b16f81798, by decide⟩
  obtain ⟨s, hpos, hle, hdigest⟩ : ∃ s : Word 256, 0 < s.val ∧ s.val ≤ 2 ∧
      s.val ≠ Secp256k1.digestScalar (main.digest {}).bytes := by
    by_cases hone : Secp256k1.digestScalar (main.digest {}).bytes = 1
    · exact ⟨⟨2, by decide⟩, by decide, by decide, by rw [hone]; decide⟩
    · exact ⟨⟨1, by decide⟩, by decide, by decide, Ne.symm hone⟩
  let t : Transaction := { v := ⟨37, by decide⟩, r, s }
  have hhalf : 2 ≤ halfOrder := by decide
  have hx : Parts.Canonical ⟨r.val, s.val, 0⟩ :=
    ⟨(by decide : 0 < r.val), (by decide : r.val < Secp256k1.n), hpos, hle.trans hhalf, Nat.zero_le 1⟩
  have hsame : main.digest t = main.digest {} := digest_eq ⟨rfl, rfl, rfl, rfl, rfl, rfl⟩
  rw [← hsame] at hdigest
  have hr := Secp256k1.natCast_ne_zero hx.r_pos hx.r_lt
  have hkey := Secp256k1.recover_of_liesAt hx.inRange Secp256k1.Element.base_liesAt
    (Secp256k1.keyAt_base_ne_zero hr hx.s_lt hdigest)
  have hnames : Names 37 main 0 := .chain ⟨1, by decide⟩ (by decide)
  have hsender : main.sender t = _ :=
    (sender_of_names hnames (.inr rfl)).trans (recoverAddress_canonical hx hkey)
  obtain ⟨-, opposite, hopposite, hrefused⟩ := twin_refused.2.2 main t _ hsender
  have hother : otherValue 37 = 38 := by decide
  refine ⟨t, _, rfl, hsender, opposite, hopposite, fun v hv => hrefused v ?_⟩
  rcases hv with hkept | hflipped
  · exact .inl (Word.val_inj.mp hkept)
  · exact .inr (hflipped.trans hother.symm)

end EthWire.Signer

import EthWire.Proofs.Secp256k1.Recovery

/-!
# Signing and recovering

A nonce gives numbers that stand for the signer's key at the multiple of the base point by that
nonce, or at its opposite where the smaller `s` was taken. So one of the two recovery
identifiers leads back to the key, and a signature is found unless the abscissa was reduced
or the other identifier, tried first, leads to the point at infinity.
-/

namespace EthWire.Secp256k1

open Element (base)

/-- Multiples of the base point by a residue. -/
theorem Element.toPoint_smul_base {k : Nat} (hk : k < n) :
    ((k : ZMod n) • base).toPoint = Point.generator.times k := by
  have hbits : k < 2 ^ 256 := hk.trans (by decide)
  rw [Nat.cast_smul_eq_nsmul, ← Point.times_toPoint base hbits, toPoint_base]

/-! ## The numbers of a nonce -/

section Nonce

variable {digest : Bytes} {scalar nonce r s : Nat}

/-- The two numbers that a nonce gives, of which the second may be replaced by its opposite. -/
theorem valuesForNonce?_cases (h : valuesForNonce? scalar digest nonce = some (r, s)) :
    (nonce : ZMod n) ≠ 0 ∧
      ∃ x y hxy, (nonce : ZMod n) • base = .some x y hxy ∧ x.val % n = r ∧
        ((s : ZMod n) = (nonce : ZMod n)⁻¹ * (digestScalar digest + scalar * r) ∨
          (s : ZMod n) = -((nonce : ZMod n)⁻¹ * (digestScalar digest + scalar * r))) := by
  unfold valuesForNonce? at h
  split at h
  · cases h
  next hrange =>
    refine ⟨natCast_ne_zero (by omega) (by omega), ?_⟩
    rw [← Element.toPoint_smul_base (by omega : nonce < n)] at h
    match hpoint : (nonce : ZMod n) • base with
    | .zero =>
      rw [hpoint] at h
      cases h
    | .some x y hxy =>
      rw [hpoint, Element.toPoint_some] at h
      dsimp only at h
      split at h
      next => cases h
      next hzero =>
        obtain ⟨rfl, hs⟩ := Prod.mk.inj (Option.some.inj h)
        set v := inverse n nonce * (Bytes.toNat digest + scalar * (x.val % n)) % n with hv
        have hvalue : (v : ZMod n)
            = (nonce : ZMod n)⁻¹ * (digestScalar digest + scalar * (x.val % n : Nat)) := by
          rw [hv, ZMod.natCast_mod, Nat.cast_mul, cast_inverse_n, digestScalar, ZMod.natCast_mod,
            Nat.cast_add, Nat.cast_mul]
        refine ⟨x, y, hxy, rfl, rfl, ?_⟩
        rw [← hvalue, ← hs]
        split
        next =>
          right
          rw [Nat.cast_sub (Nat.mod_lt _ (by decide)).le, ZMod.natCast_self, zero_sub]
        next => exact .inl rfl

/-- The nonce cancels out of a point whose multiple by `s` it gave. -/
theorem keyAt_eq_of_nonce {R : Element} (hnonce : (nonce : ZMod n) ≠ 0) (hr : (r : ZMod n) ≠ 0)
    (hR : (s : ZMod n) • R
      = ((nonce : ZMod n)⁻¹ * (digestScalar digest + scalar * r)) • (nonce : ZMod n) • base) :
    keyAt digest r s R = (scalar : ZMod n) • base := by
  rw [keyAt, hR, smul_smul, mul_comm, mul_inv_cancel_left₀ hnonce, add_smul, add_sub_cancel_left,
    smul_smul, mul_comm (scalar : ZMod n), inv_mul_cancel_left₀ hr]

/-- The key of the scalar is the one that the numbers stand for at a point whose abscissa, up
to the order of the group, is the first number. -/
theorem exists_keyAt_of_valuesForNonce? (h : valuesForNonce? scalar digest nonce = some (r, s)) :
    ∃ x y hxy, x.val % n = r ∧ keyAt digest r s (.some x y hxy) = (scalar : ZMod n) • base := by
  obtain ⟨hrpos, hrlt, -, -⟩ := valuesForNonce?_range h
  have hr := natCast_ne_zero hrpos hrlt
  obtain ⟨hnonce, x, y, hxy, hpoint, hx, hs⟩ := valuesForNonce?_cases h
  rcases hs with hs | hs
  · exact ⟨x, y, hxy, hx, keyAt_eq_of_nonce hnonce hr (by rw [hs, hpoint])⟩
  · have hneg := WeierstrassCurve.Affine.Point.neg_some hxy
    exact ⟨x, _, _, hx, keyAt_eq_of_nonce hnonce hr (by rw [← hneg, hs, hpoint, neg_smul_neg])⟩

theorem exists_nonce_of_drawValues? {tries : Nat} {state : NonceState}
    (h : drawValues? scalar digest tries state = some (r, s)) :
    ∃ nonce, valuesForNonce? scalar digest nonce = some (r, s) := by
  induction tries generalizing state with
  | zero => cases h
  | succ tries ih =>
    rw [drawValues?] at h
    dsimp only at h
    split at h
    next found hfound => exact ⟨_, hfound.trans h⟩
    next => exact ih h

end Nonce

/-! ## The search -/

section Search

variable {digest : Bytes} {r s recoveryId : Nat} {R : Element}

theorem Element.LiesAt.neg (hR : R.LiesAt r recoveryId) : (-R).LiesAt r (1 - recoveryId) := by
  match R with
  | .some x y h =>
    refine ⟨hR.1, ?_⟩
    rw [negY_eq, val_neg_mod_two (ordinate_ne_zero h), hR.2]

theorem Element.LiesAt.ne_zero (hR : R.LiesAt r recoveryId) : R ≠ 0 := by
  rintro rfl
  exact hR

/-- A point and its opposite stand for different keys, as no point is its own opposite. -/
theorem keyAt_ne_keyAt_neg (hr : (r : ZMod n) ≠ 0) (hs : (s : ZMod n) ≠ 0) (hR : R ≠ 0) :
    keyAt digest r s R ≠ keyAt digest r s (-R) := by
  intro h
  rw [keyAt, keyAt, smul_right_inj (inv_ne_zero hr), sub_left_inj, smul_right_inj hs,
    eq_neg_iff_add_eq_zero] at h
  exact hR (Element.eq_zero_of_add_self h)

/-- The key of the opposite point. -/
theorem keyAt_neg (digest : Bytes) (r s : Nat) (R : Element) :
    keyAt digest r s (-R)
      = -(keyAt digest r s R + ((r : ZMod n)⁻¹ * (2 * digestScalar digest)) • base) := by
  rw [keyAt, keyAt, mul_smul, ← smul_add, ← smul_neg, smul_neg, two_mul, add_smul]
  congr 1
  abel

/-- Numbers that stand for a multiple of the base point at one point may stand for the point at
infinity at the opposite one. -/
theorem keyAt_neg_eq_zero_iff {scalar : Nat} (hr : (r : ZMod n) ≠ 0)
    (hkey : keyAt digest r s R = (scalar : ZMod n) • base) :
    keyAt digest r s (-R) = 0 ↔ n ∣ scalar * r + 2 * digestScalar digest := by
  have hscaled : (r : ZMod n) * (scalar + (r : ZMod n)⁻¹ * (2 * digestScalar digest))
      = ((scalar * r + 2 * digestScalar digest : Nat) : ZMod n) := by
    rw [mul_add, mul_inv_cancel_left₀ hr, mul_comm]
    push_cast
    rfl
  calc keyAt digest r s (-R) = 0
      ↔ ((scalar : ZMod n) + (r : ZMod n)⁻¹ * (2 * digestScalar digest)) • base = 0 := by
        rw [keyAt_neg, hkey, ← add_smul, neg_eq_zero]
    _ ↔ (scalar : ZMod n) + (r : ZMod n)⁻¹ * (2 * digestScalar digest) = 0 :=
        smul_eq_zero_iff_left Element.base_ne_zero
    _ ↔ n ∣ scalar * r + 2 * digestScalar digest := by
        rw [← ZMod.natCast_eq_zero_iff, ← hscaled, mul_eq_zero_iff_left hr]

theorem recoverPoint_of_keyAt (hr : r < n) (hs : s < n) (hid : recoveryId ≤ 1)
    (hR : R.LiesAt r recoveryId) (hkey : keyAt digest r s R ≠ 0) :
    recoverPoint digest r s recoveryId = .ok (keyAt digest r s R).toPoint := by
  rw [recoverPoint_of_liesAt hr hs hid hR, if_neg hkey]

/-- The search ends with the identifier of the key, except that an opposite point that is tried
first and stands for the point at infinity ends it. -/
theorem findRecoveryId_of_liesAt (hrpos : 0 < r) (hr : r < n) (hspos : 0 < s) (hs : s < n)
    (hid : recoveryId ≤ 1) (hR : R.LiesAt r recoveryId) (hkey : keyAt digest r s R ≠ 0) :
    findRecoveryId digest r s (keyAt digest r s R).publicKey =
      if recoveryId = 1 ∧ keyAt digest r s (-R) = 0 then .error (.signature .infinity)
      else .ok recoveryId := by
  have hright := recoverPoint_of_keyAt hr hs hid hR hkey
  have hmatch : PublicKey.ofPoint (keyAt digest r s R).toPoint = (keyAt digest r s R).publicKey :=
    rfl
  unfold findRecoveryId
  obtain rfl | rfl : recoveryId = 0 ∨ recoveryId = 1 := by omega
  · rw [hright, ok_bind, if_pos hmatch, if_neg (fun h => absurd h.1 Nat.zero_ne_one)]
    rfl
  · have hdiffer : keyAt digest r s R ≠ keyAt digest r s (-R) :=
      keyAt_ne_keyAt_neg (natCast_ne_zero hrpos hr) (natCast_ne_zero hspos hs) hR.ne_zero
    rw [recoverPoint_of_liesAt hr hs (Nat.zero_le 1) hR.neg]
    split
    next hzero => rw [if_pos ⟨rfl, hzero⟩, error_bind]
    next hopposite =>
      have hother : PublicKey.ofPoint (keyAt digest r s (-R)).toPoint
          ≠ (keyAt digest r s R).publicKey :=
        fun h => hdiffer (Element.publicKey_inj hopposite hkey h).symm
      rw [if_neg (fun h => hopposite h.2), ok_bind, if_neg hother, hright, ok_bind, if_pos hmatch]
      rfl

end Search

/-! ## Signatures -/

theorem Element.publicKey_smul_base (key : PrivateKey) :
    ((key.scalar : ZMod n) • base).publicKey = key.publicKey := by
  rw [Element.publicKey, toPoint_smul_base key.scalar_lt]
  rfl

theorem smul_base_ne_zero (key : PrivateKey) : (key.scalar : ZMod n) • base ≠ 0 :=
  smul_ne_zero (natCast_ne_zero key.scalar_pos key.scalar_lt) Element.base_ne_zero

theorem sign_of_drawValues? {key : PrivateKey} {digest : Bytes} {r s recoveryId : Nat}
    (hdraw : drawValues? key.scalar digest maxTries (.start key.scalar digest) = some (r, s))
    (hfind : findRecoveryId digest r s key.publicKey = .ok recoveryId) :
    sign key digest = .ok (Parts.toBytes ⟨r, s, recoveryId⟩) := by
  -- Opened as a function: applied to arguments, the match would be checked by drawing nonces.
  have hsign : sign = sign := rfl
  conv at hsign => rhs; delta sign
  rw [hsign]
  dsimp only
  rw [hdraw]
  dsimp only
  rw [hfind]
  rfl

/-- The numbers that are drawn become a signature, if the abscissa cannot have been reduced and
the opposite point does not stand for the point at infinity. -/
theorem exists_sign {key : PrivateKey} {digest : Bytes} {r s : Nat}
    (hdraw : drawValues? key.scalar digest maxTries (.start key.scalar digest) = some (r, s))
    (hreduced : p ≤ n + r) (hopposite : ¬n ∣ key.scalar * r + 2 * digestScalar digest) :
    ∃ signature, sign key digest = .ok signature := by
  obtain ⟨hrpos, hrlt, hspos, hsle⟩ := drawValues?_range hdraw
  have hslt := Nat.lt_of_le_of_lt hsle halfOrder_lt
  have hr := natCast_ne_zero hrpos hrlt
  obtain ⟨nonce, hnonce⟩ := exists_nonce_of_drawValues? hdraw
  obtain ⟨x, y, hxy, hx, hkey⟩ := exists_keyAt_of_valuesForNonce? hnonce
  have hlies : Element.LiesAt r (y.val % 2) (.some x y hxy) := by
    have hxp := ZMod.val_lt x
    refine ⟨?_, rfl⟩
    by_contra hne
    have hwrapped : n ≤ x.val := by
      by_contra hlt
      exact hne (by rw [← hx, Nat.mod_eq_of_lt (by omega)])
    have hdouble : p < n + n := by decide
    rw [Nat.mod_eq_sub_mod hwrapped, Nat.mod_eq_of_lt (by omega)] at hx
    omega
  have hkey0 : keyAt digest r s (.some x y hxy) ≠ 0 := by
    rw [hkey]
    exact smul_base_ne_zero key
  have hopposite0 := mt (keyAt_neg_eq_zero_iff hr hkey).mp hopposite
  have hparity : y.val % 2 ≤ 1 := by omega
  have hfound := findRecoveryId_of_liesAt hrpos hrlt hspos hslt hparity hlies hkey0
  rw [if_neg (fun h => hopposite0 h.2), hkey, Element.publicKey_smul_base] at hfound
  exact ⟨_, sign_of_drawValues? hdraw hfound⟩

/-- What is signed can be recovered. -/
theorem sign_recovers {key : PrivateKey} {digest signature : Bytes}
    (h : sign key digest = .ok signature) :
    signature.length = signatureSize ∧
      ∃ x : Parts, split signature = .ok x ∧ x.Canonical ∧
        (split signature >>= recover digest) = .ok key.publicKey := by
  obtain ⟨x, hsignature, hcanonical, hrecover⟩ := sign_eq_ok h
  have hsplit : split signature = .ok x := by rw [hsignature, hcanonical.split_toBytes]
  refine ⟨?_, x, hsplit, hcanonical, by rw [hsplit, ok_bind, hrecover]⟩
  rw [hsignature]
  simp [Parts.toBytes, signatureSize, Bytes.length_ofNatWidth]

/-- The digest of zeros, signed with the first of all keys. -/
theorem sign_recovers_zero :
    let key : PrivateKey := ⟨1, by decide, by decide⟩
    let digest := Bytes.zero 32
    ∃ signature, sign key digest = .ok signature ∧ signature.length = signatureSize ∧
      ∃ x : Parts, split signature = .ok x ∧ x.Canonical ∧
        (split signature >>= recover digest) = .ok key.publicKey := by
  intro key digest
  have hdraw : drawValues? key.scalar digest maxTries (.start key.scalar digest)
      = some (0xa0b37f8fba683cc68f6574cd43b39f0343a50008bf6ccea9d13231d9e7e2e1e4,
          0x11edc8d307254296264aebfc3dc76cd8b668373a072fd64665b50000e9fcce52) := by
    decide +kernel
  obtain ⟨signature, hsign⟩ := exists_sign hdraw (by decide) (by decide +kernel)
  exact ⟨signature, hsign, sign_recovers hsign⟩

end EthWire.Secp256k1

import EthWire.Proofs.BigEndian
import EthWire.Proofs.Result
import EthWire.Secp256k1.Signature

/-!
# Signatures and what they recover

A signature that is given is canonical, and its own recovery leads back to the key.
-/

namespace EthWire.Secp256k1

/-- The ranges of the numbers of a signature in its form with the smaller `s`. -/
structure Parts.Canonical (x : Parts) : Prop where
  r_pos : 0 < x.r
  r_lt : x.r < n
  s_pos : 0 < x.s
  s_le : x.s ≤ halfOrder
  recoveryId_le : x.recoveryId ≤ 1

/-- The ranges of the numbers of a signature, before any curve point is looked for. -/
structure Parts.InRange (x : Parts) : Prop where
  r_pos : 0 < x.r
  r_lt : x.r < n
  s_pos : 0 < x.s
  s_lt : x.s < n
  recoveryId_le : x.recoveryId ≤ 1

theorem n_lt : n < 256 ^ 32 := by decide

theorem halfOrder_lt : halfOrder < n := by decide

theorem Parts.Canonical.s_lt {x : Parts} (h : x.Canonical) : x.s < n :=
  Nat.lt_of_le_of_lt h.s_le halfOrder_lt

theorem Parts.Canonical.inRange {x : Parts} (h : x.Canonical) : x.InRange :=
  ⟨h.r_pos, h.r_lt, h.s_pos, h.s_lt, h.recoveryId_le⟩

/-! ## The bytes of a signature -/

theorem split_toBytes {x : Parts} (hr : x.r < 256 ^ 32) (hs : x.s < 256 ^ 32)
    (hrecoveryId : x.recoveryId < 256) : split x.toBytes = .ok x := by
  have hrlen := Bytes.length_ofNatWidth 32 x.r
  have hslen := Bytes.length_ofNatWidth 32 x.s
  have hlast : Bytes.toNat [UInt8.ofNat x.recoveryId] = x.recoveryId := by
    rw [Bytes.toNat, List.map_singleton, UInt8.toNat_ofNat_of_lt' hrecoveryId]
    simp [Positional.value]
  have hlength : x.toBytes.length = signatureSize := by
    simp [Parts.toBytes, signatureSize, hrlen, hslen]
  have htake : x.toBytes.take 32 = Bytes.ofNatWidth 32 x.r := by
    rw [Parts.toBytes, List.append_assoc, List.take_left' hrlen]
  have hmiddle : (x.toBytes.drop 32).take 32 = Bytes.ofNatWidth 32 x.s := by
    rw [Parts.toBytes, List.append_assoc, List.drop_left' hrlen, List.take_left' hslen]
  have hdrop : x.toBytes.drop 64 = [UInt8.ofNat x.recoveryId] := by
    rw [Parts.toBytes]
    exact List.drop_left' (by rw [List.length_append, hrlen, hslen])
  rw [split, if_pos hlength, htake, hmiddle, hdrop, hlast, Bytes.toNat_ofNatWidth_of_lt hr,
    Bytes.toNat_ofNatWidth_of_lt hs]

theorem Parts.InRange.split_toBytes {x : Parts} (h : x.InRange) : split x.toBytes = .ok x :=
  Secp256k1.split_toBytes (h.r_lt.trans n_lt) (h.s_lt.trans n_lt)
    (Nat.lt_of_le_of_lt h.recoveryId_le (by decide))

theorem Parts.Canonical.split_toBytes {x : Parts} (h : x.Canonical) : split x.toBytes = .ok x :=
  h.inRange.split_toBytes

/-! ## Recovery -/

/-- Numbers in their ranges recover whatever point they recover. -/
theorem recover_of_inRange {digest : Bytes} {x : Parts} (hx : x.InRange) :
    recover digest x = (recoverPoint digest x.r x.s x.recoveryId).map .ofPoint := by
  have hr := hx.r_pos
  have hrn := hx.r_lt
  have hs := hx.s_pos
  have hsn := hx.s_lt
  have hid := hx.recoveryId_le
  rw [recover, if_neg (by omega), if_neg (by omega), if_neg (by omega)]

theorem recoverPoint_eq_error {digest : Bytes} {r s recoveryId : Nat} {f : Fault}
    (h : recoverPoint digest r s recoveryId = .error f) :
    f = .signature .notOnCurve ∨ f = .signature .infinity := by
  unfold recoverPoint at h
  split at h
  · exact .inl (Except.error.inj h).symm
  · dsimp only at h
    split at h
    · exact .inr (Except.error.inj h).symm
    · cases h

/-- Numbers in their ranges are refused only for want of a curve point. -/
theorem recover_eq_error {digest : Bytes} {x : Parts} (hx : x.InRange) {f : Fault}
    (h : recover digest x = .error f) :
    f = .signature .notOnCurve ∨ f = .signature .infinity := by
  rw [recover_of_inRange hx] at h
  cases hpoint : recoverPoint digest x.r x.s x.recoveryId with
  | error e =>
    rw [hpoint] at h
    obtain rfl : e = f := Except.error.inj h
    exact recoverPoint_eq_error hpoint
  | ok q =>
    rw [hpoint] at h
    cases h

/-! ## Drawing the numbers -/

theorem valuesForNonce?_range {scalar nonce r s : Nat} {digest : Bytes}
    (h : valuesForNonce? scalar digest nonce = some (r, s)) :
    0 < r ∧ r < n ∧ 0 < s ∧ s ≤ halfOrder := by
  have hn : n = 2 * halfOrder + 1 := by decide
  have hhalf : 0 < halfOrder := by decide
  unfold valuesForNonce? at h
  split at h
  · cases h
  · split at h
    next => cases h
    next x _ _ =>
      dsimp only at h
      split at h
      next => cases h
      next hzero =>
        have hr : x % n < n := Nat.mod_lt _ (by omega)
        have hs : inverse n nonce * (Bytes.toNat digest + scalar * (x % n)) % n < n :=
          Nat.mod_lt _ (by omega)
        obtain ⟨rfl, rfl⟩ := Prod.mk.inj (Option.some.inj h)
        split
        next => omega
        next => omega

theorem drawValues?_range {scalar tries r s : Nat} {digest : Bytes} {state : NonceState}
    (h : drawValues? scalar digest tries state = some (r, s)) :
    0 < r ∧ r < n ∧ 0 < s ∧ s ≤ halfOrder := by
  induction tries generalizing state with
  | zero => cases h
  | succ tries ih =>
    rw [drawValues?] at h
    dsimp only at h
    split at h
    next found hfound =>
      cases h
      exact valuesForNonce?_range hfound
    next => exact ih h

/-! ## Signing -/

theorem findRecoveryId_eq_ok {digest : Bytes} {r s recoveryId : Nat} {key : PublicKey}
    (h : findRecoveryId digest r s key = .ok recoveryId) :
    recoveryId ≤ 1 ∧ (recoverPoint digest r s recoveryId).map PublicKey.ofPoint = .ok key := by
  unfold findRecoveryId at h
  obtain ⟨q, hq, hfirst⟩ := bind_eq_ok.mp h
  split at hfirst
  next hkey =>
    cases hfirst
    exact ⟨Nat.zero_le 1, by rw [hq, map_ok, hkey]⟩
  next =>
    obtain ⟨q', hq', hsecond⟩ := bind_eq_ok.mp hfirst
    split at hsecond
    next hkey =>
      cases hsecond
      exact ⟨Nat.le_refl 1, by rw [hq', map_ok, hkey]⟩
    next => cases hsecond

theorem sign_cases {key : PrivateKey} {digest signature : Bytes}
    (h : sign key digest = .ok signature) :
    ∃ r s recoveryId,
      drawValues? key.scalar digest maxTries (.start key.scalar digest) = some (r, s) ∧
      findRecoveryId digest r s key.publicKey = .ok recoveryId ∧
      signature = Parts.toBytes ⟨r, s, recoveryId⟩ := by
  -- Opened as a function: applied to arguments, the match would be checked by drawing nonces.
  have hsign : sign = sign := rfl
  conv at hsign => rhs; delta sign
  rw [hsign] at h
  dsimp only at h
  split at h
  next => cases h
  next r s hvalues =>
    obtain ⟨recoveryId, hrecoveryId, hsignature⟩ := bind_eq_ok.mp h
    exact ⟨r, s, recoveryId, hvalues, hrecoveryId, (Except.ok.inj hsignature).symm⟩

/-- A signature splits into canonical numbers, and the key that these recover over the digest
is the public key of the signer. -/
theorem sign_eq_ok {key : PrivateKey} {digest signature : Bytes}
    (h : sign key digest = .ok signature) :
    ∃ x : Parts, signature = x.toBytes ∧ x.Canonical ∧ recover digest x = .ok key.publicKey := by
  obtain ⟨r, s, recoveryId, hvalues, hfind, hsignature⟩ := sign_cases h
  obtain ⟨hrpos, hrlt, hspos, hsle⟩ := drawValues?_range hvalues
  obtain ⟨hle, hpoint⟩ := findRecoveryId_eq_ok hfind
  have hcanonical : Parts.Canonical ⟨r, s, recoveryId⟩ := ⟨hrpos, hrlt, hspos, hsle, hle⟩
  refine ⟨_, hsignature, hcanonical, ?_⟩
  rw [recover_of_inRange hcanonical.inRange, hpoint]

end EthWire.Secp256k1

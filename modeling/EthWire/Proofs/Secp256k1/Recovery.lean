import EthWire.Proofs.Secp256k1.Order
import EthWire.Proofs.Secp256k1.Sign

/-!
# Recovery and verification

The key that a signature recovers is the only one under which the signature is verified at the
curve point that its abscissa and its recovery identifier name. Where there is no such point, or
the key would be the point at infinity, nothing is recovered.
-/

namespace EthWire.Secp256k1

open Element (base)

/-! ## Verification -/

/-- The combination of the base point and a key that verification looks at. -/
noncomputable def verificationPoint (digest : Bytes) (r s : Nat) (Q : Element) : Element :=
  ((digestScalar digest : ZMod n) * (s : ZMod n)⁻¹) • base + ((r : ZMod n) * (s : ZMod n)⁻¹) • Q

/-- A signature is good under a key if the abscissa of the verification point is `r`, up to the
order of the group. -/
def Verifies (digest : Bytes) (r s : Nat) (Q : Element) : Prop :=
  match verificationPoint digest r s Q with
  | .zero => False
  | .some x _ _ => x.val % n = r

/-- The key for which a given point is the verification point. -/
noncomputable def keyAt (digest : Bytes) (r s : Nat) (R : Element) : Element :=
  (r : ZMod n)⁻¹ • ((s : ZMod n) • R - (digestScalar digest : ZMod n) • base)

section

variable {digest : Bytes} {r s : Nat} {R Q : Element}

/-- The verification equation, solved for the key. -/
theorem verificationPoint_eq_iff (hr : (r : ZMod n) ≠ 0) (hs : (s : ZMod n) ≠ 0) :
    verificationPoint digest r s Q = R ↔ Q = keyAt digest r s R := by
  have hscaled : (s : ZMod n) • verificationPoint digest r s Q
      = (digestScalar digest : ZMod n) • base + (r : ZMod n) • Q := by
    rw [verificationPoint, smul_add, smul_smul, smul_smul, mul_comm (s : ZMod n),
      mul_comm (s : ZMod n), inv_mul_cancel_right₀ hs, inv_mul_cancel_right₀ hs]
  calc verificationPoint digest r s Q = R
      ↔ (s : ZMod n) • verificationPoint digest r s Q = (s : ZMod n) • R := by
        rw [smul_right_inj hs]
    _ ↔ (r : ZMod n) • Q = (s : ZMod n) • R - (digestScalar digest : ZMod n) • base := by
        rw [hscaled, eq_sub_iff_add_eq']
    _ ↔ Q = keyAt digest r s R := by
        rw [keyAt, eq_inv_smul_iff₀ hr]

theorem Verifies.of_verificationPoint {recoveryId : Nat} (hr : r < n) (hR : R.LiesAt r recoveryId)
    (h : verificationPoint digest r s Q = R) : Verifies digest r s Q := by
  unfold Verifies
  rw [h]
  match R with
  | .some x y _ =>
    have hx : x.val = r := hR.1
    show x.val % n = r
    rw [hx, Nat.mod_eq_of_lt hr]

end

/-! ## The point that is recovered -/

section

variable {digest : Bytes} {r s recoveryId : Nat}

/-- The multiples that recovery takes of the point and of the base point, as scalars. -/
theorem combination_eq_keyAt (hs : s < n) (R : Element) :
    ((R.toPoint.times s).add
        (Point.generator.times ((n - digestScalar digest) % n))).times (inverse n r)
      = (keyAt digest r s R).toPoint := by
  have hbits : n < 2 ^ 256 := by decide
  have he : digestScalar digest ≤ n := (Nat.mod_lt _ (by decide)).le
  have hminus : (((n - digestScalar digest) % n : Nat) : ZMod n) = -(digestScalar digest : ZMod n) := by
    rw [ZMod.natCast_mod, Nat.cast_sub he, ZMod.natCast_self, zero_sub]
  have hinverse : inverse n r < 2 ^ 256 := by
    rw [inverse, powMod_eq r (by decide)]
    exact (Nat.mod_lt _ (by decide)).trans hbits
  rw [← Element.toPoint_base, Point.times_toPoint R (hs.trans hbits),
    Point.times_toPoint base ((Nat.mod_lt _ (by decide)).trans hbits), Point.add_toPoint,
    Point.times_toPoint _ hinverse, ← Nat.cast_smul_eq_nsmul (ZMod n) (inverse n r),
    ← Nat.cast_smul_eq_nsmul (ZMod n) s, ← Nat.cast_smul_eq_nsmul (ZMod n) ((n - _) % n),
    cast_inverse_n, hminus, neg_smul, ← sub_eq_add_neg, keyAt]

theorem recoverPoint_of_liesAt (hr : r < n) (hs : s < n) (hid : recoveryId ≤ 1) {R : Element}
    (hR : R.LiesAt r recoveryId) :
    recoverPoint digest r s recoveryId
      = if keyAt digest r s R = 0 then .error (.signature .infinity)
        else .ok (keyAt digest r s R).toPoint := by
  have hrp : r < p := hr.trans (by decide)
  have hfound := (Point.ofAbscissa?_eq_some_iff hrp hid).mpr ⟨R, hR, rfl⟩
  unfold recoverPoint
  rw [hfound]
  dsimp only
  rw [combination_eq_keyAt hs]
  match hkey : keyAt digest r s R with
  | .zero => rfl
  | .some x y h => rw [if_neg (WeierstrassCurve.Affine.Point.some_ne_zero h), Element.toPoint_some]

theorem recoverPoint_of_not_liesAt (hr : r < n) (hid : recoveryId ≤ 1)
    (h : ∀ R : Element, ¬R.LiesAt r recoveryId) :
    recoverPoint digest r s recoveryId = .error (.signature .notOnCurve) := by
  have hrp : r < p := hr.trans (by decide)
  have hnone : Point.ofAbscissa? r recoveryId = none := by
    rw [Option.eq_none_iff_forall_not_mem]
    intro q hq
    obtain ⟨R, hR, -⟩ := (Point.ofAbscissa?_eq_some_iff hrp hid).mp hq
    exact h R hR
  rw [recoverPoint, hnone]

end

/-! ## The key that is recovered -/

/-- The public key of a point. -/
def Element.publicKey (Q : Element) : PublicKey := .ofPoint Q.toPoint

theorem Element.exists_eq_some {P : Element} (hP : P ≠ 0) : ∃ x y h, P = .some x y h := by
  cases P with
  | zero => exact absurd rfl hP
  | some x y h => exact ⟨x, y, h, rfl⟩

/-- The base point has this abscissa, and an even ordinate. -/
theorem Element.base_liesAt :
    base.LiesAt 0x79be667ef9dcbbac55a06295ce870b07029bfcdb2dce28d959f2815b16f81798 0 := by
  obtain ⟨x, y, h, hbase⟩ := exists_eq_some base_ne_zero
  have hpoint := toPoint_base
  rw [hbase, toPoint_some] at hpoint
  obtain ⟨hx, hy⟩ := Point.affine.inj hpoint
  rw [hbase]
  exact ⟨hx, by rw [hy]⟩

theorem Element.bytes_publicKey {x y : ZMod p} (h : curve.Nonsingular x y) :
    (Element.publicKey (.some x y h)).bytes
      = Bytes.ofNatWidth 32 x.val ++ Bytes.ofNatWidth 32 y.val := rfl

/-- The coordinates of a point can be told from its public key. -/
theorem Element.publicKey_inj {P Q : Element} (hP : P ≠ 0) (hQ : Q ≠ 0)
    (h : P.publicKey = Q.publicKey) : P = Q := by
  obtain ⟨x₁, y₁, h₁, rfl⟩ := exists_eq_some hP
  obtain ⟨x₂, y₂, h₂, rfl⟩ := exists_eq_some hQ
  have hlt : ∀ z : ZMod p, z.val < 256 ^ 32 := fun z => (ZMod.val_lt z).trans (by decide)
  have hbytes := congrArg Fixed.bytes h
  rw [bytes_publicKey, bytes_publicKey] at hbytes
  obtain ⟨hx, hy⟩ := List.append_inj hbytes (by simp only [Bytes.length_ofNatWidth])
  have hvalx := congrArg Bytes.toNat hx
  have hvaly := congrArg Bytes.toNat hy
  rw [Bytes.toNat_ofNatWidth_of_lt (hlt _), Bytes.toNat_ofNatWidth_of_lt (hlt _)] at hvalx hvaly
  obtain rfl := ZMod.val_injective p hvalx
  obtain rfl := ZMod.val_injective p hvaly
  rfl

section

variable {digest : Bytes} {x : Parts}

/-- What recovery ends in, by the point that the signature names. -/
theorem recover_cases (hx : x.InRange) :
    (∃ R : Element, R.LiesAt x.r x.recoveryId ∧ keyAt digest x.r x.s R ≠ 0 ∧
      recover digest x = .ok (keyAt digest x.r x.s R).publicKey) ∨
    ∃ problem, recover digest x = .error (.signature problem) := by
  rw [recover_of_inRange hx]
  by_cases hnamed : ∃ R : Element, R.LiesAt x.r x.recoveryId
  · obtain ⟨R, hR⟩ := hnamed
    rw [recoverPoint_of_liesAt hx.r_lt hx.s_lt hx.recoveryId_le hR]
    split
    next hzero => exact .inr ⟨_, rfl⟩
    next hkey => exact .inl ⟨R, hR, hkey, rfl⟩
  · rw [recoverPoint_of_not_liesAt hx.r_lt hx.recoveryId_le (not_exists.mp hnamed)]
    exact .inr ⟨_, rfl⟩

theorem recover_eq_ok_iff (hx : x.InRange) {Q : Element} (hQ : Q ≠ 0) :
    recover digest x = .ok Q.publicKey ↔
      ∃ R : Element, R.LiesAt x.r x.recoveryId ∧ verificationPoint digest x.r x.s Q = R := by
  have hr := natCast_ne_zero hx.r_pos hx.r_lt
  have hs := natCast_ne_zero hx.s_pos hx.s_lt
  constructor
  · intro h
    obtain ⟨R, hR, hkey, hok⟩ | ⟨problem, herror⟩ := @recover_cases digest x hx
    · obtain rfl : Q = keyAt digest x.r x.s R :=
        Element.publicKey_inj hQ hkey (Except.ok.inj (h.symm.trans hok))
      exact ⟨R, hR, (verificationPoint_eq_iff hr hs).mpr rfl⟩
    · rw [h] at herror
      cases herror
  · rintro ⟨R, hR, hpoint⟩
    obtain rfl := (verificationPoint_eq_iff hr hs).mp hpoint
    rw [recover_of_inRange hx, recoverPoint_of_liesAt hx.r_lt hx.s_lt hx.recoveryId_le hR,
      if_neg hQ]
    rfl

/-- A signature recovers the key of a point exactly if that is the point whose verification point
has the abscissa and the parity that the signature names. The signature is then good under the
key, and no other key has this verification point. Any other signature is refused. -/
theorem recover_iff_verificationPoint (hx : x.InRange) :
    (∀ Q : Element, Q ≠ 0 → ((split x.toBytes >>= recover digest) = .ok Q.publicKey ↔
      ∃ R : Element, R.LiesAt x.r x.recoveryId ∧ verificationPoint digest x.r x.s Q = R)) ∧
    ((∃ Q : Element, Q ≠ 0 ∧ (split x.toBytes >>= recover digest) = .ok Q.publicKey) ∨
      ∃ problem, (split x.toBytes >>= recover digest) = .error (.signature problem)) ∧
    ∀ R Q : Element, R.LiesAt x.r x.recoveryId → verificationPoint digest x.r x.s Q = R →
      Verifies digest x.r x.s Q ∧ ∀ Q', verificationPoint digest x.r x.s Q' = R → Q' = Q := by
  have hr := natCast_ne_zero hx.r_pos hx.r_lt
  have hs := natCast_ne_zero hx.s_pos hx.s_lt
  rw [hx.split_toBytes, ok_bind]
  refine ⟨fun Q hQ => recover_eq_ok_iff hx hQ, ?_, fun R Q hR hQ => ⟨?_, fun Q' hQ' => ?_⟩⟩
  · exact (recover_cases hx).imp_left fun ⟨R, _, hkey, hok⟩ => ⟨_, hkey, hok⟩
  · exact Verifies.of_verificationPoint hx.r_lt hR hQ
  · rw [verificationPoint_eq_iff hr hs] at hQ hQ'
    rw [hQ, hQ']

/-- Over the digest of zeros, the abscissa of the base point as both numbers recovers the base
point. -/
theorem recover_iff_verificationPoint_base :
    let digest := Bytes.zero 32
    let r := 0x79be667ef9dcbbac55a06295ce870b07029bfcdb2dce28d959f2815b16f81798
    let x : Parts := ⟨r, r, 0⟩
    x.InRange ∧ base ≠ 0 ∧ base.LiesAt r 0 ∧ verificationPoint digest r r base = base ∧
      (split x.toBytes >>= recover digest) = .ok base.publicKey ∧ Verifies digest r r base ∧
      ∀ Q, verificationPoint digest r r Q = base → Q = base := by
  intro digest r x
  have hx : x.InRange := ⟨by decide, by decide, by decide, by decide, by decide⟩
  have hlies : base.LiesAt r 0 := Element.base_liesAt
  have hzero : digestScalar digest = 0 := by decide
  have hpoint : verificationPoint digest r r base = base := by
    rw [verificationPoint, hzero, mul_inv_cancel₀ (natCast_ne_zero hx.r_pos hx.r_lt), one_smul]
    simp
  obtain ⟨hrecovers, -, hgood⟩ := @recover_iff_verificationPoint digest x hx
  have hkey := (hrecovers base Element.base_ne_zero).mpr ⟨base, hlies, hpoint⟩
  obtain ⟨hverifies, honly⟩ := hgood base base hlies hpoint
  exact ⟨hx, Element.base_ne_zero, hlies, hpoint, hkey, hverifies, honly⟩

end

end EthWire.Secp256k1

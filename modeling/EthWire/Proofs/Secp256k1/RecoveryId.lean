import EthWire.Proofs.Secp256k1.Search

/-!
# The search for a recovery identifier

The numbers that a nonce signs with name two opposite points. One of them leads back to the key of
the signer; the ordinate of the nonce's point and the choice between the two opposite values of `s`
tell which one. The other one stands for another key or, if the key and the digest are what it
takes, for the point at infinity. Zero is tried first: where one would be right, such a point ends
the search.
-/

namespace EthWire.Secp256k1

open Element (base)

/-! ## The numbers of a nonce -/

section

variable (key : PrivateKey) (digest : Bytes) (nonce y : Nat) (flipped : Bool) (r s : Nat)

/-- The second number of a signature, before its opposite may take its place. -/
noncomputable def secondNumber : ZMod n :=
  (nonce : ZMod n)⁻¹ * (digestScalar digest + key.scalar * r)

/-- The two numbers by which a key signs a digest with a nonce: the abscissa of the nonce's point,
which is below the order of the group, and the second number or, if `flipped`, its opposite. -/
structure SignedWith : Prop where
  nonce_pos : 0 < nonce
  nonce_lt : nonce < n
  point_eq : Point.generator.times nonce = .affine r y
  r_pos : 0 < r
  r_lt : r < n
  s_pos : 0 < s
  s_le : s ≤ halfOrder
  s_eq : (s : ZMod n) =
    if flipped then -secondNumber key digest nonce r else secondNumber key digest nonce r

/-- The recovery identifier of the signer's own key. -/
def ownRecoveryId : Nat := (y + flipped.toNat) % 2

/-- Whether the other recovery identifier stands for the point at infinity. -/
def OtherVanishes : Prop := n ∣ key.scalar * r + 2 * digestScalar digest

instance : Decidable (OtherVanishes key digest r) :=
  inferInstanceAs (Decidable (n ∣ key.scalar * r + 2 * digestScalar digest))

end

variable {key : PrivateKey} {digest : Bytes} {nonce y r s : Nat} {flipped : Bool}

theorem ownRecoveryId_le : ownRecoveryId y flipped ≤ 1 :=
  Nat.le_of_lt_succ (Nat.mod_lt _ Nat.two_pos)

/-- The second number by its multiple, without an inverse. -/
theorem secondNumber_eq {k : Nat} (hpos : 0 < nonce) (hlt : nonce < n)
    (h : nonce * k % n = (digestScalar digest + key.scalar * r) % n) :
    secondNumber key digest nonce r = k := by
  have hmultiple : (nonce : ZMod n) * k = digestScalar digest + key.scalar * r := by
    have hcast := (ZMod.natCast_eq_natCast_iff' _ _ n).mpr h
    push_cast at hcast
    exact hcast
  rw [secondNumber, ← hmultiple, inv_mul_cancel_left₀ (natCast_ne_zero hpos hlt)]

theorem natCast_eq_neg {k l : Nat} (h : k + l = n) : (k : ZMod n) = -(l : ZMod n) := by
  rw [eq_neg_iff_add_eq_zero, ← Nat.cast_add, h, ZMod.natCast_self]

namespace SignedWith

section

variable (h : SignedWith key digest nonce y flipped r s)
include h

theorem s_lt : s < n := Nat.lt_of_le_of_lt h.s_le halfOrder_lt

/-- The point of the nonce, or its opposite, leads back to the signer. -/
theorem exists_point :
    ∃ R : Element, R.LiesAt r (ownRecoveryId y flipped) ∧
      keyAt digest r s R = (key.scalar : ZMod n) • base := by
  have hnonce := natCast_ne_zero h.nonce_pos h.nonce_lt
  have hr := natCast_ne_zero h.r_pos h.r_lt
  have hs := h.s_eq
  have hpoint := (Element.toPoint_smul_base h.nonce_lt).trans h.point_eq
  have hlies : Element.LiesAt r (y % 2) ((nonce : ZMod n) • base) := by
    match hP : (nonce : ZMod n) • base with
    | .zero =>
      rw [hP] at hpoint
      cases hpoint
    | .some X Y _ =>
      rw [hP] at hpoint
      obtain ⟨hX, hY⟩ := Point.affine.inj hpoint
      exact ⟨hX, by rw [hY]⟩
  cases flipped with
  | false =>
    refine ⟨_, hlies, keyAt_eq_of_nonce hnonce hr ?_⟩
    rw [hs]
    rfl
  | true =>
    have hid : 1 - y % 2 = ownRecoveryId y true := by
      show 1 - y % 2 = (y + 1) % 2
      omega
    refine ⟨_, hid ▸ hlies.neg, keyAt_eq_of_nonce hnonce hr ?_⟩
    rw [hs, if_pos rfl, neg_smul_neg]
    rfl

theorem recoverPoint_own :
    recoverPoint digest r s (ownRecoveryId y flipped)
      = .ok (Point.generator.times key.scalar) := by
  obtain ⟨R, hR, hkey⟩ := h.exists_point
  have hne : keyAt digest r s R ≠ 0 := hkey ▸ smul_base_ne_zero key
  rw [recoverPoint_of_keyAt h.r_lt h.s_lt ownRecoveryId_le hR hne, hkey,
    Element.toPoint_smul_base key.scalar_lt]

theorem recoverPoint_other_of_vanishes (hvanishes : OtherVanishes key digest r) :
    recoverPoint digest r s (1 - ownRecoveryId y flipped) = .error (.signature .infinity) := by
  obtain ⟨R, hR, hkey⟩ := h.exists_point
  have hzero := (keyAt_neg_eq_zero_iff (natCast_ne_zero h.r_pos h.r_lt) hkey).mpr hvanishes
  rw [recoverPoint_of_liesAt h.r_lt h.s_lt (Nat.sub_le 1 _) hR.neg, if_pos hzero]

theorem recoverPoint_other (hvanishes : ¬OtherVanishes key digest r) :
    ∃ q, recoverPoint digest r s (1 - ownRecoveryId y flipped) = .ok q ∧
      q ≠ Point.generator.times key.scalar := by
  obtain ⟨R, hR, hkey⟩ := h.exists_point
  have hr := natCast_ne_zero h.r_pos h.r_lt
  have hne := mt (keyAt_neg_eq_zero_iff hr hkey).mp hvanishes
  refine ⟨_, recoverPoint_of_keyAt h.r_lt h.s_lt (Nat.sub_le 1 _) hR.neg hne, ?_⟩
  rw [← Element.toPoint_smul_base key.scalar_lt, ← hkey]
  intro heq
  have hdiffer : keyAt digest r s R ≠ keyAt digest r s (-R) :=
    keyAt_ne_keyAt_neg hr (natCast_ne_zero h.s_pos h.s_lt) hR.ne_zero
  exact hdiffer (Element.toPoint_injective heq).symm

theorem findRecoveryId_eq :
    findRecoveryId digest r s key.publicKey =
      if ownRecoveryId y flipped = 1 ∧ OtherVanishes key digest r then
        .error (.signature .infinity)
      else .ok (ownRecoveryId y flipped) := by
  obtain ⟨R, hR, hkey⟩ := h.exists_point
  have hzero := keyAt_neg_eq_zero_iff (natCast_ne_zero h.r_pos h.r_lt) hkey
  have hne : keyAt digest r s R ≠ 0 := hkey ▸ smul_base_ne_zero key
  have hfound := findRecoveryId_of_liesAt h.r_pos h.r_lt h.s_pos h.s_lt ownRecoveryId_le hR hne
  rw [hkey, Element.publicKey_smul_base] at hfound
  by_cases hends : ownRecoveryId y flipped = 1 ∧ OtherVanishes key digest r
  · rw [hfound, if_pos hends, if_pos ⟨hends.1, hzero.mpr hends.2⟩]
  · rw [hfound, if_neg hends, if_neg (fun h => hends ⟨h.1, hzero.mp h.2⟩)]

end

end SignedWith

/-! ## The search -/

/-- Of the two identifiers the signer's own one recovers the key, and the other one recovers
another point or fails at the point at infinity. The search ends with the signer's own identifier,
unless it is one and the other one fails: that failure is the end of the search. -/
theorem findRecoveryId_outcomes (h : SignedWith key digest nonce y flipped r s) :
    ownRecoveryId y flipped ≤ 1 ∧
    recoverPoint digest r s (ownRecoveryId y flipped)
      = .ok (Point.generator.times key.scalar) ∧
    (OtherVanishes key digest r →
      recoverPoint digest r s (1 - ownRecoveryId y flipped) = .error (.signature .infinity)) ∧
    (¬OtherVanishes key digest r →
      ∃ q, recoverPoint digest r s (1 - ownRecoveryId y flipped) = .ok q ∧
        q ≠ Point.generator.times key.scalar) ∧
    findRecoveryId digest r s key.publicKey =
      if ownRecoveryId y flipped = 1 ∧ OtherVanishes key digest r then
        .error (.signature .infinity)
      else .ok (ownRecoveryId y flipped) :=
  ⟨ownRecoveryId_le, h.recoverPoint_own, h.recoverPoint_other_of_vanishes, h.recoverPoint_other,
    h.findRecoveryId_eq⟩

/-- The digest of zeros, signed with the second of all keys and the nonce one: the opposite value
of `s` is taken, so that one is the signer's own identifier although the base point is even, and
zero stands for another key. -/
theorem findRecoveryId_outcomes_second :
    let key : PrivateKey := ⟨2, by decide, by decide⟩
    let digest := Bytes.zero 32
    let r := 0x79be667ef9dcbbac55a06295ce870b07029bfcdb2dce28d959f2815b16f81798
    let y := 0x483ada7726a3c4655da4fbfc0e1108a8fd17b448a68554199c47d08ffb10d4b8
    let s := n - 2 * r
    SignedWith key digest 1 y true r s ∧
      recoverPoint digest r s 1 = .ok (Point.generator.times 2) ∧
      (∃ q, recoverPoint digest r s 0 = .ok q ∧ q ≠ Point.generator.times 2) ∧
      findRecoveryId digest r s key.publicKey = .ok 1 := by
  intro key digest r y s
  have hsecond : secondNumber key digest 1 r = ((2 * r : Nat) : ZMod n) :=
    secondNumber_eq (by decide) (by decide) (by decide +kernel)
  have hs : (s : ZMod n) = -secondNumber key digest 1 r := by
    rw [hsecond]
    exact natCast_eq_neg (by decide)
  have hsigned : SignedWith key digest 1 y true r s :=
    ⟨by decide, by decide, by decide +kernel, by decide, by decide, by decide, by decide, hs⟩
  have hstands : ¬OtherVanishes key digest r := by decide +kernel
  have hid : ownRecoveryId y true = 1 := by decide
  obtain ⟨-, hown, -, hother, hfound⟩ := findRecoveryId_outcomes hsigned
  rw [hid] at hown hother hfound
  rw [if_neg (fun h => hstands h.2)] at hfound
  exact ⟨hsigned, hown, hother hstands, hfound⟩

/-- The digest one, signed with the nonce one and the key for which the base point and `s = 1` stand
for the point at infinity. The identifier one would recover the key, but zero is tried first. -/
theorem findRecoveryId_cutShort :
    let key : PrivateKey :=
      ⟨0xc44ef0982a1d59b3ead42e8c059c13e93883380d1784b5563e60af3f12abff45, by decide, by decide⟩
    let digest := Bytes.ofNatWidth 32 1
    let r := 0x79be667ef9dcbbac55a06295ce870b07029bfcdb2dce28d959f2815b16f81798
    let y := 0x483ada7726a3c4655da4fbfc0e1108a8fd17b448a68554199c47d08ffb10d4b8
    SignedWith key digest 1 y true r 1 ∧
      recoverPoint digest r 1 0 = .error (.signature .infinity) ∧
      recoverPoint digest r 1 1 = .ok (Point.generator.times key.scalar) ∧
      findRecoveryId digest r 1 key.publicKey = .error (.signature .infinity) := by
  intro key digest r y
  have hsecond : secondNumber key digest 1 r = ((n - 1 : Nat) : ZMod n) :=
    secondNumber_eq (by decide) (by decide) (by decide +kernel)
  have hs : ((1 : Nat) : ZMod n) = -secondNumber key digest 1 r := by
    rw [hsecond]
    exact natCast_eq_neg (by decide)
  have hsigned : SignedWith key digest 1 y true r 1 :=
    ⟨by decide, by decide, by decide +kernel, by decide, by decide, by decide, by decide, hs⟩
  have hvanishes : OtherVanishes key digest r := by decide +kernel
  have hid : ownRecoveryId y true = 1 := by decide
  have hzero := hsigned.recoverPoint_other_of_vanishes hvanishes
  have hown := hsigned.recoverPoint_own
  have hfound := hsigned.findRecoveryId_eq
  rw [hid] at hzero hown
  rw [if_pos ⟨hid, hvanishes⟩] at hfound
  exact ⟨hsigned, hzero, hown, hfound⟩

end EthWire.Secp256k1

import EthWire.Proofs.Secp256k1.Search

/-!
# Two recoveries compared

Of the same two numbers, the key that is recovered tells the digest, up to the order of the group,
and the recovery identifier. The same key is recovered from the opposite of `s` and the other
identifier: every signature has one twin.
-/

namespace EthWire.Secp256k1

open Element (base)

/-! ## Keys of two digests, two points and two signatures -/

section Key

variable {digest other : Bytes} {r s recoveryId : Nat} {R : Element}

theorem cast_digestScalar_eq_iff :
    (digestScalar digest : ZMod n) = digestScalar other ↔
      Bytes.toNat digest ≡ Bytes.toNat other [MOD n] := by
  rw [digestScalar, digestScalar, ZMod.natCast_mod, ZMod.natCast_mod, ZMod.natCast_eq_natCast_iff]

/-- The multiples of the base point by two residues are different points. -/
theorem keyAt_digest_eq_iff (hr : (r : ZMod n) ≠ 0) :
    keyAt digest r s R = keyAt other r s R ↔
      Bytes.toNat digest ≡ Bytes.toNat other [MOD n] := by
  rw [keyAt, keyAt, smul_right_inj (inv_ne_zero hr), sub_right_inj,
    (smul_left_injective (ZMod n) Element.base_ne_zero).eq_iff, cast_digestScalar_eq_iff]

theorem keyAt_ne_zero_iff (hr : (r : ZMod n) ≠ 0) :
    keyAt digest r s R ≠ 0 ↔ (s : ZMod n) • R ≠ (digestScalar digest : ZMod n) • base := by
  rw [keyAt, smul_ne_zero_iff_right (inv_ne_zero hr), sub_ne_zero]

theorem keyAt_base_ne_zero (hr : (r : ZMod n) ≠ 0) (hs : s < n) (h : s ≠ digestScalar digest) :
    keyAt digest r s base ≠ 0 := by
  have hdigest : digestScalar digest < n := Nat.mod_lt _ (by decide)
  rw [keyAt_ne_zero_iff hr, (smul_left_injective (ZMod n) Element.base_ne_zero).ne_iff, Ne,
    ZMod.natCast_eq_natCast_iff', Nat.mod_eq_of_lt hs, Nat.mod_eq_of_lt hdigest]
  exact h

/-- Both signs cancel. -/
theorem keyAt_twin (hs : s ≤ n) : keyAt digest r (n - s) (-R) = keyAt digest r s R := by
  rw [keyAt, keyAt, Nat.cast_sub hs, ZMod.natCast_self, zero_sub, neg_smul_neg]

end Key

/-! ## The twin of a signature -/

/-- The same abscissa with the opposite `s` and the other recovery identifier. -/
def Parts.twin (x : Parts) : Parts := ⟨x.r, n - x.s, 1 - x.recoveryId⟩

section Twin

variable {digest : Bytes} {x : Parts}

theorem Parts.InRange.twin (hx : x.InRange) : x.twin.InRange := by
  have hspos := hx.s_pos
  have hslt := hx.s_lt
  refine ⟨hx.r_pos, hx.r_lt, ?_, ?_, Nat.sub_le 1 x.recoveryId⟩
  · show 0 < n - x.s
    omega
  · show n - x.s < n
    omega

theorem Parts.InRange.withRecoveryId {id : Nat} (hx : x.InRange) (hid : id ≤ 1) :
    Parts.InRange ⟨x.r, x.s, id⟩ :=
  ⟨hx.r_pos, hx.r_lt, hx.s_pos, hx.s_lt, hid⟩

/-- Of `s` and its opposite exactly one is the smaller one, as the order is odd. -/
theorem Parts.InRange.halfOrder_lt_twin_iff (hx : x.InRange) :
    halfOrder < x.twin.s ↔ x.s ≤ halfOrder := by
  have hslt := hx.s_lt
  have hn : n = 2 * halfOrder + 1 := by decide
  show halfOrder < n - x.s ↔ x.s ≤ halfOrder
  omega

/-- A signature and its twin name opposite points, which stand for one key. -/
theorem recover_twin (hx : x.InRange) : recover digest x.twin = recover digest x := by
  have hx' := hx.twin
  have hid := hx.recoveryId_le
  rw [recover_of_inRange hx, recover_of_inRange hx']
  by_cases hnamed : ∃ R : Element, R.LiesAt x.r x.recoveryId
  · obtain ⟨R, hR⟩ := hnamed
    have hkey : keyAt digest x.twin.r x.twin.s (-R) = keyAt digest x.r x.s R := keyAt_twin hx.s_lt.le
    rw [recoverPoint_of_liesAt hx.r_lt hx.s_lt hid hR,
      recoverPoint_of_liesAt hx'.r_lt hx'.s_lt hx'.recoveryId_le hR.neg, hkey]
  · have hopposite : ∀ R : Element, ¬R.LiesAt x.twin.r x.twin.recoveryId := by
      intro R hR
      have hneg : (-R).LiesAt x.r (1 - (1 - x.recoveryId)) := hR.neg
      rw [Nat.sub_sub_self hid] at hneg
      exact hnamed ⟨-R, hneg⟩
    rw [recoverPoint_of_not_liesAt hx.r_lt hid (not_exists.mp hnamed),
      recoverPoint_of_not_liesAt hx'.r_lt hx'.recoveryId_le hopposite]

end Twin

/-! ## Two recoveries from the same two numbers -/

section Recovered

variable {digest other : Bytes} {r s i j : Nat} {key key' : PublicKey}

theorem recover_of_liesAt {x : Parts} {R : Element} (hx : x.InRange)
    (hR : R.LiesAt x.r x.recoveryId) (hkey : keyAt digest x.r x.s R ≠ 0) :
    recover digest x = .ok (keyAt digest x.r x.s R).publicKey := by
  rw [recover_of_inRange hx, recoverPoint_of_liesAt hx.r_lt hx.s_lt hx.recoveryId_le hR,
    if_neg hkey]
  rfl

theorem exists_keyAt_of_recover {x : Parts} (hx : x.InRange) (h : recover digest x = .ok key) :
    ∃ R : Element, R.LiesAt x.r x.recoveryId ∧ keyAt digest x.r x.s R ≠ 0 ∧
      key = (keyAt digest x.r x.s R).publicKey := by
  obtain ⟨R, hR, hkey, hok⟩ | ⟨problem, herror⟩ := @recover_cases digest x hx
  · exact ⟨R, hR, hkey, Except.ok.inj (h.symm.trans hok)⟩
  · rw [h] at herror
    cases herror

/-- Points of one abscissa and of different parities are opposite. -/
theorem Element.LiesAt.eq_neg {P Q : Element} (hP : P.LiesAt r i) (hQ : Q.LiesAt r j)
    (hi : i ≤ 1) (hj : j ≤ 1) (hne : i ≠ j) : Q = -P := by
  have hneg := hP.neg
  have hid : 1 - i = j := by omega
  rw [hid] at hneg
  exact hQ.eq hneg

/-- Of the same two numbers, two digests recover the same key by one recovery identifier exactly if
they are the same residue, and the two identifiers recover different keys of one residue. -/
theorem recovered_key_eq_iff (hx : Parts.InRange ⟨r, s, i⟩) (hy : Parts.InRange ⟨r, s, j⟩)
    (h : (split (Parts.toBytes ⟨r, s, i⟩) >>= recover digest) = .ok key)
    (h' : (split (Parts.toBytes ⟨r, s, j⟩) >>= recover other) = .ok key') :
    (i = j → (key = key' ↔ Bytes.toNat digest ≡ Bytes.toNat other [MOD n])) ∧
    (Bytes.toNat digest ≡ Bytes.toNat other [MOD n] → (key = key' ↔ i = j)) := by
  have hr := natCast_ne_zero hx.r_pos hx.r_lt
  have hs := natCast_ne_zero hx.s_pos hx.s_lt
  rw [hx.split_toBytes, ok_bind] at h
  rw [hy.split_toBytes, ok_bind] at h'
  obtain ⟨P, hP, hkey, rfl⟩ := exists_keyAt_of_recover hx h
  obtain ⟨Q, hQ, hkey', rfl⟩ := exists_keyAt_of_recover hy h'
  have hinj : (keyAt digest r s P).publicKey = (keyAt other r s Q).publicKey ↔
      keyAt digest r s P = keyAt other r s Q :=
    ⟨Element.publicKey_inj hkey hkey', congrArg Element.publicKey⟩
  dsimp only
  rw [hinj]
  constructor
  · rintro rfl
    rw [hQ.eq hP, keyAt_digest_eq_iff hr]
  · intro hdigest
    constructor
    · intro heq
      by_contra hne
      rw [hP.eq_neg hQ hx.recoveryId_le hy.recoveryId_le hne] at heq
      have hsame : keyAt digest r s P = keyAt other r s P := (keyAt_digest_eq_iff hr).mpr hdigest
      rw [hsame] at heq
      exact keyAt_ne_keyAt_neg hr hs hP.ne_zero heq
    · rintro rfl
      rw [hQ.eq hP, keyAt_digest_eq_iff hr]
      exact hdigest

/-- The digest of zeros and the one that spells the order are one residue, so they recover one key
from the abscissa of the base point; the other identifier recovers another key. -/
theorem recovered_key_eq_iff_base :
    let r := 0x79be667ef9dcbbac55a06295ce870b07029bfcdb2dce28d959f2815b16f81798
    let zero := Bytes.zero 32
    let order := Bytes.ofNatWidth 32 n
    ∃ key opposite, (split (Parts.toBytes ⟨r, 1, 0⟩) >>= recover zero) = .ok key ∧
      (split (Parts.toBytes ⟨r, 1, 0⟩) >>= recover order) = .ok key ∧
      (split (Parts.toBytes ⟨r, 1, 1⟩) >>= recover zero) = .ok opposite ∧ key ≠ opposite := by
  intro r zero order
  have hx : Parts.InRange ⟨r, 1, 0⟩ := ⟨by decide, by decide, by decide, by decide, by decide⟩
  have hy : Parts.InRange ⟨r, 1, 1⟩ := ⟨by decide, by decide, by decide, by decide, by decide⟩
  have hr := natCast_ne_zero hx.r_pos hx.r_lt
  have hzero : digestScalar zero = 0 := by decide
  have horder : digestScalar order = 0 := by
    rw [digestScalar, Bytes.toNat_ofNatWidth_of_lt n_lt, Nat.mod_self]
  have hkey : ∀ digest, digestScalar digest = 0 → ∀ R : Element, R ≠ 0 → keyAt digest r 1 R ≠ 0 := by
    intro digest hdigest R hR
    have hnothing : (digestScalar digest : ZMod n) • base = 0 := by simp [hdigest]
    rw [keyAt_ne_zero_iff hr, hnothing]
    simpa using hR
  have hfound : ∀ x : Parts, x.InRange → ∀ digest k, recover digest x = .ok k →
      (split x.toBytes >>= recover digest) = .ok k := by
    intro x hx digest k hk
    rw [hx.split_toBytes, ok_bind, hk]
  have hbase := Element.base_ne_zero
  have hfirst := hfound _ hx _ _
    (recover_of_liesAt hx Element.base_liesAt (hkey zero hzero base hbase))
  have hsecond := hfound _ hx _ _
    (recover_of_liesAt hx Element.base_liesAt (hkey order horder base hbase))
  have hthird := hfound _ hy _ _
    (recover_of_liesAt hy Element.base_liesAt.neg (hkey zero hzero (-base) (neg_ne_zero.mpr hbase)))
  have hresidue : Bytes.toNat zero ≡ Bytes.toNat order [MOD n] := hzero.trans horder.symm
  have hsame := ((recovered_key_eq_iff hx hx hfirst hsecond).1 rfl).mpr hresidue
  refine ⟨_, _, hfirst, ?_, hthird, ?_⟩
  · rw [hsame]
    exact hsecond
  · intro heq
    exact absurd (((recovered_key_eq_iff hx hy hfirst hthird).2 rfl).mp heq) (by decide)

end Recovered

end EthWire.Secp256k1

import EthWire.Proofs.Secp256k1.Primality

/-!
# Residues

Differences, inverses and square roots of residues, as elements of the fields of `p` and of `n`
elements. A square root is found for every square and for nothing else.
-/

namespace EthWire.Secp256k1

variable {m : Nat}

theorem natCast_ne_zero {k : Nat} (hpos : 0 < k) (hlt : k < m) : (k : ZMod m) ≠ 0 :=
  fun h => absurd (Nat.le_of_dvd hpos ((ZMod.natCast_eq_zero_iff k m).mp h)) (by omega)

theorem subMod_lt [NeZero m] (a b : Nat) : subMod m a b < m := Nat.mod_lt _ (NeZero.pos m)

@[simp] theorem cast_subMod [NeZero m] (a b : Nat) : (subMod m a b : ZMod m) = a - b := by
  have hle : b % m ≤ m := (Nat.mod_lt b (NeZero.pos m)).le
  rw [subMod, ZMod.natCast_mod, Nat.cast_add, Nat.cast_sub hle, ZMod.natCast_mod,
    ZMod.natCast_self, zero_sub, sub_eq_add_neg]

theorem subMod_eq_val [NeZero m] (a b : Nat) : subMod m a b = ((a : ZMod m) - b).val := by
  rw [← cast_subMod, ZMod.val_natCast_of_lt (subMod_lt a b)]

/-- By Fermat's theorem the power is the inverse; zero is its own inverse on both sides. -/
theorem cast_inverse [Fact m.Prime] (hm : 2 < m) (hbits : m < 2 ^ 256) (a : Nat) :
    (inverse m a : ZMod m) = (a : ZMod m)⁻¹ := by
  rw [inverse, cast_powMod a (by omega)]
  by_cases h0 : (a : ZMod m) = 0
  · rw [h0, inv_zero, zero_pow (by omega)]
  · refine eq_inv_of_mul_eq_one_left ?_
    rw [← pow_succ, show m - 2 + 1 = m - 1 by omega, ZMod.pow_card_sub_one_eq_one h0]

theorem p_lt : p < 2 ^ 256 := by decide

@[simp] theorem cast_inverse_p (a : Nat) : (inverse p a : ZMod p) = (a : ZMod p)⁻¹ :=
  cast_inverse (by decide) p_lt a

theorem cast_inverse_n (a : Nat) : (inverse n a : ZMod n) = (a : ZMod n)⁻¹ :=
  cast_inverse (by decide) (by decide) a

/-! ## Square roots modulo `p` -/

theorem sqrt?_eq_some {a root : Nat} (h : sqrt? a = some root) :
    root < p ∧ (root : ZMod p) ^ 2 = a := by
  unfold sqrt? at h
  dsimp only at h
  split at h
  next hroot =>
    obtain rfl := Option.some.inj h
    refine ⟨?_, ?_⟩
    · rw [powMod_eq a (by decide)]
      exact Nat.mod_lt _ (by decide)
    · rw [pow_two, ← Nat.cast_mul, ZMod.natCast_eq_natCast_iff]
      exact hroot
  next => cases h

/-- As `p` is three modulo four, the power with exponent `(p + 1) / 4` of a square is a root
of it. -/
theorem exists_sqrt? {a : Nat} {y : ZMod p} (h : y ^ 2 = a) : ∃ root, sqrt? a = some root := by
  have hpower : (y ^ 2) ^ ((p + 1) / 4 * 2) = y ^ 2 := by
    have hexponent : 2 * ((p + 1) / 4 * 2) = p + 1 := by decide
    rw [← pow_mul, hexponent, pow_succ, ZMod.pow_card, pow_two]
  refine ⟨_, if_pos ?_⟩
  have hroot : ((powMod p a 256 ((p + 1) / 4) : Nat) : ZMod p) = (y ^ 2) ^ ((p + 1) / 4) := by
    rw [cast_powMod a (by decide), h]
  have hsquare : ((powMod p a 256 ((p + 1) / 4) * powMod p a 256 ((p + 1) / 4) : Nat) : ZMod p)
      = (a : ZMod p) := by
    rw [Nat.cast_mul, hroot, ← pow_two, ← pow_mul, hpower, h]
  exact (ZMod.natCast_eq_natCast_iff _ _ _).mp hsquare

end EthWire.Secp256k1

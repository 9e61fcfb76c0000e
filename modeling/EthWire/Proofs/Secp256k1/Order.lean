import EthWire.Proofs.Secp256k1.Group
import Mathlib.Algebra.Module.ZMod
import Mathlib.Data.ZMod.QuotientGroup
import Mathlib.GroupTheory.Perm.Cycle.Type

/-!
# The order of the group

The curve has exactly `n` points. The multiples of the base point are `n` of them; an abscissa
has two points at most, so that there are less than `3 * n`; and `2 * n` they are not, as no
point is its own opposite. So every point is a multiple of the base point by a residue modulo
the prime `n`, and the residues act on the group as scalars.
-/

namespace EthWire.Secp256k1

namespace Element

/-- Every pair of residues that solves the equation of the curve is a point. -/
theorem exists_toPoint {x y : Nat} (hx : x < p) (hy : y < p)
    (h : y * y % p = (x * x * x + 7) % p) : ∃ P : Element, P.toPoint = .affine x y := by
  have hequation : (y : ZMod p) ^ 2 = (x : ZMod p) ^ 3 + 7 := by
    rw [← cast_curve_value, ← h, ZMod.natCast_mod, Nat.cast_mul, pow_two]
  refine ⟨.some x y (nonsingular_iff.mpr hequation), ?_⟩
  rw [toPoint_some, ZMod.val_natCast_of_lt hx, ZMod.val_natCast_of_lt hy]

theorem exists_generator : ∃ P : Element, P.toPoint = Point.generator :=
  exists_toPoint (by decide) (by decide) (by decide)

/-- The base point. -/
noncomputable def base : Element := exists_generator.choose

@[simp] theorem toPoint_base : base.toPoint = Point.generator := exists_generator.choose_spec

theorem base_ne_zero : base ≠ 0 := by
  intro h
  have hpoint := toPoint_base
  rw [h] at hpoint
  cases hpoint

theorem n_nsmul_base : n • base = 0 := by
  have htimes : Point.generator.times n = .infinity := by decide +kernel
  have hpoint := Point.times_toPoint base (k := n) (by decide)
  rw [toPoint_base, htimes] at hpoint
  exact toPoint_injective hpoint.symm

theorem addOrderOf_base : addOrderOf base = n := addOrderOf_eq_prime n_nsmul_base base_ne_zero

/-! ## The number of points -/

/-- The abscissa of a point and the parity of its ordinate. -/
def place : Element → Option (ZMod p × Bool)
  | .zero => none
  | .some x y _ => some (x, decide (y.val % 2 = 1))

theorem place_injective : Function.Injective place := by
  intro P Q h
  match P, Q with
  | .zero, .zero => rfl
  | .zero, .some x y _ => cases h
  | .some x y _, .zero => cases h
  | .some x₁ y₁ h₁, .some x₂ y₂ h₂ =>
    obtain ⟨hx, hparity⟩ := Prod.mk.inj (Option.some.inj h)
    rw [decide_eq_decide] at hparity
    have hfirst : LiesAt x₂.val (y₂.val % 2) (.some x₁ y₁ h₁) := ⟨by rw [hx], by omega⟩
    exact hfirst.eq ⟨rfl, rfl⟩

instance : Finite Element := Finite.of_injective place place_injective

theorem card_le : Nat.card Element ≤ 2 * p + 1 := by
  have hle := Nat.card_le_card_of_injective place place_injective
  rw [Finite.card_option, Nat.card_prod, Nat.card_zmod] at hle
  simpa [mul_comm] using hle

/-- Only zero is its own opposite. -/
theorem eq_zero_of_add_self {P : Element} (h : P + P = 0) : P = 0 := by
  match P with
  | .zero => rfl
  | .some x y hxy =>
    have hneg := eq_neg_of_add_eq_zero_left h
    rw [WeierstrassCurve.Affine.Point.neg_some] at hneg
    have hy : y = -y := (WeierstrassCurve.Affine.Point.some.inj hneg).2.trans (negY_eq x y)
    exact absurd (eq_neg_self_iff.mp hy) (ordinate_ne_zero hxy)

theorem not_two_dvd_card : ¬2 ∣ Nat.card Element := by
  intro hdvd
  obtain ⟨P, hP⟩ := exists_prime_addOrderOf_dvd_card' 2 hdvd
  have hself : P + P = 0 := by rw [← two_nsmul, ← hP, addOrderOf_nsmul_eq_zero]
  rw [eq_zero_of_add_self hself, addOrderOf_zero] at hP
  exact absurd hP (by decide)

/-- The curve has `n` points, the point at infinity included. -/
theorem card_eq : Nat.card Element = n := by
  obtain ⟨k, hk⟩ := addOrderOf_base ▸ addOrderOf_dvd_natCard base
  have hpos : 0 < Nat.card Element := Nat.card_pos
  have hle := card_le
  have hbound : 2 * p + 1 < n * 3 := by decide
  have hk3 : k < 3 := by
    rw [hk] at hle
    exact Nat.lt_of_mul_lt_mul_left (hle.trans_lt hbound)
  have hk2 : k ≠ 2 := fun h => not_two_dvd_card ⟨n, by rw [hk, h, mul_comm]⟩
  have hk0 : k ≠ 0 := fun h => by rw [hk, h] at hpos; exact absurd hpos (by decide)
  obtain rfl : k = 1 := by omega
  rw [hk, mul_one]

theorem n_nsmul (P : Element) : n • P = 0 := by
  rw [← card_eq]
  exact card_nsmul_eq_zero'

end Element

noncomputable instance : Module (ZMod n) Element := AddCommGroup.zmodModule Element.n_nsmul

end EthWire.Secp256k1

import EthWire.Proofs.Secp256k1.Field
import Mathlib.AlgebraicGeometry.EllipticCurve.Affine.Point

/-!
# The group of the curve

The points of `y² = x³ + 7` over the field of `p` elements are a group. Sums, doubles and
multiples of points, as the arithmetic of the curve computes them on coordinates, are those of
the group, and a point is found from its abscissa and the parity of its ordinate exactly if
there is one.
-/

namespace EthWire.Secp256k1

/-- The curve `y² = x³ + 7`. -/
def curve : WeierstrassCurve.Affine (ZMod p) := ⟨0, 0, 0, 0, 7⟩

/-- A point of the curve as an element of its group; the point at infinity is zero. -/
abbrev Element := curve.Point

/-- Only zero is its own opposite, as `p` is odd. -/
theorem eq_neg_self_iff {y : ZMod p} : y = -y ↔ y = 0 := by
  have htwo : ((2 : Nat) : ZMod p) ≠ 0 := natCast_ne_zero (by decide) (by decide)
  rw [eq_neg_iff_add_eq_zero, ← two_mul, mul_eq_zero]
  exact or_iff_right (by exact_mod_cast htwo)

theorem nonsingular_iff {x y : ZMod p} : curve.Nonsingular x y ↔ y ^ 2 = x ^ 3 + 7 := by
  have hdiscriminant : curve.Δ = -((21168 : Nat) : ZMod p) := by
    simp only [WeierstrassCurve.Δ, WeierstrassCurve.b₂, WeierstrassCurve.b₄, WeierstrassCurve.b₆,
      WeierstrassCurve.b₈, curve]
    push_cast
    ring
  have hne : curve.Δ ≠ 0 := by
    rw [hdiscriminant]
    exact neg_ne_zero.mpr (natCast_ne_zero (by decide) (by decide))
  rw [← WeierstrassCurve.Affine.equation_iff_nonsingular_of_Δ_ne_zero hne,
    WeierstrassCurve.Affine.equation_iff]
  simp [curve]

theorem negY_eq (x y : ZMod p) : curve.negY x y = -y := by
  simp [WeierstrassCurve.Affine.negY, curve]

/-- Minus seven is no cube. -/
theorem cube_add_seven_ne_zero (x : ZMod p) : x ^ 3 + 7 ≠ 0 := by
  intro h
  have hcube : x ^ 3 = ((p - 7 : Nat) : ZMod p) := by
    rw [Nat.cast_sub (by decide), ZMod.natCast_self, zero_sub]
    exact eq_neg_of_add_eq_zero_left h
  have hx : x ≠ 0 := by
    rintro rfl
    rw [zero_pow (by decide), zero_add] at h
    exact @natCast_ne_zero p 7 (by decide) (by decide) h
  have hone : ((powMod p (p - 7) 256 ((p - 1) / 3) : Nat) : ZMod p) = ((1 : Nat) : ZMod p) := by
    have hexponent : 3 * ((p - 1) / 3) = p - 1 := by decide
    rw [cast_powMod _ (by decide), ← hcube, ← pow_mul, hexponent, ZMod.pow_card_sub_one_eq_one hx,
      Nat.cast_one]
  have hmod : powMod p (p - 7) 256 ((p - 1) / 3) % p = 1 % p :=
    (ZMod.natCast_eq_natCast_iff' _ _ _).mp hone
  exact absurd hmod (by decide +kernel)

theorem ordinate_ne_zero {x y : ZMod p} (h : curve.Nonsingular x y) : y ≠ 0 := by
  rintro rfl
  exact cube_add_seven_ne_zero x (by rw [← nonsingular_iff.mp h, zero_pow two_ne_zero])

namespace Element

/-- The coordinates of an element as numbers below `p`. -/
def toPoint : Element → Point
  | .zero => .infinity
  | .some x y _ => .affine x.val y.val

@[simp] theorem toPoint_zero : toPoint 0 = .infinity := rfl

@[simp] theorem toPoint_some {x y : ZMod p} (h : curve.Nonsingular x y) :
    toPoint (.some x y h) = .affine x.val y.val := rfl

theorem toPoint_injective : Function.Injective toPoint := by
  intro P Q h
  match P, Q with
  | .zero, .zero => rfl
  | .zero, .some x y _ => cases h
  | .some x y _, .zero => cases h
  | .some x₁ y₁ _, .some x₂ y₂ _ =>
    obtain ⟨hx, hy⟩ := Point.affine.inj h
    obtain rfl := ZMod.val_injective p hx
    obtain rfl := ZMod.val_injective p hy
    rfl

end Element

/-! ## Sums and multiples -/

namespace Point

variable (P Q : Element)

/-- The third point of a line, with its ordinate negated, has the coordinates of the sum. -/
theorem onLine_eq (m : Nat) (x₁ y₁ x₂ : ZMod p) :
    onLine m x₁.val y₁.val x₂.val
      = .affine (curve.addX x₁ x₂ m).val (curve.addY x₁ x₂ y₁ m).val := by
  have hx : (m : ZMod p) * m - x₁ - x₂ = curve.addX x₁ x₂ m := by
    simp only [WeierstrassCurve.Affine.addX, curve]
    ring
  have hy : (m : ZMod p) * (x₁ - curve.addX x₁ x₂ m) - y₁ = curve.addY x₁ x₂ y₁ m := by
    rw [WeierstrassCurve.Affine.addY, negY_eq, WeierstrassCurve.Affine.negAddY]
    ring
  simp only [onLine, subMod_eq_val, Nat.cast_mul, ZMod.natCast_zmod_val, hx, hy]

theorem double_toPoint : P.toPoint.double = (P + P).toPoint := by
  match P with
  | .zero => rfl
  | .some x y h =>
    have hy : y ≠ 0 := ordinate_ne_zero h
    have hne : y ≠ curve.negY x y := by
      rw [negY_eq]
      exact fun heq => hy (eq_neg_self_iff.mp heq)
    have hslope : ((3 * x.val * x.val * inverse p (2 * y.val) % p : Nat) : ZMod p)
        = curve.slope x x y y := by
      rw [WeierstrassCurve.Affine.slope_of_Y_ne rfl hne, negY_eq]
      simp [curve, div_eq_mul_inv]
      ring
    rw [Element.toPoint_some, double, if_neg (fun h0 => hy ((ZMod.val_eq_zero y).mp h0)),
      onLine_eq, hslope, WeierstrassCurve.Affine.Point.add_self_of_Y_ne hne]
    rfl

theorem add_toPoint : P.toPoint.add Q.toPoint = (P + Q).toPoint := by
  match P, Q with
  | .zero, Q => rfl
  | .some x y h, .zero => rfl
  | .some x₁ y₁ h₁, .some x₂ y₂ h₂ =>
    rw [Element.toPoint_some, Element.toPoint_some, add]
    by_cases hx : x₁ = x₂
    · subst hx
      rw [if_pos rfl]
      by_cases hy : y₁ = y₂
      · subst hy
        rw [if_pos rfl]
        exact double_toPoint (.some x₁ y₁ h₁)
      · have hneg : y₁ = curve.negY x₁ y₂ :=
          (WeierstrassCurve.Affine.Y_eq_of_X_eq h₁.1 h₂.1 rfl).resolve_left hy
        rw [if_neg (fun h => hy (ZMod.val_injective p h)),
          WeierstrassCurve.Affine.Point.add_of_Y_eq rfl hneg]
        rfl
    · have hslope : ((subMod p y₂.val y₁.val * inverse p (subMod p x₂.val x₁.val) % p : Nat)
          : ZMod p) = curve.slope x₁ x₂ y₁ y₂ := by
        rw [WeierstrassCurve.Affine.slope_of_X_ne hx, ← neg_sub y₂, ← neg_sub x₂, neg_div_neg_eq]
        simp [div_eq_mul_inv]
      rw [if_neg (fun h => hx (ZMod.val_injective p h)), onLine_eq, hslope,
        WeierstrassCurve.Affine.Point.add_of_X_ne hx]
      rfl

theorem timesBits_toPoint {bits k : Nat} (hk : k < 2 ^ bits) :
    timesBits bits k P.toPoint = (k • P).toPoint := by
  induction bits generalizing k with
  | zero =>
    obtain rfl : k = 0 := by omega
    rw [zero_nsmul]
    rfl
  | succ bits ih =>
    have hhalf : (k / 2) • P + (k / 2) • P = (k / 2 * 2) • P := by
      rw [← add_nsmul, ← mul_two]
    rw [timesBits, ih (by rw [pow_succ] at hk; omega), double_toPoint, hhalf]
    split
    next hodd =>
      have hsplit : k = k / 2 * 2 + 1 := by omega
      rw [add_toPoint, ← succ_nsmul, ← hsplit]
    next heven => rw [Nat.div_mul_cancel (by omega)]

theorem times_toPoint {k : Nat} (hk : k < 2 ^ 256) : P.toPoint.times k = (k • P).toPoint :=
  timesBits_toPoint P hk

end Point

/-! ## Points of a given abscissa -/

/-- The abscissa of a point and the parity of its ordinate; the point at infinity has none. -/
def Element.LiesAt (x parity : Nat) : Element → Prop
  | .zero => False
  | .some X Y _ => X.val = x ∧ Y.val % 2 = parity

/-- Of the two ordinates of an abscissa one is even and the other one odd. -/
theorem val_neg_mod_two {y : ZMod p} (hy : y ≠ 0) : (-y).val % 2 = 1 - y.val % 2 := by
  have hlt := ZMod.val_lt y
  have hpos : 0 < y.val := Nat.pos_of_ne_zero fun h => hy ((ZMod.val_eq_zero y).mp h)
  have hodd : p % 2 = 1 := by decide
  have : NeZero y := ⟨hy⟩
  rw [ZMod.val_neg_of_ne_zero]
  omega

theorem eq_of_sq_eq_of_parity {y z : ZMod p} (hsquare : y ^ 2 = z ^ 2) (hz : z ≠ 0)
    (hparity : y.val % 2 = z.val % 2) : y = z := by
  rcases sq_eq_sq_iff_eq_or_eq_neg.mp hsquare with h | h
  · exact h
  · rw [h, val_neg_mod_two hz] at hparity
    omega

section Abscissa

variable {x parity : Nat}

theorem Element.LiesAt.eq {P Q : Element} (hP : P.LiesAt x parity) (hQ : Q.LiesAt x parity) :
    P = Q := by
  match P, Q with
  | .some x₁ y₁ h₁, .some x₂ y₂ h₂ =>
    obtain rfl := ZMod.val_injective p (hP.1.trans hQ.1.symm)
    have hsquare : y₁ ^ 2 = y₂ ^ 2 := by rw [nonsingular_iff.mp h₁, nonsingular_iff.mp h₂]
    obtain rfl := eq_of_sq_eq_of_parity hsquare (ordinate_ne_zero h₂) (hP.2.trans hQ.2.symm)
    rfl

theorem cast_curve_value : ((x * x * x + 7) % p : Nat) = (x : ZMod p) ^ 3 + 7 := by
  rw [ZMod.natCast_mod]
  push_cast
  ring

/-- What is found for an abscissa is a point there. -/
theorem Point.ofAbscissa?_eq_some (hx : x < p) (hparity : parity ≤ 1) {q : Point}
    (h : Point.ofAbscissa? x parity = some q) : ∃ P : Element, P.LiesAt x parity ∧ q = P.toPoint := by
  obtain ⟨root, hroot, rfl⟩ := Option.map_eq_some_iff.mp h
  obtain ⟨hlt, hsquare⟩ := sqrt?_eq_some hroot
  rw [cast_curve_value] at hsquare
  have hpoint : curve.Nonsingular (x : ZMod p) (root : ZMod p) := nonsingular_iff.mpr hsquare
  have hne : (root : ZMod p) ≠ 0 := ordinate_ne_zero hpoint
  have hval : (root : ZMod p).val = root := ZMod.val_natCast_of_lt hlt
  have hvalx : (x : ZMod p).val = x := ZMod.val_natCast_of_lt hx
  split
  next heven =>
    refine ⟨.some x root hpoint, ⟨hvalx, by rw [hval, heven]⟩, ?_⟩
    rw [Element.toPoint_some, hvalx, hval]
  next hodd =>
    have hneg := val_neg_mod_two hne
    have hvalneg : (-(root : ZMod p)).val = p - root := by
      have : NeZero (root : ZMod p) := ⟨hne⟩
      rw [ZMod.val_neg_of_ne_zero, hval]
    refine ⟨.some x (-(root : ZMod p)) (nonsingular_iff.mpr (by rw [neg_sq, hsquare])),
      ⟨hvalx, by omega⟩, ?_⟩
    rw [Element.toPoint_some, hvalx, hvalneg]

/-- The point of an abscissa and a parity is found if there is one, and nothing else is. -/
theorem Point.ofAbscissa?_eq_some_iff (hx : x < p) (hparity : parity ≤ 1) {q : Point} :
    Point.ofAbscissa? x parity = some q ↔ ∃ P : Element, P.LiesAt x parity ∧ q = P.toPoint := by
  refine ⟨Point.ofAbscissa?_eq_some hx hparity, ?_⟩
  rintro ⟨P, hP, rfl⟩
  match P with
  | .some X Y h =>
    have hsquare : Y ^ 2 = (((x * x * x + 7) % p : Nat) : ZMod p) := by
      rw [cast_curve_value, ← hP.1, ZMod.natCast_zmod_val, nonsingular_iff.mp h]
    obtain ⟨root, hroot⟩ := exists_sqrt? hsquare
    obtain ⟨q, hq⟩ : ∃ q, Point.ofAbscissa? x parity = some q := by
      rw [Point.ofAbscissa?, hroot]
      exact ⟨_, rfl⟩
    obtain ⟨P', hP', rfl⟩ := Point.ofAbscissa?_eq_some hx hparity hq
    rw [hq, hP'.eq hP]

end Abscissa

end EthWire.Secp256k1

import EthWire.Binary64.Shortest
import EthWire.Proofs.BigEndian
import EthWire.Proofs.Binary64.Ratio

/-!
# Decimals of finite numbers

The number nearest to a decimal does not depend on zeros at the end of its digits, and the
decimal that is written for a finite number is one to which that number is nearest.
-/

namespace EthWire.Binary64

/-! ## The number nearest to a decimal -/

/-- The number with another sign. -/
def withSign (negative : Bool) : Binary64 → Binary64
  | .nan shared => .nan shared
  | .infinite _ => .infinite negative
  | .finite _ m e => .finite negative m e

theorem ofRatio_eq_withSign (negative : Bool) (num den : Nat) :
    ofRatio negative num den = (ofRatio false num den).withSign negative := by
  unfold ofRatio
  split
  · rfl
  · dsimp only
    split
    · dsimp only
      split
      · rfl
      · rfl
    · dsimp only
      split
      · rfl
      · rfl

/-- The power of ten just above a decimal, from which its range is judged. -/
def magnitude (digits : Nat) (exponent : Int) : Int :=
  (Positional.digits 10 digits).length + exponent

theorem ofDecimal_eq {negative : Bool} {digits : Nat} {exponent : Int} (h : digits ≠ 0) :
    ofDecimal negative digits exponent =
      if magnitude digits exponent < -330 then .finite negative 0 minExponent
      else if 310 < magnitude digits exponent then .infinite negative
      else ofRatio negative (shiftDecimal digits 1 exponent).1 (shiftDecimal digits 1 exponent).2 := by
  have hmagnitude : digits = 0 ∨ magnitude digits exponent < -330 ↔
      magnitude digits exponent < -330 := or_iff_right h
  unfold ofDecimal
  dsimp only
  rw [← magnitude, if_congr hmagnitude rfl rfl]
  cases exponent with
  | ofNat e => rfl
  | negSucc e => rw [shiftDecimal, Nat.one_mul]

theorem ofDecimal_zero (negative : Bool) (exponent : Int) :
    ofDecimal negative 0 exponent = .finite negative 0 minExponent := by
  unfold ofDecimal
  exact if_pos (.inl rfl)

theorem ofDecimal_eq_withSign (negative : Bool) (digits : Nat) (exponent : Int) :
    ofDecimal negative digits exponent = (ofDecimal false digits exponent).withSign negative := by
  by_cases h : digits = 0
  · subst h
    rw [ofDecimal_zero, ofDecimal_zero]
    rfl
  · rw [ofDecimal_eq h, ofDecimal_eq h]
    split
    · rfl
    · split
      · rfl
      · exact ofRatio_eq_withSign ..

theorem shiftDecimal_pos {num den : Nat} (hden : 0 < den) (shift : Int) :
    0 < (shiftDecimal num den shift).2 := by
  cases shift with
  | ofNat e => exact hden
  | negSucc e => exact Nat.mul_pos hden (Nat.pow_pos (by decide))

theorem shiftDecimal_div (num den : Nat) (shift : Int) :
    ((shiftDecimal num den shift).1 : ℚ) / (shiftDecimal num den shift).2
      = (num : ℚ) / den * 10 ^ shift := by
  cases shift with
  | ofNat e =>
    have hpow : Nat.pow 10 e = 10 ^ e := rfl
    rw [shiftDecimal, hpow, Int.ofNat_eq_natCast, zpow_natCast, Nat.cast_mul, Nat.cast_pow]
    exact mul_div_right_comm ..
  | negSucc e =>
    have hpow : Nat.pow 10 (e + 1) = 10 ^ (e + 1) := rfl
    rw [shiftDecimal, hpow, zpow_negSucc, Nat.cast_mul, Nat.cast_pow, ← div_div, div_eq_mul_inv _ (_ ^ _)]
    rfl

theorem length_digits_mul_pow {digits : Nat} (h : digits ≠ 0) (k : Nat) :
    (Positional.digits 10 (digits * 10 ^ k)).length = (Positional.digits 10 digits).length + k := by
  rw [Positional.digits_eq_reverse (by decide), Positional.digits_eq_reverse (by decide),
    Nat.mul_comm, Nat.digits_base_pow_mul (by decide) (Nat.pos_of_ne_zero h)]
  simp [Nat.add_comm]

/-- Zeros at the end of the digits count for nothing. -/
theorem ofDecimal_mul_pow (negative : Bool) (digits k : Nat) (exponent : Int) :
    ofDecimal negative (digits * 10 ^ k) (exponent - k) = ofDecimal negative digits exponent := by
  by_cases h : digits = 0
  · rw [h, Nat.zero_mul, ofDecimal_zero, ofDecimal_zero]
  · have hne : digits * 10 ^ k ≠ 0 := Nat.mul_ne_zero h (Nat.ne_of_gt (Nat.pow_pos (by decide)))
    have hmagnitude : magnitude (digits * 10 ^ k) (exponent - k) = magnitude digits exponent := by
      rw [magnitude, magnitude, length_digits_mul_pow h]
      push_cast
      ring
    have hvalue : ((shiftDecimal (digits * 10 ^ k) 1 (exponent - k)).1 : ℚ)
          / (shiftDecimal (digits * 10 ^ k) 1 (exponent - k)).2
        = (shiftDecimal digits 1 exponent).1 / (shiftDecimal digits 1 exponent).2 := by
      rw [shiftDecimal_div, shiftDecimal_div, zpow_sub₀ (by norm_num), zpow_natCast]
      push_cast
      field_simp
    rw [ofDecimal_eq hne, ofDecimal_eq h, hmagnitude,
      ofRatio_congr (shiftDecimal_pos Nat.one_pos _) (shiftDecimal_pos Nat.one_pos _) hvalue]

/-! ## The shortest decimal -/

/-- The value of a decimal lies below the power of ten of its magnitude, and not below the next
lower one. -/
theorem magnitude_bounds {digits : Nat} (h : digits ≠ 0) (exponent : Int) :
    (10 : ℚ) ^ (magnitude digits exponent - 1) ≤ digits * 10 ^ exponent ∧
      (digits : ℚ) * 10 ^ exponent < 10 ^ magnitude digits exponent := by
  have hscale : (0 : ℚ) < 10 ^ exponent := zpow_pos (by norm_num) exponent
  have hlt : digits < 10 ^ (Positional.digits 10 digits).length :=
    (Positional.length_digits_le_iff (by decide) _ _).mp (Nat.le_refl _)
  have hle : 10 ^ ((Positional.digits 10 digits).length - 1) ≤ digits := by
    by_contra hsmall
    have hlength := (Positional.length_digits_le_iff (by decide) digits _).mpr
      (Nat.lt_of_not_le hsmall)
    have hempty : (Positional.digits 10 digits).length = 0 := by omega
    rw [hempty] at hlt
    omega
  have hpos : 0 < (Positional.digits 10 digits).length := by
    by_contra hempty
    rw [Nat.eq_zero_of_not_pos hempty] at hlt
    omega
  unfold magnitude
  constructor
  · have hexp : ((Positional.digits 10 digits).length : Int) + exponent - 1
        = ((Positional.digits 10 digits).length - 1 : Nat) + exponent := by omega
    rw [hexp, zpow_add₀ (by norm_num), zpow_natCast]
    refine mul_le_mul_of_nonneg_right ?_ hscale.le
    exact_mod_cast hle
  · rw [zpow_add₀ (by norm_num), zpow_natCast]
    refine mul_lt_mul_of_pos_right ?_ hscale
    exact_mod_cast hlt

theorem exactDecimal_value (m : Nat) (e : Int) :
    ((exactDecimal m e).digits : ℚ) * 10 ^ (exactDecimal m e).exponent = m * 2 ^ e := by
  cases e with
  | ofNat e =>
    have hpow : Nat.pow 2 e = 2 ^ e := rfl
    rw [exactDecimal, hpow, Int.ofNat_eq_natCast, zpow_natCast]
    push_cast
    ring
  | negSucc e =>
    have hpow : Nat.pow 5 (e + 1) = 5 ^ (e + 1) := rfl
    have hexp : -((e : Int) + 1) = Int.negSucc e := rfl
    have hten : (10 : ℚ) ^ (e + 1) = 5 ^ (e + 1) * 2 ^ (e + 1) := by
      rw [← mul_pow]
      norm_num
    rw [exactDecimal, hpow]
    dsimp only
    rw [hexp, zpow_negSucc, zpow_negSucc, hten]
    push_cast
    field_simp

/-- Every finite number lies in the range of powers of ten in which a decimal is rounded. -/
theorem minExponent_lt : (10 : ℚ) ^ (-330 : Int) < 2 ^ minExponent := by
  have hnat : 2 ^ 1074 < 10 ^ 330 := by decide +kernel
  have hcast : (2 : ℚ) ^ 1074 < 10 ^ 330 := by exact_mod_cast hnat
  rw [show (-330 : Int) = -(330 : Nat) from rfl, show minExponent = -(1074 : Nat) from rfl,
    zpow_neg, zpow_neg, zpow_natCast, zpow_natCast]
  exact (inv_lt_inv₀ (pow_pos (by norm_num) _) (pow_pos (by norm_num) _)).mpr hcast

theorem maxExponent_lt : (2 : ℚ) ^ 53 * 2 ^ maxExponent < 10 ^ (310 : Int) := by
  have hnat : 2 ^ 53 * 2 ^ 971 < 10 ^ 310 := by decide +kernel
  rw [show maxExponent = (971 : Nat) from rfl, show (310 : Int) = (310 : Nat) from rfl,
    zpow_natCast, zpow_natCast]
  exact_mod_cast hnat

/-- The exact decimal of a finite number lies in the range in which it is rounded. -/
theorem ofDecimal_exactDecimal {m : Nat} {e : Int} (hm : m ≠ 0)
    (hcanonical : Canonical (.finite false m e)) :
    ofDecimal false (exactDecimal m e).digits (exactDecimal m e).exponent = .finite false m e := by
  have hvalue := exactDecimal_value m e
  have hmpos : (1 : ℚ) ≤ m := Nat.one_le_cast.mpr (Nat.pos_of_ne_zero hm)
  have hdigits : (exactDecimal m e).digits ≠ 0 := by
    cases e with
    | ofNat e => exact Nat.mul_ne_zero hm (Nat.ne_of_gt (Nat.pow_pos (by decide)))
    | negSucc e => exact Nat.mul_ne_zero hm (Nat.ne_of_gt (Nat.pow_pos (by decide)))
  obtain ⟨hlower, hupper⟩ := magnitude_bounds hdigits (exactDecimal m e).exponent
  rw [hvalue] at hlower hupper
  obtain ⟨hlt, hmin, hmax, -⟩ := id hcanonical
  have hleast : (10 : ℚ) ^ (-330 : Int) < m * 2 ^ e := by
    calc (10 : ℚ) ^ (-330 : Int) < 1 * 2 ^ minExponent := by
          rw [one_mul]
          exact minExponent_lt
      _ ≤ m * 2 ^ e := mul_le_mul hmpos (zpow_le_zpow_right₀ (by norm_num) hmin)
        (zpow_nonneg (by norm_num) _) (by linarith)
  have hgreatest : (m : ℚ) * 2 ^ e < 10 ^ (310 : Int) := by
    have hlt' : (m : ℚ) < 2 ^ 53 := by exact_mod_cast hlt
    calc (m : ℚ) * 2 ^ e ≤ 2 ^ 53 * 2 ^ maxExponent :=
          mul_le_mul hlt'.le (zpow_le_zpow_right₀ (by norm_num) hmax)
            (zpow_nonneg (by norm_num) _) (by norm_num)
      _ < 10 ^ (310 : Int) := maxExponent_lt
  have habove := (zpow_lt_zpow_iff_right₀ (by norm_num : (1 : ℚ) < 10)).mp (hleast.trans hupper)
  have hbelow := (zpow_lt_zpow_iff_right₀ (by norm_num : (1 : ℚ) < 10)).mp
    (hlower.trans_lt hgreatest)
  rw [ofDecimal_eq hdigits, if_neg (by omega), if_neg (by omega)]
  refine ofRatio_exact hm hcanonical (shiftDecimal_pos Nat.one_pos _) ?_
  rw [shiftDecimal_div, Nat.cast_one, div_one, hvalue]

/-- A finite number is nearest to the decimal that is written for it. -/
theorem ofDecimal_shortest {negative : Bool} {m : Nat} {e : Int} (hm : m ≠ 0)
    (hcanonical : Canonical (.finite negative m e)) :
    ofDecimal negative (shortest m e).digits (shortest m e).exponent = .finite negative m e := by
  have hplain : ofDecimal false (shortest m e).digits (shortest m e).exponent
      = .finite false m e := by
    unfold shortest
    dsimp only
    generalize (List.range 17).flatMap _ = candidates
    cases hfound : candidates.find? fun c =>
        ofDecimal false c.digits c.exponent == .finite false m e with
    | none => exact ofDecimal_exactDecimal hm hcanonical
    | some c =>
      have hc := List.find?_some hfound
      exact eq_of_beq hc
  rw [ofDecimal_eq_withSign, hplain]
  rfl

theorem shortest_digits_ne_zero {m : Nat} {e : Int} (hm : m ≠ 0)
    (hcanonical : Canonical (.finite false m e)) : (shortest m e).digits ≠ 0 := by
  intro hzero
  have hread := ofDecimal_shortest hm hcanonical
  rw [hzero, ofDecimal_zero] at hread
  cases hread
  exact hm rfl

end EthWire.Binary64

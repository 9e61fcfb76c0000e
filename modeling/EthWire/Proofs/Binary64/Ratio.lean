import EthWire.Binary64.Basic
import Mathlib.Algebra.Order.Field.Basic
import Mathlib.Data.Int.Log
import Mathlib.Data.Rat.Floor
import Mathlib.Tactic.FieldSimp
import Mathlib.Tactic.Linarith
import Mathlib.Tactic.Ring

/-!
# The number nearest to a ratio

Rounding sees the value of a ratio only, not how it is written, and it keeps a number that is
finite already.
-/

namespace EthWire.Binary64

/-! ## The scaled ratio -/

theorem scaledRatio_pos {num den : Nat} (hden : 0 < den) (e : Int) :
    0 < (scaledRatio num den e).2 := by
  cases e with
  | ofNat e => exact Nat.mul_pos hden (Nat.two_pow_pos e)
  | negSucc e => exact hden

theorem scaledRatio_div {num den : Nat} (hden : 0 < den) (e : Int) :
    ((scaledRatio num den e).1 : ℚ) / (scaledRatio num den e).2 = (num : ℚ) / den / 2 ^ e := by
  have hne : (den : ℚ) ≠ 0 := Nat.cast_ne_zero.mpr (Nat.ne_of_gt hden)
  cases e with
  | ofNat e =>
    have hpow : Nat.pow 2 e = 2 ^ e := rfl
    rw [scaledRatio, hpow, Int.ofNat_eq_natCast, zpow_natCast, Nat.cast_mul, Nat.cast_pow,
      div_div]
    rfl
  | negSucc e =>
    have hpow : Nat.pow 2 (e + 1) = 2 ^ (e + 1) := rfl
    rw [scaledRatio, hpow, zpow_negSucc, Nat.cast_mul, Nat.cast_pow]
    field_simp
    rfl

/-- Comparing with the scaled ratio is comparing with the ratio at the scale. -/
theorem mul_le_scaledRatio {num den : Nat} (hden : 0 < den) (e : Int) (k : Nat) :
    k * (scaledRatio num den e).2 ≤ (scaledRatio num den e).1 ↔
      (k : ℚ) * 2 ^ e ≤ (num : ℚ) / den := by
  have hpos : (0 : ℚ) < (scaledRatio num den e).2 := Nat.cast_pos.mpr (scaledRatio_pos hden e)
  have hscale : (0 : ℚ) < 2 ^ e := zpow_pos (by norm_num) e
  rw [← le_div_iff₀ hscale, ← scaledRatio_div hden e, le_div_iff₀ hpos]
  exact_mod_cast Iff.rfl

theorem ratio_pos {num den : Nat} (hnum : 0 < num) (hden : 0 < den) : (0 : ℚ) < (num : ℚ) / den :=
  div_pos (Nat.cast_pos.mpr hnum) (Nat.cast_pos.mpr hden)

/-- The bits of the scaled ratio are told by the logarithm of the ratio. -/
theorem two_pow_le_scaledRatio {num den : Nat} (hnum : 0 < num) (hden : 0 < den) (k : Nat)
    (e : Int) :
    2 ^ k * (scaledRatio num den e).2 ≤ (scaledRatio num den e).1 ↔
      (k : Int) + e ≤ Int.log 2 ((num : ℚ) / den) := by
  have hpow : ((2 ^ k : Nat) : ℚ) * 2 ^ e = 2 ^ ((k : Int) + e) := by
    rw [zpow_add₀ (by norm_num : (2 : ℚ) ≠ 0), zpow_natCast, Nat.cast_pow, Nat.cast_ofNat]
  rw [mul_le_scaledRatio hden, hpow,
    ← Int.zpow_le_iff_le_log (by norm_num : 1 < 2) (ratio_pos hnum hden)]
  rfl

/-! ## The exponent -/

/-- The binary logarithms of its parts leave two values for the one of a ratio. -/
theorem log_ratio_bounds {num den : Nat} (hnum : 0 < num) (hden : 0 < den) :
    (num.log2 : Int) - den.log2 - 1 ≤ Int.log 2 ((num : ℚ) / den) ∧
      Int.log 2 ((num : ℚ) / den) < (num.log2 : Int) - den.log2 + 1 := by
  have hden' : (0 : ℚ) < den := Nat.cast_pos.mpr hden
  have hq := ratio_pos hnum hden
  have htwo : (2 : ℚ) ≠ 0 := by norm_num
  constructor
  · refine (Int.zpow_le_iff_le_log (by norm_num : 1 < 2) hq).mp ?_
    have hnumle : (2 : ℚ) ^ num.log2 ≤ num := by
      exact_mod_cast Nat.log2_self_le (Nat.ne_of_gt hnum)
    have hdenlt : (den : ℚ) < 2 ^ (den.log2 + 1) := by
      exact_mod_cast @Nat.lt_log2_self den
    rw [le_div_iff₀ hden']
    calc (2 : ℚ) ^ ((num.log2 : Int) - den.log2 - 1) * den
        ≤ 2 ^ ((num.log2 : Int) - den.log2 - 1) * 2 ^ (den.log2 + 1) :=
          mul_le_mul_of_nonneg_left hdenlt.le (zpow_nonneg (by norm_num) _)
      _ = 2 ^ num.log2 := by
        rw [← zpow_natCast, ← zpow_natCast, ← zpow_add₀ htwo]
        congr 1
        push_cast
        ring
      _ ≤ num := hnumle
  · refine (Int.lt_zpow_iff_log_lt (by norm_num : 1 < 2) hq).mp ?_
    have hnumlt : (num : ℚ) < 2 ^ (num.log2 + 1) := by
      exact_mod_cast @Nat.lt_log2_self num
    have hdenle : (2 : ℚ) ^ den.log2 ≤ den := by
      exact_mod_cast Nat.log2_self_le (Nat.ne_of_gt hden)
    rw [div_lt_iff₀ hden']
    calc (num : ℚ) < 2 ^ (num.log2 + 1) := hnumlt
      _ = 2 ^ ((num.log2 : Int) - den.log2 + 1) * 2 ^ den.log2 := by
        rw [← zpow_natCast, ← zpow_natCast, ← zpow_add₀ htwo]
        congr 1
        push_cast
        ring
      _ ≤ 2 ^ ((num.log2 : Int) - den.log2 + 1) * den :=
        mul_le_mul_of_nonneg_left hdenle (zpow_nonneg (by norm_num) _)

theorem exponentFor_eq_log {num den : Nat} (hnum : 0 < num) (hden : 0 < den) :
    exponentFor num den = max (Int.log 2 ((num : ℚ) / den) - 52) minExponent := by
  obtain ⟨hle, hlt⟩ := log_ratio_bounds hnum hden
  have htop := two_pow_le_scaledRatio hnum hden 53 ((num.log2 : Int) - den.log2 - 53)
  have hpow : Nat.pow 2 53 = 2 ^ 53 := rfl
  unfold exponentFor
  dsimp only
  rw [hpow, if_congr htop rfl rfl]
  split
  · congr 1
    omega
  · congr 1
    omega

/-! ## Ratios of one value -/

theorem scaledRatio_mul (num den factor : Nat) (e : Int) :
    scaledRatio (num * factor) (den * factor) e
      = ((scaledRatio num den e).1 * factor, (scaledRatio num den e).2 * factor) := by
  cases e with
  | ofNat e => rw [scaledRatio, scaledRatio, Nat.mul_right_comm]
  | negSucc e => rw [scaledRatio, scaledRatio, Nat.mul_right_comm]

theorem roundRatio_mul {factor : Nat} (hfactor : 0 < factor) (num den : Nat) :
    roundRatio (num * factor) (den * factor) = roundRatio num den := by
  have hdouble : 2 * (num % den * factor) = 2 * (num % den) * factor := (Nat.mul_assoc ..).symm
  unfold roundRatio
  rw [Nat.mul_div_mul_right _ _ hfactor, Nat.mul_mod_mul_right]
  dsimp only
  rw [hdouble]
  simp only [Nat.mul_lt_mul_right hfactor]

theorem ofRatio_mul {factor num den : Nat} {negative : Bool} (hfactor : 0 < factor)
    (hnum : 0 < num) (hden : 0 < den) :
    ofRatio negative (num * factor) (den * factor) = ofRatio negative num den := by
  have hfactor' : (factor : ℚ) ≠ 0 := Nat.cast_ne_zero.mpr (Nat.ne_of_gt hfactor)
  have hexponent : exponentFor (num * factor) (den * factor) = exponentFor num den := by
    rw [exponentFor_eq_log (Nat.mul_pos hnum hfactor) (Nat.mul_pos hden hfactor),
      exponentFor_eq_log hnum hden, Nat.cast_mul, Nat.cast_mul, mul_div_mul_right _ _ hfactor']
  have hnum' : num * factor ≠ 0 := Nat.ne_of_gt (Nat.mul_pos hnum hfactor)
  unfold ofRatio
  rw [if_neg hnum', if_neg (Nat.ne_of_gt hnum), hexponent]
  dsimp only
  rw [scaledRatio_mul, roundRatio_mul hfactor]

/-- Rounding depends on the value of a ratio alone. -/
theorem ofRatio_congr {num den num' den' : Nat} {negative : Bool} (hden : 0 < den)
    (hden' : 0 < den') (h : (num : ℚ) / den = (num' : ℚ) / den') :
    ofRatio negative num den = ofRatio negative num' den' := by
  have hdenCast : (den : ℚ) ≠ 0 := Nat.cast_ne_zero.mpr (Nat.ne_of_gt hden)
  have hdenCast' : (den' : ℚ) ≠ 0 := Nat.cast_ne_zero.mpr (Nat.ne_of_gt hden')
  have hcross : num * den' = num' * den := by
    rw [div_eq_div_iff hdenCast hdenCast'] at h
    exact_mod_cast h
  by_cases hnum : num = 0
  · have hnum' : num' = 0 := by
      rw [hnum, Nat.zero_mul] at hcross
      exact (Nat.mul_eq_zero.mp hcross.symm).resolve_right (Nat.ne_of_gt hden)
    rw [hnum, hnum', ofRatio, ofRatio, if_pos rfl, if_pos rfl]
  · have hpos : 0 < num' := by
      refine Nat.pos_of_ne_zero fun hzero => ?_
      rw [hzero, Nat.zero_mul] at hcross
      exact (Nat.mul_ne_zero hnum (Nat.ne_of_gt hden')) hcross
    rw [← ofRatio_mul hden' (Nat.pos_of_ne_zero hnum) hden, ← ofRatio_mul hden hpos hden', hcross,
      Nat.mul_comm den den']

/-! ## Finite numbers -/

/-- A number in its one form: the exponent of a finite number is the least that can hold it. -/
def Canonical : Binary64 → Prop
  | .finite _ m e => m < 2 ^ 53 ∧ minExponent ≤ e ∧ e ≤ maxExponent ∧ (e = minExponent ∨ 2 ^ 52 ≤ m)
  | _ => True

instance : DecidablePred Canonical := fun x => by
  cases x with
  | finite s m e => exact inferInstanceAs (Decidable (_ ∧ _))
  | nan _ => exact inferInstanceAs (Decidable True)
  | infinite _ => exact inferInstanceAs (Decidable True)

theorem roundRatio_exact {m den : Nat} (hden : 0 < den) : roundRatio (m * den) den = m := by
  unfold roundRatio
  rw [Nat.mul_div_cancel _ hden, Nat.mul_mod_left]
  exact if_pos hden

/-- The exponent of a canonical number is the one that its value asks for. -/
theorem exponentFor_exact {negative : Bool} {m num den : Nat} {e : Int} (hm : m ≠ 0)
    (hcanonical : Canonical (.finite negative m e)) (hden : 0 < den)
    (hvalue : (num : ℚ) / den = m * 2 ^ e) : exponentFor num den = e := by
  obtain ⟨hlt, hmin, -, hform⟩ := hcanonical
  have hmpos : (0 : ℚ) < m := Nat.cast_pos.mpr (Nat.pos_of_ne_zero hm)
  have hpos : (0 : ℚ) < (m : ℚ) * 2 ^ e := mul_pos hmpos (zpow_pos (by norm_num) e)
  have hnum : 0 < num := by
    refine Nat.pos_of_ne_zero fun hzero => ?_
    rw [hzero, Nat.cast_zero, zero_div] at hvalue
    exact (ne_of_gt hpos) hvalue.symm
  have hbelow : Int.log 2 ((num : ℚ) / den) < e + 53 := by
    rw [← Int.lt_zpow_iff_log_lt (by norm_num) (hvalue ▸ hpos), hvalue, zpow_add₀ (by norm_num),
      mul_comm ((2 : Nat) ^ e : ℚ)]
    refine mul_lt_mul_of_pos_right ?_ (zpow_pos (by norm_num) e)
    exact_mod_cast hlt
  rw [exponentFor_eq_log hnum hden]
  rcases hform with hleast | hnormal
  · omega
  · have habove : e + 52 ≤ Int.log 2 ((num : ℚ) / den) := by
      rw [← Int.zpow_le_iff_le_log (by norm_num) (hvalue ▸ hpos), hvalue, zpow_add₀ (by norm_num),
        mul_comm ((2 : Nat) ^ e : ℚ)]
      refine mul_le_mul_of_nonneg_right ?_ (zpow_nonneg (by norm_num) e)
      exact_mod_cast hnormal
    omega

/-- A ratio whose value is a finite number is rounded to that number. -/
theorem ofRatio_exact {negative sign : Bool} {m num den : Nat} {e : Int} (hm : m ≠ 0)
    (hcanonical : Canonical (.finite sign m e)) (hden : 0 < den)
    (hvalue : (num : ℚ) / den = m * 2 ^ e) :
    ofRatio negative num den = .finite negative m e := by
  have hexponent := exponentFor_exact hm hcanonical hden hvalue
  obtain ⟨hlt, -, hmax, -⟩ := hcanonical
  have hscale : (2 : ℚ) ^ e ≠ 0 := zpow_ne_zero e (by norm_num)
  have hscaledPos := @scaledRatio_pos num den hden e
  have hscaled : (scaledRatio num den e).1 = m * (scaledRatio num den e).2 := by
    have hdiv := @scaledRatio_div num den hden e
    rw [hvalue, mul_div_assoc, div_self hscale, mul_one,
      div_eq_iff (Nat.cast_ne_zero.mpr (Nat.ne_of_gt hscaledPos))] at hdiv
    exact_mod_cast hdiv
  have hnum : num ≠ 0 := by
    rintro rfl
    have hmne : (m : ℚ) ≠ 0 := Nat.cast_ne_zero.mpr hm
    rw [Nat.cast_zero, zero_div] at hvalue
    exact (mul_ne_zero hmne hscale) hvalue.symm
  have hcarry : m ≠ Nat.pow 2 53 := Nat.ne_of_lt hlt
  unfold ofRatio
  rw [if_neg hnum, hexponent]
  dsimp only
  rw [hscaled, roundRatio_exact hscaledPos, if_neg hcarry]
  dsimp only
  rw [if_neg (by omega)]

/-! ## The form of what is rounded -/

theorem roundRatio_bounds {n d low high : Nat} (hlow : low * d ≤ n) (hhigh : n < high * d) :
    low ≤ roundRatio n d ∧ roundRatio n d ≤ high := by
  have hd : 0 < d := by
    refine Nat.pos_of_ne_zero fun hzero => ?_
    rw [hzero, Nat.mul_zero] at hhigh
    exact Nat.not_lt_zero n hhigh
  have hfloor : low ≤ n / d := (Nat.le_div_iff_mul_le hd).mpr hlow
  have htop : n / d < high := (Nat.div_lt_iff_lt_mul hd).mpr hhigh
  unfold roundRatio
  dsimp only
  split
  · omega
  · split
    · omega
    · omega

/-- The significand at the exponent of a ratio has 53 bits, but for the least exponent. -/
theorem scaledRatio_exponentFor {num den : Nat} (hnum : 0 < num) (hden : 0 < den) :
    (scaledRatio num den (exponentFor num den)).1
        < 2 ^ 53 * (scaledRatio num den (exponentFor num den)).2 ∧
    (exponentFor num den = minExponent ∨ 2 ^ 52 * (scaledRatio num den (exponentFor num den)).2
        ≤ (scaledRatio num den (exponentFor num den)).1) := by
  have hlog := exponentFor_eq_log hnum hden
  generalize exponentFor num den = e at hlog ⊢
  constructor
  · rw [← not_le, two_pow_le_scaledRatio hnum hden]
    omega
  · by_cases hleast : e = minExponent
    · exact .inl hleast
    · right
      rw [two_pow_le_scaledRatio hnum hden]
      omega

theorem minExponent_le_exponentFor (num den : Nat) : minExponent ≤ exponentFor num den := by
  unfold exponentFor
  exact le_max_right _ _

/-- Rounding gives a number in its one form. -/
theorem canonical_ofRatio (negative : Bool) (num : Nat) {den : Nat} (hden : 0 < den) :
    Canonical (ofRatio negative num den) := by
  by_cases hnum : num = 0
  · rw [hnum, ofRatio, if_pos rfl]
    exact ⟨by decide, le_refl _, by decide, .inl rfl⟩
  · obtain ⟨hupper, hform⟩ := scaledRatio_exponentFor (Nat.pos_of_ne_zero hnum) hden
    have hleast := minExponent_le_exponentFor num den
    have hzero : 0 * (scaledRatio num den (exponentFor num den)).2
        ≤ (scaledRatio num den (exponentFor num den)).1 := by
      rw [Nat.zero_mul]
      exact Nat.zero_le _
    have hround := (roundRatio_bounds hzero hupper).2
    unfold ofRatio
    rw [if_neg hnum]
    dsimp only
    split
    next hcarry =>
      dsimp only
      split
      · trivial
      · exact ⟨by decide, by omega, by omega, .inr (Nat.le_refl _)⟩
    next hkept =>
      dsimp only
      split
      · trivial
      · refine ⟨lt_of_le_of_ne hround hkept, hleast, by omega, ?_⟩
        refine hform.imp id fun hlower => ?_
        exact (roundRatio_bounds hlower hupper).1

end EthWire.Binary64

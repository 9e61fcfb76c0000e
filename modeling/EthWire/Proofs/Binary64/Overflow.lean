import EthWire.Binary64.Basic
import Mathlib.Algebra.Group.Nat.Defs

/-!
# Integers beyond the finite numbers

An integer has a nearest finite number unless it is nearer to the power of two behind the
greatest one, or as near: that power has the even significand.
-/

namespace EthWire.Binary64

/-- Half a unit in the last place of the greatest finite number. -/
def topHalfUnit : Nat := 2 ^ 970

/-- Half way from the greatest finite number to the power of two behind it. -/
def overflowLimit : Nat := (2 ^ 54 - 1) * topHalfUnit

theorem pow_le_mul_topHalfUnit {a k : Nat} (h : k ≤ a + 970) : 2 ^ k ≤ 2 ^ a * topHalfUnit := by
  rw [topHalfUnit, ← Nat.pow_add 2 a 970]
  exact Nat.pow_le_pow_right (by decide) h

theorem mul_topHalfUnit_le_pow {a k : Nat} (h : a + 970 ≤ k) : 2 ^ a * topHalfUnit ≤ 2 ^ k := by
  rw [topHalfUnit, ← Nat.pow_add 2 a 970]
  exact Nat.pow_le_pow_right (by decide) h

theorem scaledRatio_ofNat_succ {m e : Nat} : scaledRatio m 1 (.ofNat (e + 1)) = (m, 2 * 2 ^ e) := by
  rw [scaledRatio, Nat.one_mul, ← Nat.pow_succ']
  rfl

theorem exponentFor_nat {m : Nat} (hm : m ≠ 0) : exponentFor m 1 = (m.log2 : Int) - 52 := by
  have hle : 2 ^ m.log2 ≤ m := Nat.log2_self_le hm
  have hone : Nat.log2 1 = 0 := by decide
  have hscaled : Nat.pow 2 53 * (scaledRatio m 1 ((m.log2 : Int) - 53)).2
      ≤ (scaledRatio m 1 ((m.log2 : Int) - 53)).1 := by
    by_cases hlog : 53 ≤ m.log2
    · obtain ⟨e, he⟩ := Nat.exists_eq_add_of_le hlog
      have hint : (m.log2 : Int) - 53 = .ofNat e := by
        rw [he, Int.ofNat_eq_natCast]
        omega
      rw [hint]
      show 2 ^ 53 * (1 * 2 ^ e) ≤ m
      rwa [Nat.one_mul, ← Nat.pow_add, ← he]
    · have hint : (m.log2 : Int) - 53 = .negSucc (52 - m.log2) := by omega
      rw [hint]
      show 2 ^ 53 * 1 ≤ m * 2 ^ (52 - m.log2 + 1)
      have hexp : m.log2 + (52 - m.log2 + 1) = 53 := by omega
      rw [Nat.mul_one, ← hexp, Nat.pow_add]
      exact Nat.mul_le_mul_right _ hle
  unfold exponentFor
  rw [hone, Int.natCast_zero, Int.sub_zero]
  dsimp only
  rw [if_pos hscaled, minExponent]
  omega

/-- Rounding to units of which `half` is the half. -/
theorem roundRatio_eq_iff {m half : Nat} (hhalf : 0 < half) (hm : m < 2 ^ 54 * half) :
    roundRatio m (2 * half) = 2 ^ 53 ↔ (2 ^ 54 - 1) * half ≤ m := by
  have hsplit : 2 * half * (m / (2 * half)) + m % (2 * half) = m := Nat.div_add_mod m (2 * half)
  have hlt : m % (2 * half) < 2 * half := Nat.mod_lt m (by omega)
  have hq : m / (2 * half) < 2 ^ 53 := Nat.div_lt_of_lt_mul (by omega)
  unfold roundRatio
  dsimp only
  generalize m / (2 * half) = q at *
  generalize m % (2 * half) = r at *
  by_cases htop : q = 2 ^ 53 - 1
  · -- the greatest significand is odd, so a half is rounded up
    subst htop
    split
    · omega
    · split
      · omega
      · omega
  · have hbelow : 2 * half * (q + 1) ≤ 2 * half * (2 ^ 53 - 1) :=
      Nat.mul_le_mul_left _ (by omega)
    rw [Nat.mul_succ] at hbelow
    split
    · omega
    · split
      · omega
      · omega

/-- The significand of a natural number, before a carry into the exponent. -/
def significandOf (m : Nat) : Nat :=
  roundRatio (scaledRatio m 1 (m.log2 - 52)).1 (scaledRatio m 1 (m.log2 - 52)).2

theorem isFinite_ofRatio {negative : Bool} {m : Nat} (hm : m ≠ 0) :
    (ofRatio negative m 1).isFinite = false ↔
      maxExponent < (m.log2 : Int) - 52 + if significandOf m = 2 ^ 53 then 1 else 0 := by
  rw [ofRatio, if_neg hm, exponentFor_nat hm]
  dsimp only
  by_cases hcarry : significandOf m = 2 ^ 53
  · have hcarried : roundRatio (scaledRatio m 1 (m.log2 - 52)).1
        (scaledRatio m 1 (m.log2 - 52)).2 = Nat.pow 2 53 := hcarry
    rw [if_pos hcarry, if_pos hcarried]
    dsimp only
    split
    · rename_i hover
      exact iff_of_true rfl hover
    · rename_i hover
      exact iff_of_false (by simp [isFinite]) hover
  · have hkept : ¬roundRatio (scaledRatio m 1 (m.log2 - 52)).1
        (scaledRatio m 1 (m.log2 - 52)).2 = Nat.pow 2 53 := hcarry
    rw [if_neg hcarry, if_neg hkept, Int.add_zero]
    dsimp only
    split
    · rename_i hover
      exact iff_of_true rfl hover
    · rename_i hover
      exact iff_of_false (by simp [isFinite]) hover

theorem isFinite_ofRatio_iff {negative : Bool} {m : Nat} :
    (ofRatio negative m 1).isFinite = false ↔ overflowLimit ≤ m := by
  have hhalf : 0 < topHalfUnit := by
    have hpow := @pow_le_mul_topHalfUnit 0 0 (by omega)
    omega
  by_cases hm : m = 0
  · subst hm
    have hlimit : ¬overflowLimit ≤ 0 := by
      unfold overflowLimit
      omega
    simp [ofRatio, isFinite, hlimit]
  rw [isFinite_ofRatio hm]
  have hle : 2 ^ m.log2 ≤ m := Nat.log2_self_le hm
  have hlt : m < 2 ^ (m.log2 + 1) := Nat.lt_log2_self
  have hmax : maxExponent = 971 := rfl
  unfold overflowLimit
  -- only in the topmost binade does the carry decide
  rcases Nat.lt_trichotomy m.log2 1023 with hlog | hlog | hlog
  · have hpow := @pow_le_mul_topHalfUnit 53 (m.log2 + 1) (by omega)
    split
    · omega
    · omega
  · have hpow := @pow_le_mul_topHalfUnit 54 (m.log2 + 1) (by omega)
    have hexp : (m.log2 : Int) - 52 = .ofNat (970 + 1) := by
      rw [hlog]
      rfl
    have hsig : significandOf m = 2 ^ 53 ↔ (2 ^ 54 - 1) * topHalfUnit ≤ m := by
      rw [significandOf, hexp, scaledRatio_ofNat_succ, ← topHalfUnit]
      exact roundRatio_eq_iff hhalf (by omega)
    split
    · omega
    · omega
  · have hpow := @mul_topHalfUnit_le_pow 54 m.log2 (by omega)
    split
    · omega
    · omega

theorem ofRatio_ne_nan {negative shared : Bool} {num den : Nat} :
    ofRatio negative num den ≠ .nan shared := by
  unfold ofRatio
  split
  · simp
  · dsimp only
    split
    · dsimp only
      split
      · simp
      · simp
    · dsimp only
      split
      · simp
      · simp

theorem ofInt?_eq_none {n : Int} : ofInt? n = none ↔ overflowLimit ≤ n.natAbs := by
  rw [← @isFinite_ofRatio_iff (n < 0), ofInt?]
  cases h : ofRatio (n < 0) n.natAbs 1 with
  | nan shared => exact absurd h ofRatio_ne_nan
  | infinite negative => simp [isFinite]
  | finite negative significand exponent => simp [isFinite]

end EthWire.Binary64

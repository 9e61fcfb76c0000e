import EthWire.Secp256k1.Curve
import Mathlib.FieldTheory.Finite.Basic
import Mathlib.Tactic.NormNum.Prime

/-!
# The two primes of the curve

The order of the field and the order of the group are prime, each by a chain of Pocklington's
tests: `N` is prime if `N - 1` has a factored part whose square is above `N` and some base has,
modulo every prime divisor of `N`, that part as the order of one of its powers. The powers are
those that the arithmetic of the curve computes.
-/

namespace EthWire.Secp256k1

/-! ## Powers -/

theorem powMod_eq {m : Nat} (b : Nat) {bits e : Nat} (he : e < 2 ^ bits) :
    powMod m b bits e = b ^ e % m := by
  induction bits generalizing e with
  | zero =>
    obtain rfl : e = 0 := by omega
    rfl
  | succ bits ih =>
    have hhalf : powMod m b bits (e / 2) = b ^ (e / 2) % m := ih (by rw [pow_succ] at he; omega)
    have hsquare : b ^ (e / 2) % m * (b ^ (e / 2) % m) % m = b ^ (e / 2 * 2) % m := by
      rw [← Nat.mul_mod, ← pow_two, ← pow_mul]
    rw [powMod, hhalf, hsquare]
    split
    next hodd =>
      have hsplit : e = e / 2 * 2 + 1 := by omega
      conv_rhs => rw [hsplit, pow_succ]
      rw [Nat.mod_mul_mod]
    next heven => rw [Nat.div_mul_cancel (by omega)]

theorem cast_powMod {m : Nat} (b : Nat) {bits e : Nat} (he : e < 2 ^ bits) :
    (powMod m b bits e : ZMod m) = (b : ZMod m) ^ e := by
  rw [powMod_eq b he, ZMod.natCast_mod, Nat.cast_pow]

/-! ## Certificates -/

/-- A number that is certified prime, the base of its test, and the factored part of the number
before it as primes with their exponents. -/
structure Certificate where
  prime : Nat
  base : Nat
  factors : List (Nat × Nat)

namespace Certificate

variable {known : List Nat} {c : Certificate}

/-- The factored part. -/
def factored (c : Certificate) : Nat := (c.factors.map fun f => f.1 ^ f.2).prod

/-- The power of the base that is left when one factor `d` is taken out of the exponent. -/
def power (c : Certificate) (d : Nat) : Nat := powMod c.prime c.base 256 ((c.prime - 1) / d)

/-- The conditions of the test, with the primes that are known before it. -/
structure Passes (known : List Nat) (c : Certificate) : Prop where
  one_lt : 1 < c.prime
  lt_bits : c.prime < 2 ^ 256
  factored_dvd : c.factored ∣ c.prime - 1
  lt_square : c.prime < c.factored ^ 2
  factors_known : ∀ f ∈ c.factors, f.1 ∈ known
  power_one : c.power 1 = 1
  power_coprime : ∀ f ∈ c.factors, (c.power f.1 - 1).Coprime c.prime

instance : Decidable (c.Passes known) :=
  decidable_of_iff
    (1 < c.prime ∧ c.prime < 2 ^ 256 ∧ c.factored ∣ c.prime - 1 ∧ c.prime < c.factored ^ 2 ∧
      (∀ f ∈ c.factors, f.1 ∈ known) ∧ c.power 1 = 1 ∧
      ∀ f ∈ c.factors, (c.power f.1 - 1).Coprime c.prime)
    ⟨fun ⟨h1, h2, h3, h4, h5, h6, h7⟩ => ⟨h1, h2, h3, h4, h5, h6, h7⟩,
      fun h => ⟨h.1, h.2, h.3, h.4, h.5, h.6, h.7⟩⟩

/-- The powers of the base modulo a divisor of the number. -/
theorem cast_power (h : c.Passes known) {r : Nat} (hr : r ∣ c.prime) (d : Nat) :
    (c.power d : ZMod r) = (c.base : ZMod r) ^ ((c.prime - 1) / d) := by
  have hexponent : (c.prime - 1) / d < 2 ^ 256 :=
    (Nat.div_le_self _ _).trans_lt (by have := h.lt_bits; omega)
  have hmod : c.power d ≡ c.base ^ ((c.prime - 1) / d) [MOD r] := by
    rw [power, powMod_eq c.base hexponent]
    exact (Nat.mod_modEq _ _).of_dvd hr
  rw [(ZMod.natCast_eq_natCast_iff _ _ _).mpr hmod, Nat.cast_pow]

/-- Where a prime of the factored part is taken out of the exponent, the power is not one modulo
any prime divisor of the number. -/
theorem power_ne_one (h : c.Passes known) {r : Nat} (hprime : r.Prime) (hr : r ∣ c.prime)
    {f : Nat × Nat} (hf : f ∈ c.factors) : (c.base : ZMod r) ^ ((c.prime - 1) / f.1) ≠ 1 := by
  rw [← cast_power h hr]
  intro hone
  have hdvd : r ∣ c.power f.1 - 1 := by
    cases hpower : c.power f.1 with
    | zero => exact dvd_zero r
    | succ k =>
      rw [hpower, Nat.cast_succ, add_eq_right] at hone
      exact (ZMod.natCast_eq_zero_iff k r).mp hone
  exact Nat.not_coprime_of_dvd_of_dvd hprime.one_lt hdvd hr (h.power_coprime f hf)

/-- Every prime divisor of the number is above the factored part, which is the order of a power
of the base modulo that divisor. -/
theorem factored_lt (h : c.Passes known) (hknown : ∀ q ∈ known, q.Prime) {r : Nat}
    (hprime : r.Prime) (hr : r ∣ c.prime) : c.factored < r := by
  have : Fact r.Prime := ⟨hprime⟩
  have hpos : 0 < c.factored := by
    have := h.lt_square
    exact Nat.pos_of_ne_zero fun h0 => by rw [h0] at this; omega
  obtain ⟨k, hk⟩ := h.factored_dvd
  set b : ZMod r := (c.base : ZMod r) ^ k with hb
  have hone : b ^ c.factored = 1 := by
    rw [hb, ← pow_mul, mul_comm, ← hk]
    have hpower := cast_power h hr 1
    rwa [h.power_one, Nat.cast_one, Nat.div_one, eq_comm] at hpower
  have horder : orderOf b = c.factored := by
    refine orderOf_eq_of_pow_and_pow_div_prime hpos hone fun q hq hdvd => ?_
    obtain ⟨x, hx, hqx⟩ := (Prime.dvd_prod_iff hq.prime).mp hdvd
    obtain ⟨f, hf, rfl⟩ := List.mem_map.mp hx
    obtain rfl : q = f.1 :=
      (Nat.prime_dvd_prime_iff_eq hq (hknown _ (h.factors_known f hf))).mp
        (hq.dvd_of_dvd_pow hqx)
    have hexponent : (c.prime - 1) / f.1 = k * (c.factored / f.1) := by
      rw [hk, mul_comm, Nat.mul_div_assoc k hdvd]
    rw [hb, ← pow_mul, ← hexponent]
    exact power_ne_one h hprime hr hf
  have hb0 : b ≠ 0 := by
    intro h0
    rw [h0, zero_pow hpos.ne'] at hone
    exact zero_ne_one hone
  have hle := Nat.le_of_dvd (Nat.sub_pos_of_lt hprime.one_lt) (ZMod.orderOf_dvd_card_sub_one hb0)
  rw [horder] at hle
  have := hprime.pos
  omega

theorem Passes.prime (h : c.Passes known) (hknown : ∀ q ∈ known, q.Prime) : c.prime.Prime := by
  by_contra hcomposite
  have hone := h.one_lt
  have hlt : c.factored < c.prime.minFac :=
    factored_lt h hknown (Nat.minFac_prime hone.ne') (Nat.minFac_dvd _)
  have hsquare : c.factored ^ 2 ≤ c.prime.minFac ^ 2 := Nat.pow_le_pow_left hlt.le 2
  have hmin : c.prime.minFac ^ 2 ≤ c.prime := Nat.minFac_sq_le_self (by omega) hcomposite
  have hroot := h.lt_square
  omega

/-- Certificates in a row, each of which may use the primes of those before it. -/
def AllPass : List Nat → List Certificate → Prop
  | _, [] => True
  | known, c :: cs => c.Passes known ∧ AllPass (c.prime :: known) cs

instance : ∀ (known : List Nat) (cs : List Certificate), Decidable (AllPass known cs)
  | _, [] => .isTrue trivial
  | known, c :: cs =>
    have := instDecidableAllPass (c.prime :: known) cs
    inferInstanceAs (Decidable (_ ∧ _))

theorem AllPass.prime {cs : List Certificate} (h : AllPass known cs)
    (hknown : ∀ q ∈ known, q.Prime) : ∀ q ∈ cs.map Certificate.prime, q.Prime := by
  induction cs generalizing known with
  | nil =>
    intro q hq
    cases hq
  | cons c cs ih =>
    have hc : c.prime.Prime := h.1.prime hknown
    have hcs := ih h.2 (List.forall_mem_cons.mpr ⟨hc, hknown⟩)
    exact List.forall_mem_cons.mpr ⟨hc, hcs⟩

end Certificate

/-! ## The orders of the field and of the group -/

/-- The primes that the first certificates start from. -/
def smallPrimes : List Nat := [2, 5, 7, 1871, 9349, 20113, 28181, 96557, 120233]

theorem prime_of_mem_smallPrimes : ∀ q ∈ smallPrimes, q.Prime := by
  simp only [smallPrimes, List.forall_mem_cons, List.not_mem_nil, false_implies, implies_true,
    and_true]
  norm_num

/-- From the small primes to the order of the field, and then to the order of the group. -/
def certificates : List Certificate := [
  ⟨1206781, 2, [(20113, 1)]⟩,
  ⟨7240687, 2, [(1206781, 1)]⟩,
  ⟨107590001, 3, [(2, 4), (5, 4), (7, 1)]⟩,
  ⟨255515944373312847190720520512484175977, 2, [(96557, 1), (7240687, 1), (107590001, 1)]⟩,
  ⟨205115282021455665897114700593932402728804164701536103180137503955397371, 2,
    [(255515944373312847190720520512484175977, 1)]⟩,
  ⟨p, 2, [(205115282021455665897114700593932402728804164701536103180137503955397371, 1)]⟩,
  ⟨1627771, 2, [(1871, 1)]⟩,
  ⟨297159362677, 2, [(1627771, 1)]⟩,
  ⟨545358713, 2, [(28181, 1)]⟩,
  ⟨29047611873442575647497758179, 2, [(297159362677, 1), (545358713, 1)]⟩,
  ⟨341948486974166000522343609283189, 2, [(29047611873442575647497758179, 1)]⟩,
  ⟨44706919, 2, [(9349, 1)]⟩,
  ⟨174723607534414371449, 2, [(120233, 1), (44706919, 1)]⟩,
  ⟨n, 2, [(174723607534414371449, 1), (341948486974166000522343609283189, 1)]⟩]

theorem allPass_certificates : Certificate.AllPass smallPrimes certificates := by decide +kernel

theorem prime_p : p.Prime :=
  allPass_certificates.prime prime_of_mem_smallPrimes p (by simp [certificates])

theorem prime_n : n.Prime :=
  allPass_certificates.prime prime_of_mem_smallPrimes n (by simp [certificates])

instance : Fact p.Prime := ⟨prime_p⟩

instance : Fact n.Prime := ⟨prime_n⟩

end EthWire.Secp256k1

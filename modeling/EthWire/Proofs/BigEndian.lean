import EthWire.Bytes
import Mathlib.Data.List.Shortlex
import Mathlib.Data.Nat.Digits.Lemmas

/-!
# Big-endian numbers

Digit lists and byte strings against the numbers they denote. A number has one digit
list that does not start with a zero digit, and that one is the shortest. Among these
shortest byte strings the order of the numbers is seen without reading them.
-/

namespace EthWire

namespace Positional

variable {base : Nat}

theorem value_eq_ofDigits (base : Nat) (ds : List Nat) :
    value base ds = Nat.ofDigits base ds.reverse := by
  rw [Nat.ofDigits_eq_foldr, List.foldr_reverse, value]
  congr 1
  funext acc d
  simp only [Nat.cast_id]
  rw [Nat.mul_comm, Nat.add_comm]

/-- The digits of `n` come out lowest first, so they land in front of `acc` reversed. -/
theorem digitsOnto_eq (hb : 1 < base) (fuel n : Nat) (acc : List Nat) (hn : n < base ^ fuel) :
    digitsOnto base fuel n acc = (Nat.digits base n).reverse ++ acc := by
  induction fuel generalizing n acc with
  | zero =>
    have h0 : n = 0 := by simpa using hn
    simp [digitsOnto, h0]
  | succ fuel ih =>
    by_cases h0 : n = 0
    · simp [digitsOnto, h0]
    · have hdiv : n / base < base ^ fuel := by
        rw [Nat.div_lt_iff_lt_mul (by omega)]
        rwa [Nat.pow_succ] at hn
      rw [digitsOnto, if_neg h0, ih _ _ hdiv, Nat.digits_def' hb (Nat.pos_of_ne_zero h0)]
      simp

theorem digits_eq_reverse (hb : 1 < base) (n : Nat) :
    digits base n = (Nat.digits base n).reverse := by
  have hn : n < base ^ (n.log2 + 1) :=
    Nat.lt_of_lt_of_le Nat.lt_log2_self (Nat.pow_le_pow_left hb _)
  rw [digits, digitsOnto_eq hb _ _ _ hn, List.append_nil]

theorem value_digits (hb : 1 < base) (n : Nat) : value base (digits base n) = n := by
  rw [value_eq_ofDigits, digits_eq_reverse hb, List.reverse_reverse, Nat.ofDigits_digits]

theorem digits_value (hb : 1 < base) {ds : List Nat} (hlt : ∀ d ∈ ds, d < base)
    (hhead : ds.head? ≠ some 0) : digits base (value base ds) = ds := by
  rw [digits_eq_reverse hb, value_eq_ofDigits, Nat.digits_ofDigits base hb]
  · exact List.reverse_reverse ds
  · intro d hd
    exact hlt d (List.mem_reverse.mp hd)
  · intro hne
    rw [List.getLast_reverse]
    intro h0
    have hds : ds ≠ [] := List.reverse_ne_nil_iff.mp hne
    exact hhead (by rw [List.head?_eq_some_head hds, h0])

theorem lt_of_mem_digits (hb : 1 < base) {n d : Nat} (hd : d ∈ digits base n) : d < base := by
  rw [digits_eq_reverse hb, List.mem_reverse] at hd
  exact Nat.digits_lt_base hb hd

theorem head?_digits_ne_zero (hb : 1 < base) (n : Nat) : (digits base n).head? ≠ some 0 := by
  rw [digits_eq_reverse hb, List.head?_reverse]
  intro h
  by_cases h0 : n = 0
  · simp [h0] at h
  · have hne : Nat.digits base n ≠ [] := Nat.digits_ne_nil_iff_ne_zero.mpr h0
    rw [List.getLast?_eq_some_getLast hne, Option.some.injEq] at h
    exact Nat.getLast_digit_ne_zero base h0 h

theorem length_digits_le_iff (hb : 1 < base) (n k : Nat) :
    (digits base n).length ≤ k ↔ n < base ^ k := by
  rw [digits_eq_reverse hb, List.length_reverse, Nat.digits_length_le_iff hb]

theorem value_lt (hb : 1 < base) {ds : List Nat} (hlt : ∀ d ∈ ds, d < base) :
    value base ds < base ^ ds.length := by
  rw [value_eq_ofDigits, ← List.length_reverse]
  exact Nat.ofDigits_lt_base_pow_length hb fun d hd => hlt d (List.mem_reverse.mp hd)

theorem value_append (base : Nat) (ds es : List Nat) :
    value base (ds ++ es) = value base ds * base ^ es.length + value base es := by
  rw [value_eq_ofDigits, List.reverse_append, Nat.ofDigits_append, ← value_eq_ofDigits,
    ← value_eq_ofDigits, List.length_reverse, Nat.mul_comm, Nat.add_comm]

theorem value_append_singleton (base : Nat) (ds : List Nat) (d : Nat) :
    value base (ds ++ [d]) = value base ds * base + d := by
  simp [value]

end Positional

namespace Bytes

private theorem one_lt_radix : 1 < 256 := by decide

private theorem lt_of_mem_map_toNat {b : Bytes} : ∀ d ∈ b.map UInt8.toNat, d < 256 := by
  intro d hd
  obtain ⟨x, -, rfl⟩ := List.mem_map.mp hd
  exact x.toNat_lt

theorem toNat_lt (b : Bytes) : toNat b < 256 ^ b.length := by
  have h := Positional.value_lt one_lt_radix (lt_of_mem_map_toNat (b := b))
  rwa [List.length_map] at h

@[simp] theorem toNat_ofNat (n : Nat) : toNat (ofNat n) = n := by
  have h : ((Positional.digits 256 n).map UInt8.ofNat).map UInt8.toNat
      = Positional.digits 256 n := by
    rw [List.map_map]
    conv_rhs => rw [← List.map_id (Positional.digits 256 n)]
    refine List.map_congr_left fun d hd => ?_
    exact UInt8.toNat_ofNat_of_lt' (Positional.lt_of_mem_digits one_lt_radix hd)
  rw [toNat, ofNat, h, Positional.value_digits one_lt_radix]

/-- A string without a zero byte in front is the shortest of its number. -/
theorem ofNat_toNat {b : Bytes} (h : b.head? ≠ some 0) : ofNat (toNat b) = b := by
  have hhead : (b.map UInt8.toNat).head? ≠ some 0 := by
    rw [List.head?_map]
    cases hb : b.head? with
    | none => simp
    | some x =>
      intro h0
      have hx : x = 0 := UInt8.toNat_inj.mp (Option.some.inj h0)
      exact h (by rw [hb, hx])
  rw [ofNat, toNat, Positional.digits_value one_lt_radix lt_of_mem_map_toNat hhead, List.map_map]
  simp [Function.comp_def]

theorem head?_ofNat (n : Nat) : (ofNat n).head? ≠ some 0 := by
  rw [ofNat, List.head?_map]
  cases hd : (Positional.digits 256 n).head? with
  | none => simp
  | some d =>
    have hlt : d < 256 := Positional.lt_of_mem_digits one_lt_radix (List.mem_of_head? hd)
    intro h0
    have hz : d = 0 := by
      have h := congrArg UInt8.toNat (Option.some.inj h0)
      rwa [UInt8.toNat_ofNat_of_lt' hlt] at h
    exact Positional.head?_digits_ne_zero one_lt_radix n (by rw [hd, hz])

theorem length_ofNat_le_iff (n k : Nat) : (ofNat n).length ≤ k ↔ n < 256 ^ k := by
  rw [ofNat, List.length_map, Positional.length_digits_le_iff one_lt_radix]

theorem toNat_append_singleton (b : Bytes) (x : UInt8) :
    toNat (b ++ [x]) = toNat b * 256 + x.toNat := by
  simp only [toNat, List.map_append, List.map_cons, List.map_nil,
    Positional.value_append_singleton]

theorem toNat_cons (x : UInt8) (b : Bytes) :
    toNat (x :: b) = x.toNat * 256 ^ b.length + toNat b := by
  have hsplit := Positional.value_append 256 [x.toNat] (b.map UInt8.toNat)
  rw [List.length_map] at hsplit
  simpa [toNat, Positional.value] using hsplit

theorem toNat_ofNatWidth (width n : Nat) : toNat (ofNatWidth width n) = n % 256 ^ width := by
  induction width generalizing n with
  | zero => rw [Nat.pow_zero, Nat.mod_one]; rfl
  | succ width ih =>
    have hx : (UInt8.ofNat n).toNat = n % 256 := UInt8.toNat_ofNat'
    rw [ofNatWidth, toNat_append_singleton, ih, hx, Nat.pow_succ, Nat.mul_comm (256 ^ width) 256,
      Nat.mod_mul]
    omega

theorem toNat_ofNatWidth_of_lt {width n : Nat} (h : n < 256 ^ width) :
    toNat (ofNatWidth width n) = n := by
  rw [toNat_ofNatWidth, Nat.mod_eq_of_lt h]

/-- A string is the one of its length for its number. -/
theorem ofNatWidth_toNat (b : Bytes) : ofNatWidth b.length (toNat b) = b := by
  induction b using List.reverseRecOn with
  | nil => rfl
  | append_singleton b x ih =>
    have hx := x.toNat_lt
    have hfront : (toNat b * 256 + x.toNat) / 256 = toNat b := by omega
    have hlast : UInt8.ofNat (toNat b * 256 + x.toNat) = x := by
      rw [← UInt8.toNat_inj, UInt8.toNat_ofNat']
      omega
    rw [List.length_append, List.length_singleton, ofNatWidth, toNat_append_singleton, hfront,
      hlast, ih]

/-! ## The order of the numbers -/

/-- Of strings of one length, the first one byte by byte is the one of the smaller number. -/
theorem lex_iff_toNat_lt {b c : Bytes} (hlength : b.length = c.length) :
    List.Lex (· < ·) b c ↔ toNat b < toNat c := by
  induction b generalizing c with
  | nil =>
    obtain rfl := List.length_eq_zero_iff.mp hlength.symm
    simp
  | cons x b ih =>
    match c with
    | y :: c =>
      have hrest : b.length = c.length := Nat.succ.inj hlength
      have hb : toNat b < 256 ^ c.length := hrest ▸ toNat_lt b
      have hc := toNat_lt c
      rw [List.cons_lex_cons_iff, ih hrest, UInt8.lt_iff_toNat_lt, ← UInt8.toNat_inj, toNat_cons,
        toNat_cons, hrest]
      -- a smaller first byte outweighs all that stands behind the other one
      rcases Nat.lt_trichotomy x.toNat y.toNat with hxy | hxy | hxy
      · have hle := Nat.mul_le_mul_right (256 ^ c.length) (Nat.succ_le_of_lt hxy)
        rw [Nat.succ_mul] at hle
        omega
      · rw [hxy]
        omega
      · have hle := Nat.mul_le_mul_right (256 ^ c.length) (Nat.succ_le_of_lt hxy)
        rw [Nat.succ_mul] at hle
        omega

/-- Shorter strings first, and those of one length byte by byte, is the order of the numbers. -/
theorem shortlex_ofNat_iff {m n : Nat} :
    List.Shortlex (· < ·) (ofNat m) (ofNat n) ↔ m < n := by
  have hm := length_ofNat_le_iff m
  have hn := length_ofNat_le_iff n
  rcases Nat.lt_trichotomy (ofNat m).length (ofNat n).length with hlength | hlength | hlength
  · have hlt : m < 256 ^ (ofNat m).length := (hm _).mp (Nat.le_refl _)
    have hge : ¬n < 256 ^ (ofNat m).length := mt (hn _).mpr (Nat.not_le_of_lt hlength)
    exact iff_of_true (List.Shortlex.of_length_lt hlength) (by omega)
  · rw [List.shortlex_iff_lex hlength, lex_iff_toNat_lt hlength, toNat_ofNat, toNat_ofNat]
  · have hlt : n < 256 ^ (ofNat n).length := (hn _).mp (Nat.le_refl _)
    have hge : ¬m < 256 ^ (ofNat n).length := mt (hm _).mpr (Nat.not_le_of_lt hlength)
    refine iff_of_false (fun h => ?_) (by omega)
    rcases List.shortlex_def.mp h with h | h
    · omega
    · omega

end Bytes

end EthWire

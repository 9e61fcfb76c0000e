import EthWire.Hex
import EthWire.Proofs.BigEndian
import EthWire.Proofs.Numeral

/-!
# Hexadecimal text read back

Digits, numbers and byte strings from the texts that are written for them.
-/

namespace EthWire

namespace Text

/-! ## One digit -/

theorem digit?_digitChar : ∀ d < 16, digit? (digitChar d) = some d := by decide

theorem hexDigit?_digitChar : ∀ d < 16, hexDigit? (digitChar d) = some d := by decide

theorem isAsciiBlank_digitChar : ∀ d < 16, (digitChar d).isAsciiBlank = false := by decide

theorem foldToAscii_digitChar : ∀ d < 16, foldToAscii (digitChar d) = digitChar d := by decide

theorem digitChar_val_eq_zero_iff : ∀ d < 16, (digitChar d).val = 0x30 ↔ d = 0 := by decide

/-! ## Numerals -/

section Numeral

variable {base : Nat} {ds : List Nat}

theorem map_foldToAscii_digits (h : ∀ d ∈ ds, d < 16) :
    (ds.map digitChar).map foldToAscii = ds.map digitChar := by
  rw [List.map_map]
  exact List.map_congr_left fun d hd => foldToAscii_digitChar d (h d hd)

theorem underscored_digits (hb : base ≤ 16) (h : ∀ d ∈ ds, d < base) (hne : ds ≠ []) :
    Underscored base (ds.map digitChar) ds := by
  refine .of_forall₂ ?_ (by simpa using hne)
  rw [List.forall₂_map_left_iff, List.forall₂_same]
  exact fun d hd => ⟨digit?_digitChar d (Nat.lt_of_lt_of_le (h d hd) hb), h d hd⟩

theorem readInt?_digits (hb : base ≤ 16) (hne : ds ≠ []) (h : ∀ d ∈ ds, d < base)
    (hlimit : base = 10 → ds.length ≤ decimalLimit) :
    readInt? base (ds.map digitChar) = some (Positional.value base ds : Int) := by
  rw [readInt?_eq_some_iff,
    map_foldToAscii_digits fun d hd => Nat.lt_of_lt_of_le (h d hd) hb]
  exact .of_digits (underscored_digits hb h hne) hlimit

end Numeral

/-! ## Quantities -/

/-- The digits of a number as they are written: a zero alone, or none in front. -/
theorem ofNatBase_eq_map {base : Nat} (hb : 1 < base) (n : Nat) :
    ∃ ds, ofNatBase base n = ds.map digitChar ∧ ds ≠ [] ∧ (∀ d ∈ ds, d < base) ∧
      Positional.value base ds = n ∧ (ds.head? = some 0 → ds = [0]) := by
  unfold ofNatBase
  split
  next h0 =>
    subst h0
    refine ⟨[0], rfl, List.cons_ne_nil _ _, ?_, ?_, fun _ => rfl⟩
    · intro d hd
      rw [List.mem_singleton.mp hd]
      omega
    · simp [Positional.value]
  next h0 =>
    refine ⟨Positional.digits base n, rfl, ?_, fun d => Positional.lt_of_mem_digits hb,
      Positional.value_digits hb n, fun h => absurd h (Positional.head?_digits_ne_zero hb n)⟩
    intro hnil
    have hvalue := Positional.value_digits hb n
    rw [hnil] at hvalue
    exact h0 hvalue.symm

theorem length_ofNat_le {n k : Nat} (hk : 0 < k) (hn : n < 10 ^ k) :
    (ofNat n).length ≤ k := by
  unfold ofNat ofNatBase
  split
  · exact hk
  · rw [List.length_map]
    exact (Positional.length_digits_le_iff (by decide) n k).mpr hn

/-- A row of digits that is not too long denotes a number that can be written. -/
theorem isWritten_value {ds : List Nat} (hds : ∀ d ∈ ds, d < 10)
    (hlimit : ds.length ≤ decimalLimit) (minus : Bool) :
    isWritten (if minus then -(Positional.value 10 ds : Int) else Positional.value 10 ds)
      = true := by
  have hvalue : Positional.value 10 ds < Nat.pow 10 ds.length :=
    Positional.value_lt (by decide) hds
  have hlt := Nat.lt_of_lt_of_le hvalue (pow_le_pow_decimalLimit hlimit)
  rw [isWritten_iff]
  split
  · rwa [Int.natAbs_neg]
  · exact hlt

/-- A decimal numeral that is read is short enough to be written. -/
theorem isWritten_of_readInt? {t : Text} {n : Int} (h : readInt? 10 t = some n) :
    isWritten n = true := by
  have hspelled := readInt?_eq_some_iff.mp h
  generalize t.map foldToAscii = u at hspelled
  cases hspelled with
  | mk _ _ _ hdigits hlimit _ => exact isWritten_value hdigits.lt (hlimit rfl) _

theorem afterHexMark?_append (t : Text) : afterHexMark? (ofString "0x" ++ t) = some t := rfl

end Text

/-! ## Byte strings -/

namespace Bytes

theorem hex_cons (x : UInt8) (b : Bytes) :
    hex (x :: b)
      = Text.digitChar (x.toNat / 16) :: Text.digitChar (x.toNat % 16) :: hex b := rfl

theorem length_hex (b : Bytes) : (hex b).length = 2 * b.length := by
  induction b with
  | nil => rfl
  | cons x b ih =>
    rw [hex_cons, List.length_cons, List.length_cons, List.length_cons, ih]
    omega

theorem ofHex?_hex (b : Bytes) : ofHex? (hex b) = some b := by
  induction b with
  | nil => rfl
  | cons x b ih =>
    have hx : x.toNat < 256 := x.toNat_lt
    have hhigh : x.toNat / 16 < 16 := by omega
    have hlow : x.toNat % 16 < 16 := by omega
    have hbyte : UInt8.ofNat (16 * (x.toNat / 16) + x.toNat % 16) = x := by
      rw [Nat.div_add_mod, UInt8.ofNat_toNat]
    rw [hex_cons, ofHex?, if_neg (by simp [Text.isAsciiBlank_digitChar _ hhigh]),
      Text.hexDigit?_digitChar _ hhigh, Text.hexDigit?_digitChar _ hlow]
    dsimp only
    rw [ih, hbyte]
    rfl

theorem ofHex_hex (b : Bytes) : ofHex (hex b) = .ok b := by
  rw [ofHex, ofHex?_hex]

end Bytes

end EthWire

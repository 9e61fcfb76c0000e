import EthWire.Proofs.Binary64.Decimal
import EthWire.Proofs.Json.Number

/-!
# Decimals read back

A finite number is written in its shortest decimal, with a point between the digits, with zeros
around them or with a power of ten. Each of these spellings is read as the number nearest to the
decimal.
-/

namespace EthWire

namespace Binary64

open Json (Digits Numeral Reads value)
open Json.Numeral (signText)

/-- The digits that are written, and the zeros behind them that are not. -/
structure Significant (digits : Nat) (ds : Digits) (zeros : Nat) : Prop where
  text : significantDigits digits = ds.text
  leading : ds.digits.head? ≠ some 0
  all : Positional.digits 10 digits = ds.digits ++ List.replicate zeros 0

theorem exists_significant {digits : Nat} (h : digits ≠ 0) :
    ∃ ds zeros, Significant digits ds zeros := by
  have hall := Positional.value_digits (by decide : 1 < 10) digits
  have hhead := Positional.head?_digits_ne_zero (by decide : 1 < 10) digits
  have hlt : ∀ d ∈ Positional.digits 10 digits, d < 10 :=
    fun d => Positional.lt_of_mem_digits (by decide)
  generalize hds : Positional.digits 10 digits = all at hall hhead hlt
  have hzeros : all.reverse.takeWhile (· == 0)
      = List.replicate (all.reverse.takeWhile (· == 0)).length 0 := by
    have hzero := List.all_eq_true.mp (@List.all_takeWhile _ (· == 0) all.reverse)
    exact List.eq_replicate_iff.mpr ⟨rfl, fun d hd => eq_of_beq (hzero d hd)⟩
  have hsplit : all = (all.reverse.dropWhile (· == 0)).reverse
      ++ List.replicate (all.reverse.takeWhile (· == 0)).length 0 := by
    have happend := List.takeWhile_append_dropWhile (p := (· == 0)) (l := all.reverse)
    rw [← List.reverse_inj, List.reverse_append, List.reverse_reverse, List.reverse_replicate,
      ← hzeros, happend]
  have hne : (all.reverse.dropWhile (· == 0)).reverse ≠ [] := by
    intro hempty
    rw [hempty, List.nil_append] at hsplit
    rw [hsplit, Positional.value_zeros] at hall
    exact h hall.symm
  have hfirst : (all.reverse.dropWhile (· == 0)).reverse.head? = all.head? := by
    rw [hsplit, List.head?_append_of_ne_nil _ hne, ← hsplit]
  have hdigits : ∀ d ∈ (all.reverse.dropWhile (· == 0)).reverse, d < 10 := by
    intro d hd
    apply hlt d
    rw [hsplit]
    exact List.mem_append_left _ hd
  refine ⟨⟨_, hne, hdigits⟩, _, ?_, hfirst ▸ hhead, hds.trans hsplit⟩
  rw [significantDigits, hds]
  rfl

/-! ## Spellings -/

section Spelling

variable {levels : Nat}

/-- A numeral that is no integer is read as the number nearest to its digits, zeros behind them
taken off. -/
theorem reads_numeral (n : Numeral) (hn : n.places ≠ none ∨ n.power ≠ none) {digits : Nat}
    (zeros : Nat) {exponent : Int}
    (hdigits : Positional.value 10 (n.whole.digits ++ (n.places.map Digits.digits).getD [])
      = digits * 10 ^ zeros)
    (hexponent : (Numeral.powerValue n.power).getD 0
      - ((n.places.map Digits.digits).getD []).length = exponent - zeros) :
    Reads (value levels) n.text (.float (ofDecimal n.negative digits exponent)) := by
  have hinteger : ¬((n.places.map Digits.digits).isNone && (Numeral.powerValue n.power).isNone)
      = true := by
    intro h
    rw [Bool.and_eq_true, Option.isNone_map, Option.isNone_iff_eq_none,
      Option.isNone_iff_eq_none] at h
    rcases hn with hplaces | hpower
    · exact hplaces h.1
    · obtain ⟨p, hp⟩ := Option.ne_none_iff_exists'.mp hpower
      rw [hp] at h
      cases h.2
  have hjson : n.json = .float (ofDecimal n.negative digits exponent) := by
    rw [Numeral.json, Numeral.jsonOf, if_neg hinteger, hdigits, hexponent, ofDecimal_mul_pow]
  rw [← hjson]
  exact n.reads_text fun hplaces hpower => absurd hn (by simp [hplaces, hpower])

variable (negative : Bool) (ds : Digits)

/-- Digits behind the zeros of a number below one. -/
theorem reads_belowOne (zeros : Nat) :
    Reads (value levels) (signText negative ++ (Text.ofString "0."
        ++ List.replicate zeros (CodePoint.ofChar '0') ++ ds.text))
      (.float (ofDecimal negative ds.value (-zeros - ds.digits.length))) := by
  have hread := @reads_numeral levels
    ⟨negative, .zero, some (ds.afterZeros zeros), none, fun _ => rfl⟩ (.inl (Option.some_ne_none _))
    ds.value 0 (-zeros - ds.digits.length)
  have htext : Text.ofString "0." ++ List.replicate zeros (CodePoint.ofChar '0') ++ ds.text
      = Digits.zero.text
        ++ (Numeral.placesText (some (ds.afterZeros zeros)) ++ Numeral.powerText none) := by
    rw [Numeral.placesText, Numeral.powerText, Digits.text_afterZeros, List.append_nil,
      List.append_assoc]
    rfl
  rw [htext]
  refine hread ?_ ?_
  · show Positional.value 10 (List.replicate (zeros + 1) 0 ++ ds.digits) = _
    rw [Positional.value_zeros_append, Nat.pow_zero, Nat.mul_one, Digits.value]
  · show (0 : Int) - ((List.replicate zeros 0 ++ ds.digits).length : Nat) = _
    rw [List.length_append, List.length_replicate]
    omega

variable (hleading : ds.digits.head? ≠ some 0)

include hleading

/-- Digits with zeros up to the point. -/
theorem reads_wholeZeros (zeros : Nat) :
    Reads (value levels) (signText negative ++ (ds.text
        ++ List.replicate zeros (CodePoint.ofChar '0') ++ Text.ofString ".0"))
      (.float (ofDecimal negative ds.value zeros)) := by
  have hhead : (ds.beforeZeros zeros).digits.head? ≠ some 0 := by
    rwa [Digits.beforeZeros, List.head?_append_of_ne_nil _ ds.nonempty]
  have hread := @reads_numeral levels
    ⟨negative, ds.beforeZeros zeros, some .zero, none, fun h => absurd h hhead⟩
    (.inl (Option.some_ne_none _)) ds.value (zeros + 1) zeros
  have htext : ds.text ++ List.replicate zeros (CodePoint.ofChar '0') ++ Text.ofString ".0"
      = (ds.beforeZeros zeros).text
        ++ (Numeral.placesText (some .zero) ++ Numeral.powerText none) := by
    rw [Numeral.placesText, Numeral.powerText, Digits.text_beforeZeros, List.append_nil]
    rfl
  rw [htext]
  refine hread ?_ ?_
  · show Positional.value 10 (ds.digits ++ List.replicate zeros 0 ++ [0]) = _
    rw [List.append_assoc, ← List.replicate_succ', Positional.value_append_zeros, Digits.value]
  · show (0 : Int) - (1 : Nat) = _
    omega

/-- Digits with the point between them. -/
theorem reads_split {whole : Nat} (hpos : 0 < whole) (hlt : whole < ds.digits.length) :
    Reads (value levels) (signText negative ++ (ds.text.take whole ++ Text.ofString "."
        ++ ds.text.drop whole))
      (.float (ofDecimal negative ds.value (whole - ds.digits.length))) := by
  have hhead : (ds.front whole hpos).digits.head? ≠ some 0 := by
    rwa [Digits.front, List.head?_take, if_neg (Nat.ne_of_gt hpos)]
  have hread := @reads_numeral levels
    ⟨negative, ds.front whole hpos, some (ds.back whole hlt), none, fun h => absurd h hhead⟩
    (.inl (Option.some_ne_none _)) ds.value 0 (whole - ds.digits.length)
  have htext : ds.text.take whole ++ Text.ofString "." ++ ds.text.drop whole
      = (ds.front whole hpos).text
        ++ (Numeral.placesText (some (ds.back whole hlt)) ++ Numeral.powerText none) := by
    rw [Numeral.placesText, Numeral.powerText, Digits.text_front, Digits.text_back,
      List.append_nil, List.append_assoc]
    rfl
  rw [htext]
  refine hread ?_ ?_
  · show Positional.value 10 (ds.digits.take whole ++ ds.digits.drop whole) = _
    rw [List.take_append_drop, Nat.pow_zero, Nat.mul_one, Digits.value]
  · show (0 : Int) - ((ds.digits.drop whole).length : Nat) = _
    rw [List.length_drop]
    omega

/-- Digits and a power of ten. -/
theorem reads_power (exponent : Bool × Digits) :
    Reads (value levels) (signText negative ++ (ds.text ++ Numeral.powerText (some exponent)))
      (.float (ofDecimal negative ds.value ((Numeral.powerValue (some exponent)).getD 0))) := by
  have hread := @reads_numeral levels
    ⟨negative, ds, none, some exponent, fun h => absurd h hleading⟩
    (.inr (Option.some_ne_none _)) ds.value 0 ((Numeral.powerValue (some exponent)).getD 0)
  refine hread ?_ (by rfl)
  show Positional.value 10 (ds.digits ++ []) = _
  rw [List.append_nil, Nat.pow_zero, Nat.mul_one, Digits.value]

/-- Digits with the point behind the first one, and a power of ten. -/
theorem reads_splitPower (hmore : 1 < ds.digits.length) (exponent : Bool × Digits) :
    Reads (value levels) (signText negative ++ (ds.text.take 1 ++ Text.ofString "."
        ++ ds.text.drop 1 ++ Numeral.powerText (some exponent)))
      (.float (ofDecimal negative ds.value
        ((Numeral.powerValue (some exponent)).getD 0 - (ds.digits.length - 1)))) := by
  have hhead : (ds.front 1 Nat.one_pos).digits.head? ≠ some 0 := by
    rwa [Digits.front, List.head?_take, if_neg Nat.one_ne_zero]
  have hread := @reads_numeral levels
    ⟨negative, ds.front 1 Nat.one_pos, some (ds.back 1 hmore), some exponent,
      fun h => absurd h hhead⟩
    (.inl (Option.some_ne_none _)) ds.value 0
    ((Numeral.powerValue (some exponent)).getD 0 - (ds.digits.length - 1))
  have htext : ds.text.take 1 ++ Text.ofString "." ++ ds.text.drop 1
        ++ Numeral.powerText (some exponent)
      = (ds.front 1 Nat.one_pos).text
        ++ (Numeral.placesText (some (ds.back 1 hmore)) ++ Numeral.powerText (some exponent)) := by
    rw [Numeral.placesText, Digits.text_front, Digits.text_back, List.append_assoc,
      List.append_assoc]
    rfl
  rw [htext]
  refine hread ?_ ?_
  · show Positional.value 10 (ds.digits.take 1 ++ ds.digits.drop 1) = _
    rw [List.take_append_drop, Nat.pow_zero, Nat.mul_one, Digits.value]
  · show (Numeral.powerValue (some exponent)).getD 0 - ((ds.digits.drop 1).length : Nat) = _
    rw [List.length_drop]
    omega

end Spelling

/-! ## Finite numbers -/

/-- The power of ten of a decimal, written with a sign and two digits at least. -/
theorem exists_power (scale : Int) :
    ∃ exponent, Numeral.powerValue (some exponent) = some scale ∧
      (if scale < 0 then Text.ofString "e-" else Text.ofString "e+")
        ++ (Text.ofNat scale.natAbs).leftpad 2 (CodePoint.ofChar '0')
      = Numeral.powerText (some exponent) := by
  obtain ⟨ds, heq, hne, hlt, hvalue, -⟩ := @Text.ofNatBase_eq_map 10 (by decide) scale.natAbs
  have htext : (Text.ofNat scale.natAbs).leftpad 2 (CodePoint.ofChar '0')
      = (Digits.afterZeros (2 - ds.length) ⟨ds, hne, hlt⟩).text := by
    rw [Digits.text_afterZeros, Text.ofNat, heq, List.leftpad, List.length_map]
    rfl
  have hpadded : Positional.value 10 (List.replicate (2 - ds.length) 0 ++ ds) = scale.natAbs := by
    rw [Positional.value_zeros_append, hvalue]
  refine ⟨(decide (scale < 0), Digits.afterZeros (2 - ds.length) ⟨ds, hne, hlt⟩), ?_, ?_⟩
  · rw [Numeral.powerValue, Digits.afterZeros]
    dsimp only
    rw [hpadded]
    by_cases hnegative : scale < 0
    · rw [decide_eq_true hnegative, if_pos rfl]
      congr 1
      omega
    · rw [decide_eq_false hnegative, if_neg Bool.false_ne_true]
      congr 1
      omega
  · rw [htext, Numeral.powerText]
    by_cases hnegative : scale < 0
    · rw [if_pos hnegative, decide_eq_true hnegative]
      rfl
    · rw [if_neg hnegative, decide_eq_false hnegative]
      rfl

/-- The power of ten of the first digit. -/
def Decimal.scale (x : Decimal) : Int := x.exponent + (Positional.digits 10 x.digits).length - 1

namespace Significant

variable {levels : Nat} {x : Decimal} {ds : Digits} {zeros : Nat}

theorem scale_eq (h : Significant x.digits ds zeros) :
    x.scale + 1 - ds.digits.length = x.exponent + zeros := by
  have hlength : (Positional.digits 10 x.digits).length = ds.digits.length + zeros := by
    rw [h.all, List.length_append, List.length_replicate]
  rw [Decimal.scale, hlength]
  omega

/-- The zeros that are not written are told by the scale. -/
theorem ofDecimal_eq (h : Significant x.digits ds zeros) (negative : Bool) :
    ofDecimal negative x.digits x.exponent
      = ofDecimal negative ds.value (x.scale + 1 - ds.digits.length) := by
  have hdigits : x.digits = ds.value * 10 ^ zeros := by
    rw [← Positional.value_digits (by decide : 1 < 10) x.digits, h.all,
      Positional.value_append_zeros, Digits.value]
  rw [h.scale_eq, hdigits, ← ofDecimal_mul_pow negative ds.value zeros (x.exponent + zeros),
    Int.add_sub_cancel]

theorem reads_positional (h : Significant x.digits ds zeros)
    (hposition : layout.leastPositional ≤ x.scale ∧ x.scale < layout.firstScientific)
    (negative : Bool) :
    Reads (value levels) (signText negative ++ x.write layout)
      (.float (ofDecimal negative ds.value (x.scale + 1 - ds.digits.length))) := by
  have htextLength : ds.text.length = ds.digits.length := List.length_map _
  unfold Decimal.write
  dsimp only
  rw [h.text, ← Decimal.scale, if_pos hposition]
  by_cases hbelow : x.scale < 0
  · have hexponent : x.scale + 1 - ds.digits.length
        = -(-x.scale - 1).toNat - ds.digits.length := by
      omega
    rw [if_pos hbelow, hexponent]
    exact reads_belowOne negative ds _
  · rw [if_neg hbelow]
    by_cases hle : ds.text.length ≤ x.scale.toNat + 1
    · have hexponent : x.scale + 1 - ds.digits.length
          = (x.scale.toNat + 1 - ds.digits.length : Nat) := by
        omega
      have hzeros : (((x.scale.toNat + 1 : Nat) : Int) - ds.digits.length).toNat
          = x.scale.toNat + 1 - ds.digits.length := by
        omega
      rw [if_pos hle, hexponent, htextLength, hzeros]
      exact reads_wholeZeros negative ds h.leading _
    · have hexponent : x.scale + 1 - ds.digits.length
          = ((x.scale.toNat + 1 : Nat) : Int) - ds.digits.length := by
        omega
      rw [if_neg hle, hexponent]
      exact reads_split negative ds h.leading (Nat.succ_pos _) (by omega)

theorem reads_scientific (h : Significant x.digits ds zeros)
    (hscientific : ¬(layout.leastPositional ≤ x.scale ∧ x.scale < layout.firstScientific))
    (negative : Bool) :
    Reads (value levels) (signText negative ++ x.write layout)
      (.float (ofDecimal negative ds.value (x.scale + 1 - ds.digits.length))) := by
  obtain ⟨exponent, hpower, htext⟩ := exists_power x.scale
  have hscaled : (Numeral.powerValue (some exponent)).getD 0 = x.scale := by rw [hpower]; rfl
  have hpadding : layout.exponentDigits = 2 := rfl
  obtain ⟨d, more, hd, hrow, hds⟩ := ds.exists_text_eq
  unfold Decimal.write
  dsimp only
  rw [h.text, ← Decimal.scale, if_neg hscientific, hpadding]
  cases more with
  | nil =>
    have hexponent : x.scale + 1 - ds.digits.length = x.scale := by
      rw [hrow, List.length_singleton]
      omega
    have hread := @reads_power levels negative ds h.leading exponent
    rw [hscaled, hds, ← htext] at hread
    rw [hexponent, hds]
    exact hread
  | cons e more =>
    have hexponent : x.scale + 1 - ds.digits.length = x.scale - (ds.digits.length - 1) := by
      omega
    have hread := @reads_splitPower levels negative ds h.leading (by rw [hrow]; simp) exponent
    rw [hscaled, ← htext] at hread
    rw [hexponent, hds]
    rw [hds] at hread
    simpa using hread

end Significant

theorem Decimal.reads_write {levels : Nat} (negative : Bool) {x : Decimal} (hx : x.digits ≠ 0) :
    Reads (value levels) (signText negative ++ x.write layout)
      (.float (ofDecimal negative x.digits x.exponent)) := by
  obtain ⟨ds, zeros, h⟩ := exists_significant hx
  rw [h.ofDecimal_eq]
  by_cases hposition : layout.leastPositional ≤ x.scale ∧ x.scale < layout.firstScientific
  · exact h.reads_positional hposition negative
  · exact h.reads_scientific hposition negative

end Binary64

namespace Json

open Binary64

theorem reads_zero {levels : Nat} (negative : Bool) :
    Reads (value levels) (Numeral.signText negative ++ Text.ofString "0.0")
      (.float (.finite negative 0 minExponent)) := by
  have hread := @reads_numeral levels ⟨negative, .zero, some .zero, none, fun _ => rfl⟩
    (.inl (Option.some_ne_none _)) 0 0 (-1) rfl rfl
  rw [ofDecimal_zero] at hread
  exact hread

/-- A number comes back from its text, an infinite one and the NaN of documents included. -/
theorem reads_writeFloat {levels : Nat} {x : Binary64} (hcanonical : Canonical x)
    (hshared : x ≠ .nan false) : Reads (value levels) (writeFloat x) (.float x) := by
  cases x with
  | nan shared =>
    cases shared with
    | false => exact absurd rfl hshared
    | true =>
      exact ⟨⟨_, _, rfl, rfl⟩, fun rest _ =>
        @value_word levels 0x4e _ (_, rest) (by decide) (by decide) (by decide) rfl⟩
  | infinite negative =>
    cases negative with
    | false =>
      exact ⟨⟨_, _, rfl, rfl⟩, fun rest _ =>
        @value_word levels 0x49 _ (_, rest) (by decide) (by decide) (by decide) rfl⟩
    | true =>
      exact ⟨⟨_, _, rfl, rfl⟩, fun rest _ =>
        @value_word levels 0x2d _ (_, rest) (by decide) (by decide) (by decide) rfl⟩
  | finite negative m e =>
    have htext : writeFloat (.finite negative m e) = Numeral.signText negative
        ++ if m = 0 then Text.ofString "0.0" else (shortest m e).write layout := rfl
    rw [htext]
    by_cases hm : m = 0
    · obtain ⟨-, -, -, hleast | hnormal⟩ := hcanonical
      · rw [if_pos hm, hm, hleast]
        exact reads_zero negative
      · rw [hm] at hnormal
        exact absurd hnormal (by decide)
    · have hdigits : (shortest m e).digits ≠ 0 := shortest_digits_ne_zero hm hcanonical
      have hread := @Decimal.reads_write levels negative _ hdigits
      rw [if_neg hm]
      rwa [ofDecimal_shortest hm hcanonical] at hread

end Json

end EthWire

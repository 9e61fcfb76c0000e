import EthWire.Json.Field
import EthWire.Proofs.Hexadecimal
import EthWire.Proofs.Result
import EthWire.Proofs.Width

/-!
# Fields of documents read back

Each reader of a field gives back the value that the text was written for. Which member a
field is read from depends on the keys alone, not on their order.
-/

namespace EthWire

namespace Shape

variable {α : Type} {kind : FixedKind} {bits : Nat} {field : Text}

theorem quantityOfDigits_ofNatBase (n : Nat) :
    quantityOfDigits (Text.ofNatBase 16 n) field = .ok (n : Int) := by
  obtain ⟨ds, heq, hne, hlt, hvalue, hzero⟩ := @Text.ofNatBase_eq_map 16 (by decide) n
  have hread := Text.readInt?_digits (Nat.le_refl 16) hne hlt (fun h => absurd h (by decide))
  rw [heq]
  cases ds with
  | nil => exact absurd rfl hne
  | cons d ds =>
    have hd : d < 16 := hlt d (by simp)
    have hfirst : ¬((Text.digitChar d).val = 0x30 ∧ ds.map Text.digitChar ≠ []) := by
      rintro ⟨h0, hmore⟩
      rw [Text.digitChar_val_eq_zero_iff d hd] at h0
      have hnil : ds = [] := (List.cons.inj (hzero (by rw [h0]; rfl))).2
      exact hmore (by rw [hnil]; rfl)
    rw [List.map_cons, quantityOfDigits]
    rw [if_neg hfirst, ← List.map_cons, hread, hvalue]

theorem asQuantity_quantity {max : Int} {n : Nat} (h : (n : Int) ≤ max) :
    (Shape.text (Text.quantity n) : Shape α).asQuantity max field = .ok n := by
  have hmark : (Shape.text (Text.quantity n) : Shape α).asMarkedHex field
      = .ok (Text.ofNatBase 16 n) := by
    rw [asMarkedHex, Text.quantity, Text.afterHexMark?_append]
  unfold asQuantity
  dsimp only
  rw [hmark, ok_bind, quantityOfDigits_ofNatBase, ok_bind, if_neg (by omega)]
  rfl

@[simp] theorem asWord_quantity (w : Word bits) :
    (Shape.text (Text.quantity w.val) : Shape α).asWord field = .ok w := by
  have hle := w.val_le_max
  unfold asWord
  rw [asQuantity_quantity (by omega), ok_bind, Word.ofNat?_eq_some.mpr rfl]
  rfl

@[simp] theorem asBytes_hexMarked (b : Bytes) :
    (Shape.text (Bytes.hexMarked b) : Shape α).asBytes field = .ok b := by
  have hmark : (Shape.text (Bytes.hexMarked b) : Shape α).asMarkedHex field
      = .ok (Bytes.hex b) := by
    rw [asMarkedHex, Bytes.hexMarked, Text.afterHexMark?_append]
  have heven : ¬(Bytes.hex b).length % 2 = 1 := by
    rw [Bytes.length_hex]
    omega
  unfold asBytes
  rw [hmark, ok_bind, if_neg heven, Bytes.ofHex_hex]
  rfl

@[simp] theorem asFixed_hex (v : Fixed kind) :
    (Shape.text v.hex : Shape α).asFixed field = .ok v := by
  unfold asFixed Fixed.hex
  rw [asBytes_hexMarked, ok_bind, Fixed.ofBytes?_bytes]
  rfl

end Shape

/-! ## Members -/

theorem CodePoint.ofChar_inj {a b : Char} : CodePoint.ofChar a = CodePoint.ofChar b ↔ a = b := by
  constructor
  · intro h
    have hval : a.val.toNat = b.val.toNat := Fin.mk.inj h
    exact Char.ext (UInt32.toNat_inj.mp hval)
  · rintro rfl
    rfl

theorem Text.ofString_inj {a b : String} : Text.ofString a = Text.ofString b ↔ a = b := by
  unfold Text.ofString
  rw [List.map_inj_right fun x y => CodePoint.ofChar_inj.mp, String.toList_inj]

namespace Json

@[simp] theorem lookup_ofString {α : Type} (key k : String) (v : α) (ms : List (Text × α)) :
    ((Text.ofString k, v) :: ms).lookup (Text.ofString key)
      = if key = k then some v else ms.lookup (Text.ofString key) := by
  rw [List.lookup_cons]
  by_cases h : key = k
  · rw [h, beq_self_eq_true, if_pos rfl]
  · rw [if_neg h, beq_false_of_ne fun heq => h (Text.ofString_inj.mp heq)]

theorem mem_of_lookup {α : Type} {ms : List (Text × α)} {key : Text} {v : α}
    (h : ms.lookup key = some v) : (key, v) ∈ ms := by
  obtain ⟨before, after, rfl, -⟩ := List.lookup_eq_some_iff.mp h
  simp

/-- Where no key comes twice, the order of the members does not matter. -/
theorem lookup_perm {α : Type} {ms ns : List (Text × α)} (h : ms.Perm ns)
    (hkeys : (ms.map Prod.fst).Nodup) (key : Text) : ms.lookup key = ns.lookup key := by
  induction h with
  | nil => rfl
  | cons m h ih =>
    rw [List.map_cons, List.nodup_cons] at hkeys
    rw [List.lookup_cons, List.lookup_cons, ih hkeys.2]
  | swap m n ms =>
    obtain ⟨k, v⟩ := m
    obtain ⟨l, w⟩ := n
    have hne : l ≠ k := by
      rintro rfl
      simp at hkeys
    rw [List.lookup_cons, List.lookup_cons, List.lookup_cons, List.lookup_cons]
    by_cases hk : key = k
    · have hl : (key == l) = false := beq_false_of_ne (hk ▸ hne.symm)
      rw [hl]
    · rw [beq_false_of_ne hk]
  | trans h1 h2 ih1 ih2 =>
    rw [ih1 hkeys, ih2 ((h1.map Prod.fst).nodup_iff.mp hkeys)]

section Filter

variable {α : Type} {ms ns : List (Text × α)} {key other : Text}

theorem lookup_filter (hne : other ≠ key) :
    (ms.filter fun m => m.1 ≠ key).lookup other = ms.lookup other := by
  induction ms with
  | nil => rfl
  | cons m ms ih =>
    obtain ⟨k, v⟩ := m
    by_cases hk : k = key
    · have hother : (other == k) = false := beq_false_of_ne (hk ▸ hne)
      rw [List.filter_cons_of_neg (by simp [hk]), ih, List.lookup_cons, hother]
    · rw [List.filter_cons_of_pos (by simp [hk]), List.lookup_cons, List.lookup_cons, ih]

/-- Members of other keys are found in the same way, whatever happens to the members of one. -/
theorem lookup_congr_of_filter
    (h : (ms.filter fun m => m.1 ≠ key) = ns.filter fun m => m.1 ≠ key) (hne : other ≠ key) :
    ms.lookup other = ns.lookup other := by
  rw [← lookup_filter hne, h, lookup_filter hne]

end Filter

section Same

variable {ms ns : List (Text × Json)} (h : ∀ key, ms.lookup key = ns.lookup key)

include h

theorem require_congr (key : String) (record : Text) :
    require ms key record = require ns key record := by
  rw [require, require, requireMember, requireMember, h]

theorem optional?_congr (key : String) : optional? ms key = optional? ns key := by
  rw [optional?, optional?, h]

theorem member?_congr (key : String) : member? ms key = member? ns key := by
  rw [member?, member?, h]

end Same

end Json

end EthWire

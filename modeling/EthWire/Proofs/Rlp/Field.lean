import EthWire.Proofs.BigEndian
import EthWire.Proofs.Result
import EthWire.Proofs.Width
import EthWire.Rlp.Encode
import EthWire.Rlp.Field

/-!
# Fields read back

Each reader of a field accepts just the items that are written for its values. Natural numbers
and the byte strings without a zero byte in front are written and read as each other, in one
order.
-/

namespace EthWire.Rlp.Item

variable {kind : FixedKind} {bits : Nat} {item : Item} {field : Text}

@[simp] theorem asBytes_bytes (b : Bytes) : (Item.bytes b).asBytes field = .ok b := rfl

@[simp] theorem asList_list (items : List Item) : (Item.list items).asList field = .ok items := rfl

theorem asBytes_eq_ok {b : Bytes} : item.asBytes field = .ok b ↔ item = .bytes b := by
  cases item with
  | bytes c => simp [asBytes]
  | list items => simp [asBytes]

theorem asList_eq_ok {items : List Item} : item.asList field = .ok items ↔ item = .list items := by
  cases item with
  | bytes b => simp [asList]
  | list more => simp [asList]

theorem asFixed_eq_ok {v : Fixed kind} : item.asFixed field = .ok v ↔ item = .bytes v.bytes := by
  unfold asFixed
  constructor
  · intro hread
    obtain ⟨b, hb, h⟩ := bind_eq_ok.mp hread
    rw [asBytes_eq_ok] at hb
    subst hb
    split at h
    next w hw =>
      cases h
      rw [Fixed.ofBytes?_eq_some] at hw
      rw [hw]
    next => cases h
  · rintro rfl
    rw [asBytes_bytes, ok_bind, Fixed.ofBytes?_bytes]
    rfl

/-- What is written for a natural number is refused beyond the bound only. -/
theorem asNat_nat (n : Nat) (max : Int) (field : Text) :
    (Item.nat n).asNat max field =
      if (n : Int) ≤ max then .ok n
      else .error (fieldFault field (.integerOverflow (bitLength max.natAbs))) := by
  rw [asNat, nat, asBytes_bytes, ok_bind, if_neg (Bytes.head?_ofNat n)]
  dsimp only
  rw [Bytes.toNat_ofNat]
  split
  next h => rw [if_neg (by omega)]
  next h => rw [if_pos (by omega), pure_eq_ok]

/-- A natural number is accepted in its shortest spelling, up to the bound. -/
theorem asNat_eq_ok {max : Int} {n : Nat} :
    item.asNat max field = .ok n ↔ item = .nat n ∧ (n : Int) ≤ max := by
  constructor
  · intro hread
    unfold asNat at hread
    obtain ⟨b, hb, h⟩ := bind_eq_ok.mp hread
    rw [asBytes_eq_ok] at hb
    subst hb
    split at h
    next => cases h
    next hhead =>
      dsimp only at h
      split at h
      next => cases h
      next hle =>
        cases h
        exact ⟨by rw [nat, Bytes.ofNat_toNat hhead], by omega⟩
  · rintro ⟨rfl, hle⟩
    rw [asNat_nat, if_pos hle]

theorem asWord_eq_ok {w : Word bits} : item.asWord field = .ok w ↔ item = .nat w.val := by
  unfold asWord
  constructor
  · intro hread
    obtain ⟨n, hn, h⟩ := bind_eq_ok.mp hread
    obtain ⟨rfl, -⟩ := asNat_eq_ok.mp hn
    split at h
    next u hu =>
      cases h
      rw [Word.ofNat?_eq_some] at hu
      rw [hu]
    next => cases h
  · rintro rfl
    have hle := w.val_le_max
    rw [asNat_eq_ok.mpr ⟨rfl, by omega⟩, ok_bind, Word.ofNat?_eq_some.mpr rfl]
    rfl

@[simp] theorem asFixed_bytes (v : Fixed kind) : (Item.bytes v.bytes).asFixed field = .ok v :=
  asFixed_eq_ok.mpr rfl

@[simp] theorem asWord_nat (w : Word bits) : (Item.nat w.val).asWord field = .ok w :=
  asWord_eq_ok.mpr rfl

end EthWire.Rlp.Item

/-! ## Natural numbers as byte strings -/

namespace EthWire.Rlp

open Item (fieldFault)

theorem uintBytes_natCast (n : Nat) : uintBytes n = .ok (Bytes.ofNat n) := by
  rw [uintBytes, if_neg (by omega), Int.toNat_natCast]

/-- A natural number is written, and read back up to the bound; beyond it the field is malformed.
Whatever is read is what is written for the answer, and just the byte strings without a zero byte
in front are written. They have as many bytes as the number asks for, so that to compare them by
length, and byte by byte where the lengths agree, is to compare the numbers. -/
theorem uint_bijection (m n k : Nat) (b : Bytes) (max : Int) (field : Text) :
    (uintBytes n >>= fun c => (Item.bytes c).asNat max field) =
      (if (n : Int) ≤ max then .ok n
        else .error (fieldFault field (.integerOverflow (bitLength max.natAbs)))) ∧
    ((Item.bytes b).asNat max field = .ok n ↔ uintBytes n = .ok b ∧ (n : Int) ≤ max) ∧
    ((∃ i : Nat, uintBytes i = .ok b) ↔ b.head? ≠ some 0) ∧
    ∃ c d, uintBytes m = .ok c ∧ uintBytes n = .ok d ∧
      (d.length ≤ k ↔ n < 256 ^ k) ∧ (List.Shortlex (· < ·) c d ↔ m < n) := by
  simp only [uintBytes_natCast, Except.ok.injEq]
  refine ⟨Item.asNat_nat n max field, ?_, ?_, _, _, rfl, rfl, Bytes.length_ofNat_le_iff n k,
    Bytes.shortlex_ofNat_iff⟩
  · rw [Item.asNat_eq_ok, Item.nat, Item.bytes.injEq, eq_comm]
  · constructor
    · rintro ⟨i, rfl⟩
      exact Bytes.head?_ofNat i
    · intro h
      exact ⟨_, Bytes.ofNat_toNat h⟩

end EthWire.Rlp

import EthWire.Fixed
import EthWire.Word

/-!
# Values of a width

What fits a word or a fixed-width value is held unchanged.
-/

namespace EthWire

namespace Word

variable {bits n : Nat} {w : Word bits}

theorem ofNat?_eq_some : ofNat? n = some w ↔ n = w.val := by
  unfold ofNat?
  constructor
  · intro h
    split at h
    · cases h
      rfl
    · cases h
  · rintro rfl
    rw [dif_pos w.val_lt]

theorem val_inj {a b : Word bits} : a.val = b.val ↔ a = b := by
  cases a
  cases b
  simp

theorem val_le_max (w : Word bits) : w.val ≤ Word.max bits := Nat.le_pred_of_lt w.val_lt

end Word

namespace Fixed

variable {kind : FixedKind} {b : Bytes} {v : Fixed kind}

theorem ofBytes?_eq_some : ofBytes? b = some v ↔ b = v.bytes := by
  unfold ofBytes?
  constructor
  · intro h
    split at h
    · cases h
      rfl
    · cases h
  · rintro rfl
    rw [dif_pos v.length_bytes]

@[simp] theorem ofBytes?_bytes (v : Fixed kind) : ofBytes? v.bytes = some v :=
  ofBytes?_eq_some.mpr rfl

end Fixed

end EthWire

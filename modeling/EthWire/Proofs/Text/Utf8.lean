import EthWire.Text.Utf8
import Mathlib.Tactic.SplitIfs

/-!
# Texts and their bytes

The texts that come from bytes are those without surrogates, and each of them comes back from its
own bytes. A text in ASCII is one of them.
-/

namespace EthWire

namespace CodePoint

variable {c : CodePoint} {n : Nat}

theorem isSurrogate_eq_false_iff : c.isSurrogate = false ↔ ¬(0xd800 ≤ c.val ∧ c.val < 0xe000) := by
  rw [isSurrogate, ← Bool.decide_and, decide_eq_false_iff_not]

theorem ofScalar?_eq_some_iff : ofScalar? n = some c ↔ n = c.val ∧ c.isSurrogate = false := by
  rw [isSurrogate_eq_false_iff, ofScalar?]
  constructor
  · intro h
    split_ifs at h with hlt hsurrogate
    obtain rfl := Option.some.inj h
    exact ⟨rfl, hsurrogate⟩
  · intro h
    obtain ⟨rfl, hscalar⟩ := h
    rw [dif_pos c.isLt, if_neg hscalar]

end CodePoint

namespace Text

variable {least n : Nat} {rest : Option Text} {t : Text} {b : Bytes} {c : CodePoint}

/-- A text without surrogates. -/
def Scalar (t : Text) : Prop := ∀ c ∈ t, c.isSurrogate = false

/-- A text in ASCII. -/
def Ascii (t : Text) : Prop := ∀ c ∈ t, c.val < 0x80

theorem Ascii.scalar (h : t.Ascii) : t.Scalar := by
  intro c hc
  have hlt := h c hc
  rw [CodePoint.isSurrogate_eq_false_iff]
  omega

theorem prependScalar?_eq_some_iff : prependScalar? least n rest = some t ↔
    ∃ (c : CodePoint) (u : Text), (least ≤ n ∧ n = c.val ∧ c.isSurrogate = false) ∧
      rest = some u ∧ t = c :: u := by
  unfold prependScalar?
  constructor
  · intro h
    split_ifs at h with hleast
    obtain ⟨c, hc, h⟩ := Option.bind_eq_some_iff.mp h
    obtain ⟨u, hu, h⟩ := Option.bind_eq_some_iff.mp h
    obtain rfl := Option.some.inj h
    exact ⟨c, u, ⟨Nat.not_lt.mp hleast, CodePoint.ofScalar?_eq_some_iff.mp hc⟩, hu, rfl⟩
  · intro h
    obtain ⟨c, u, ⟨hleast, hc⟩, rfl, rfl⟩ := h
    rw [if_neg (Nat.not_lt.mpr hleast), CodePoint.ofScalar?_eq_some_iff.mpr hc]
    rfl

theorem Scalar.prependScalar? (hrest : ∀ u, rest = some u → u.Scalar)
    (h : prependScalar? least n rest = some t) : t.Scalar := by
  obtain ⟨c, u, ⟨-, -, hc⟩, hu, rfl⟩ := prependScalar?_eq_some_iff.mp h
  exact List.forall_mem_cons.mpr ⟨hc, hrest u hu⟩

/-- A text that comes from bytes has no surrogates. -/
theorem scalar_of_ofUtf8? (h : ofUtf8? b = some t) : t.Scalar := by
  fun_induction ofUtf8? b generalizing t
  case case1 =>
    obtain rfl := Option.some.inj h
    exact List.forall_mem_nil _
  case case2 ih | case5 ih | case8 ih | case11 ih => exact .prependScalar? (fun _ => ih) h
  all_goals cases h

/-! ## Back from the bytes -/

theorem continuation?_ofNat (hn : n < 0x40) : continuation? (UInt8.ofNat (0x80 + n)) = some n := by
  have hbyte : (UInt8.ofNat (0x80 + n)).toNat = 0x80 + n :=
    UInt8.toNat_ofNat_of_lt' (show 0x80 + n < 256 by omega)
  rw [continuation?, hbyte, if_pos (by omega), Nat.add_sub_cancel_left]

theorem prependScalar?_of_eq (hc : c.isSurrogate = false) (hleast : least ≤ n) (hn : n = c.val) :
    prependScalar? least n rest = rest.map (c :: ·) := by
  rw [Text.prependScalar?, if_neg (Nat.not_lt.mpr hleast),
    CodePoint.ofScalar?_eq_some_iff.mpr ⟨hn, hc⟩]
  cases rest with
  | none => rfl
  | some u => rfl

/-- The bytes of a code point are read as that code point, one case for each number of bytes. -/
theorem ofUtf8?_utf8_append (hc : c.isSurrogate = false) (rest : Bytes) :
    ofUtf8? (c.utf8 ++ rest) = (ofUtf8? rest).map (c :: ·) := by
  have hlt : c.val < 0x110000 := c.isLt
  have hbyte : ∀ {n : Nat}, n < 0x100 → (UInt8.ofNat n).toNat = n := UInt8.toNat_ofNat_of_lt'
  unfold CodePoint.utf8
  dsimp only
  split_ifs with hone htwo hthree
  · rw [List.singleton_append, ofUtf8?.eq_def]
    dsimp only
    rw [hbyte (by omega), if_pos hone, prependScalar?_of_eq hc (Nat.zero_le _) rfl]
  · rw [List.cons_append, List.singleton_append, ofUtf8?.eq_def]
    dsimp only
    rw [hbyte (by omega), if_neg (by omega), continuation?_ofNat (by omega)]
    dsimp only
    rw [if_pos (by omega), prependScalar?_of_eq hc (by omega) (by omega)]
  · rw [List.cons_append, List.cons_append, List.singleton_append, ofUtf8?.eq_def]
    dsimp only
    rw [hbyte (by omega), if_neg (by omega), continuation?_ofNat (by omega)]
    dsimp only
    rw [if_neg (by omega), continuation?_ofNat (by omega)]
    dsimp only
    rw [if_pos (by omega), prependScalar?_of_eq hc (by omega) (by omega)]
  · rw [List.cons_append, List.cons_append, List.cons_append, List.singleton_append, ofUtf8?.eq_def]
    dsimp only
    rw [hbyte (by omega), if_neg (by omega), continuation?_ofNat (by omega)]
    dsimp only
    rw [if_neg (by omega), continuation?_ofNat (by omega)]
    dsimp only
    rw [if_neg (by omega), continuation?_ofNat (by omega)]
    dsimp only
    rw [if_pos (by omega), prependScalar?_of_eq hc (by omega) (by omega)]

/-- A text without surrogates comes back from its bytes. -/
theorem Scalar.ofUtf8?_toUtf8 (h : t.Scalar) : ofUtf8? t.toUtf8 = some t := by
  induction t with
  | nil => rfl
  | cons c t ih =>
    obtain ⟨hc, ht⟩ := List.forall_mem_cons.mp h
    show ofUtf8? (c.utf8 ++ toUtf8 t) = some (c :: t)
    rw [ofUtf8?_utf8_append hc, ih ht]
    rfl

end Text

end EthWire

import EthWire.Proofs.Json.Spelling

/-!
# Letter case in hexadecimal fields

No reader of hexadecimal text tells the two cases of a letter apart. The mark, the digits and the
second mark of a lenient numeral are all compared with both, and what stands between them is no
letter.
-/

namespace EthWire

/-! ## Code points -/

namespace CodePoint

variable {c : CodePoint}

theorem lower_of_not_letter (h : ¬(0x41 ≤ c.val ∧ c.val ≤ 0x5a)) : c.lower = c := if_neg h

/-- A code point that is no letter is met in the place of itself alone. -/
theorem lower_val_eq_iff {n : Nat} (h : ¬(0x41 ≤ n ∧ n ≤ 0x5a)) (h' : ¬(0x61 ≤ n ∧ n ≤ 0x7a)) :
    c.lower.val = n ↔ c.val = n := by
  have hc : c.val < 0x110000 := c.isLt
  unfold lower ofNat
  grind

theorem lower_lower (c : CodePoint) : c.lower.lower = c.lower := by
  refine lower_of_not_letter ?_
  have hc : c.val < 0x110000 := c.isLt
  unfold lower ofNat
  grind

@[simp] theorem isAsciiBlank_lower (c : CodePoint) : c.lower.isAsciiBlank = c.isAsciiBlank := by
  have hc : c.val < 0x110000 := c.isLt
  unfold isAsciiBlank lower ofNat
  grind

end CodePoint

namespace Text

@[simp] theorem digit?_lower (c : CodePoint) : digit? c.lower = digit? c := by
  have hc : c.val < 0x110000 := c.isLt
  unfold digit? CodePoint.lower CodePoint.ofNat
  grind

@[simp] theorem hexDigit?_lower (c : CodePoint) : hexDigit? c.lower = hexDigit? c := by
  rw [hexDigit?, hexDigit?, digit?_lower]

/-- What takes the place of a code point outside ASCII is no capital letter. -/
theorem foldToAscii_lower (c : CodePoint) : foldToAscii c.lower = (foldToAscii c).lower := by
  by_cases hletter : 0x41 ≤ c.val ∧ c.val ≤ 0x5a
  · have hc : c.isAscii = true := by
      unfold CodePoint.isAscii
      grind
    have hlower : c.lower.isAscii = true := by
      unfold CodePoint.isAscii CodePoint.lower CodePoint.ofNat
      grind
    rw [foldToAscii, foldToAscii, if_pos hc, if_pos hlower]
  · rw [CodePoint.lower_of_not_letter hletter]
    unfold foldToAscii
    split
    · exact (CodePoint.lower_of_not_letter hletter).symm
    · split
      · rfl
      · split
        next d hd =>
          obtain ⟨z, hz, rfl⟩ := Option.map_eq_some_iff.mp hd
          have hrange := List.find?_some hz
          rw [Bool.and_eq_true, decide_eq_true_eq, decide_eq_true_eq] at hrange
          have hdigit : c.val - z < 10 := by omega
          generalize c.val - z = d at hdigit
          interval_cases d <;> rfl
        next => rfl

end Text

/-! ## Texts -/

namespace Text

variable {t u : Text}

theorem lower_cons (c : CodePoint) (t : Text) : lower (c :: t) = c.lower :: t.lower := rfl

theorem lower_eq_nil_iff : t.lower = [] ↔ t = [] := List.map_eq_nil_iff

theorem length_lower (t : Text) : t.lower.length = t.length := List.length_map _

theorem map_foldToAscii_lower (t : Text) : t.lower.map foldToAscii = lower (t.map foldToAscii) := by
  rw [lower, lower, List.map_map, List.map_map]
  exact List.map_congr_left fun c _ => foldToAscii_lower c

theorem strip_lower {p : CodePoint → Bool} (hp : ∀ c : CodePoint, p c.lower = p c) (t : Text) :
    strip p t.lower = (strip p t).lower := by
  have hcomp : p ∘ CodePoint.lower = p := funext hp
  rw [strip, strip, lower, lower, List.dropWhile_map, hcomp, ← List.map_reverse, List.dropWhile_map,
    hcomp, List.map_reverse]

theorem splitSign_lower (t : Text) :
    splitSign t.lower = ((splitSign t).1, (splitSign t).2.lower) := by
  cases t with
  | nil => rfl
  | cons c rest =>
    have hminus : c.lower.val = 0x2d ↔ c.val = 0x2d :=
      CodePoint.lower_val_eq_iff (by decide) (by decide)
    have hplus : c.lower.val = 0x2b ↔ c.val = 0x2b :=
      CodePoint.lower_val_eq_iff (by decide) (by decide)
    simp only [lower_cons, splitSign, hminus, hplus]
    split
    · rfl
    · split <;> rfl

/-- A mark is a mark in either case. -/
theorem mark_lower_iff {z x : CodePoint} :
    (z.lower.val = 0x30 ∧ (x.lower.val = 0x78 ∨ x.lower.val = 0x58)) ↔
      (z.val = 0x30 ∧ (x.val = 0x78 ∨ x.val = 0x58)) := by
  have hz : z.lower.val = 0x30 ↔ z.val = 0x30 :=
    CodePoint.lower_val_eq_iff (by decide) (by decide)
  have hx : x.val < 0x110000 := x.isLt
  rw [hz]
  unfold CodePoint.lower CodePoint.ofNat
  grind

theorem afterHexMark?_lower (t : Text) : t.lower.afterHexMark? = t.afterHexMark?.map lower := by
  match t with
  | [] => rfl
  | [_] => rfl
  | z :: x :: rest =>
    simp only [lower_cons, afterHexMark?, mark_lower_iff]
    split <;> rfl

theorem dropHexMark_lower (t : Text) : dropHexMark t.lower = (dropHexMark t).lower := by
  match t with
  | [] => rfl
  | [_] => rfl
  | z :: x :: rest =>
    simp only [lower_cons, dropHexMark, mark_lower_iff]
    split
    · cases rest with
      | nil => rfl
      | cons u after =>
        have hunderscore : u.lower.val = 0x5f ↔ u.val = 0x5f :=
          CodePoint.lower_val_eq_iff (by decide) (by decide)
        simp only [lower_cons, hunderscore]
        split <;> rfl
    · rfl

theorem underscoredDigits?_lower (base : Nat) (separated : Bool) (t : Text) :
    underscoredDigits? base separated t.lower = underscoredDigits? base separated t := by
  induction t generalizing separated with
  | nil => rfl
  | cons c rest ih =>
    have hunderscore : c.lower.val = 0x5f ↔ c.val = 0x5f :=
      CodePoint.lower_val_eq_iff (by decide) (by decide)
    have hbeq : (c.lower.val == 0x5f) = (c.val == 0x5f) := by
      rw [Bool.eq_iff_iff, beq_iff_eq, beq_iff_eq, hunderscore]
    simp only [lower_cons, underscoredDigits?, digit?_lower, hbeq, ih]

theorem readInt?_lower (t : Text) : readInt? 16 t.lower = readInt? 16 t := by
  unfold readInt?
  simp only [map_foldToAscii_lower, strip_lower CodePoint.isAsciiBlank_lower, splitSign_lower,
    dropHexMark_lower, if_true, underscoredDigits?_lower]

theorem isQuantity_lower_iff {m : Int} : IsQuantity t.lower m ↔ IsQuantity t m := by
  have hzero : ∀ c : CodePoint, c.lower = CodePoint.ofChar '0' ↔ c = CodePoint.ofChar '0' := by
    intro c
    rw [Fin.ext_iff, Fin.ext_iff]
    exact CodePoint.lower_val_eq_iff (by decide) (by decide)
  have hhead : t.lower.head? = some (CodePoint.ofChar '0') ↔
      t.head? = some (CodePoint.ofChar '0') := by
    cases t with
    | nil => rfl
    | cons c rest => simp [lower_cons, hzero]
  have hone : t.lower = ofString "0" ↔ t = ofString "0" := by
    have hstring : ofString "0" = [CodePoint.ofChar '0'] := rfl
    rw [hstring]
    cases t with
    | nil => simp [lower]
    | cons c rest => simp [lower_cons, hzero, lower_eq_nil_iff]
  rw [IsQuantity, IsQuantity, hhead, hone, ← readInt?_eq_some_iff, ← readInt?_eq_some_iff,
    readInt?_lower]

/-- Pairs of digits stay pairs of the same digits. -/
theorem SpacedPairs.of_lower_eq {b : Bytes} (h : SpacedPairs t b) (hlower : u.lower = t.lower) :
    SpacedPairs u b := by
  induction h generalizing u with
  | nil =>
    obtain rfl := lower_eq_nil_iff.mp hlower
    exact .nil
  | @blank c t b hc _ ih =>
    obtain ⟨d, rest, rfl, hd, hrest⟩ := List.map_eq_cons_iff.mp hlower
    have hblank : d.isAsciiBlank = true := by rw [← d.isAsciiBlank_lower, hd, c.isAsciiBlank_lower, hc]
    exact .blank hblank (ih hrest)
  | @pair c d high low t b hc hd _ ih =>
    obtain ⟨c', after, rfl, hc', hafter⟩ := List.map_eq_cons_iff.mp hlower
    obtain ⟨d', rest, rfl, hd', hrest⟩ := List.map_eq_cons_iff.mp hafter
    have hhigh : hexDigit? c' = some high := by rw [← hexDigit?_lower, hc', hexDigit?_lower, hc]
    have hlow : hexDigit? d' = some low := by rw [← hexDigit?_lower, hd', hexDigit?_lower, hd]
    exact .pair hhigh hlow (ih hrest)

theorem lower_lower (t : Text) : t.lower.lower = t.lower := by
  rw [lower, lower, List.map_map]
  exact List.map_congr_left fun c _ => CodePoint.lower_lower c

end Text

/-! ## Fields -/

namespace Shape

open Text

variable {α : Type} {t u field : Text} {max : Int} {n : Nat} {b : Bytes}

/-- A byte string is the same in whatever letter case its digits and its mark are spelled. -/
theorem asBytes_text_congr (h : t.lower = u.lower) :
    (Shape.text t : Shape α).asBytes field = .ok b ↔
      (Shape.text u : Shape α).asBytes field = .ok b := by
  have hlower : ∀ t : Text, (SpellsBytes t b ∨ MisspellsBytes t b) ↔
      ∃ digits, t.lower.afterHexMark? = some digits ∧ digits.length % 2 = 0 ∧
        SpacedPairs digits b := by
    intro t
    have hpairs : ∀ digits : Text, digits.lower.SpacedPairs b ↔ digits.SpacedPairs b :=
      fun digits => ⟨fun h => h.of_lower_eq digits.lower_lower.symm,
        fun h => h.of_lower_eq digits.lower_lower⟩
    rw [← exists_spacedPairs_iff, afterHexMark?_lower]
    simp [hpairs, length_lower]
  rw [asBytes_text_eq_ok_iff, asBytes_text_eq_ok_iff, hlower, hlower, h]

/-- So is a quantity. -/
theorem asQuantity_text_congr (h : t.lower = u.lower) :
    (Shape.text t : Shape α).asQuantity max field = .ok n ↔
      (Shape.text u : Shape α).asQuantity max field = .ok n := by
  have hlower : ∀ t : Text, (SpellsQuantity t n ∨ MisspellsQuantity t n) ↔
      ∃ digits, t.lower.afterHexMark? = some digits ∧ IsQuantity digits n := by
    intro t
    rw [← exists_isQuantity_iff, afterHexMark?_lower]
    simp [isQuantity_lower_iff]
  rw [asQuantity_text_eq_ok_iff, asQuantity_text_eq_ok_iff, hlower, hlower, h]

/-- A text that spells a number is read as the number itself is. -/
theorem asQuantity_text_int (h : SpellsQuantity t n ∨ MisspellsQuantity t n) {k : Nat} :
    (Shape.text t : Shape α).asQuantity max field = .ok k ↔
      (Shape.int n : Shape α).asQuantity max field = .ok k := by
  have hvalue : ∀ k : Nat, SpellsQuantity t k ∨ MisspellsQuantity t k ↔ k = n := by
    intro k
    obtain ⟨digits, hmark, hquantity⟩ := exists_isQuantity_iff.mpr h
    rw [← exists_isQuantity_iff]
    constructor
    · rintro ⟨others, hothers, hk⟩
      obtain rfl := Option.some.inj (hmark.symm.trans hothers)
      have hsame := readInt?_eq_some_iff.mpr hk.2
      rw [readInt?_eq_some_iff.mpr hquantity.2] at hsame
      exact Int.ofNat_inj.mp (Option.some.inj hsame).symm
    · rintro rfl
      exact ⟨digits, hmark, hquantity⟩
  rw [asQuantity_text_eq_ok_iff, hvalue]
  unfold asQuantity
  dsimp only
  rw [ok_bind]
  split
  next hrange =>
    constructor
    · omega
    · intro hok
      cases hok
  next hrange =>
    rw [pure_eq_ok, Except.ok.injEq]
    omega

end Shape

end EthWire

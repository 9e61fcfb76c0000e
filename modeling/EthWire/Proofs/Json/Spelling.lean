import EthWire.Proofs.Json.Field

/-!
# The spelling of hexadecimal fields

What the readers of quantities and of byte strings accept. Each takes the documented
spelling of a value, and some other ones: a quantity may be any numeral of base sixteen that does
not start with a zero, and blanks may stand between the bytes of a byte string.
-/

namespace EthWire

namespace Text

/-! ## Quantities -/

section Quantity

variable {t digits : Text} {ds : List Nat} {n : Nat} {m : Int}

/-- Hexadecimal digits and their values. -/
abbrev Digits : Text → List Nat → Prop := List.Forall₂ fun c d => hexDigit? c = some d

/-- A quantity as it is documented: behind the mark, a zero, or digits of which the first is
not zero. -/
def SpellsQuantity (t : Text) (n : Nat) : Prop :=
  ∃ digits ds, t.afterHexMark? = some digits ∧
    (digits = ofString "0" ∨ digits ≠ [] ∧ digits.head? ≠ some (CodePoint.ofChar '0')) ∧
    Digits digits ds ∧ n = Positional.value 16 ds

/-- A quantity that is spelled by other means than digits: with a sign, a second mark, blanks,
underscores or digits of other scripts. Leading zeros may stand behind one of these. -/
def MisspellsQuantity (t : Text) (n : Nat) : Prop :=
  ∃ digits, t.afterHexMark? = some digits ∧ digits.head? ≠ some (CodePoint.ofChar '0') ∧
    (∃ c ∈ digits, hexDigit? c = none) ∧ Numeral 16 (digits.map foldToAscii) n

theorem hexDigit?_eq_some_iff {c : CodePoint} {d : Nat} :
    hexDigit? c = some d ↔ digit? c = some d ∧ d < 16 := by
  rw [hexDigit?, Option.filter_eq_some_iff, decide_eq_true_eq]

theorem foldToAscii_of_hexDigit? {c : CodePoint} {d : Nat} (h : hexDigit? c = some d) :
    foldToAscii c = c := by
  have hascii : c.isAscii = true := by
    obtain ⟨hc, -⟩ := hexDigit?_eq_some_iff.mp h
    unfold digit? at hc
    unfold CodePoint.isAscii
    grind
  rw [foldToAscii, if_pos hascii]

theorem Digits.map_foldToAscii (h : Digits digits ds) : digits.map foldToAscii = digits := by
  induction h with
  | nil => rfl
  | cons hc _ ih => rw [List.map_cons, foldToAscii_of_hexDigit? hc, ih]

theorem exists_digits_iff : (∃ ds, Digits digits ds) ↔ ∀ c ∈ digits, hexDigit? c ≠ none := by
  induction digits with
  | nil => simp
  | cons c rest ih =>
    rw [List.forall_mem_cons, ← ih]
    constructor
    · rintro ⟨_, _ | ⟨hc, hrest⟩⟩
      exact ⟨by simp [hc], _, hrest⟩
    · rintro ⟨hc, ds, hrest⟩
      obtain ⟨d, hd⟩ := Option.ne_none_iff_exists'.mp hc
      exact ⟨d :: ds, .cons hd hrest⟩

/-- Digits alone spell the number that they denote, and no other. -/
theorem Digits.numeral_iff (h : Digits digits ds) (hne : digits ≠ []) :
    Numeral 16 (digits.map foldToAscii) m ↔ m = Positional.value 16 ds := by
  have hspelled : Numeral 16 (digits.map foldToAscii) (Positional.value 16 ds) := by
    rw [h.map_foldToAscii]
    exact .of_digits (.of_forall₂ (h.imp fun _ _ => hexDigit?_eq_some_iff.mp) hne) (by simp)
  constructor
  · intro hm
    have hread := readInt?_eq_some_iff.mpr hm
    rw [readInt?_eq_some_iff.mpr hspelled] at hread
    exact (Option.some.inj hread).symm
  · rintro rfl
    exact hspelled

/-- What stands behind the mark of a quantity that is read. -/
def IsQuantity (digits : Text) (m : Int) : Prop :=
  (digits.head? = some (CodePoint.ofChar '0') → digits = ofString "0") ∧
    Numeral 16 (digits.map foldToAscii) m

theorem IsQuantity.ne_nil (h : IsQuantity digits m) : digits ≠ [] := by
  rintro rfl
  have hread := readInt?_eq_some_iff.mpr h.2
  cases hread

/-- A quantity that is read is spelled by digits alone, as it is documented, or by other means. -/
theorem exists_isQuantity_iff : (∃ digits, t.afterHexMark? = some digits ∧ IsQuantity digits n) ↔
    SpellsQuantity t n ∨ MisspellsQuantity t n := by
  constructor
  · rintro ⟨digits, hmark, hquantity⟩
    by_cases hall : ∀ c ∈ digits, hexDigit? c ≠ none
    · obtain ⟨ds, hdigits⟩ := exists_digits_iff.mpr hall
      have hne := hquantity.ne_nil
      have hvalue : n = Positional.value 16 ds :=
        Int.ofNat_inj.mp ((hdigits.numeral_iff hne).mp hquantity.2)
      have hform : digits = ofString "0" ∨
          digits ≠ [] ∧ digits.head? ≠ some (CodePoint.ofChar '0') := by
        by_cases hzero : digits.head? = some (CodePoint.ofChar '0')
        · exact .inl (hquantity.1 hzero)
        · exact .inr ⟨hne, hzero⟩
      exact .inl ⟨digits, ds, hmark, hform, hdigits, hvalue⟩
    · push Not at hall
      have hhead : digits.head? ≠ some (CodePoint.ofChar '0') := by
        intro hzero
        obtain ⟨c, hc, hnone⟩ := hall
        rw [hquantity.1 hzero] at hc
        rw [List.mem_singleton.mp hc] at hnone
        exact absurd hnone (by decide)
      exact .inr ⟨digits, hmark, hhead, hall, hquantity.2⟩
  · rintro (⟨digits, ds, hmark, hform, hdigits, hvalue⟩ | ⟨digits, hmark, hhead, -, hnumeral⟩)
    · have hne : digits ≠ [] := by
        rcases hform with rfl | hform
        · exact List.cons_ne_nil _ _
        · exact hform.1
      have hzero : digits.head? = some (CodePoint.ofChar '0') → digits = ofString "0" :=
        fun h => hform.resolve_right fun hnot => hnot.2 h
      exact ⟨digits, hmark, hzero, (hdigits.numeral_iff hne).mpr (by rw [hvalue])⟩
    · exact ⟨digits, hmark, fun h => absurd h hhead, hnumeral⟩

theorem not_misspellsQuantity (h : SpellsQuantity t n) (k : Nat) : ¬MisspellsQuantity t k := by
  obtain ⟨digits, ds, hmark, -, hdigits, -⟩ := h
  rintro ⟨others, hothers, -, ⟨c, hc, hnone⟩, -⟩
  obtain rfl := Option.some.inj (hmark.symm.trans hothers)
  exact exists_digits_iff.mp ⟨ds, hdigits⟩ c hc hnone

end Quantity

end Text

/-! ## Byte strings -/

/-- The lower case of an ASCII letter. Other code points stay. -/
def CodePoint.lower (c : CodePoint) : CodePoint :=
  if 0x41 ≤ c.val ∧ c.val ≤ 0x5a then ofNat (c.val + 0x20) else c

namespace Text

def lower (t : Text) : Text := t.map CodePoint.lower

/-- A text without its ASCII blanks. -/
def withoutBlanks (t : Text) : Text := t.filter fun c => !c.isAsciiBlank

/-- Pairs of hexadecimal digits, each the digits of a byte. -/
inductive Pairs : Text → Bytes → Prop
  | nil : Pairs [] []
  | pair {c d : CodePoint} {high low : Nat} {t : Text} {b : Bytes} (hc : hexDigit? c = some high)
      (hd : hexDigit? d = some low) (rest : Pairs t b) :
      Pairs (c :: d :: t) (UInt8.ofNat (16 * high + low) :: b)

/-- Pairs of hexadecimal digits with ASCII blanks between them and at the ends. -/
inductive SpacedPairs : Text → Bytes → Prop
  | nil : SpacedPairs [] []
  | blank {c : CodePoint} {t : Text} {b : Bytes} (hc : c.isAsciiBlank = true)
      (rest : SpacedPairs t b) : SpacedPairs (c :: t) b
  | pair {c d : CodePoint} {high low : Nat} {t : Text} {b : Bytes} (hc : hexDigit? c = some high)
      (hd : hexDigit? d = some low) (rest : SpacedPairs t b) :
      SpacedPairs (c :: d :: t) (UInt8.ofNat (16 * high + low) :: b)

/-- A byte string as it is documented: pairs of digits behind the mark. -/
def SpellsBytes (t : Text) (b : Bytes) : Prop :=
  ∃ digits, t.afterHexMark? = some digits ∧ Pairs digits b

/-- A byte string with blanks between its bytes. What is counted is even all the same. -/
def MisspellsBytes (t : Text) (b : Bytes) : Prop :=
  ∃ digits, t.afterHexMark? = some digits ∧ (∃ c ∈ digits, c.isAsciiBlank = true) ∧
    digits.length % 2 = 0 ∧ SpacedPairs digits b

section Bytes

variable {c : CodePoint} {d : Nat} {t u : Text} {b : Bytes}

theorem isAsciiBlank_of_hexDigit? (h : hexDigit? c = some d) : c.isAsciiBlank = false :=
  (isInner_of_digit? (hexDigit?_eq_some_iff.mp h).1).1

theorem lower_eq_digitChar_iff (hd : d < 16) : c.lower = digitChar d ↔ hexDigit? c = some d := by
  have hc : c.val < 0x110000 := c.isLt
  rw [hexDigit?_eq_some_iff, Fin.ext_iff]
  unfold CodePoint.lower digitChar digit? CodePoint.ofNat
  grind

/-- Pairs of digits are the text that is written for their bytes, up to letter case. -/
theorem pairs_iff : Pairs t b ↔ t.lower = Bytes.hex b := by
  constructor
  · intro h
    induction h with
    | nil => rfl
    | @pair c d high low t b hc hd _ ih =>
      have hhigh : high < 16 := (hexDigit?_eq_some_iff.mp hc).2
      have hlow : low < 16 := (hexDigit?_eq_some_iff.mp hd).2
      have hbyte : (UInt8.ofNat (16 * high + low)).toNat = 16 * high + low :=
        UInt8.toNat_ofNat_of_lt' (show 16 * high + low < 256 by omega)
      have hdiv : (16 * high + low) / 16 = high := by omega
      have hmod : (16 * high + low) % 16 = low := by omega
      rw [Bytes.hex_cons, hbyte, hdiv, hmod, ← ih, ← (lower_eq_digitChar_iff hhigh).mpr hc,
        ← (lower_eq_digitChar_iff hlow).mpr hd]
      rfl
  · intro h
    induction b generalizing t with
    | nil =>
      obtain rfl := List.map_eq_nil_iff.mp h
      exact .nil
    | cons x b ih =>
      have hx : x.toNat < 256 := x.toNat_lt
      rw [Bytes.hex_cons] at h
      obtain ⟨c, after, rfl, hc, hafter⟩ := List.map_eq_cons_iff.mp h
      obtain ⟨d, rest, rfl, hd, hrest⟩ := List.map_eq_cons_iff.mp hafter
      have hbyte : UInt8.ofNat (16 * (x.toNat / 16) + x.toNat % 16) = x := by
        rw [Nat.div_add_mod, UInt8.ofNat_toNat]
      have hpairs := Pairs.pair ((lower_eq_digitChar_iff (by omega)).mp hc)
        ((lower_eq_digitChar_iff (by omega)).mp hd) (ih hrest)
      rwa [hbyte] at hpairs

theorem Pairs.length_eq (h : Pairs t b) : t.length = 2 * b.length := by
  rw [← Bytes.length_hex, ← pairs_iff.mp h, lower, List.length_map]

theorem ofHex?_eq_some_iff : Bytes.ofHex? t = some b ↔ SpacedPairs t b := by
  constructor
  · intro h
    fun_induction Bytes.ofHex? t generalizing b with
    | case1 => exact Option.some.inj h ▸ .nil
    | case2 c rest hc ih => exact .blank hc (ih h)
    | case3 => cases h
    | case4 c hc d after high low hlow hhigh ih =>
      obtain ⟨bs, hbs, rfl⟩ := Option.map_eq_some_iff.mp h
      exact .pair hhigh hlow (ih hbs)
    | case5 => cases h
  · intro h
    induction h with
    | nil => rfl
    | blank hc _ ih =>
      rw [Bytes.ofHex?.eq_def]
      dsimp only
      rw [if_pos hc, ih]
    | pair hc hd _ ih =>
      rw [Bytes.ofHex?, if_neg (by simp [isAsciiBlank_of_hexDigit? hc]), hc, hd]
      dsimp only
      rw [ih]
      rfl

/-- The digits of a spaced text are pairs, once the blanks have been taken out. -/
theorem SpacedPairs.pairs (h : SpacedPairs t b) : Pairs t.withoutBlanks b := by
  induction h with
  | nil => exact .nil
  | blank hc _ ih => rwa [withoutBlanks, List.filter_cons_of_neg (by simp [hc])]
  | pair hc hd _ ih =>
    rw [withoutBlanks, List.filter_cons_of_pos (by simp [isAsciiBlank_of_hexDigit? hc]),
      List.filter_cons_of_pos (by simp [isAsciiBlank_of_hexDigit? hd])]
    exact .pair hc hd ih

theorem Pairs.spacedPairs (h : Pairs t b) : SpacedPairs t b := by
  induction h with
  | nil => exact .nil
  | pair hc hd _ ih => exact .pair hc hd ih

theorem Pairs.not_blank (h : Pairs t b) : ∀ c ∈ t, c.isAsciiBlank = false := by
  induction h with
  | nil => simp
  | pair hc hd _ ih =>
    exact List.forall_mem_cons.mpr ⟨isAsciiBlank_of_hexDigit? hc,
      List.forall_mem_cons.mpr ⟨isAsciiBlank_of_hexDigit? hd, ih⟩⟩

/-- A byte string that is read is spelled without blanks, as it is documented, or with them. -/
theorem exists_spacedPairs_iff :
    (∃ digits, t.afterHexMark? = some digits ∧ digits.length % 2 = 0 ∧ SpacedPairs digits b) ↔
      SpellsBytes t b ∨ MisspellsBytes t b := by
  constructor
  · rintro ⟨digits, hmark, heven, hspaced⟩
    by_cases hblank : ∃ c ∈ digits, c.isAsciiBlank = true
    · exact .inr ⟨digits, hmark, hblank, heven, hspaced⟩
    · have hself : digits.withoutBlanks = digits :=
        List.filter_eq_self.mpr fun c hc => by
          simpa using fun h => hblank ⟨c, hc, h⟩
      have hpairs := hspaced.pairs
      rw [hself] at hpairs
      exact .inl ⟨digits, hmark, hpairs⟩
  · rintro (⟨digits, hmark, hpairs⟩ | ⟨digits, hmark, -, heven, hspaced⟩)
    · exact ⟨digits, hmark, by rw [hpairs.length_eq]; omega, hpairs.spacedPairs⟩
    · exact ⟨digits, hmark, heven, hspaced⟩

theorem not_misspellsBytes (h : SpellsBytes t b) (e : Bytes) : ¬MisspellsBytes t e := by
  obtain ⟨digits, hmark, hpairs⟩ := h
  rintro ⟨others, hothers, ⟨c, hc, hblank⟩, -⟩
  obtain rfl := Option.some.inj (hmark.symm.trans hothers)
  rw [hpairs.not_blank c hc] at hblank
  cases hblank

/-- The mark of a text, up to letter case. -/
theorem lower_mark_iff {z x : CodePoint} : lower [z, x] = ofString "0x" ↔
    z.val = 0x30 ∧ (x.val = 0x78 ∨ x.val = 0x58) := by
  have hz : z.val < 0x110000 := z.isLt
  have hx : x.val < 0x110000 := x.isLt
  have hzero : (CodePoint.ofChar '0').val = 0x30 := rfl
  have hletter : (CodePoint.ofChar 'x').val = 0x78 := rfl
  have hmark : ofString "0x" = [CodePoint.ofChar '0', CodePoint.ofChar 'x'] := rfl
  rw [hmark, lower, List.map_cons, List.map_cons, List.map_nil, List.cons_eq_cons,
    List.cons_eq_cons, Fin.ext_iff, Fin.ext_iff, hzero, hletter]
  unfold CodePoint.lower CodePoint.ofNat
  grind

theorem afterHexMark?_eq_some_iff {digits : Text} : t.afterHexMark? = some digits ↔
    ∃ z x, t = [z, x] ++ digits ∧ lower [z, x] = ofString "0x" := by
  constructor
  · intro h
    unfold afterHexMark? at h
    split at h
    next z x rest =>
      split at h
      next hmark => exact ⟨z, x, by rw [Option.some.inj h]; rfl, lower_mark_iff.mpr hmark⟩
      next => cases h
    next => cases h
  · rintro ⟨z, x, rfl, hmark⟩
    exact if_pos (lower_mark_iff.mp hmark)

/-- A text spells bytes as documented if it is the one that is written for them, up to letter
case. -/
theorem spellsBytes_iff : SpellsBytes t b ↔ t.lower = Bytes.hexMarked b := by
  constructor
  · rintro ⟨digits, hmark, hpairs⟩
    obtain ⟨z, x, rfl, hlower⟩ := afterHexMark?_eq_some_iff.mp hmark
    rw [lower, List.map_append, ← lower, ← lower, hlower, pairs_iff.mp hpairs]
    rfl
  · intro h
    obtain ⟨mark, digits, rfl, hmark, hdigits⟩ := List.map_eq_append_iff.mp h
    obtain ⟨z, after, rfl, -, hafter⟩ := List.map_eq_cons_iff.mp hmark
    obtain ⟨x, rest, rfl, -, hrest⟩ := List.map_eq_cons_iff.mp hafter
    obtain rfl := List.map_eq_nil_iff.mp hrest
    exact ⟨digits, afterHexMark?_eq_some_iff.mpr ⟨z, x, rfl, hmark⟩, pairs_iff.mpr hdigits⟩

/-- A text with blanks is the one that is written for the bytes, up to letter case and blanks. -/
theorem MisspellsBytes.lower_withoutBlanks (h : MisspellsBytes t b) :
    t.withoutBlanks.lower = Bytes.hexMarked b := by
  obtain ⟨digits, hmark, -, -, hspaced⟩ := h
  obtain ⟨z, x, rfl, hlower⟩ := afterHexMark?_eq_some_iff.mp hmark
  have hself : withoutBlanks [z, x] = [z, x] := by
    obtain ⟨hz, hx⟩ := lower_mark_iff.mp hlower
    have hblank : z.isAsciiBlank = false ∧ x.isAsciiBlank = false := by
      unfold CodePoint.isAsciiBlank
      simp only [hz]
      rcases hx with hx | hx <;> simp [hx]
    simp [withoutBlanks, hblank]
  rw [withoutBlanks, List.filter_append, ← withoutBlanks, ← withoutBlanks, hself]
  exact spellsBytes_iff.mp
    ⟨_, afterHexMark?_eq_some_iff.mpr ⟨z, x, rfl, hlower⟩, hspaced.pairs⟩

end Bytes

end Text

/-! ## Faults of a field -/

/-- What a field reader reports names the field. -/
def NamesField {β : Type} (field : Text) (x : Except Fault β) : Prop :=
  ∀ f, x = .error f → ∃ reason, f = jsonFault field reason

section NamesField

variable {β γ : Type} {field : Text}

@[simp] theorem namesField_ok (b : β) : NamesField field (.ok b) := by
  intro f hf
  cases hf

@[simp] theorem namesField_error (reason : Reason) :
    NamesField field (.error (jsonFault field reason) : Except Fault β) := by
  rintro f ⟨⟩
  exact ⟨reason, rfl⟩

theorem NamesField.bind {x : Except Fault β} {f : β → Except Fault γ} (hx : NamesField field x)
    (hf : ∀ b, NamesField field (f b)) : NamesField field (x >>= f) := by
  cases x with
  | error e => exact fun g hg => hx g (congrArg _ (Except.error.inj hg))
  | ok b => exact hf b

theorem NamesField.cases {x : Except Fault β} (h : NamesField field x) :
    (∃ b, x = .ok b) ∨ ∃ reason, x = .error (jsonFault field reason) := by
  cases x with
  | ok b => exact .inl ⟨b, rfl⟩
  | error f =>
    obtain ⟨reason, rfl⟩ := h f rfl
    exact .inr ⟨reason, rfl⟩

end NamesField

namespace Shape

open Text

variable {α : Type} {s : Shape α} {t digits field : Text} {max : Int} {n : Nat} {m : Int}

theorem namesField_asMarkedHex : NamesField field (s.asMarkedHex field) := by
  unfold asMarkedHex
  split
  · split
    · exact namesField_ok _
    · exact namesField_error _
  · exact namesField_error _

theorem namesField_quantityOfDigits : NamesField field (quantityOfDigits digits field) := by
  unfold quantityOfDigits
  split
  · exact namesField_error _
  · split
    · exact namesField_error _
    · split
      · exact namesField_ok _
      · exact namesField_error _

theorem namesField_asQuantity : NamesField field (s.asQuantity max field) := by
  have bounded : ∀ n : Int, NamesField field
      (if n < 0 ∨ max < n then .error (jsonFault field (.quantityRange (bitLength max.natAbs)))
        else pure n.toNat) := by
    intro n
    split
    · exact namesField_error _
    · exact namesField_ok _
  unfold asQuantity
  split
  · exact namesField_error _
  · exact bounded _
  · exact namesField_asMarkedHex.bind fun _ => namesField_quantityOfDigits.bind bounded

theorem namesField_asBytes : NamesField field (s.asBytes field) := by
  unfold asBytes
  refine namesField_asMarkedHex.bind fun digits => ?_
  split
  · exact namesField_error _
  · split
    · exact namesField_ok _
    · exact namesField_error _

theorem quantityOfDigits_eq_ok_iff :
    quantityOfDigits digits field = .ok m ↔ IsQuantity digits m := by
  cases digits with
  | nil =>
    constructor
    · intro h
      cases h
    · intro h
      exact absurd rfl h.ne_nil
  | cons first more =>
    have hzero : (first.val = 0x30 ∧ more ≠ []) ↔
        ¬((first :: more).head? = some (CodePoint.ofChar '0') →
          first :: more = ofString "0") := by
      have hfirst : first.val = 0x30 ↔ first = CodePoint.ofChar '0' :=
        ⟨fun h => Fin.ext h, fun h => congrArg Fin.val h⟩
      have hone : ofString "0" = [CodePoint.ofChar '0'] := rfl
      rw [hone, List.head?_cons, Option.some_inj, List.cons_eq_cons, hfirst]
      grind
    rw [quantityOfDigits, IsQuantity, ← readInt?_eq_some_iff]
    split
    next h =>
      constructor
      · intro hok
        cases hok
      · rintro ⟨himp, -⟩
        exact absurd himp (hzero.mp h)
    next h =>
      rw [and_iff_right (not_not.mp (h ∘ hzero.mpr))]
      cases readInt? 16 (first :: more) with
      | none => simp
      | some k => simp

theorem asMarkedHex_text_eq_ok_iff :
    (Shape.text t : Shape α).asMarkedHex field = .ok digits ↔ t.afterHexMark? = some digits := by
  rw [asMarkedHex]
  cases t.afterHexMark? with
  | none => simp
  | some digits => simp

theorem asQuantity_text_eq_ok_iff : (Shape.text t : Shape α).asQuantity max field = .ok n ↔
    (n : Int) ≤ max ∧ (SpellsQuantity t n ∨ MisspellsQuantity t n) := by
  have hrange : ∀ m : Int, (if m < 0 ∨ max < m then
      .error (jsonFault field (.quantityRange (bitLength max.natAbs))) else pure m.toNat)
        = (.ok n : Except Fault Nat) ↔ 0 ≤ m ∧ m ≤ max ∧ m.toNat = n := by
    intro m
    split
    next h =>
      constructor
      · intro hok
        cases hok
      · omega
    next h =>
      rw [pure_eq_ok, Except.ok.injEq]
      omega
  unfold asQuantity
  dsimp only
  simp only [bind_eq_ok, asMarkedHex_text_eq_ok_iff, quantityOfDigits_eq_ok_iff, hrange]
  rw [← exists_isQuantity_iff]
  constructor
  · rintro ⟨digits, hmark, m, hquantity, hnonneg, hmax, rfl⟩
    rw [Int.toNat_of_nonneg hnonneg]
    exact ⟨hmax, digits, hmark, hquantity⟩
  · rintro ⟨hmax, digits, hmark, hquantity⟩
    exact ⟨digits, hmark, n, hquantity, by omega, hmax, rfl⟩

/-- A text is read as a quantity exactly if it spells one that is not too large, be it as
documented or by other means; it does not do both. Any other text is refused. -/
theorem asQuantity_text (t field : Text) (max : Int) :
    (∀ n, (Shape.text t : Shape α).asQuantity max field = .ok n ↔
      (n : Int) ≤ max ∧ (SpellsQuantity t n ∨ MisspellsQuantity t n)) ∧
    (∀ n k, ¬(SpellsQuantity t n ∧ MisspellsQuantity t k)) ∧
    ((∃ n, (Shape.text t : Shape α).asQuantity max field = .ok n) ∨
      ∃ reason, (Shape.text t : Shape α).asQuantity max field = .error (jsonFault field reason)) :=
  ⟨fun _ => asQuantity_text_eq_ok_iff, fun _ k h => not_misspellsQuantity h.1 k h.2,
    namesField_asQuantity.cases⟩

/-- An underscore between the digits is read over, though it is in no documented spelling. -/
theorem asQuantity_underscore :
    (Shape.text (ofString "0x1_0") : Shape Json).asQuantity (Word.max 256) (ofString "gas")
        = .ok 16 ∧ ∀ n, ¬SpellsQuantity (ofString "0x1_0") n := by
  refine ⟨rfl, ?_⟩
  rintro n ⟨digits, ds, hmark, -, hdigits, -⟩
  obtain rfl := Option.some.inj hmark
  exact exists_digits_iff.mp ⟨ds, hdigits⟩ (CodePoint.ofChar '_') (by decide) (by decide)

theorem asBytes_text_eq_ok_iff {b : Bytes} :
    (Shape.text t : Shape α).asBytes field = .ok b ↔ SpellsBytes t b ∨ MisspellsBytes t b := by
  unfold asBytes
  rw [← exists_spacedPairs_iff]
  simp only [bind_eq_ok, asMarkedHex_text_eq_ok_iff]
  refine exists_congr fun digits => and_congr_right fun _ => ?_
  rw [← ofHex?_eq_some_iff, Bytes.ofHex]
  split
  next hodd =>
    constructor
    · intro h
      cases h
    · omega
  next heven =>
    rw [and_iff_right (by omega)]
    cases Bytes.ofHex? digits with
    | none => simp
    | some e => simp

/-- A text is read as a byte string exactly if it spells one, as documented or with blanks; it
does not do both. Any other text is refused. Those that are documented are the text that is
written for the bytes, up to letter case; the others are so up to letter case and blanks. -/
theorem asBytes_text (t field : Text) :
    (∀ b, (Shape.text t : Shape α).asBytes field = .ok b ↔
      SpellsBytes t b ∨ MisspellsBytes t b) ∧
    (∀ b e, ¬(SpellsBytes t b ∧ MisspellsBytes t e)) ∧
    ((∃ b, (Shape.text t : Shape α).asBytes field = .ok b) ∨
      ∃ reason, (Shape.text t : Shape α).asBytes field = .error (jsonFault field reason)) ∧
    (∀ b, SpellsBytes t b ↔ t.lower = Bytes.hexMarked b) ∧
    (∀ u b, SpellsBytes t b → SpellsBytes u b → t.lower = u.lower) ∧
    (∀ b, MisspellsBytes t b → t.withoutBlanks.lower = Bytes.hexMarked b) :=
  ⟨fun _ => asBytes_text_eq_ok_iff, fun _ e h => not_misspellsBytes h.1 e h.2, namesField_asBytes.cases,
    fun _ => spellsBytes_iff,
    fun _ _ ht hu => (spellsBytes_iff.mp ht).trans (spellsBytes_iff.mp hu).symm,
    fun _ => MisspellsBytes.lower_withoutBlanks⟩

/-- Blanks behind a byte are read over, though they are in no documented spelling. -/
theorem asBytes_blanks :
    (Shape.text (ofString "0x12 34 ") : Shape Json).asBytes (ofString "data") = .ok [0x12, 0x34] ∧
      ∀ b, ¬SpellsBytes (ofString "0x12 34 ") b := by
  refine ⟨by cbv, ?_⟩
  rintro b ⟨digits, hmark, hpairs⟩
  obtain rfl := Option.some.inj hmark
  have hblank := hpairs.not_blank (CodePoint.ofChar ' ') (by decide)
  exact absurd hblank (by decide)

end Shape

end EthWire

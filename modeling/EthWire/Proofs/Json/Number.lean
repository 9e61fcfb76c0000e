import EthWire.Proofs.Hexadecimal
import EthWire.Proofs.Json.ReadBack

/-!
# Numbers read back

A number is spelled by a sign, a row of digits, a row behind a point and a power of ten. The
reader takes these parts one after the other, each up to where the next one starts.
-/

namespace EthWire

namespace Positional

theorem value_zeros (base k : Nat) : value base (List.replicate k 0) = 0 := by
  induction k with
  | zero => rfl
  | succ k ih => rw [List.replicate_succ', value_append_singleton, ih, Nat.zero_mul]

theorem value_zeros_append (base k : Nat) (ds : List Nat) :
    value base (List.replicate k 0 ++ ds) = value base ds := by
  rw [value_append, value_zeros, Nat.zero_mul, Nat.zero_add]

theorem value_append_zeros (base k : Nat) (ds : List Nat) :
    value base (ds ++ List.replicate k 0) = value base ds * base ^ k := by
  rw [value_append, value_zeros, List.length_replicate, Nat.add_zero]

end Positional

namespace Json

/-- A row of decimal digits. -/
structure Digits where
  digits : List Nat
  nonempty : digits ≠ []
  lt_ten : ∀ d ∈ digits, d < 10

namespace Digits

def text (ds : Digits) : Text := ds.digits.map Text.digitChar

def value (ds : Digits) : Nat := Positional.value 10 ds.digits

def zero : Digits := ⟨[0], List.cons_ne_nil _ _, by decide⟩

/-- The row with zeros in front of it. -/
def afterZeros (zeros : Nat) (ds : Digits) : Digits where
  digits := List.replicate zeros 0 ++ ds.digits
  nonempty := List.append_ne_nil_of_right_ne_nil _ ds.nonempty
  lt_ten := by
    intro d hd
    rcases List.mem_append.mp hd with hzero | hd
    · rw [List.eq_of_mem_replicate hzero]
      decide
    · exact ds.lt_ten d hd

/-- The row with zeros behind it. -/
def beforeZeros (ds : Digits) (zeros : Nat) : Digits where
  digits := ds.digits ++ List.replicate zeros 0
  nonempty := List.append_ne_nil_of_left_ne_nil ds.nonempty _
  lt_ten := by
    intro d hd
    rcases List.mem_append.mp hd with hd | hzero
    · exact ds.lt_ten d hd
    · rw [List.eq_of_mem_replicate hzero]
      decide

/-- The first digits of a row. -/
def front (ds : Digits) (count : Nat) (hcount : 0 < count) : Digits where
  digits := ds.digits.take count
  nonempty := by
    rw [Ne, List.take_eq_nil_iff, not_or]
    exact ⟨Nat.ne_of_gt hcount, ds.nonempty⟩
  lt_ten := fun d hd => ds.lt_ten d (List.mem_of_mem_take hd)

/-- The digits of a row behind the first ones. -/
def back (ds : Digits) (count : Nat) (hcount : count < ds.digits.length) : Digits where
  digits := ds.digits.drop count
  nonempty := by
    rw [Ne, List.drop_eq_nil_iff]
    exact Nat.not_le.mpr hcount
  lt_ten := fun d hd => ds.lt_ten d (List.mem_of_mem_drop hd)

section Text

variable (ds : Digits) (zeros : Nat)

theorem text_afterZeros :
    (ds.afterZeros zeros).text = List.replicate zeros (CodePoint.ofChar '0') ++ ds.text := by
  rw [text, afterZeros, List.map_append, List.map_replicate]
  rfl

theorem text_beforeZeros :
    (ds.beforeZeros zeros).text = ds.text ++ List.replicate zeros (CodePoint.ofChar '0') := by
  rw [text, beforeZeros, List.map_append, List.map_replicate]
  rfl

theorem text_front {count : Nat} (hcount : 0 < count) :
    (ds.front count hcount).text = ds.text.take count := by
  rw [text, front, List.map_take]
  rfl

theorem text_back {count : Nat} (hcount : count < ds.digits.length) :
    (ds.back count hcount).text = ds.text.drop count := by
  rw [text, back, List.map_drop]
  rfl

end Text

end Digits

/-- The parts of a number in decimal. -/
structure Numeral where
  negative : Bool
  whole : Digits
  places : Option Digits
  power : Option (Bool × Digits)
  leading : whole.digits.head? = some 0 → whole.digits = [0]

namespace Numeral

def signText (negative : Bool) : Text := if negative then [CodePoint.ofChar '-'] else []

def placesText : Option Digits → Text
  | none => []
  | some ds => CodePoint.ofChar '.' :: ds.text

def powerText : Option (Bool × Digits) → Text
  | none => []
  | some (negative, ds) =>
      CodePoint.ofChar 'e' :: CodePoint.ofChar (if negative then '-' else '+') :: ds.text

def text (n : Numeral) : Text :=
  signText n.negative ++ (n.whole.text ++ (placesText n.places ++ powerText n.power))

def powerValue : Option (Bool × Digits) → Option Int
  | none => none
  | some (negative, ds) =>
      let n : Int := Positional.value 10 ds.digits
      some (if negative then -n else n)

/-- What a number is read as whose parts have been read. -/
def jsonOf (negative : Bool) (whole : List Nat) (places : Option (List Nat))
    (exponent : Option Int) : Json :=
  if places.isNone && exponent.isNone then
    let n : Int := Positional.value 10 whole
    .int (if negative then -n else n)
  else
    .float (Binary64.ofDecimal negative (Positional.value 10 (whole ++ places.getD []))
      (exponent.getD 0 - (places.getD []).length))

def json (n : Numeral) : Json :=
  jsonOf n.negative n.whole.digits (n.places.map Digits.digits) (powerValue n.power)

end Numeral

/-! ## The parts -/

/-- The text does not go on with one of these code points. -/
def Stops (kind : CodePoint → Bool) (t : Text) : Prop := ∀ c, t.head? = some c → kind c = false

def isDecimal (c : CodePoint) : Bool := ((Text.digit? c).filter (· < 10)).isSome

def isPoint (c : CodePoint) : Bool := c.val == 0x2e

def isPowerMark (c : CodePoint) : Bool := c.val == 0x65 || c.val == 0x45

theorem EndsValue.stops {rest : Text} (h : EndsValue rest) :
    Stops isDecimal rest ∧ Stops isPoint rest ∧ Stops isPowerMark rest := by
  have hkind : ∀ c, rest.head? = some c →
      isDecimal c = false ∧ isPoint c = false ∧ isPowerMark c = false := by
    intro c hc
    obtain ⟨value, hvalue⟩ := c
    rcases h _ hc with rfl | rfl | rfl | rfl
    · exact ⟨rfl, rfl, rfl⟩
    · exact ⟨rfl, rfl, rfl⟩
    · exact ⟨rfl, rfl, rfl⟩
    · exact ⟨rfl, rfl, rfl⟩
  exact ⟨fun c hc => (hkind c hc).1, fun c hc => (hkind c hc).2.1, fun c hc => (hkind c hc).2.2⟩

theorem stops_powerText {kind : CodePoint → Bool} {rest : Text} (he : kind 0x65 = false)
    (hrest : Stops kind rest) (power : Option (Bool × Digits)) :
    Stops kind (Numeral.powerText power ++ rest) := by
  cases power with
  | none => exact hrest
  | some power =>
    intro c hc
    cases hc
    exact he

theorem takeDigits_append {ds : List Nat} (hds : ∀ d ∈ ds, d < 10) {t : Text}
    (ht : Stops isDecimal t) : takeDigits (ds.map Text.digitChar ++ t) = (ds, t) := by
  induction ds with
  | nil =>
    cases t with
    | nil => rfl
    | cons c t =>
      have hc : (Text.digit? c).filter (· < 10) = none :=
        Option.isSome_eq_false_iff.mp (ht c rfl) |> Option.isNone_iff_eq_none.mp
      rw [List.map_nil, List.nil_append, takeDigits, hc]
  | cons d ds ih =>
    have hd : d < 10 := hds d (by simp)
    have hdigit : (Text.digit? (Text.digitChar d)).filter (· < 10) = some d := by
      rw [Text.digit?_digitChar d (by omega), Option.filter_some]
      simp [hd]
    rw [List.map_cons, List.cons_append, takeDigits, hdigit]
    dsimp only
    rw [ih fun e he => hds e (by simp [he])]

theorem Digits.takeDigits_text (ds : Digits) {t : Text} (ht : Stops isDecimal t) :
    takeDigits (ds.text ++ t) = (ds.digits, t) :=
  takeDigits_append ds.lt_ten ht

theorem Digits.exists_text_eq (ds : Digits) :
    ∃ d more, d < 10 ∧ ds.digits = d :: more ∧
      ds.text = Text.digitChar d :: more.map Text.digitChar := by
  obtain ⟨digits, nonempty, lt_ten⟩ := ds
  cases digits with
  | nil => exact absurd rfl nonempty
  | cons d more => exact ⟨d, more, lt_ten d (by simp), rfl, rfl⟩

theorem wholeDigits_text {ds : Digits} (hleading : ds.digits.head? = some 0 → ds.digits = [0])
    {t : Text} (ht : Stops isDecimal t) : wholeDigits (ds.text ++ t) = (ds.digits, t) := by
  obtain ⟨d, more, hd, hdigits, htext⟩ := ds.exists_text_eq
  by_cases h0 : d = 0
  · subst h0
    have hmore : more = [] := by
      have hlist := hleading (by rw [hdigits]; rfl)
      rw [hdigits] at hlist
      exact (List.cons.inj hlist).2
    rw [htext, hdigits, hmore]
    rfl
  · have hfirst : ¬(Text.digitChar d).val = 0x30 := by
      rw [Text.digitChar_val_eq_zero_iff d (by omega)]
      exact h0
    have htake := ds.takeDigits_text ht
    rw [htext, List.cons_append] at htake ⊢
    rw [wholeDigits, if_neg hfirst, htake]

theorem fraction_text (places : Option Digits) {t : Text} (hdigit : Stops isDecimal t)
    (hpoint : Stops isPoint t) :
    fraction (Numeral.placesText places ++ t) = (places.map Digits.digits, t) := by
  cases places with
  | none =>
    rw [Numeral.placesText, List.nil_append]
    cases t with
    | nil => rfl
    | cons c t =>
      have hc : ¬c.val = 0x2e := by simpa [isPoint] using hpoint c rfl
      rw [fraction, if_neg hc]
      rfl
  | some ds =>
    obtain ⟨d, more, -, hdigits, -⟩ := ds.exists_text_eq
    have hpointVal : (CodePoint.ofChar '.').val = 0x2e := rfl
    rw [Numeral.placesText, List.cons_append, fraction, if_pos hpointVal, ds.takeDigits_text hdigit,
      Option.map_some, hdigits]

theorem splitSign_sign (negative : Bool) (t : Text) :
    Text.splitSign (CodePoint.ofChar (if negative then '-' else '+') :: t) = (negative, t) := by
  cases negative with
  | false => rfl
  | true => rfl

theorem power_text (p : Option (Bool × Digits)) {t : Text} (hdigit : Stops isDecimal t)
    (hmark : Stops isPowerMark t) :
    power (Numeral.powerText p ++ t) = (Numeral.powerValue p, t) := by
  cases p with
  | none =>
    rw [Numeral.powerText, List.nil_append]
    cases t with
    | nil => rfl
    | cons c t =>
      have hc : ¬(c.val = 0x65 ∨ c.val = 0x45) := by simpa [isPowerMark] using hmark c rfl
      rw [power, if_neg hc]
      rfl
  | some p =>
    obtain ⟨negative, ds⟩ := p
    obtain ⟨d, more, -, hdigits, -⟩ := ds.exists_text_eq
    have hmarkVal : (CodePoint.ofChar 'e').val = 0x65 := rfl
    rw [Numeral.powerText, List.cons_append, List.cons_append, power, if_pos (.inl hmarkVal),
      splitSign_sign]
    dsimp only
    rw [ds.takeDigits_text hdigit, Numeral.powerValue, hdigits]

/-! ## Whole numbers and numbers with places -/

theorem number_eq_ok (negative : Bool) {unsigned afterWhole afterPlaces rest : Text}
    {whole : List Nat} {places : Option (List Nat)} {exponent : Option Int}
    (hfirst : ∀ c, unsigned.head? = some c → c.val ≠ 0x2d)
    (hwhole : wholeDigits unsigned = (whole, afterWhole)) (hnonempty : whole.isEmpty = false)
    (hplaces : fraction afterWhole = (places, afterPlaces))
    (hpower : power afterPlaces = (exponent, rest))
    (hlimit : (places.isNone && exponent.isNone) = true → ¬Text.decimalLimit < whole.length) :
    number (Numeral.signText negative ++ unsigned)
      = .ok (Numeral.jsonOf negative whole places exponent, rest) := by
  cases unsigned with
  | nil =>
    obtain ⟨rfl, -⟩ := Prod.mk.inj hwhole
    cases hnonempty
  | cons c t =>
    have hsign : (CodePoint.ofChar '-').val = 0x2d := rfl
    unfold number Numeral.jsonOf
    cases negative with
    | false =>
      simp only [Numeral.signText, Bool.false_eq_true, if_false, List.nil_append,
        if_neg (hfirst c rfl), hwhole, hnonempty, hplaces, hpower]
      split
      next hinteger => rw [if_neg (hlimit hinteger)]
      next => rfl
    | true =>
      simp only [Numeral.signText, if_true, List.singleton_append, hsign, Bool.false_eq_true,
        if_false, hwhole, hnonempty, hplaces, hpower]
      split
      next hinteger => rw [if_neg (hlimit hinteger)]
      next => rfl

/-- What a number is read from: a sign, the digits in front of the point, and what stands behind
them, each part going on where the one in front of it ends. -/
inductive ReadsNumber : Text → Json → Text → Prop
  | parts (negative : Bool) {unsigned afterWhole afterPlaces rest : Text} {whole : List Nat}
      {places : Option (List Nat)} {exponent : Option Int}
      (hfirst : ∀ c, unsigned.head? = some c → c.val ≠ 0x2d)
      (hwhole : wholeDigits unsigned = (whole, afterWhole)) (hnonempty : whole.isEmpty = false)
      (hplaces : fraction afterWhole = (places, afterPlaces))
      (hpower : power afterPlaces = (exponent, rest))
      (hlimit : (places.isNone && exponent.isNone) = true → ¬Text.decimalLimit < whole.length) :
      ReadsNumber (Numeral.signText negative ++ unsigned)
        (Numeral.jsonOf negative whole places exponent) rest

theorem eq_digitChar_of_isDecimal {c : CodePoint} (h : isDecimal c = true) :
    ∃ d < 10, c = Text.digitChar d := by
  obtain ⟨d, hd⟩ := Option.isSome_iff_exists.mp h
  obtain ⟨hdigit, hten⟩ := Option.filter_eq_some_iff.mp hd
  have hlt : d < 10 := of_decide_eq_true hten
  unfold Text.digit? at hdigit
  split_ifs at hdigit with hdecimal
  · obtain rfl := Option.some.inj hdigit
    refine ⟨_, hlt, Fin.ext ?_⟩
    rw [Text.digitChar, if_pos hlt]
    show c.val = (0x30 + (c.val - 0x30)) % 0x110000
    omega
  · obtain rfl := Option.some.inj hdigit
    omega
  · obtain rfl := Option.some.inj hdigit
    omega

/-- What starts with digits starts with one of them. -/
theorem exists_eq_digitChar_cons {t : Text} (h : (wholeDigits t).1.isEmpty = false) :
    ∃ d more, d < 10 ∧ t = Text.digitChar d :: more := by
  cases t with
  | nil => cases h
  | cons c t =>
    have hc : isDecimal c = true := by
      rw [wholeDigits] at h
      split_ifs at h with hzero
      · rw [isDecimal, Text.digit?, if_pos (by omega), hzero]
        rfl
      · rw [takeDigits] at h
        split at h
        next d hd =>
          rw [isDecimal, hd]
          rfl
        next => cases h
    obtain ⟨d, hd, rfl⟩ := eq_digitChar_of_isDecimal hc
    exact ⟨d, t, hd, rfl⟩

/-- Digits do not start with a sign. -/
theorem head?_ne_minus {t : Text} (h : (wholeDigits t).1.isEmpty = false) :
    ∀ c, t.head? = some c → c.val ≠ 0x2d := by
  obtain ⟨d, more, hd, rfl⟩ := exists_eq_digitChar_cons h
  intro c hc
  obtain rfl := Option.some.inj hc
  exact (Text.isInner_of_digit? (Text.digit?_digitChar d (by omega))).2.1

theorem readsNumber_of_number {t rest : Text} {j : Json} (h : number t = .ok (j, rest)) :
    ReadsNumber t j rest := by
  have hparts : ∃ negative unsigned, t = Numeral.signText negative ++ unsigned ∧
      (wholeDigits unsigned).1.isEmpty = false ∧
      (((fraction (wholeDigits unsigned).2).1.isNone &&
          (power (fraction (wholeDigits unsigned).2).2).1.isNone) = true →
        ¬Text.decimalLimit < (wholeDigits unsigned).1.length) := by
    cases t with
    | nil => cases h
    | cons c t =>
      unfold number at h
      by_cases hc : c.val = 0x2d
      · obtain rfl : c = CodePoint.ofChar '-' := Fin.ext hc
        simp only [if_pos hc] at h
        split_ifs at h with hempty hinteger hlimit
        · exact ⟨true, t, rfl, Bool.eq_false_iff.mpr hempty, fun _ => hlimit⟩
        · exact ⟨true, t, rfl, Bool.eq_false_iff.mpr hempty, fun h => absurd h hinteger⟩
      · simp only [if_neg hc, Bool.false_eq_true, if_false] at h
        split_ifs at h with hempty hinteger hlimit
        · exact ⟨false, c :: t, rfl, Bool.eq_false_iff.mpr hempty, fun _ => hlimit⟩
        · exact ⟨false, c :: t, rfl, Bool.eq_false_iff.mpr hempty, fun h => absurd h hinteger⟩
  obtain ⟨negative, unsigned, rfl, hnonempty, hlimit⟩ := hparts
  have hfirst := head?_ne_minus hnonempty
  rw [number_eq_ok negative hfirst rfl hnonempty rfl rfl hlimit] at h
  obtain ⟨rfl, rfl⟩ := Prod.mk.inj (Except.ok.inj h)
  exact .parts negative hfirst rfl hnonempty rfl rfl hlimit

theorem number_eq_ok_iff {t rest : Text} {j : Json} :
    number t = .ok (j, rest) ↔ ReadsNumber t j rest := by
  constructor
  · exact readsNumber_of_number
  · intro h
    cases h with
    | parts negative hfirst hwhole hnonempty hplaces hpower hlimit =>
      exact number_eq_ok negative hfirst hwhole hnonempty hplaces hpower hlimit

namespace Numeral

/-- A number is read as what its parts denote, up to where it ends. -/
theorem number_text (n : Numeral)
    (hlimit : n.places = none → n.power = none → n.whole.digits.length ≤ Text.decimalLimit)
    {rest : Text} (hrest : EndsValue rest) : number (n.text ++ rest) = .ok (n.json, rest) := by
  obtain ⟨hdigit, hpoint, hmark⟩ := hrest.stops
  have hpower := power_text n.power hdigit hmark
  have hplaces := fraction_text n.places (stops_powerText rfl hdigit n.power)
    (stops_powerText rfl hpoint n.power)
  have hbehind : Stops isDecimal (placesText n.places ++ (powerText n.power ++ rest)) := by
    cases n.places with
    | none => exact stops_powerText rfl hdigit n.power
    | some ds =>
      intro c hc
      cases hc
      rfl
  have hwhole := wholeDigits_text n.leading hbehind
  have hsplit : n.text ++ rest = signText n.negative
      ++ (n.whole.text ++ (placesText n.places ++ (powerText n.power ++ rest))) := by
    simp [text]
  obtain ⟨d, more, hd, hdigits, htext⟩ := n.whole.exists_text_eq
  rw [hsplit]
  refine number_eq_ok n.negative ?_ hwhole ?_ hplaces hpower ?_
  · intro c hc
    rw [htext] at hc
    cases hc
    exact (Text.isInner_of_digit? (Text.digit?_digitChar d (by omega))).2.1
  · rw [hdigits]
    rfl
  · intro hinteger
    have hlength := hlimit
    cases hp : n.places with
    | some ds => simp [hp] at hinteger
    | none =>
      cases hq : n.power with
      | some p => simp [hp, hq, powerValue] at hinteger
      | none => exact Nat.not_lt.mpr (hlimit hp hq)

end Numeral

/-! ## Numbers as values -/

theorem opensValue_digitChar : ∀ d < 10, opensValue (Text.digitChar d) = true ∧
    (Text.digitChar d).val ≠ 0x22 ∧ (Text.digitChar d).val ≠ 0x5b ∧
    (Text.digitChar d).val ≠ 0x7b := by decide

/-- No word starts as a number does. -/
theorem word?_digitChar {d : Nat} (hd : d < 10) (t : Text) :
    word? (Text.digitChar d :: t) = none ∧
      word? (CodePoint.ofChar '-' :: Text.digitChar d :: t) = none := by
  interval_cases d
  all_goals exact ⟨rfl, rfl⟩

theorem value_number {levels : Nat} {c : CodePoint} {t : Text} (hquote : c.val ≠ 0x22)
    (harray : c.val ≠ 0x5b) (hobject : c.val ≠ 0x7b) (hword : word? (c :: t) = none) :
    value levels (c :: t) = number (c :: t) := by
  unfold value
  rw [if_neg hquote, if_neg harray, if_neg hobject, hword]

/-- What a value is read from, by its first code point. -/
inductive ReadsValue : (levels : Nat) → Text → Json → Text → Prop
  | str {levels : Nat} {c : CodePoint} {t s rest : Text} (hc : c.val = 0x22)
      (h : string c t = .ok (s, rest)) : ReadsValue levels (c :: t) (.str s) rest
  | arr {levels : Nat} {c : CodePoint} {t rest : Text} {j : Json} (hc : c.val = 0x5b)
      (h : array (value levels) t = .ok (j, rest)) : ReadsValue (levels + 1) (c :: t) j rest
  | obj {levels : Nat} {c : CodePoint} {t rest : Text} {j : Json} (hc : c.val = 0x7b)
      (h : objectBody (value levels) t = .ok (j, rest)) : ReadsValue (levels + 1) (c :: t) j rest
  | word {levels : Nat} {c : CodePoint} {t rest : Text} {j : Json} (hquote : c.val ≠ 0x22)
      (harray : c.val ≠ 0x5b) (hobject : c.val ≠ 0x7b) (h : word? (c :: t) = some (j, rest)) :
      ReadsValue levels (c :: t) j rest
  | number {levels : Nat} {c : CodePoint} {t rest : Text} {j : Json} (hquote : c.val ≠ 0x22)
      (harray : c.val ≠ 0x5b) (hobject : c.val ≠ 0x7b) (hword : word? (c :: t) = none)
      (h : number (c :: t) = .ok (j, rest)) : ReadsValue levels (c :: t) j rest

theorem value_string {levels : Nat} {c : CodePoint} (hc : c.val = 0x22) (t : Text) :
    value levels (c :: t) = (string c t).map fun (s, r) => (.str s, r) := by
  unfold value
  rw [if_pos hc]

theorem value_eq_ok_iff {levels : Nat} {t rest : Text} {j : Json} :
    value levels t = .ok (j, rest) ↔ ReadsValue levels t j rest := by
  constructor
  · intro h
    unfold value at h
    split at h
    next => cases h
    next c t =>
      split_ifs at h with hquote harray hobject
      · obtain ⟨⟨s, r⟩, hstring, h⟩ := map_eq_ok.mp h
        obtain ⟨rfl, rfl⟩ := Prod.mk.inj h
        exact .str hquote hstring
      · split at h
        next => cases h
        next => exact .arr harray h
      · split at h
        next => cases h
        next => exact .obj hobject h
      · split at h
        next found hword =>
          obtain rfl := Except.ok.inj h
          exact .word hquote harray hobject hword
        next hword => exact .number hquote harray hobject hword h
  · intro h
    cases h with
    | str hc h =>
      rw [value_string hc, h]
      rfl
    | arr hc h => rw [value_array hc, h]
    | obj hc h => rw [value_object hc, h]
    | word hquote harray hobject h => exact value_word hquote harray hobject h
    | number hquote harray hobject hword h => rw [value_number hquote harray hobject hword, h]

/-- The spelling of a number is read as a value. -/
theorem Numeral.reads_text {levels : Nat} (n : Numeral)
    (hlimit : n.places = none → n.power = none → n.whole.digits.length ≤ Text.decimalLimit) :
    Reads (value levels) n.text n.json := by
  obtain ⟨d, more, hd, -, htext⟩ := n.whole.exists_text_eq
  obtain ⟨hopens, hquote, harray, hobject⟩ := opensValue_digitChar d hd
  have hread := fun rest (hrest : EndsValue rest) => n.number_text hlimit hrest
  cases hnegative : n.negative with
  | false =>
    have hfirst : ∃ behind, n.text = Text.digitChar d :: behind := by
      rw [text, hnegative, htext]
      exact ⟨_, rfl⟩
    obtain ⟨behind, hbehind⟩ := hfirst
    rw [hbehind] at hread ⊢
    refine ⟨⟨_, _, rfl, hopens⟩, fun rest hrest => ?_⟩
    rw [← hread rest hrest]
    exact value_number hquote harray hobject (word?_digitChar hd _).1
  | true =>
    have hfirst : ∃ behind, n.text = CodePoint.ofChar '-' :: Text.digitChar d :: behind := by
      rw [text, hnegative, htext]
      exact ⟨_, rfl⟩
    obtain ⟨behind, hbehind⟩ := hfirst
    rw [hbehind] at hread ⊢
    refine ⟨⟨_, _, rfl, rfl⟩, fun rest hrest => ?_⟩
    rw [← hread rest hrest]
    exact value_number (by decide) (by decide) (by decide) (word?_digitChar hd _).2

/-- A row of digits without places is read as an integer, unless it is too long. -/
theorem reads_whole {levels : Nat} (negative : Bool) (ds : Digits)
    (hleading : ds.digits.head? = some 0 → ds.digits = [0])
    (hlimit : ds.digits.length ≤ Text.decimalLimit) :
    Reads (value levels) (Numeral.signText negative ++ ds.text)
      (.int (if negative then -(ds.value : Int) else ds.value)) := by
  have hread := @Numeral.reads_text levels ⟨negative, ds, none, none, hleading⟩
  simpa [Numeral.text, Numeral.placesText, Numeral.powerText, Numeral.json, Numeral.jsonOf,
    Numeral.powerValue, Digits.value] using hread fun _ _ => hlimit

/-- An integer comes back from its digits, unless they are too many. -/
theorem reads_ofInt {levels : Nat} {n : Int} (hwritten : Text.isWritten n = true) :
    Reads (value levels) (Text.ofInt n) (.int n) := by
  obtain ⟨ds, htext, hne, hlt, hvalue, hzero⟩ := @Text.ofNatBase_eq_map 10 (by decide) n.natAbs
  have hdigits : Text.ofNat n.natAbs = ds.map Text.digitChar := htext
  have hlimit : ds.length ≤ Text.decimalLimit := by
    rw [← List.length_map Text.digitChar, ← hdigits]
    have hpos : 0 < Text.decimalLimit := by decide
    rw [Text.isWritten_iff] at hwritten
    generalize Text.decimalLimit = limit at hpos hwritten ⊢
    exact Text.length_ofNat_le hpos hwritten
  have hread := fun negative => @reads_whole levels negative ⟨ds, hne, hlt⟩ hzero hlimit
  cases n with
  | ofNat n =>
    have hn : Int.ofNat n = Positional.value 10 ds := congrArg Int.ofNat hvalue.symm
    show Reads (value levels) (Text.ofNat (Int.ofNat n).natAbs) _
    rw [hdigits, hn]
    exact hread false
  | negSucc n =>
    have hn : Int.negSucc n = -(Positional.value 10 ds : Int) := by
      rw [hvalue]
      rfl
    show Reads (value levels) (CodePoint.ofChar '-' :: Text.ofNat (Int.negSucc n).natAbs) _
    rw [hdigits, hn]
    exact hread true

theorem legible_int {levels : Nat} {n : Int} (h : Text.isWritten n = true) :
    Legible levels (.int n) :=
  .int (reads_ofInt h) h

end Json

end EthWire

import EthWire.Proofs.Hexadecimal
import EthWire.Proofs.Json.Number
import EthWire.Proofs.Json.Text

/-!
# Escapes of any code point

A code point beyond sixteen bits is escaped as two surrogates, and the reader joins them again.
It joins a high surrogate with a low one right behind it just the same where these stood as two
code points in the text. Every other text comes back as it was.
-/

namespace EthWire

open Json (isHighSurrogate isLowSurrogate)

namespace Text

/-- The code point that two surrogates stand for. -/
def joinSurrogates (high low : CodePoint) : CodePoint :=
  CodePoint.ofNat (0x10000 + (high.val - 0xd800) * 0x400 + (low.val - 0xdc00))

/-- The text with each high surrogate joined to a low one right behind it. -/
def joined : Text → Text
  | [] => []
  | [c] => [c]
  | c :: d :: rest =>
      if isHighSurrogate c.val && isLowSurrogate d.val then joinSurrogates c d :: joined rest
      else c :: joined (d :: rest)

/-- A high surrogate stands in front of a low one. -/
def HasPair (t : Text) : Prop :=
  ∃ high low, isHighSurrogate high.val = true ∧ isLowSurrogate low.val = true ∧ [high, low] <:+: t

end Text

namespace Json

/-! ## One unit -/

theorem hexPadded_eq_map {width n : Nat} (hn : n < 16 ^ width) :
    ∃ ds : List Nat, Text.hexPadded width n = ds.map Text.digitChar ∧ ds.length = width ∧
      (∀ d ∈ ds, d < 16) ∧ Positional.value 16 ds = n := by
  have hlength := (Positional.length_digits_le_iff (by decide : 1 < 16) n width).mpr hn
  refine ⟨List.replicate (width - (Positional.digits 16 n).length) 0 ++ Positional.digits 16 n,
    ?_, ?_, ?_, ?_⟩
  · rw [Text.hexPadded, List.leftpad, List.length_map, List.map_append, List.map_replicate]
    rfl
  · rw [List.length_append, List.length_replicate]
    omega
  · intro d hd
    rcases List.mem_append.mp hd with hzero | hd
    · rw [List.eq_of_mem_replicate hzero]
      decide
    · exact Positional.lt_of_mem_digits (by decide) hd
  · rw [Positional.value_zeros_append, Positional.value_digits (by decide)]

variable {n high low : Nat} {rest : Text}

theorem hexUnit?_hexPadded (hn : n < 0x10000) (hrest : rest ≠ []) :
    hexUnit? (Text.hexPadded 4 n ++ rest) = some (n, rest) := by
  obtain ⟨ds, htext, hlength, hlt, hvalue⟩ := @hexPadded_eq_map 4 n hn
  obtain ⟨e, more, rfl⟩ := List.exists_cons_of_ne_nil hrest
  match ds, hlength with
  | [a, b, c, d], _ =>
    have ha := Text.hexDigit?_digitChar a (hlt a (by simp))
    have hb := Text.hexDigit?_digitChar b (hlt b (by simp))
    have hc := Text.hexDigit?_digitChar c (hlt c (by simp))
    have hd := Text.hexDigit?_digitChar d (hlt d (by simp))
    rw [htext, ← hvalue]
    simp [hexUnit?, ha, hb, hc, hd]

theorem lowEscape?_unitEscape (hn : n < 0x10000) (hrest : rest ≠ []) :
    lowEscape? (unitEscape n ++ rest) = if isLowSurrogate n then some (n, rest) else none := by
  have hunit := hexUnit?_hexPadded hn hrest
  show (hexUnit? (Text.hexPadded 4 n ++ rest)).filter _ = _
  rw [hunit, Option.filter_some]

theorem stringPoint_unitEscape (hn : n < 0x10000) (hrest : rest ≠ []) :
    stringPoint (unitEscape n ++ rest)
      = match if isHighSurrogate n then lowEscape? rest else none with
        | some (low, after) => .ok (some (CodePoint.ofNat
            (0x10000 + (n - 0xd800) * 0x400 + (low - 0xdc00))), after)
        | none => .ok (some (CodePoint.ofNat n), rest) := by
  have hunit := hexUnit?_hexPadded hn hrest
  show (unicodeEscape (CodePoint.ofChar 'u' :: (Text.hexPadded 4 n ++ rest))).map _ = _
  rw [unicodeEscape, List.drop_one, List.tail_cons, hunit]
  dsimp only
  cases (if isHighSurrogate n then lowEscape? rest else none) with
  | some pair => rfl
  | none => rfl

theorem stringPoint_single (hn : n < 0x10000) (hrest : rest ≠ [])
    (hlow : isHighSurrogate n = true → lowEscape? rest = none) :
    stringPoint (unitEscape n ++ rest) = .ok (some (CodePoint.ofNat n), rest) := by
  have hnone : (if isHighSurrogate n then lowEscape? rest else none) = none := by
    split
    next h => exact hlow h
    next => rfl
  rw [stringPoint_unitEscape hn hrest, hnone]

theorem stringPoint_pair (hhigh : isHighSurrogate high = true) (hlow : isLowSurrogate low = true)
    (hrest : rest ≠ []) :
    stringPoint (unitEscape high ++ (unitEscape low ++ rest))
      = .ok (some (CodePoint.ofNat (0x10000 + (high - 0xd800) * 0x400 + (low - 0xdc00))), rest) := by
  have hhighLt : high < 0x10000 := by
    simp only [isHighSurrogate, Bool.and_eq_true, decide_eq_true_eq] at hhigh
    omega
  have hlowLt : low < 0x10000 := by
    simp only [isLowSurrogate, Bool.and_eq_true, decide_eq_true_eq] at hlow
    omega
  rw [stringPoint_unitEscape hhighLt (List.append_ne_nil_of_right_ne_nil _ hrest), if_pos hhigh,
    lowEscape?_unitEscape hlowLt hrest, if_pos hlow]

/-! ## One code point -/

variable {c d : CodePoint}

theorem CodePoint.ofNat_val (c : CodePoint) : CodePoint.ofNat c.val = c :=
  Fin.ext (Nat.mod_eq_of_lt c.isLt)

/-- The code points that are escaped by a letter, with their letters. -/
def shortEscapes : List (CodePoint × CodePoint) :=
  [('"', '"'), ('\\', '\\'), ('\n', 'n'), ('\r', 'r'), ('\t', 't'), ('\x08', 'b'), ('\x0c', 'f')]

/-- How a code point is written inside a string. -/
inductive Escaped (c : CodePoint) : Text → Prop
  | short {e : CodePoint} (h : (c, e) ∈ shortEscapes) : Escaped c [CodePoint.ofChar '\\', e]
  | plain (h : isPlain c = true) : Escaped c [c]
  | unit (h : c.val < 0x10000) : Escaped c (unitEscape c.val)
  | units (h : 0x10000 ≤ c.val) : Escaped c (unitEscape (0xd800 + (c.val - 0x10000) / 0x400)
      ++ unitEscape (0xdc00 + (c.val - 0x10000) % 0x400))

theorem escaped_escapePoint (c : CodePoint) : Escaped c (escapePoint c) := by
  have hshort : ∀ {v : CodePoint} (e : CodePoint), c.val = v.val → (v, e) ∈ shortEscapes →
      Escaped c [CodePoint.ofChar '\\', e] := by
    intro v e hv he
    obtain rfl : c = v := Fin.ext hv
    exact .short he
  unfold escapePoint
  dsimp only
  split_ifs with hquote hslash hline hreturn htab hback hfeed hplain hunit
  · exact @hshort '"' '"' hquote (by decide)
  · exact @hshort '\\' '\\' hslash (by decide)
  · exact @hshort '\n' 'n' hline (by decide)
  · exact @hshort '\r' 'r' hreturn (by decide)
  · exact @hshort '\t' 't' htab (by decide)
  · exact @hshort '\x08' 'b' hback (by decide)
  · exact @hshort '\x0c' 'f' hfeed (by decide)
  · exact .plain (isPlain_iff.mpr ⟨hplain.1, hplain.2, hquote, hslash⟩)
  · exact .unit (by omega)
  · exact .units (by omega)

theorem stringPoint_short {e : CodePoint} (h : (c, e) ∈ shortEscapes) (rest : Text) :
    stringPoint (CodePoint.ofChar '\\' :: e :: rest) = .ok (some c, rest) := by
  simp only [shortEscapes, List.mem_cons, Prod.mk.injEq, List.not_mem_nil, or_false] at h
  rcases h with ⟨rfl, rfl⟩ | ⟨rfl, rfl⟩ | ⟨rfl, rfl⟩ | ⟨rfl, rfl⟩ | ⟨rfl, rfl⟩ | ⟨rfl, rfl⟩ |
    ⟨rfl, rfl⟩
  all_goals rfl

theorem lowEscape?_short {e : CodePoint} (h : (c, e) ∈ shortEscapes) (rest : Text) :
    lowEscape? (CodePoint.ofChar '\\' :: e :: rest) = none := by
  simp only [shortEscapes, List.mem_cons, Prod.mk.injEq, List.not_mem_nil, or_false] at h
  rcases h with ⟨rfl, rfl⟩ | ⟨rfl, rfl⟩ | ⟨rfl, rfl⟩ | ⟨rfl, rfl⟩ | ⟨rfl, rfl⟩ | ⟨rfl, rfl⟩ |
    ⟨rfl, rfl⟩
  all_goals rfl

theorem lowEscape?_of_ne (hc : c.val ≠ 0x5c) (rest : Text) : lowEscape? (c :: rest) = none := by
  cases rest with
  | nil => rfl
  | cons u rest => exact if_neg fun h => hc h.1

/-- The surrogates of a code point beyond sixteen bits. -/
theorem surrogates_of_le (h : 0x10000 ≤ c.val) :
    isHighSurrogate (0xd800 + (c.val - 0x10000) / 0x400) = true ∧
    isLowSurrogate (0xdc00 + (c.val - 0x10000) % 0x400) = true := by
  have hc := c.isLt
  simp only [isHighSurrogate, isLowSurrogate, Bool.and_eq_true, decide_eq_true_eq]
  omega

theorem stringPoint_escapePoint (c : CodePoint) (hrest : rest ≠ [])
    (hlow : isHighSurrogate c.val = true → lowEscape? rest = none) :
    stringPoint (escapePoint c ++ rest) = .ok (some c, rest) := by
  have hescaped := escaped_escapePoint c
  generalize escapePoint c = t at hescaped ⊢
  cases hescaped with
  | short h => exact stringPoint_short h rest
  | plain h => exact stringPoint_plain h rest
  | unit h => rw [stringPoint_single h hrest hlow, CodePoint.ofNat_val]
  | units h =>
    obtain ⟨hhigh, hlow⟩ := surrogates_of_le h
    have hvalue : 0x10000 + (0xd800 + (c.val - 0x10000) / 0x400 - 0xd800) * 0x400
        + (0xdc00 + (c.val - 0x10000) % 0x400 - 0xdc00) = c.val := by omega
    rw [List.append_assoc, stringPoint_pair hhigh hlow hrest, hvalue, CodePoint.ofNat_val]

/-- Only the escape of a low surrogate is taken for one. -/
theorem lowEscape?_escapePoint (hc : isLowSurrogate c.val = false) (hrest : rest ≠ []) :
    lowEscape? (escapePoint c ++ rest) = none := by
  have hescaped := escaped_escapePoint c
  generalize escapePoint c = t at hescaped ⊢
  cases hescaped with
  | short h => exact lowEscape?_short h rest
  | plain h => exact lowEscape?_of_ne (isPlain_iff.mp h).2.2.2 rest
  | unit h => rw [lowEscape?_unitEscape h hrest, if_neg (by rw [hc]; decide)]
  | units h =>
    have hunit : 0xd800 + (c.val - 0x10000) / 0x400 < 0x10000 := by
      have hlt := c.isLt
      omega
    have hnot : ¬isLowSurrogate (0xd800 + (c.val - 0x10000) / 0x400) = true := by
      have hlt := c.isLt
      simp only [isLowSurrogate, Bool.and_eq_true, decide_eq_true_eq]
      omega
    rw [List.append_assoc, lowEscape?_unitEscape hunit (List.append_ne_nil_of_right_ne_nil _ hrest),
      if_neg hnot]

/-! ## Texts -/

section Joined

variable (hhigh : isHighSurrogate c.val = true) (hlow : isLowSurrogate d.val = true)

include hhigh hlow

theorem joinSurrogates_val :
    (Text.joinSurrogates c d).val = 0x10000 + (c.val - 0xd800) * 0x400 + (d.val - 0xdc00) := by
  simp only [isHighSurrogate, isLowSurrogate, Bool.and_eq_true, decide_eq_true_eq] at hhigh hlow
  refine Nat.mod_eq_of_lt ?_
  omega

/-- Two surrogates are written as the code point is that they stand for. -/
theorem escapePoint_joinSurrogates :
    escapePoint (Text.joinSurrogates c d) = unitEscape c.val ++ unitEscape d.val ∧
      escapePoint c = unitEscape c.val ∧ escapePoint d = unitEscape d.val := by
  have hval := joinSurrogates_val hhigh hlow
  simp only [isHighSurrogate, isLowSurrogate, Bool.and_eq_true, decide_eq_true_eq] at hhigh hlow
  have hfirst : 0xd800 + ((Text.joinSurrogates c d).val - 0x10000) / 0x400 = c.val := by omega
  have hsecond : 0xdc00 + ((Text.joinSurrogates c d).val - 0x10000) % 0x400 = d.val := by omega
  refine ⟨?_, ?_, ?_⟩
  · unfold escapePoint
    dsimp only
    repeat rw [if_neg (by omega)]
    rw [hfirst, hsecond]
  · unfold escapePoint
    repeat rw [if_neg (by omega)]
    rw [if_pos (by omega)]
  · unfold escapePoint
    repeat rw [if_neg (by omega)]
    rw [if_pos (by omega)]

end Joined

theorem flatMap_escapePoint_joined (s : Text) :
    s.joined.flatMap escapePoint = s.flatMap escapePoint := by
  fun_induction Text.joined s with
  | case1 => rfl
  | case2 c => rfl
  | case3 c d rest hpair ih =>
    rw [Bool.and_eq_true] at hpair
    obtain ⟨hjoined, hhigh, hlow⟩ := escapePoint_joinSurrogates hpair.1 hpair.2
    rw [List.flatMap_cons, List.flatMap_cons, List.flatMap_cons, hjoined, hhigh, hlow, ih,
      List.append_assoc]
  | case4 c d rest hpair ih => rw [List.flatMap_cons, List.flatMap_cons, ih]

theorem stringBody_cons {t after s : Text} {fuel : Nat} (hpoint : stringPoint t = .ok (some c, rest))
    (hbody : stringBody fuel rest = .ok (s, after)) :
    stringBody (fuel + 1) t = .ok (c :: s, after) := by
  rw [stringBody, hpoint, ok_bind]
  dsimp only
  rw [hbody]
  rfl

/-- A string is read with its surrogates joined, one step for each code point that comes out. -/
theorem stringBody_escapes (s : Text) {close : CodePoint} (hclose : close.val = 0x22)
    (rest : Text) {fuel : Nat} (hfuel : s.length < fuel) :
    stringBody fuel (s.flatMap escapePoint ++ close :: rest) = .ok (s.joined, rest) := by
  have hends : lowEscape? (close :: rest) = none := lowEscape?_of_ne (by omega) rest
  have hbehind : ∀ t : Text, t ++ close :: rest ≠ [] :=
    fun t => List.append_ne_nil_of_right_ne_nil t (List.cons_ne_nil _ _)
  fun_induction Text.joined s generalizing fuel with
  | case1 =>
    obtain ⟨fuel, rfl⟩ := Nat.exists_eq_add_one_of_ne_zero (Nat.ne_of_gt hfuel)
    rw [List.flatMap_nil, List.nil_append, stringBody, stringPoint_close hclose]
    rfl
  | case2 c =>
    obtain ⟨fuel, rfl⟩ := Nat.exists_eq_add_one_of_ne_zero (Nat.ne_of_gt (Nat.zero_lt_of_lt hfuel))
    have hpoint := stringPoint_escapePoint c (List.cons_ne_nil close rest) fun _ => hends
    have hbody : stringBody fuel (close :: rest) = .ok ([], rest) :=
      stringBody_plain (List.all_nil) hclose rest (by simpa using hfuel)
    rw [List.flatMap_singleton]
    exact stringBody_cons hpoint hbody
  | case3 c d more hpair ih =>
    rw [Bool.and_eq_true] at hpair
    rw [List.length_cons, List.length_cons] at hfuel
    obtain ⟨fuel, rfl⟩ := Nat.exists_eq_add_one_of_ne_zero (Nat.ne_of_gt (Nat.zero_lt_of_lt hfuel))
    obtain ⟨-, hhigh, hlow⟩ := escapePoint_joinSurrogates hpair.1 hpair.2
    have hpoint := stringPoint_pair hpair.1 hpair.2 (hbehind (more.flatMap escapePoint))
    have hbody := @ih fuel (by omega)
    rw [List.flatMap_cons, List.flatMap_cons, hhigh, hlow, List.append_assoc, List.append_assoc]
    exact stringBody_cons hpoint hbody
  | case4 c d more hpair ih =>
    rw [List.length_cons] at hfuel
    obtain ⟨fuel, rfl⟩ := Nat.exists_eq_add_one_of_ne_zero (Nat.ne_of_gt (Nat.zero_lt_of_lt hfuel))
    have hsingle : isHighSurrogate c.val = true →
        lowEscape? ((d :: more).flatMap escapePoint ++ close :: rest) = none := by
      intro hhigh
      have hd : isLowSurrogate d.val = false := by simpa [hhigh] using hpair
      rw [List.flatMap_cons, List.append_assoc]
      exact lowEscape?_escapePoint hd (hbehind _)
    have hpoint := stringPoint_escapePoint c (hbehind _) hsingle
    have hbody := @ih fuel (by omega)
    rw [List.flatMap_cons, List.append_assoc]
    exact stringBody_cons hpoint hbody

theorem length_le_flatMap_escapePoint (s : Text) : s.length ≤ (s.flatMap escapePoint).length := by
  induction s with
  | nil => exact Nat.le_refl 0
  | cons c s ih =>
    have hc : 0 < (escapePoint c).length := by
      have hescaped := escaped_escapePoint c
      generalize escapePoint c = t at hescaped ⊢
      cases hescaped with
      | short h => exact Nat.succ_pos _
      | plain h => exact Nat.succ_pos _
      | unit h => exact Nat.succ_pos _
      | units h => exact Nat.succ_pos _
    rw [List.flatMap_cons, List.length_append, List.length_cons]
    omega

/-- A text in which no surrogates are left to be joined comes back from its escapes. -/
theorem stringReads_joined (s : Text) : StringReads s.joined := by
  intro quote close rest hclose
  have hlength := length_le_flatMap_escapePoint s
  have hbody := @stringBody_escapes s close hclose rest
    ((s.flatMap escapePoint ++ close :: rest).length + 1)
  rw [flatMap_escapePoint_joined, string, hbody]
  · rfl
  · rw [List.length_append]
    omega

theorem writeString_joined (s : Text) : writeString s.joined = writeString s := by
  rw [writeString, writeString, flatMap_escapePoint_joined]

end Json

namespace Text

theorem length_joined_le (s : Text) : s.joined.length ≤ s.length := by
  fun_induction joined s with
  | case1 => exact Nat.le_refl _
  | case2 c => exact Nat.le_refl _
  | case3 c d rest hpair ih =>
    rw [List.length_cons, List.length_cons, List.length_cons]
    omega
  | case4 c d rest hpair ih =>
    rw [List.length_cons, List.length_cons]
    omega

/-- Joining changes just the texts in which a high surrogate stands in front of a low one. -/
theorem joined_eq_self_iff (s : Text) : s.joined = s ↔ ¬s.HasPair := by
  fun_induction joined s with
  | case1 =>
    refine ⟨fun _ => ?_, fun _ => rfl⟩
    rintro ⟨high, low, -, -, hinfix⟩
    cases List.infix_nil.mp hinfix
  | case2 c =>
    refine ⟨fun _ => ?_, fun _ => rfl⟩
    rintro ⟨high, low, -, -, hinfix⟩
    have hlength := hinfix.length_le
    simp at hlength
  | case3 c d rest hpair ih =>
    rw [Bool.and_eq_true] at hpair
    have hshorter := length_joined_le rest
    constructor
    · intro h
      have hlength := congrArg List.length h
      rw [List.length_cons, List.length_cons, List.length_cons] at hlength
      omega
    · intro hnone
      exact absurd ⟨c, d, hpair.1, hpair.2, ⟨[], rest, rfl⟩⟩ hnone
  | case4 c d rest hpair ih =>
    rw [List.cons.injEq, and_iff_right rfl, ih, not_iff_not]
    constructor
    · rintro ⟨high, low, hhigh, hlow, hinfix⟩
      exact ⟨high, low, hhigh, hlow, List.infix_cons hinfix⟩
    · rintro ⟨high, low, hhigh, hlow, hinfix⟩
      rcases List.infix_cons_iff.mp hinfix with hprefix | hinfix
      · rw [List.cons_prefix_cons, List.cons_prefix_cons] at hprefix
        obtain ⟨rfl, rfl, -⟩ := hprefix
        exact absurd (by rw [hhigh, hlow]; rfl) hpair
      · exact ⟨high, low, hhigh, hlow, hinfix⟩

end Text

end EthWire

import EthWire.Proofs.Json.ReadBack
import EthWire.Proofs.Json.Surrogate
import EthWire.Proofs.Text.Utf8

/-!
# Written documents are in ASCII

Whatever a document holds, its text is in ASCII in any layout: strings are escaped, and numbers
have digits, a point, signs and the mark of a power.
-/

namespace EthWire

namespace Text

variable {t u : Text} {c : CodePoint}

instance : DecidablePred Ascii := List.decidableBAll fun c : CodePoint => c.val < 0x80

@[simp] theorem ascii_nil : Ascii [] := List.forall_mem_nil _

@[simp] theorem ascii_cons : Ascii (c :: t) ↔ c.val < 0x80 ∧ t.Ascii := List.forall_mem_cons

@[simp] theorem ascii_append : Ascii (t ++ u) ↔ t.Ascii ∧ u.Ascii := List.forall_mem_append

theorem ascii_replicate (n : Nat) (hc : c.val < 0x80) : Ascii (List.replicate n c) := by
  intro d hd
  rwa [List.eq_of_mem_replicate hd]

theorem ascii_join (ht : t.Ascii) {ts : List Text} (h : ∀ u ∈ ts, u.Ascii) : (join t ts).Ascii := by
  cases ts with
  | nil => exact ascii_nil
  | cons u us =>
    obtain ⟨hu, hus⟩ := List.forall_mem_cons.mp h
    rw [join_cons, ascii_append]
    refine ⟨hu, fun c hc => ?_⟩
    obtain ⟨v, hv, hc⟩ := List.mem_flatMap.mp hc
    exact ascii_append.mpr ⟨ht, hus v hv⟩ c hc

/-! ## Digits -/

theorem ascii_map_digitChar {ds : List Nat} (h : ∀ d ∈ ds, d < 16) :
    Ascii (ds.map digitChar) := by
  have hdigit : ∀ d < 16, (digitChar d).val < 0x80 := by decide
  intro c hc
  obtain ⟨d, hd, rfl⟩ := List.mem_map.mp hc
  exact hdigit d (h d hd)

theorem ascii_ofNat (n : Nat) : (ofNat n).Ascii := by
  obtain ⟨ds, htext, -, hlt, -⟩ := @ofNatBase_eq_map 10 (by decide) n
  rw [ofNat, htext]
  exact ascii_map_digitChar fun d hd => (hlt d hd).trans (by decide)

theorem ascii_ofInt (n : Int) : (ofInt n).Ascii := by
  cases n with
  | ofNat n => exact ascii_ofNat n
  | negSucc n => exact ascii_cons.mpr ⟨by decide, ascii_ofNat (n + 1)⟩

end Text

open Text (Ascii ascii_append ascii_cons ascii_replicate ascii_join)

/-! ## Numbers -/

namespace Binary64

theorem ascii_significantDigits (n : Nat) : (significantDigits n).Ascii := by
  refine Text.ascii_map_digitChar fun d hd => ?_
  have hmem := (List.dropWhile_sublist _).mem (List.mem_reverse.mp hd)
  exact (Positional.lt_of_mem_digits (by decide) (List.mem_reverse.mp hmem)).trans (by decide)

theorem Decimal.ascii_write (style : Layout) (x : Decimal) : (x.write style).Ascii := by
  have hzeros : ∀ n : Nat, Ascii (List.replicate n (CodePoint.ofChar '0')) :=
    fun n => ascii_replicate n (by decide)
  have hdigits := ascii_significantDigits x.digits
  have hsign : Ascii (if x.exponent + (Positional.digits 10 x.digits).length - 1 < 0
      then Text.ofString "e-" else Text.ofString "e+") := by
    split
    · decide
    · decide
  have hpoint : Ascii (Text.ofString ".") := by decide
  unfold Decimal.write
  dsimp only
  generalize significantDigits x.digits = ds at hdigits ⊢
  split
  · split
    · exact ascii_append.mpr ⟨ascii_append.mpr ⟨by decide, hzeros _⟩, hdigits⟩
    · split
      · exact ascii_append.mpr ⟨ascii_append.mpr ⟨hdigits, hzeros _⟩, by decide⟩
      · refine ascii_append.mpr ⟨ascii_append.mpr ⟨?_, hpoint⟩, ?_⟩
        · exact fun c hc => hdigits c (List.mem_of_mem_take hc)
        · exact fun c hc => hdigits c (List.mem_of_mem_drop hc)
  · have hpower : Ascii ((Text.ofNat
        (x.exponent + (Positional.digits 10 x.digits).length - 1).natAbs).leftpad
          style.exponentDigits (CodePoint.ofChar '0')) :=
      ascii_append.mpr ⟨hzeros _, Text.ascii_ofNat _⟩
    split
    · exact ascii_append.mpr ⟨ascii_append.mpr ⟨hdigits, hsign⟩, hpower⟩
    · obtain ⟨hd, hrest⟩ := ascii_cons.mp hdigits
      simp only [ascii_append, ascii_cons]
      exact ⟨⟨⟨⟨⟨hd, Text.ascii_nil⟩, hpoint⟩, hrest⟩, hsign⟩, hpower⟩
    · exact ascii_append.mpr ⟨hsign, hpower⟩

end Binary64

namespace Json

variable {layout : Layout} {depth : Nat}

theorem ascii_writeFloat (x : Binary64) : (writeFloat x).Ascii := by
  cases x with
  | nan shared =>
    show Ascii (Text.ofString "NaN")
    decide
  | infinite negative =>
    cases negative with
    | false =>
      show Ascii (Text.ofString "Infinity")
      decide
    | true =>
      show Ascii (Text.ofString "-Infinity")
      decide
  | finite negative m e =>
    have hsign : Ascii (if negative then Text.ofString "-" else []) := by
      split
      · decide
      · decide
    refine ascii_append.mpr ⟨hsign, ?_⟩
    split
    · decide
    · exact Binary64.Decimal.ascii_write _ _

/-! ## Strings -/

theorem ascii_unitEscape {n : Nat} (hn : n < 0x10000) : (unitEscape n).Ascii := by
  obtain ⟨ds, htext, -, hlt, -⟩ := @hexPadded_eq_map 4 n hn
  rw [unitEscape, htext]
  exact ascii_append.mpr ⟨by decide, Text.ascii_map_digitChar hlt⟩

theorem ascii_escapePoint (c : CodePoint) : (escapePoint c).Ascii := by
  have hlt := c.isLt
  have hescaped := escaped_escapePoint c
  generalize escapePoint c = t at hescaped ⊢
  cases hescaped with
  | @short e h =>
    have hletters : Ascii (shortEscapes.map Prod.snd) := by decide
    have he : e.val < 0x80 := hletters e (List.mem_map_of_mem h)
    exact ascii_cons.mpr ⟨by decide, ascii_cons.mpr ⟨he, Text.ascii_nil⟩⟩
  | plain h =>
    have hplain := isPlain_iff.mp h
    exact ascii_cons.mpr ⟨by omega, Text.ascii_nil⟩
  | unit h => exact ascii_unitEscape h
  | units h => exact ascii_append.mpr ⟨ascii_unitEscape (by omega), ascii_unitEscape (by omega)⟩

theorem ascii_writeString (s : Text) : (writeString s).Ascii := by
  refine ascii_append.mpr ⟨ascii_append.mpr ⟨by decide, fun c hc => ?_⟩, by decide⟩
  obtain ⟨d, -, hc⟩ := List.mem_flatMap.mp hc
  exact ascii_escapePoint d c hc

/-! ## Documents -/

theorem ascii_lineBreak : (lineBreak layout depth).Ascii := by
  unfold lineBreak
  split
  · exact Text.ascii_nil
  · exact ascii_cons.mpr ⟨by decide, ascii_replicate _ (by decide)⟩

theorem ascii_enclose {opening closing : Char} (hopening : (CodePoint.ofChar opening).val < 0x80)
    (hclosing : (CodePoint.ofChar closing).val < 0x80) {parts : List Text}
    (h : ∀ t ∈ parts, t.Ascii) : (enclose layout depth opening closing parts).Ascii := by
  cases parts with
  | nil => exact ascii_cons.mpr ⟨hopening, ascii_cons.mpr ⟨hclosing, Text.ascii_nil⟩⟩
  | cons part parts =>
    have hparts : ∀ t ∈ (part :: parts).map (lineBreak layout (depth + 1) ++ ·), t.Ascii := by
      intro t ht
      obtain ⟨u, hu, rfl⟩ := List.mem_map.mp ht
      exact ascii_append.mpr ⟨ascii_lineBreak, h u hu⟩
    have hinside := ascii_join (t := [CodePoint.ofChar ',']) (by decide) hparts
    rw [enclose_nonempty]
    refine ascii_cons.mpr ⟨hopening, ?_⟩
    exact ascii_append.mpr ⟨ascii_append.mpr ⟨hinside, ascii_lineBreak⟩,
      ascii_cons.mpr ⟨hclosing, Text.ascii_nil⟩⟩

theorem ascii_memberText {key text : Text} (h : text.Ascii) :
    (writeString key ++ keySeparator layout ++ text).Ascii := by
  have hseparator : (keySeparator layout).Ascii := by
    unfold keySeparator
    split
    · decide
    · decide
  exact ascii_append.mpr ⟨ascii_append.mpr ⟨ascii_writeString key, hseparator⟩, h⟩

mutual

theorem ascii_writeAt (depth : Nat) : ∀ j : Json, (writeAt layout depth j).Ascii
  | .null => by
    rw [writeAt]
    decide
  | .bool b => by
    rw [writeAt]
    cases b with
    | false => decide
    | true => decide
  | .int n => by
    rw [writeAt]
    exact Text.ascii_ofInt n
  | .float x => by
    rw [writeAt]
    exact ascii_writeFloat x
  | .str s => by
    rw [writeAt]
    exact ascii_writeString s
  | .arr js => by
    rw [writeAt]
    exact ascii_enclose (by decide) (by decide) (ascii_writeElements (depth + 1) js)
  | .obj ms => by
    rw [writeAt]
    refine ascii_enclose (by decide) (by decide) fun t ht => ?_
    obtain ⟨m, hm, rfl⟩ := List.mem_map.mp ht
    exact ascii_memberText (ascii_writeMembers (depth + 1) ms m ((arrange_perm _).mem_iff.mp hm))

theorem ascii_writeElements (depth : Nat) :
    ∀ js : List Json, ∀ t ∈ writeElements layout depth js, t.Ascii
  | [] => by
    rw [writeElements]
    exact List.forall_mem_nil _
  | j :: js => by
    rw [writeElements]
    exact List.forall_mem_cons.mpr ⟨ascii_writeAt depth j, ascii_writeElements depth js⟩

theorem ascii_writeMembers (depth : Nat) :
    ∀ ms : List (Text × Json), ∀ m ∈ writeMembers layout depth ms, m.2.Ascii
  | [] => by
    rw [writeMembers]
    exact List.forall_mem_nil _
  | (key, j) :: ms => by
    rw [writeMembers]
    exact List.forall_mem_cons.mpr ⟨ascii_writeAt depth j, ascii_writeMembers depth ms⟩

end

/-- So a document in a file comes back as the text that was written. -/
theorem ofUtf8?_write (layout : Layout) (j : Json) :
    Text.ofUtf8? (j.write layout).toUtf8 = some (j.write layout) :=
  (ascii_writeAt 0 j).scalar.ofUtf8?_toUtf8

end Json

end EthWire

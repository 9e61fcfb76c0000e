import EthWire.Proofs.BigEndian
import EthWire.Proofs.Result
import EthWire.Rlp.Decoder

/-!
# Marks of items

What the reader of a mark accepts is exactly what is written: a byte that is its own
encoding, or the one mark of a length below `2 ^ 64`. The reader is taken on windows
that hold as many bytes as they claim.
-/

namespace EthWire.Rlp

/-- Where the marks of a kind of items start. -/
def markOffset (isList : Bool) : Nat := if isList then listOffset else stringOffset

@[simp] theorem markOffset_false : markOffset false = stringOffset := rfl

@[simp] theorem markOffset_true : markOffset true = listOffset := rfl

/-- The lengths that a mark can tell are below this. -/
def lengthLimit : Nat := 2 ^ 64

/-- The mark `header` stands at the front of a window, spelled as it is written. -/
inductive Marked (rest : Bytes) (room : Nat) : Header → Prop
  | byte {x : UInt8} {tail : Bytes} (hrest : rest = x :: tail) (hx : x.toNat < stringOffset)
      (hroom : 0 < room) : Marked rest room ⟨false, 0, 1⟩
  | mark {isList : Bool} {length : Nat} {tail : Bytes} (hlength : length < lengthLimit)
      (hrest : rest = lengthMark (markOffset isList) length ++ tail)
      (hroom : (lengthMark (markOffset isList) length).length ≤ room)
      (hsingle : isList = false → length = 1 → 1 < room →
        ∀ y more, tail = y :: more → stringOffset ≤ y.toNat) :
      Marked rest room ⟨isList, (lengthMark (markOffset isList) length).length, length⟩

theorem lengthMark_short {offset length : Nat} (h : length ≤ shortMax) :
    lengthMark offset length = [UInt8.ofNat (offset + length)] := by
  rw [lengthMark, if_pos h]

theorem lengthMark_long {offset length : Nat} (h : shortMax < length) :
    lengthMark offset length
      = UInt8.ofNat (offset + shortMax + (Bytes.ofNat length).length) :: Bytes.ofNat length := by
  rw [lengthMark, if_neg (by omega)]

theorem lengthMark_pos (offset length : Nat) : 0 < (lengthMark offset length).length := by
  unfold lengthMark
  split <;> simp

/-- A length below the limit takes one to eight bytes. -/
theorem length_ofNat_le_eight {n : Nat} : (Bytes.ofNat n).length ≤ 8 ↔ n < lengthLimit :=
  Bytes.length_ofNat_le_iff n 8

theorem length_lengthMark_le {offset n : Nat} (h : n < lengthLimit) :
    (lengthMark offset n).length ≤ 9 := by
  have hsize := length_ofNat_le_eight.mpr h
  unfold lengthMark
  split
  · simp
  · rw [List.length_cons]
    omega

theorem length_ofNat_pos {n : Nat} (h : shortMax < n) : 0 < (Bytes.ofNat n).length := by
  by_contra h0
  have hn : n < 256 ^ 0 := (Bytes.length_ofNat_le_iff n 0).mp (by omega)
  simp only [shortMax] at h
  omega

private theorem byte_eq_ofNat {x : UInt8} {n : Nat} (h : x.toNat = n) : x = UInt8.ofNat n := by
  rw [← h, UInt8.ofNat_toNat]

/-! ## Lengths behind a mark -/

theorem longLength_eq_ok {rest : Bytes} {room size n : Nat} (hwindow : room ≤ rest.length)
    (h : longLength rest room size = .ok n) :
    1 + size ≤ room ∧ (rest.drop 1).take size = Bytes.ofNat n ∧ (Bytes.ofNat n).length = size ∧
      shortMax < n := by
  unfold longLength at h
  split at h
  · cases h
  next hroom =>
  have hsize : ((rest.drop 1).take size).length = size := by
    rw [List.length_take, List.length_drop]
    omega
  split at h
  · cases h
  next first more htake =>
  rw [htake] at hsize ⊢
  split at h
  · cases h
  next hfirst =>
  dsimp only at h
  split at h
  · cases h
  next hlong =>
  obtain rfl := Except.ok.inj h
  have hcanonical : Bytes.ofNat (Bytes.toNat (first :: more)) = first :: more :=
    Bytes.ofNat_toNat (by simpa using hfirst)
  exact ⟨by omega, hcanonical.symm, by rw [hcanonical, hsize], by omega⟩

theorem longLength_ofNat {rest : Bytes} {room n : Nat}
    (hroom : 1 + (Bytes.ofNat n).length ≤ room)
    (htake : (rest.drop 1).take (Bytes.ofNat n).length = Bytes.ofNat n) (hn : shortMax < n) :
    longLength rest room (Bytes.ofNat n).length = .ok n := by
  unfold longLength
  rw [if_neg (by omega), htake]
  have hpos := length_ofNat_pos hn
  have hhead := Bytes.head?_ofNat n
  have hvalue := Bytes.toNat_ofNat n
  cases hb : Bytes.ofNat n with
  | nil => rw [hb] at hpos; simp at hpos
  | cons first more =>
    rw [hb] at hhead hvalue
    have hfirst : first ≠ 0 := by simpa using hhead
    dsimp only
    rw [if_neg hfirst, hvalue, if_neg (by omega)]

/-! ## The reader of marks -/

/-- A first byte is its own encoding, holds a length, or tells how many bytes hold it. -/
theorem mark_cases (x : UInt8) :
    x.toNat < stringOffset ∨
    (∃ isList n, n ≤ shortMax ∧ x.toNat = markOffset isList + n) ∨
    ∃ isList size, 0 < size ∧ size ≤ 8 ∧ x.toNat = markOffset isList + shortMax + size := by
  have hx := x.toNat_lt
  have hs : stringOffset = 128 := rfl
  have hl : listOffset = 192 := rfl
  have hm : shortMax = 55 := rfl
  by_cases hself : x.toNat < stringOffset
  · exact .inl hself
  by_cases hshort : x.toNat ≤ stringOffset + shortMax
  · exact .inr (.inl ⟨false, x.toNat - stringOffset, by omega, by rw [markOffset_false]; omega⟩)
  by_cases hlong : x.toNat < listOffset
  · exact .inr (.inr ⟨false, x.toNat - (stringOffset + shortMax), by omega, by omega,
      by rw [markOffset_false]; omega⟩)
  by_cases hlist : x.toNat ≤ listOffset + shortMax
  · exact .inr (.inl ⟨true, x.toNat - listOffset, by omega, by rw [markOffset_true]; omega⟩)
  · exact .inr (.inr ⟨true, x.toNat - (listOffset + shortMax), by omega, by omega,
      by rw [markOffset_true]; omega⟩)

section Reader

variable {isList : Bool} {x : UInt8} {tail : Bytes} {room n size : Nat}

theorem readHeader_self (hx : x.toNat < stringOffset) (hroom : 0 < room) :
    readHeader (x :: tail) room = .ok ⟨false, 0, 1⟩ := by
  have hbyte : byteAt (x :: tail) 0 = .ok x.toNat := rfl
  rw [readHeader, if_neg (by omega), hbyte, ok_bind, if_pos hx]
  rfl

/-- A length in the mark is taken as it is, but for a single byte of a string. -/
theorem readHeader_short (hx : x.toNat = markOffset isList + n) (hn : n ≤ shortMax)
    (hroom : 0 < room) (hsingle : ¬(isList = false ∧ n = 1 ∧ 1 < room)) :
    readHeader (x :: tail) room = .ok ⟨isList, 1, n⟩ := by
  have hbyte : byteAt (x :: tail) 0 = .ok x.toNat := rfl
  have hs : stringOffset = 128 := rfl
  have hl : listOffset = 192 := rfl
  have hm : shortMax = 55 := rfl
  rw [readHeader, if_neg (by omega), hbyte, ok_bind]
  cases isList with
  | false =>
    rw [markOffset_false] at hx
    have hlength : x.toNat - stringOffset = n := by omega
    rw [if_neg (by omega), if_pos (by omega), hlength, if_neg (by simpa using hsingle)]
    rfl
  | true =>
    rw [markOffset_true] at hx
    have hlength : x.toNat - listOffset = n := by omega
    rw [if_neg (by omega), if_neg (by omega), if_neg (by omega), if_pos (by omega), hlength]
    rfl

theorem readHeader_single {y : UInt8} {more : Bytes} (hx : x.toNat = stringOffset + 1)
    (hroom : 1 < room) :
    readHeader (x :: y :: more) room
      = if y.toNat < stringOffset then .error (malformed .wrappedByte) else .ok ⟨false, 1, 1⟩ := by
  have hbyte : byteAt (x :: y :: more) 0 = .ok x.toNat := rfl
  have hnext : byteAt (x :: y :: more) 1 = .ok y.toNat := rfl
  have hm : shortMax = 55 := rfl
  have hlength : x.toNat - stringOffset = 1 := by omega
  rw [readHeader, if_neg (by omega), hbyte, ok_bind, if_neg (by omega), if_pos (by omega), hlength,
    if_pos ⟨rfl, hroom⟩, hnext, ok_bind]
  rfl

theorem readHeader_long (hx : x.toNat = markOffset isList + shortMax + size) (hpos : 0 < size)
    (hsize : size ≤ 8) (hroom : 0 < room) :
    readHeader (x :: tail) room
      = (longLength (x :: tail) room size).map fun n => ⟨isList, 1 + size, n⟩ := by
  have hbyte : byteAt (x :: tail) 0 = .ok x.toNat := rfl
  have hs : stringOffset = 128 := rfl
  have hl : listOffset = 192 := rfl
  have hm : shortMax = 55 := rfl
  rw [readHeader, if_neg (by omega), hbyte, ok_bind]
  cases isList with
  | false =>
    rw [markOffset_false] at hx
    have hcount : x.toNat - (stringOffset + shortMax) = size := by omega
    rw [if_neg (by omega), if_neg (by omega), if_pos (by omega), hcount]
    dsimp only
    cases longLength (x :: tail) room size <;> rfl
  | true =>
    rw [markOffset_true] at hx
    have hcount : x.toNat - (listOffset + shortMax) = size := by omega
    rw [if_neg (by omega), if_neg (by omega), if_neg (by omega), if_neg (by omega), hcount]
    dsimp only
    cases longLength (x :: tail) room size <;> rfl

private theorem marked_of_short (hx : x.toNat = markOffset isList + n) (hn : n ≤ shortMax)
    (hroom : 0 < room)
    (hsingle : isList = false → n = 1 → 1 < room →
      ∀ y more, tail = y :: more → stringOffset ≤ y.toNat) :
    Marked (x :: tail) room ⟨isList, 1, n⟩ := by
  have hmark : lengthMark (markOffset isList) n = [x] := by
    rw [lengthMark_short hn, ← byte_eq_ofNat hx]
  have hmarkLength : (lengthMark (markOffset isList) n).length = 1 := by rw [hmark]; rfl
  rw [← hmarkLength]
  refine @Marked.mark _ _ _ _ tail (Nat.lt_of_le_of_lt hn (by decide)) ?_ (by omega) hsingle
  rw [hmark]
  rfl

private theorem marked_of_long (hx : x.toNat = markOffset isList + shortMax + size)
    (hsize : size ≤ 8) (hwindow : room ≤ (x :: tail).length)
    (h : longLength (x :: tail) room size = .ok n) :
    Marked (x :: tail) room ⟨isList, 1 + size, n⟩ := by
  obtain ⟨hroom, htake, hlen, hn⟩ := longLength_eq_ok hwindow h
  have hmark : lengthMark (markOffset isList) n = x :: Bytes.ofNat n := by
    rw [lengthMark_long hn, hlen, ← byte_eq_ofNat hx]
  have hmarkLength : (lengthMark (markOffset isList) n).length = 1 + size := by
    rw [hmark, List.length_cons, hlen, Nat.add_comm]
  rw [← hmarkLength]
  refine @Marked.mark _ _ _ _ (tail.drop size) (length_ofNat_le_eight.mp (by omega)) ?_
    (by omega) ?_
  · have hsplit : tail.take size = Bytes.ofNat n := by simpa using htake
    rw [hmark, List.cons_append, ← hsplit, List.take_append_drop]
  · intro _ h1
    simp only [shortMax] at hn
    omega

end Reader

theorem marked_of_readHeader {rest : Bytes} {room : Nat} {header : Header}
    (hwindow : room ≤ rest.length) (h : readHeader rest room = .ok header) :
    Marked rest room header := by
  by_cases hroom : room = 0
  · rw [readHeader, if_pos hroom] at h
    cases h
  have hpos : 0 < room := Nat.pos_of_ne_zero hroom
  cases rest with
  | nil => exact absurd (Nat.le_zero.mp hwindow) hroom
  | cons x tail =>
    rcases mark_cases x with hself | ⟨isList, n, hn, hx⟩ | ⟨isList, size, hsize0, hsize, hx⟩
    · rw [readHeader_self hself hpos] at h
      obtain rfl := Except.ok.inj h
      exact .byte rfl hself hpos
    · by_cases hsingle : isList = false ∧ n = 1 ∧ 1 < room
      · obtain ⟨rfl, rfl, hroom1⟩ := hsingle
        cases tail with
        | nil => simp at hwindow; omega
        | cons y more =>
          rw [readHeader_single hx hroom1] at h
          split at h
          · cases h
          next hy =>
          obtain rfl := Except.ok.inj h
          refine marked_of_short hx hn hpos ?_
          rintro - - - y' more' heq
          obtain ⟨rfl, -⟩ := List.cons.inj heq
          omega
      · rw [readHeader_short hx hn hpos hsingle] at h
        obtain rfl := Except.ok.inj h
        refine marked_of_short hx hn hpos ?_
        intro hkind h1 hroom1
        exact absurd ⟨hkind, h1, hroom1⟩ hsingle
    · rw [readHeader_long hx hsize0 hsize hpos] at h
      obtain ⟨n, hn, rfl⟩ := map_eq_ok.mp h
      exact marked_of_long hx hsize hwindow hn

theorem markOffset_le (isList : Bool) : markOffset isList ≤ 192 := by
  cases isList <;> decide

theorem toNat_ofNat_mark {n : Nat} (h : n < 256) : (UInt8.ofNat n).toNat = n :=
  UInt8.toNat_ofNat_of_lt' h

theorem readHeader_of_marked {rest : Bytes} {room : Nat} {header : Header}
    (hwindow : room ≤ rest.length) (h : Marked rest room header) :
    readHeader rest room = .ok header := by
  cases h with
  | byte hrest hx hroom =>
    subst hrest
    exact readHeader_self hx hroom
  | @mark isList n tail hn hrest hroom hsingle =>
    have hoffset := markOffset_le isList
    have hm : shortMax = 55 := rfl
    subst hrest
    by_cases hshort : n ≤ shortMax
    · rw [lengthMark_short hshort] at hwindow hroom ⊢
      have hx : (UInt8.ofNat (markOffset isList + n)).toNat = markOffset isList + n :=
        toNat_ofNat_mark (by omega)
      by_cases hone : isList = false ∧ n = 1 ∧ 1 < room
      · obtain ⟨rfl, rfl, hroom1⟩ := hone
        cases tail with
        | nil => simp at hwindow; omega
        | cons y more =>
          have hy : stringOffset ≤ y.toNat := hsingle rfl rfl hroom1 y more rfl
          exact (readHeader_single hx hroom1).trans (if_neg (by omega))
      · exact readHeader_short hx hshort hroom hone
    · have hlong : shortMax < n := by omega
      have hsize : (Bytes.ofNat n).length ≤ 8 := length_ofNat_le_eight.mpr hn
      rw [lengthMark_long hlong] at hwindow hroom ⊢
      simp only [List.length_cons] at hroom
      have hx : (UInt8.ofNat (markOffset isList + shortMax + (Bytes.ofNat n).length)).toNat
          = markOffset isList + shortMax + (Bytes.ofNat n).length :=
        toNat_ofNat_mark (by omega)
      rw [List.cons_append] at hwindow ⊢
      have hlength : longLength
          (UInt8.ofNat (markOffset isList + shortMax + (Bytes.ofNat n).length)
            :: (Bytes.ofNat n ++ tail)) room (Bytes.ofNat n).length = .ok n :=
        longLength_ofNat (by omega) (by simp) hlong
      rw [readHeader_long hx (length_ofNat_pos hlong) hsize (by omega), hlength, map_ok,
        List.length_cons, Nat.add_comm 1]

end EthWire.Rlp

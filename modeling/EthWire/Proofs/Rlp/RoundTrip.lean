import EthWire.Proofs.Rlp.Mark

/-!
# Reading what was written

The decoder on the encoding of an item: it gives the item back, or refuses it because its
lists nest too deep. Both follow from one equation, an induction over the item that
carries any bytes behind the encoding along.
-/

namespace EthWire.Rlp

namespace Item

/-- The number of bytes of the payload. -/
def payloadLength : Item → Nat
  | .bytes b => b.length
  | .list items => (encodeAll items).length

mutual

/-- How deep lists nest in an item. -/
def depth : Item → Nat
  | .bytes _ => 0
  | .list items => depthAll items + 1

def depthAll : List Item → Nat
  | [] => 0
  | item :: rest => max item.depth (depthAll rest)

end

end Item

open Item (encodeAll depthAll)

theorem encodeString_self {x : UInt8} (hx : x.toNat < stringOffset) : encodeString [x] = [x] := by
  simp [encodeString, hx]

theorem encodeString_marked {b : Bytes} (h : ∀ x, b = [x] → stringOffset ≤ x.toNat) :
    encodeString b = lengthMark stringOffset b.length ++ b := by
  unfold encodeString
  split
  next x =>
    have hx := h x rfl
    rw [if_neg (by omega)]
    rfl
  next => rfl

/-- A string is a byte of its own or has a mark. -/
theorem encodeString_cases (b : Bytes) :
    (∃ x, b = [x] ∧ x.toNat < stringOffset) ∨ ∀ x, b = [x] → stringOffset ≤ x.toNat := by
  by_cases h : ∃ x, b = [x] ∧ x.toNat < stringOffset
  · exact .inl h
  · refine .inr fun x hx => ?_
    by_contra hlt
    exact h ⟨x, hx, by omega⟩

@[simp] theorem encode_bytes (b : Bytes) : (Item.bytes b).encode = encodeString b := by
  rw [Item.encode]

@[simp] theorem encode_list (items : List Item) :
    (Item.list items).encode
      = lengthMark listOffset (encodeAll items).length ++ encodeAll items := by
  rw [Item.encode]

@[simp] theorem encodeAll_nil : encodeAll [] = [] := by rw [encodeAll]

@[simp] theorem encodeAll_cons (item : Item) (rest : List Item) :
    encodeAll (item :: rest) = item.encode ++ encodeAll rest := by rw [encodeAll]

theorem encode_pos (x : Item) : 0 < x.encode.length := by
  cases x with
  | bytes b =>
    rw [encode_bytes]
    rcases encodeString_cases b with ⟨x, rfl, hx⟩ | hb
    · rw [encodeString_self hx]
      exact Nat.one_pos
    · rw [encodeString_marked hb, List.length_append]
      exact Nat.add_pos_left (lengthMark_pos _ _) _
  | list items =>
    rw [encode_list, List.length_append]
    exact Nat.add_pos_left (lengthMark_pos _ _) _

theorem payloadLength_le (x : Item) : x.payloadLength ≤ x.encode.length := by
  cases x with
  | bytes b =>
    rw [encode_bytes, Item.payloadLength]
    rcases encodeString_cases b with ⟨x, rfl, hx⟩ | hb
    · rw [encodeString_self hx]
    · rw [encodeString_marked hb, List.length_append]
      exact Nat.le_add_left _ _
  | list items =>
    rw [encode_list, Item.payloadLength, List.length_append]
    exact Nat.le_add_left _ _

/-! ## One item behind its mark -/

section Step

variable {levels place room m n : Nat} {rest : Bytes}

theorem decodeItem_string (hwindow : room ≤ rest.length) (hmark : Marked rest room ⟨false, m, n⟩)
    (hfit : m + n ≤ room) :
    decodeItem levels place rest room = .ok (.bytes ((rest.drop m).take n), m + n) := by
  have hheader := readHeader_of_marked hwindow hmark
  unfold decodeItem
  rw [hheader, ok_bind]
  dsimp only
  rw [if_neg (by omega)]
  rfl

theorem decodeItem_list_zero (hwindow : room ≤ rest.length)
    (hmark : Marked rest room ⟨true, m, n⟩) (hfit : m + n ≤ room) :
    decodeItem 0 place rest room = .error (malformed .nestedTooDeep) := by
  have hheader := readHeader_of_marked hwindow hmark
  unfold decodeItem
  rw [hheader, ok_bind]
  dsimp only
  rw [if_neg (by omega)]
  rfl

theorem decodeItem_list_succ (hwindow : room ≤ rest.length)
    (hmark : Marked rest room ⟨true, m, n⟩) (hfit : m + n ≤ room) :
    decodeItem (levels + 1) place rest room
      = (decodeElements (decodeItem levels) n (place + m) (rest.drop m) n).map
          fun items => (.list items, m + n) := by
  have hheader := readHeader_of_marked hwindow hmark
  rw [decodeItem, hheader, ok_bind]
  dsimp only
  rw [if_neg (by omega)]
  cases decodeElements (decodeItem levels) n (place + m) (rest.drop m) n <;> rfl

end Step

/-! ## The induction -/

private theorem drop_take_append (a b c : Bytes) :
    ((a ++ (b ++ c)).drop a.length).take b.length = b := by
  rw [List.drop_left, List.take_left]

private theorem decodeItem_bytes (levels place room : Nat) (b tail : Bytes)
    (hsize : b.length < lengthLimit) (hroom : (encodeString b).length ≤ room)
    (hwindow : room ≤ (encodeString b ++ tail).length) :
    decodeItem levels place (encodeString b ++ tail) room
      = .ok (.bytes b, (encodeString b).length) := by
  rcases encodeString_cases b with ⟨x, rfl, hx⟩ | hb
  · rw [encodeString_self hx] at hroom hwindow ⊢
    exact decodeItem_string hwindow (.byte rfl hx hroom) (by simpa using hroom)
  · rw [encodeString_marked hb] at hroom hwindow ⊢
    rw [List.append_assoc] at hwindow ⊢
    rw [List.length_append] at hroom ⊢
    have hmark : Marked (lengthMark stringOffset b.length ++ (b ++ tail)) room
        ⟨false, (lengthMark stringOffset b.length).length, b.length⟩ := by
      refine @Marked.mark _ _ false _ (b ++ tail) hsize rfl (by rw [markOffset_false]; omega) ?_
      intro _ h1 _ y more heq
      obtain ⟨x, rfl⟩ := List.length_eq_one_iff.mp h1
      obtain ⟨rfl, -⟩ := List.cons.inj heq
      exact hb x rfl
    rw [decodeItem_string hwindow hmark hroom, drop_take_append]

mutual

theorem decodeItem_encode (levels place room : Nat) (x : Item) (tail : Bytes)
    (hsize : x.payloadLength < lengthLimit) (hroom : x.encode.length ≤ room)
    (hwindow : room ≤ (x.encode ++ tail).length) :
    decodeItem levels place (x.encode ++ tail) room
      = if x.depth ≤ levels then .ok (x, x.encode.length)
        else .error (malformed .nestedTooDeep) := by
  match x with
  | .bytes b =>
    have hdepth : (Item.bytes b).depth ≤ levels := by
      rw [Item.depth]
      exact Nat.zero_le _
    rw [if_pos hdepth]
    rw [encode_bytes] at hroom hwindow ⊢
    exact decodeItem_bytes levels place room b tail hsize hroom hwindow
  | .list items =>
    rw [encode_list, List.append_assoc] at hwindow ⊢
    rw [encode_list, List.length_append] at hroom
    have hmark : Marked (lengthMark listOffset (encodeAll items).length
        ++ (encodeAll items ++ tail)) room
        ⟨true, (lengthMark listOffset (encodeAll items).length).length, (encodeAll items).length⟩ :=
      @Marked.mark _ _ true _ (encodeAll items ++ tail) hsize rfl (by rw [markOffset_true]; omega)
        (by simp)
    cases levels with
    | zero =>
      rw [decodeItem_list_zero hwindow hmark hroom, if_neg]
      simp [Item.depth]
    | succ inner =>
      rw [decodeItem_list_succ hwindow hmark hroom, List.drop_left,
        decodeElements_encodeAll inner _ _ items tail hsize (Nat.le_refl _), List.length_append]
      have hdepth : (Item.list items).depth ≤ inner + 1 ↔ depthAll items ≤ inner := by
        rw [Item.depth, Nat.add_le_add_iff_right]
      by_cases hdeep : depthAll items ≤ inner
      · rw [if_pos hdeep, if_pos (hdepth.mpr hdeep)]
        rfl
      · rw [if_neg hdeep, if_neg (mt hdepth.mp hdeep)]
        rfl

/-- The elements of a list, with enough fuel for each of them to take a byte. -/
theorem decodeElements_encodeAll (levels fuel place : Nat) (items : List Item) (tail : Bytes)
    (hsize : (encodeAll items).length < lengthLimit) (hfuel : (encodeAll items).length ≤ fuel) :
    decodeElements (decodeItem levels) fuel place (encodeAll items ++ tail)
        (encodeAll items).length
      = if depthAll items ≤ levels then .ok items else .error (malformed .nestedTooDeep) := by
  match items with
  | [] =>
    have hdepth : depthAll [] ≤ levels := by simp [depthAll]
    rw [if_pos hdepth, encodeAll_nil]
    cases fuel with
    | zero => rfl
    | succ fuel => simp [decodeElements]
  | x :: xs =>
    have hpos := encode_pos x
    have hpayload := payloadLength_le x
    rw [encodeAll_cons, List.length_append] at hsize hfuel
    rw [encodeAll_cons, List.append_assoc, List.length_append]
    have hdepth : depthAll (x :: xs) ≤ levels ↔ x.depth ≤ levels ∧ depthAll xs ≤ levels := by
      rw [depthAll, Nat.max_le]
    cases fuel with
    | zero => omega
    | succ fuel =>
      rw [decodeElements, if_neg (by omega),
        decodeItem_encode levels place _ x (encodeAll xs ++ tail) (by omega) (by omega)
          (by simp only [List.length_append]; omega)]
      by_cases hdeep : x.depth ≤ levels
      · rw [if_pos hdeep, ok_bind]
        dsimp only
        rw [List.drop_left, Nat.add_sub_cancel_left,
          decodeElements_encodeAll levels fuel _ xs tail (by omega) (by omega)]
        by_cases hrest : depthAll xs ≤ levels
        · rw [if_pos hrest, if_pos (hdepth.mpr ⟨hdeep, hrest⟩)]
          rfl
        · rw [if_neg hrest, if_neg fun h => hrest (hdepth.mp h).2]
          rfl
      · rw [if_neg hdeep, if_neg fun h => hdeep (hdepth.mp h).1]
        rfl

end

theorem decode_encode (x : Item) (hsize : x.payloadLength < lengthLimit) :
    decode x.encode
      = if x.depth ≤ maxDepth then .ok x else .error (malformed .nestedTooDeep) := by
  have hpos := encode_pos x
  have hne : x.encode.isEmpty = false := by
    cases h : x.encode with
    | nil => simp [h] at hpos
    | cons y more => rfl
  have hitem := decodeItem_encode maxDepth 0 x.encode.length x [] hsize (Nat.le_refl _)
    (by rw [List.append_nil])
  rw [List.append_nil] at hitem
  unfold decode
  rw [hne, hitem]
  by_cases hdeep : x.depth ≤ maxDepth
  · rw [if_pos hdeep, if_pos hdeep]
    simp
  · rw [if_neg hdeep, if_neg hdeep]
    rfl

/-- No encoding goes on as another one. -/
theorem encode_append_inj {x y : Item} {u v : Bytes} (hx : x.payloadLength < lengthLimit)
    (hy : y.payloadLength < lengthLimit) (h : x.encode ++ u = y.encode ++ v) :
    x = y ∧ u = v := by
  let levels := max x.depth y.depth
  have hlx := decodeItem_encode levels 0 (x.encode ++ u).length x u hx (by simp) (Nat.le_refl _)
  have hly := decodeItem_encode levels 0 (x.encode ++ u).length y v hy (by simp [h]) (by rw [h])
  rw [if_pos (Nat.le_max_left _ _)] at hlx
  rw [if_pos (Nat.le_max_right _ _), ← h, hlx] at hly
  obtain ⟨rfl, -⟩ := Prod.mk.inj (Except.ok.inj hly)
  exact ⟨rfl, List.append_cancel_left h⟩

end EthWire.Rlp

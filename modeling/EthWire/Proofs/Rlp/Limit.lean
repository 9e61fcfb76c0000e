import EthWire.Proofs.Rlp.Window

/-!
# Limits beyond the input

The decoder takes offset and limit from its caller. Up to the end of the input it answers with the
item that is spelled at the offset, or with a malformation. A limit behind the end changes this
answer only where the input ends within the item; then bytes are missed that are not there, or a
payload is cut short.
-/

namespace EthWire.Rlp

/-- The item that is spelled at the offset, or a malformation. -/
inductive Reads (data : Bytes) (offset : Nat) : Except Fault (Item × Nat) → Prop
  | item {x : Item} {used : Nat} (hfits : offset + used ≤ data.length)
      (hencode : x.encode = data.extract offset (offset + used)) : Reads data offset (.ok (x, used))
  | malformed (reason : Reason) : Reads data offset (.error (malformed reason))

/-- A report that the window ends within an item. -/
inductive Truncated : Fault → Prop
  | unexpectedEnd : Truncated (malformed .unexpectedEnd)
  | truncatedLength : Truncated (malformed .truncatedLength)
  | payloadExceeds (length place : Nat) : Truncated (malformed (.payloadExceeds length place))

/-- What is answered where the input ends within an item and the limit does not tell so. -/
inductive Overreads (data : Bytes) (offset : Nat) (limit : Int) : Except Fault (Item × Nat) → Prop
  /-- An item that is said to take more bytes than there are. -/
  | cut {x : Item} {used : Nat} (hbeyond : data.length < offset + used)
      (hlimit : (offset + used : Nat) ≤ limit) : Overreads data offset limit (.ok (x, used))
  /-- A byte is looked at that is not there. -/
  | pastEnd : Overreads data offset limit (.error (.misuse .pastEnd))
  | malformed (reason : Reason) : Overreads data offset limit (.error (malformed reason))

/-! ## Marks in a wider window -/

section Room

variable {rest : Bytes} {narrow wide : Nat}

/-- The narrow window ends within the item whose mark is read. -/
structure MarkCut (rest : Bytes) (narrow wide : Nat) : Prop where
  narrow_cut : (∃ f, readHeader rest narrow = .error f ∧ Truncated f) ∨
    ∃ header, readHeader rest narrow = .ok header ∧
      narrow < header.markLength + header.payloadLength
  wide_lt : ∀ header, readHeader rest wide = .ok header →
    narrow < header.markLength + header.payloadLength

theorem readHeader_nil (h : 0 < wide) : readHeader [] wide = .error (.misuse .pastEnd) := by
  rw [readHeader, if_neg (by omega)]
  rfl

theorem readHeader_single_nil {x : UInt8} (hx : x.toNat = stringOffset + 1) (h : 1 < wide) :
    readHeader [x] wide = .error (.misuse .pastEnd) := by
  have hbyte : byteAt [x] 0 = .ok x.toNat := rfl
  have hm : shortMax = 55 := rfl
  rw [readHeader, if_neg (by omega), hbyte, ok_bind, if_neg (by omega), if_pos (by omega)]
  dsimp only
  rw [if_pos ⟨by omega, h⟩]
  rfl

/-- Behind the mark of a single byte the byte itself is looked at, in any window that has it. -/
theorem readHeader_single_room {x : UInt8} {tail : Bytes} (hx : x.toNat = stringOffset + 1)
    (hnarrow : 1 < narrow) (hwide : 1 < wide) :
    readHeader (x :: tail) narrow = readHeader (x :: tail) wide := by
  cases tail with
  | nil => rw [readHeader_single_nil hx hnarrow, readHeader_single_nil hx hwide]
  | cons y more => rw [readHeader_single hx hnarrow, readHeader_single hx hwide]

theorem readHeader_pos {header : Header} (h : readHeader rest wide = .ok header) :
    0 < header.markLength + header.payloadLength := by
  unfold readHeader at h
  split at h
  · cases h
  obtain ⟨mark, -, h⟩ := bind_eq_ok.mp h
  split at h
  · exact Except.ok.inj h ▸ Nat.one_pos
  split at h
  · dsimp only at h
    split at h
    · obtain ⟨next, -, h⟩ := bind_eq_ok.mp h
      split at h
      · cases h
      · exact Except.ok.inj h ▸ Nat.two_pos
    · obtain rfl := Except.ok.inj h
      exact Nat.add_pos_left Nat.one_pos _
  split at h
  · obtain ⟨length, -, h⟩ := bind_eq_ok.mp h
    obtain rfl := Except.ok.inj h
    dsimp only
    omega
  split at h
  · obtain rfl := Except.ok.inj h
    exact Nat.add_pos_left Nat.one_pos _
  · obtain ⟨length, -, h⟩ := bind_eq_ok.mp h
    obtain rfl := Except.ok.inj h
    dsimp only
    omega

theorem longLength_room {size : Nat} (hle : narrow ≤ wide) :
    longLength rest narrow size = longLength rest wide size ∨
      narrow < 1 + size ∧ longLength rest narrow size = .error (malformed .truncatedLength) := by
  by_cases hsize : narrow < 1 + size
  · exact .inr ⟨hsize, if_pos hsize⟩
  · unfold longLength
    rw [if_neg hsize, if_neg (by omega)]
    exact .inl rfl

/-- A mark is read alike in a wider window, unless the narrow one ends within the item. -/
theorem readHeader_room (hle : narrow ≤ wide) :
    readHeader rest narrow = readHeader rest wide ∨ MarkCut rest narrow wide := by
  by_cases hempty : narrow = 0
  · refine .inr ⟨.inl ⟨_, by rw [readHeader, if_pos hempty], .unexpectedEnd⟩, fun header h => ?_⟩
    rw [hempty]
    exact readHeader_pos h
  have hnarrow : 0 < narrow := Nat.pos_of_ne_zero hempty
  have hwide : 0 < wide := by omega
  cases rest with
  | nil => exact .inl (by rw [readHeader_nil hnarrow, readHeader_nil hwide])
  | cons x tail =>
    rcases mark_cases x with hself | ⟨isList, n, hn, hx⟩ | ⟨isList, size, hpos, hsize, hx⟩
    · exact .inl (by rw [readHeader_self hself hnarrow, readHeader_self hself hwide])
    · by_cases hsingle : isList = false ∧ n = 1
      · obtain ⟨rfl, rfl⟩ := hsingle
        by_cases hone : narrow = 1
        · -- the byte behind the mark belongs to the payload, which the narrow window cuts off
          have hshort := @readHeader_short false x tail narrow 1 hx hn hnarrow (by omega)
          by_cases hwideOne : wide = 1
          · exact .inl (by rw [hone, hwideOne])
          refine .inr ⟨.inr ⟨_, hshort, by dsimp only; omega⟩, fun header h => ?_⟩
          cases tail with
          | nil =>
            rw [readHeader_single_nil hx (by omega)] at h
            cases h
          | cons y more =>
            rw [readHeader_single hx (by omega)] at h
            split at h
            · cases h
            · obtain rfl := Except.ok.inj h
              dsimp only
              omega
        · exact .inl (readHeader_single_room hx (by omega) (by omega))
      · rw [readHeader_short hx hn hnarrow fun h => hsingle ⟨h.1, h.2.1⟩,
          readHeader_short hx hn hwide fun h => hsingle ⟨h.1, h.2.1⟩]
        exact .inl rfl
    · rcases @longLength_room (x :: tail) narrow wide size hle with hlength | ⟨hlt, hlength⟩
      · exact .inl (by rw [readHeader_long hx hpos hsize hnarrow, hlength,
          readHeader_long hx hpos hsize hwide])
      · refine .inr ⟨.inl ⟨malformed .truncatedLength, ?_, .truncatedLength⟩, fun header h => ?_⟩
        · rw [readHeader_long hx hpos hsize hnarrow, hlength]
          rfl
        · rw [readHeader_long hx hpos hsize hwide] at h
          obtain ⟨length, -, rfl⟩ := map_eq_ok.mp h
          dsimp only
          omega

end Room

/-! ## Items in a wider window -/

section Item

variable {rest : Bytes} {levels place room narrow wide used : Nat} {header : Header} {x : Item}

theorem decodeItem_of_lt (hheader : readHeader rest room = .ok header)
    (hlt : room < header.markLength + header.payloadLength) :
    decodeItem levels place rest room
      = .error (malformed (.payloadExceeds header.payloadLength place)) := by
  unfold decodeItem
  rw [hheader, ok_bind]
  exact if_pos hlt

/-- An item takes what its mark announces, within the window. -/
theorem decodeItem_used (h : decodeItem levels place rest room = .ok (x, used)) :
    ∃ header, readHeader rest room = .ok header ∧
      used = header.markLength + header.payloadLength ∧ used ≤ room := by
  unfold decodeItem at h
  obtain ⟨header, hheader, h⟩ := bind_eq_ok.mp h
  refine ⟨header, hheader, ?_⟩
  dsimp only at h
  split at h
  · cases h
  next hfit =>
  split at h
  · cases levels with
    | zero => cases h
    | succ inner =>
      obtain ⟨items, -, h⟩ := bind_eq_ok.mp h
      obtain ⟨-, rfl⟩ := Prod.mk.inj (Except.ok.inj h)
      exact ⟨rfl, by omega⟩
  · obtain ⟨-, rfl⟩ := Prod.mk.inj (Except.ok.inj h)
    exact ⟨rfl, by omega⟩

/-- The answer is the one in a wider window, unless the narrow one ends within the item. Inside a
list nothing changes, for there the payload is the window. -/
theorem decodeItem_room (hle : narrow ≤ wide) :
    decodeItem levels place rest narrow = decodeItem levels place rest wide ∨
      (∃ f, decodeItem levels place rest narrow = .error f ∧ Truncated f) ∧
        ∀ x used, decodeItem levels place rest wide = .ok (x, used) → narrow < used := by
  rcases @readHeader_room rest narrow wide hle with hsame | hcut
  · cases hheader : readHeader rest wide with
    | error f =>
      rw [hheader] at hsame
      unfold decodeItem
      rw [hsame, hheader]
      exact .inl rfl
    | ok header =>
      rw [hheader] at hsame
      by_cases hfit : narrow < header.markLength + header.payloadLength
      · refine .inr ⟨⟨_, decodeItem_of_lt hsame hfit, .payloadExceeds _ _⟩, fun x used h => ?_⟩
        obtain ⟨other, hother, rfl, -⟩ := decodeItem_used h
        rw [hheader] at hother
        obtain rfl := Except.ok.inj hother
        exact hfit
      · have hwide : ¬wide < header.markLength + header.payloadLength := by omega
        refine .inl ?_
        unfold decodeItem
        rw [hsame, hheader, ok_bind, ok_bind]
        dsimp only
        rw [if_neg hfit, if_neg hwide]
  · refine .inr ⟨?_, fun x used h => ?_⟩
    · rcases hcut.narrow_cut with ⟨f, hf, htruncated⟩ | ⟨header, hheader, hlt⟩
      · refine ⟨f, ?_, htruncated⟩
        unfold decodeItem
        rw [hf]
        rfl
      · exact ⟨_, decodeItem_of_lt hheader hlt, .payloadExceeds _ _⟩
    · obtain ⟨header, hheader, rfl, -⟩ := decodeItem_used h
      exact hcut.wide_lt header hheader

end Item

/-! ## The decoder at an offset -/

/-- A limit, counted from the end where it is negative, that lies within the input. -/
theorem decodeItemAt_reads {data : Bytes} {offset depth : Nat} {limit : Int}
    (hlimit : limit ≤ data.length) :
    Reads data offset (decodeItemAt data offset limit depth) := by
  obtain ⟨stop, hstop, heq⟩ : ∃ stop : Nat, stop ≤ data.length ∧
      decodeItemAt data offset limit depth = decodeItemAt data offset stop depth := by
    by_cases hneg : limit < 0
    · refine ⟨data.length, Nat.le_refl _, ?_⟩
      rw [decodeItemAt_natCast, decodeItemAt, if_pos hneg]
    · refine ⟨limit.toNat, by omega, ?_⟩
      rw [Int.toNat_of_nonneg (by omega)]
  rw [heq]
  cases h : decodeItemAt data offset stop depth with
  | error f =>
    obtain ⟨reason, rfl⟩ := decodeItemAt_fault hstop h
    exact .malformed reason
  | ok read =>
    obtain ⟨x, used⟩ := read
    obtain ⟨-, hle⟩ := decodeItemAt_ok hstop h
    refine .item (by omega) ?_
    rw [decodeItemAt_natCast] at h
    rw [(decodeItem_sound _ _ _ _ _ _ (drop_window hstop) h).encode_eq, List.extract_eq_take_drop,
      Nat.add_sub_cancel_left]

/-- Up to the end of the input the decoder answers with the item that is spelled at the offset, or
with a malformation. A limit behind the end changes nothing, unless the input ends within the item:
then what is told as a truncation without a limit may come out as an item that is said to go on
behind the end, or as a byte that is not there. -/
theorem decodeItemAt_outcomes (data : Bytes) (offset depth : Nat) (limit : Int) :
    (limit ≤ data.length → Reads data offset (decodeItemAt data offset limit depth)) ∧
    (data.length < limit →
      (decodeItemAt data offset limit depth = decodeItemAt data offset (-1) depth ∧
        Reads data offset (decodeItemAt data offset limit depth)) ∨
      (∃ f, decodeItemAt data offset (-1) depth = .error f ∧ Truncated f) ∧
        Overreads data offset limit (decodeItemAt data offset limit depth)) := by
  refine ⟨decodeItemAt_reads, fun hbeyond => ?_⟩
  obtain ⟨stop, rfl⟩ := Int.eq_ofNat_of_zero_le (by omega : 0 ≤ limit)
  have hend : decodeItemAt data offset (-1) depth
      = decodeItemAt data offset data.length depth := by
    rw [decodeItemAt_natCast, decodeItemAt, if_pos (by decide)]
  have hreads : Reads data offset (decodeItemAt data offset (-1) depth) :=
    decodeItemAt_reads (by omega)
  have hroom := @decodeItem_room (data.drop offset) ((maxDepth : Int) - depth).toNat offset
    (data.length - offset) (stop - offset) (by omega)
  rw [← decodeItemAt_natCast, ← decodeItemAt_natCast, ← hend] at hroom
  rcases hroom with hsame | ⟨htruncated, hused⟩
  · exact .inl ⟨hsame.symm, hsame ▸ hreads⟩
  · refine .inr ⟨htruncated, ?_⟩
    cases h : decodeItemAt data offset stop depth with
    | error f =>
      rw [decodeItemAt_natCast] at h
      rcases decodeItem_fault _ _ _ _ _ h with ⟨reason, rfl⟩ | ⟨-, rfl⟩
      · exact .malformed reason
      · exact .pastEnd
    | ok read =>
      obtain ⟨x, used⟩ := read
      have hlt := hused x used h
      rw [decodeItemAt_natCast] at h
      obtain ⟨-, -, -, hle⟩ := decodeItem_used h
      exact .cut (by omega) (by omega)

set_option maxRecDepth 1000 in
/-- A limit one byte behind the end lets a string of three bytes end after two of them, and misses
the mark of an item where there is none. -/
theorem decodeItemAt_cutPayload :
    decodeItemAt [0x83, 1, 2] 0 4 0 = .ok (.bytes [1, 2], 4) ∧
      ¬Reads [0x83, 1, 2] 0 (decodeItemAt [0x83, 1, 2] 0 4 0) ∧
      decodeItemAt [] 0 1 0 = .error (.misuse .pastEnd) := by
  have hcut : decodeItemAt [0x83, 1, 2] 0 4 0 = .ok (.bytes [1, 2], 4) := rfl
  refine ⟨hcut, ?_, rfl⟩
  rw [hcut]
  rintro ⟨hfits, -⟩
  exact absurd hfits (by decide)

end EthWire.Rlp

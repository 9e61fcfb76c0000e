import EthWire.Proofs.Rlp.Canonical

/-!
# Windows

The decoder between an offset and a limit. What it answers is decided by the bytes there: it is
the answer on these bytes alone, but for the place that a report names. The loop over the elements
of a list is stated as it runs, turn by turn and without a bound on their number; each turn moves
on, and a list that is read ends where its payload does.
-/

namespace EthWire.Rlp

/-! ## Bytes outside the window -/

/-- A decoder that looks at no byte behind its room. -/
def Windowed (decode : ItemDecoder) : Prop :=
  ∀ place rest room, decode place (rest.take room) room = decode place rest room

section Window

variable {rest : Bytes} {room : Nat}

theorem byteAt_take {i : Nat} (h : i < room) : byteAt (rest.take room) i = byteAt rest i := by
  rw [byteAt, byteAt, List.getElem?_take_of_lt h]

theorem longLength_take {size : Nat} :
    longLength (rest.take room) room size = longLength rest room size := by
  unfold longLength
  split
  · rfl
  · rw [List.drop_take, List.take_take, Nat.min_eq_left (by omega)]

/-- The byte behind the mark is looked at only where the window goes on. -/
theorem readHeader_take : readHeader (rest.take room) room = readHeader rest room := by
  by_cases hroom : room = 0
  · rw [readHeader, readHeader, if_pos hroom, if_pos hroom]
  have hmark : byteAt (rest.take room) 0 = byteAt rest 0 := byteAt_take (by omega)
  by_cases hnext : 1 < room
  · simp only [readHeader, hmark, byteAt_take hnext, longLength_take]
  · simp only [readHeader, hmark, hnext, and_false, if_false, longLength_take]

theorem drop_take_of_le {m n : Nat} (h : m + n ≤ room) :
    ((rest.take room).drop m).take n = (rest.drop m).take n := by
  rw [List.drop_take, List.take_take, Nat.min_eq_left (by omega)]

theorem decodeElements_windowed {decode : ItemDecoder} (h : Windowed decode)
    (fuel place room : Nat) (rest : Bytes) :
    decodeElements decode fuel place (rest.take room) room
      = decodeElements decode fuel place rest room := by
  induction fuel generalizing place rest room with
  | zero => rfl
  | succ fuel ih =>
    rw [decodeElements, decodeElements, h]
    simp only [List.drop_take, ih]

theorem decodeItem_windowed (levels : Nat) : Windowed (decodeItem levels) := by
  induction levels with
  | zero =>
    intro place rest room
    unfold decodeItem
    rw [readHeader_take]
    refine bind_congr fun header => ?_
    dsimp only
    split
    · rfl
    next hfit => rw [drop_take_of_le (by omega)]
  | succ inner ih =>
    intro place rest room
    unfold decodeItem
    rw [readHeader_take]
    refine bind_congr fun header => ?_
    dsimp only
    split
    · rfl
    next hfit =>
      have hpayload := @drop_take_of_le rest room header.markLength header.payloadLength (by omega)
      rw [hpayload, ← decodeElements_windowed ih _ _ _ ((rest.take room).drop _), hpayload,
        decodeElements_windowed ih]

end Window

/-! ## Places -/

/-- The reason with the place that it names moved on. -/
def movedReason (d : Nat) : Reason → Reason
  | .payloadExceeds length place => .payloadExceeds length (d + place)
  | reason => reason

/-- The fault with the place that it names moved on. -/
def movedFault (d : Nat) : Fault → Fault
  | .malformed format field reason => .malformed format field (movedReason d reason)
  | f => f

/-- A decoder for which the place is only what its reports name. -/
def Movable (decode : ItemDecoder) : Prop :=
  ∀ d place rest room, decode (d + place) rest room
    = (decode place rest room).mapError (movedFault d)

section Move

variable {rest : Bytes} {room d : Nat}

theorem MarkFault.moved {f : Fault} (h : MarkFault rest room f) : movedFault d f = f := by
  cases h <;> rfl

theorem decodeElements_movable {decode : ItemDecoder} (h : Movable decode)
    (fuel place : Nat) (rest : Bytes) (room : Nat) :
    decodeElements decode fuel (d + place) rest room
      = (decodeElements decode fuel place rest room).mapError (movedFault d) := by
  induction fuel generalizing place rest room with
  | zero => rfl
  | succ fuel ih =>
    rw [decodeElements, decodeElements]
    split
    · rfl
    rw [h]
    cases decode place rest room with
    | error f => rfl
    | ok read =>
      obtain ⟨x, used⟩ := read
      simp only [Except.mapError, ok_bind, Nat.add_assoc, ih]
      cases decodeElements decode fuel (place + used) (rest.drop used) (room - used) <;> rfl

theorem decodeItem_movable (levels : Nat) : Movable (decodeItem levels) := by
  induction levels with
  | zero =>
    intro d place rest room
    unfold decodeItem
    cases hheader : readHeader rest room with
    | error f => exact congrArg Except.error (readHeader_fault hheader).moved.symm
    | ok header =>
      simp only [ok_bind]
      split
      · rfl
      split <;> rfl
  | succ inner ih =>
    intro d place rest room
    unfold decodeItem
    cases hheader : readHeader rest room with
    | error f => exact congrArg Except.error (readHeader_fault hheader).moved.symm
    | ok header =>
      simp only [ok_bind]
      split
      · rfl
      split
      · rw [Nat.add_assoc, decodeElements_movable ih]
        cases decodeElements (decodeItem inner) header.payloadLength (place + header.markLength)
          (rest.drop header.markLength) header.payloadLength <;> rfl
      · rfl

end Move

/-! ## The decoder at an offset -/

section At

variable {data : Bytes} {offset limit : Nat} {depth : Int}

theorem decodeItemAt_natCast (data : Bytes) (offset limit : Nat) (depth : Int) :
    decodeItemAt data offset limit depth
      = decodeItem (maxDepth - depth).toNat offset (data.drop offset) (limit - offset) := by
  rw [decodeItemAt, if_neg (by omega), Int.toNat_natCast]

/-- The answer at an offset is the answer on the bytes up to the limit alone. -/
theorem decodeItemAt_extract (hlimit : limit ≤ data.length) :
    decodeItemAt data offset limit depth
      = (decodeItemAt (data.extract offset limit) 0 (-1) depth).mapError (movedFault offset) := by
  have hlength : (data.extract offset limit).length = limit - offset := by
    rw [List.extract_eq_take_drop, List.length_take, List.length_drop]
    omega
  rw [decodeItemAt_natCast, decodeItemAt, if_pos (by decide), hlength, List.drop_zero,
    List.extract_eq_take_drop, Nat.sub_zero, decodeItem_windowed, ← decodeItem_movable,
    Nat.add_zero]

theorem drop_window (hlimit : limit ≤ data.length) :
    limit - offset ≤ (data.drop offset).length := by
  rw [List.length_drop]
  omega

theorem decodeItemAt_ok {x : Item} {used : Nat} (hlimit : limit ≤ data.length)
    (h : decodeItemAt data offset limit depth = .ok (x, used)) :
    0 < used ∧ offset + used ≤ limit := by
  rw [decodeItemAt_natCast] at h
  have hread := decodeItem_sound _ _ _ _ _ _ (drop_window hlimit) h
  have hpos := hread.used_pos
  have hle := hread.used_le
  omega

theorem decodeItemAt_fault {f : Fault} (hlimit : limit ≤ data.length)
    (h : decodeItemAt data offset limit depth = .error f) : ∃ reason, f = malformed reason := by
  rw [decodeItemAt_natCast] at h
  have hwindow := @drop_window data offset limit hlimit
  exact (decodeItem_fault _ _ _ _ _ h).resolve_right fun hpast => by omega

end At

/-! ## The loop over the elements of a list -/

/-- A run of the loop: the positions at which it looks whether the payload has ended, and what
comes out of it. It reads an element at each position in front of `stop`, with no bound on their
number; it ends at or behind `stop`, or with the fault of an element. -/
inductive ElementLoop (data : Bytes) (stop depth : Nat) :
    List Nat → Except Fault (List Item) → Prop
  | done {position : Nat} (hstop : stop ≤ position) :
      ElementLoop data stop depth [position] (.ok [])
  | fault {position : Nat} {f : Fault} (hstop : position < stop)
      (hread : decodeItemAt data position stop depth = .error f) :
      ElementLoop data stop depth [position] (.error f)
  | turn {position used : Nat} {x : Item} {positions : List Nat}
      {outcome : Except Fault (List Item)} (hstop : position < stop)
      (hread : decodeItemAt data position stop depth = .ok (x, used))
      (hrest : ElementLoop data stop depth ((position + used) :: positions) outcome) :
      ElementLoop data stop depth (position :: (position + used) :: positions)
        (outcome.map (x :: ·))

/-- A run of the loop that moves on with each turn, and ends where the payload does. -/
structure Advances (stop : Nat) (positions : List Nat) (outcome : Except Fault (List Item)) :
    Prop where
  increasing : positions.Pairwise (· < ·)
  within : ∀ p ∈ positions, p ≤ stop
  getLast?_eq : ∀ items, outcome = .ok items → positions.getLast? = some stop
  fault : ∀ f, outcome = .error f → ∃ reason, f = malformed reason

section Loop

variable {data : Bytes} {stop depth start : Nat} {positions more : List Nat}
  {outcome other : Except Fault (List Item)}

/-- A turn of the loop. -/
theorem Advances.turn {position used : Nat} {x : Item} (hpos : 0 < used)
    (h : Advances stop ((position + used) :: positions) outcome) :
    Advances stop (position :: (position + used) :: positions) (outcome.map (x :: ·)) := by
  have hnext : position + used ≤ stop := h.within _ List.mem_cons_self
  constructor
  · refine List.pairwise_cons.mpr ⟨fun p hp => ?_, h.increasing⟩
    rcases List.mem_cons.mp hp with rfl | hp
    · omega
    · have hlt := (List.pairwise_cons.mp h.increasing).1 p hp
      omega
  · exact List.forall_mem_cons.mpr ⟨by omega, h.within⟩
  · intro items hitems
    obtain ⟨tail, htail, -⟩ := map_eq_ok.mp hitems
    rw [List.getLast?_cons_cons]
    exact h.getLast?_eq tail htail
  · intro f hf
    cases outcome with
    | ok items => cases hf
    | error g => exact h.fault f hf

/-- Every run moves on, from any position that is not behind the payload. -/
theorem ElementLoop.advances (hdata : stop ≤ data.length)
    (h : ElementLoop data stop depth positions outcome)
    (hstart : ∀ p ∈ positions.head?, p ≤ stop) : Advances stop positions outcome := by
  induction h with
  | @done position hstop =>
    have heq : position = stop := Nat.le_antisymm (hstart position rfl) hstop
    refine ⟨List.pairwise_singleton _ _, ?_, fun _ _ => by rw [heq]; rfl, nofun⟩
    exact List.forall_mem_singleton.mpr (by omega)
  | fault hstop hread =>
    refine ⟨List.pairwise_singleton _ _, List.forall_mem_singleton.mpr (by omega), nofun, ?_⟩
    rintro g ⟨⟩
    exact decodeItemAt_fault hdata hread
  | turn hstop hread _ ih =>
    obtain ⟨hpos, hle⟩ := decodeItemAt_ok hdata hread
    exact (ih fun p hp => Option.some.inj hp ▸ hle).turn hpos

/-- There is one run from a position. -/
theorem ElementLoop.unique (h : ElementLoop data stop depth (start :: positions) outcome)
    (hmore : ElementLoop data stop depth (start :: more) other) :
    more = positions ∧ other = outcome := by
  generalize hp : start :: positions = ps at h
  induction h generalizing start positions more other with
  | done hstop =>
    obtain ⟨rfl, rfl⟩ := List.cons.inj hp
    cases hmore with
    | done => exact ⟨rfl, rfl⟩
    | fault hlt => omega
    | turn hlt => omega
  | fault hstop hread =>
    obtain ⟨rfl, rfl⟩ := List.cons.inj hp
    cases hmore with
    | done hge => omega
    | fault _ hother =>
      obtain rfl := Except.error.inj (hother.symm.trans hread)
      exact ⟨rfl, rfl⟩
    | turn _ hother => cases hother.symm.trans hread
  | turn hstop hread _ ih =>
    obtain ⟨rfl, rfl⟩ := List.cons.inj hp
    cases hmore with
    | done hge => omega
    | fault _ hother => cases hother.symm.trans hread
    | turn _ hother hrest =>
      obtain ⟨rfl, rfl⟩ := Prod.mk.inj (Except.ok.inj (hother.symm.trans hread))
      obtain ⟨rfl, rfl⟩ := ih hrest rfl
      exact ⟨rfl, rfl⟩

/-- The loop comes to an end, with what the decoder of elements answers: each turn takes a byte
at least, so the bound on the number of turns that the decoder carries is never reached. -/
theorem exists_elementLoop (hdata : stop ≤ data.length) {fuel : Nat} (hfuel : stop - start ≤ fuel) :
    ∃ positions, ElementLoop data stop depth (start :: positions)
      (decodeElements (decodeItem ((maxDepth : Int) - depth).toNat) fuel start (data.drop start)
        (stop - start)) := by
  induction fuel generalizing start with
  | zero => exact ⟨[], .done (by omega)⟩
  | succ fuel ih =>
    rw [decodeElements]
    split
    · exact ⟨[], .done (by omega)⟩
    next hroom =>
    rw [← decodeItemAt_natCast]
    cases hread : decodeItemAt data start stop depth with
    | error f => exact ⟨[], .fault (by omega) hread⟩
    | ok read =>
      obtain ⟨x, used⟩ := read
      obtain ⟨hpos, hle⟩ := decodeItemAt_ok hdata hread
      obtain ⟨positions, hrest⟩ := @ih (start + used) (by omega)
      refine ⟨(start + used) :: positions, ?_⟩
      have hturn := ElementLoop.turn (by omega) hread hrest
      rw [ok_bind]
      dsimp only
      rw [List.drop_drop, Nat.sub_sub]
      generalize decodeElements (decodeItem ((maxDepth : Int) - depth).toNat) fuel (start + used)
        (data.drop (start + used)) (stop - (start + used)) = rest at hturn
      cases rest <;> exact hturn

end Loop

/-- Between an offset and a limit within the input the decoder answers as on the bytes there alone:
with the same item of the same length, or with the same fault, but for the place that it names. An
item takes a byte at least and ends in front of the limit; a fault is a malformation. Where it
reads a list, the loop over the elements comes to an end, in one way: each turn moves on, and
unless an element is malformed the last position is the end of the payload. -/
theorem decodeItemAt_window (data : Bytes) (offset limit depth : Nat) (hoffset : offset ≤ limit)
    (hlimit : limit ≤ data.length) :
    decodeItemAt data offset limit depth
        = (decodeItemAt (data.extract offset limit) 0 (-1) depth).mapError (movedFault offset) ∧
    ((∃ x used, decodeItemAt data offset limit depth = .ok (x, used) ∧
        1 ≤ used ∧ used ≤ limit - offset) ∨
      ∃ reason, decodeItemAt data offset limit depth = .error (malformed reason)) ∧
    ∀ m n, readHeader (data.drop offset) (limit - offset) = .ok ⟨true, m, n⟩ →
      m + n ≤ limit - offset → depth < maxDepth →
      ∃ positions outcome, Advances (offset + m + n) ((offset + m) :: positions) outcome ∧
        decodeItemAt data offset limit depth = outcome.map (fun items => (.list items, m + n)) ∧
        ∀ more other,
          ElementLoop data (offset + m + n) (depth + 1) ((offset + m) :: more) other ↔
            more = positions ∧ other = outcome := by
  refine ⟨decodeItemAt_extract hlimit, ?_, ?_⟩
  · cases h : decodeItemAt data offset limit depth with
    | ok read =>
      obtain ⟨x, used⟩ := read
      obtain ⟨hpos, hle⟩ := decodeItemAt_ok hlimit h
      exact .inl ⟨x, used, rfl, by omega, by omega⟩
    | error f =>
      obtain ⟨reason, rfl⟩ := decodeItemAt_fault hlimit h
      exact .inr ⟨reason, rfl⟩
  · intro m n hheader hfit hdepth
    have hdata : offset + m + n ≤ data.length := by omega
    obtain ⟨positions, hloop⟩ := @exists_elementLoop data (offset + m + n) (depth + 1) (offset + m)
      hdata n (by omega)
    refine ⟨positions, _, hloop.advances hdata fun p hp => ?_, ?_, fun more other => ?_⟩
    · rw [← Option.some.inj hp]
      omega
    · have hlevels : ((maxDepth : Int) - depth).toNat
          = ((maxDepth : Int) - (depth + 1 : Nat)).toNat + 1 := by omega
      rw [decodeItemAt_natCast, hlevels, decodeItem, hheader, ok_bind]
      dsimp only
      rw [if_neg (by omega), if_pos rfl, List.drop_drop, Nat.add_sub_cancel_left]
      generalize decodeElements _ n (offset + m) (data.drop (offset + m)) n = outcome
      cases outcome <;> rfl
    · constructor
      · exact hloop.unique
      · rintro ⟨rfl, rfl⟩
        exact hloop

set_option maxRecDepth 1000 in
/-- A list of two strings between other bytes, with the positions of its loop. -/
theorem decodeItemAt_window_pair :
    let data : Bytes := [0xff, 0xc4, 0x82, 1, 2, 5, 0xff]
    let items : List Item := [.bytes [1, 2], .bytes [5]]
    1 ≤ 6 ∧ 6 ≤ data.length ∧ decodeItemAt data 1 6 0 = .ok (.list items, 5) ∧
      (decodeItemAt (data.extract 1 6) 0 (-1) 0).mapError (movedFault 1) = .ok (.list items, 5) ∧
      Advances 6 [2, 5, 6] (.ok items) := by
  intro data items
  obtain ⟨hsame, -, hloop⟩ := decodeItemAt_window data 1 6 0 (by decide) (by decide)
  obtain ⟨positions, outcome, hadvances, hread, hunique⟩ := hloop 1 4 rfl (by decide) (by decide)
  have hfirst : decodeItemAt data 2 (6 : Nat) (1 : Nat) = .ok (.bytes [1, 2], 3) := rfl
  have hsecond : decodeItemAt data 5 (6 : Nat) (1 : Nat) = .ok (.bytes [5], 1) := rfl
  have hrun : ElementLoop data 6 1 [2, 5, 6] (.ok items) :=
    .turn (by omega) hfirst (.turn (by omega) hsecond (.done (by omega)))
  obtain ⟨rfl, rfl⟩ := (hunique _ _).mp hrun
  exact ⟨by decide, by decide, hread, hsame.symm.trans hread, hadvances⟩

end EthWire.Rlp

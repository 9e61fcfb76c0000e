import EthWire.Proofs.Rlp.RoundTrip

/-!
# One spelling for each item

Whatever the decoder accepts is the encoding of what it answers, and whatever it does not
accept it refuses as malformed. The invariant is stated for every window of the input, so
it holds of the items inside lists as of the whole.
-/

namespace EthWire.Rlp

open Item (encodeAll depthAll)

/-- An item read at the front of a window: it takes `used` bytes, which are its encoding. -/
structure ReadAs (levels room : Nat) (rest : Bytes) (x : Item) (used : Nat) : Prop where
  used_le : used ≤ room
  encode_eq : x.encode = rest.take used
  depth_le : x.depth ≤ levels
  payload_lt : x.payloadLength < lengthLimit

/-- A decoder that accepts nothing but encodings. -/
def Sound (levels : Nat) (decode : ItemDecoder) : Prop :=
  ∀ place rest room x used, room ≤ rest.length → decode place rest room = .ok (x, used) →
    ReadAs levels room rest x used

/-- Why a mark cannot be read. -/
inductive MarkFault (rest : Bytes) (room : Nat) : Fault → Prop
  | unexpectedEnd : MarkFault rest room (malformed .unexpectedEnd)
  | wrappedByte : MarkFault rest room (malformed .wrappedByte)
  | truncatedLength : MarkFault rest room (malformed .truncatedLength)
  | lengthLeadingZero : MarkFault rest room (malformed .lengthLeadingZero)
  | longFormShortPayload : MarkFault rest room (malformed .longFormShortPayload)
  /-- The window claims to have more bytes than there are. -/
  | pastEnd (hpast : rest.length < room) : MarkFault rest room (.misuse .pastEnd)

/-- A decoder all of whose faults are malformations, unless its window claims to have more bytes
than there are. -/
def FaultsKnown (decode : ItemDecoder) : Prop :=
  ∀ place rest room f, decode place rest room = .error f →
    (∃ reason, f = malformed reason) ∨ rest.length < room ∧ f = .misuse .pastEnd

theorem MarkFault.known {rest : Bytes} {room : Nat} {f : Fault} (h : MarkFault rest room f) :
    (∃ reason, f = malformed reason) ∨ rest.length < room ∧ f = .misuse .pastEnd := by
  cases h with
  | pastEnd hpast => exact .inr ⟨hpast, rfl⟩
  | _ => exact .inl ⟨_, rfl⟩

theorem ReadAs.used_pos {levels room used : Nat} {rest : Bytes} {x : Item}
    (h : ReadAs levels room rest x used) : 0 < used := by
  have hpos := encode_pos x
  rw [h.encode_eq, List.length_take] at hpos
  omega

/-! ## What stands behind a mark -/

theorem Marked.payload_lt {rest : Bytes} {room : Nat} {header : Header}
    (h : Marked rest room header) : header.payloadLength < lengthLimit := by
  cases h with
  | byte => exact (by decide : 1 < 2 ^ 64)
  | mark hlength => exact hlength

/-- A string is spelled as it is written. -/
theorem Marked.string_eq {rest : Bytes} {room m n : Nat} (h : Marked rest room ⟨false, m, n⟩)
    (hfit : m + n ≤ room) (hwindow : room ≤ rest.length) :
    encodeString ((rest.drop m).take n) = rest.take (m + n) := by
  cases h with
  | @byte x tail hrest hx =>
    subst hrest
    exact encodeString_self hx
  | @mark _ _ tail _ hrest _ hsingle =>
    subst hrest
    rw [List.length_append] at hwindow
    have hlength : (tail.take n).length = n := by
      rw [List.length_take]
      omega
    rw [List.drop_left, encodeString_marked, hlength, markOffset_false, List.take_length_add_append]
    intro x hx
    have hn : n = 1 := by rw [← hlength, hx]; rfl
    have hpos := lengthMark_pos (markOffset false) n
    cases tail with
    | nil => simp at hx
    | cons y more =>
      rw [hn] at hx
      obtain rfl : y = x := by simpa using hx
      exact hsingle rfl hn (by omega) y more rfl

theorem Marked.list_eq {rest : Bytes} {room m n : Nat} (h : Marked rest room ⟨true, m, n⟩) :
    lengthMark listOffset n ++ (rest.drop m).take n = rest.take (m + n) := by
  cases h with
  | @mark _ _ tail _ hrest =>
    subst hrest
    rw [List.drop_left, markOffset_true, List.take_length_add_append]

/-! ## Soundness -/

theorem decodeElements_sound {levels : Nat} {decode : ItemDecoder} (hs : Sound levels decode)
    {fuel place room : Nat} {rest : Bytes} {items : List Item} (hwindow : room ≤ rest.length)
    (hfuel : room ≤ fuel) (h : decodeElements decode fuel place rest room = .ok items) :
    encodeAll items = rest.take room ∧ depthAll items ≤ levels := by
  induction fuel generalizing place rest room items with
  | zero =>
    obtain rfl := Nat.le_zero.mp hfuel
    obtain rfl := Except.ok.inj h
    exact ⟨rfl, Nat.zero_le _⟩
  | succ fuel ih =>
    rw [decodeElements] at h
    split at h
    next hroom =>
      obtain rfl := Except.ok.inj h
      rw [hroom]
      exact ⟨rfl, Nat.zero_le _⟩
    next hroom =>
    obtain ⟨⟨x, used⟩, hx, h⟩ := bind_eq_ok.mp h
    obtain ⟨more, hmore, h⟩ := bind_eq_ok.mp h
    obtain rfl := Except.ok.inj h
    have hread := hs _ _ _ _ _ hwindow hx
    have hpos := hread.used_pos
    have hle := hread.used_le
    have hdrop : room - used ≤ (rest.drop used).length := by
      rw [List.length_drop]
      omega
    obtain ⟨hmoreEncode, hmoreDepth⟩ := ih hdrop (by omega) hmore
    constructor
    · rw [encodeAll_cons, hread.encode_eq, hmoreEncode, ← List.take_add]
      congr 1
      omega
    · rw [depthAll]
      exact Nat.max_le.mpr ⟨hread.depth_le, hmoreDepth⟩

/-- What one step of the decoder accepts, by the kind of the item. -/
theorem decodeItem_eq_ok {levels place room used : Nat} {rest : Bytes} {x : Item}
    (hwindow : room ≤ rest.length) (h : decodeItem levels place rest room = .ok (x, used)) :
    ∃ m n, used = m + n ∧ m + n ≤ room ∧
      ((Marked rest room ⟨false, m, n⟩ ∧ x = .bytes ((rest.drop m).take n)) ∨
        (Marked rest room ⟨true, m, n⟩ ∧ ∃ inner items, levels = inner + 1 ∧ x = .list items ∧
          decodeElements (decodeItem inner) n (place + m) (rest.drop m) n = .ok items)) := by
  unfold decodeItem at h
  obtain ⟨⟨isList, m, n⟩, hheader, h⟩ := bind_eq_ok.mp h
  have hmark := marked_of_readHeader hwindow hheader
  dsimp only at h
  split at h
  · cases h
  next hfit =>
  refine ⟨m, n, ?_⟩
  cases isList with
  | false =>
    obtain ⟨rfl, rfl⟩ := Prod.mk.inj (Except.ok.inj h)
    exact ⟨rfl, by omega, .inl ⟨hmark, rfl⟩⟩
  | true =>
    cases levels with
    | zero => cases h
    | succ inner =>
      obtain ⟨items, hitems, h⟩ := bind_eq_ok.mp h
      obtain ⟨rfl, rfl⟩ := Prod.mk.inj (Except.ok.inj h)
      exact ⟨rfl, by omega, .inr ⟨hmark, inner, items, rfl, rfl, hitems⟩⟩

private theorem string_read {levels room m n : Nat} {rest : Bytes}
    (hmark : Marked rest room ⟨false, m, n⟩) (hfit : m + n ≤ room) (hwindow : room ≤ rest.length) :
    ReadAs levels room rest (.bytes ((rest.drop m).take n)) (m + n) := by
  refine ⟨hfit, ?_, Nat.zero_le _, ?_⟩
  · rw [encode_bytes, hmark.string_eq hfit hwindow]
  · rw [Item.payloadLength, List.length_take]
    exact Nat.lt_of_le_of_lt (Nat.min_le_left _ _) hmark.payload_lt

theorem decodeItem_sound (levels : Nat) : Sound levels (decodeItem levels) := by
  induction levels with
  | zero =>
    intro place rest room x used hwindow h
    obtain ⟨m, n, rfl, hfit, ⟨hmark, rfl⟩ | ⟨-, inner, items, hlevels, -⟩⟩ :=
      decodeItem_eq_ok hwindow h
    · exact string_read hmark hfit hwindow
    · cases hlevels
  | succ inner ih =>
    intro place rest room x used hwindow h
    obtain ⟨m, n, rfl, hfit, ⟨hmark, rfl⟩ | ⟨hmark, _, items, hlevels, rfl, hitems⟩⟩ :=
      decodeItem_eq_ok hwindow h
    · exact string_read hmark hfit hwindow
    · obtain rfl := Nat.succ.inj hlevels
      have hdrop : n ≤ (rest.drop m).length := by
        rw [List.length_drop]
        omega
      obtain ⟨hencode, hdepth⟩ := decodeElements_sound ih hdrop (Nat.le_refl n) hitems
      have hlength : (encodeAll items).length = n := by
        rw [hencode, List.length_take]
        omega
      refine ⟨hfit, ?_, Nat.succ_le_succ hdepth, ?_⟩
      · rw [encode_list, hlength, hencode, hmark.list_eq]
      · rw [Item.payloadLength, hlength]
        exact hmark.payload_lt

theorem decode_eq_ok {b : Bytes} {x : Item} (h : decode b = .ok x) :
    x.encode = b ∧ x.depth ≤ maxDepth ∧ x.payloadLength < lengthLimit := by
  unfold decode at h
  split at h
  · cases h
  obtain ⟨⟨y, used⟩, hy, h⟩ := bind_eq_ok.mp h
  dsimp only at h
  split at h
  next hused =>
    obtain rfl := Except.ok.inj h
    have hread := decodeItem_sound maxDepth _ _ _ _ _ (Nat.le_refl _) hy
    refine ⟨?_, hread.depth_le, hread.payload_lt⟩
    rw [hread.encode_eq, hused, List.take_length]
  · cases h

/-! ## Faults -/

section Fault

variable {rest : Bytes} {room size i : Nat} {f : Fault}

theorem byteAt_fault (hi : i < room) (h : byteAt rest i = .error f) : MarkFault rest room f := by
  unfold byteAt at h
  split at h
  · cases h
  next hnone =>
  have hlength : rest.length ≤ i := List.getElem?_eq_none_iff.mp hnone
  exact Except.error.inj h ▸ .pastEnd (by omega)

theorem longLength_fault (hpos : 0 < size) (h : longLength rest room size = .error f) :
    MarkFault rest room f := by
  unfold longLength at h
  split at h
  · exact Except.error.inj h ▸ .truncatedLength
  next hroom =>
  split at h
  next hnil =>
    have hlength := congrArg List.length hnil
    rw [List.length_take, List.length_drop, List.length_nil] at hlength
    exact Except.error.inj h ▸ .pastEnd (by omega)
  split at h
  · exact Except.error.inj h ▸ .lengthLeadingZero
  dsimp only at h
  split at h
  · exact Except.error.inj h ▸ .longFormShortPayload
  · cases h

theorem readHeader_fault (h : readHeader rest room = .error f) : MarkFault rest room f := by
  have hs : stringOffset = 128 := rfl
  have hl : listOffset = 192 := rfl
  have hm : shortMax = 55 := rfl
  unfold readHeader at h
  split at h
  · exact Except.error.inj h ▸ .unexpectedEnd
  rcases bind_eq_error.mp h with hmark | ⟨mark, -, h⟩
  · exact byteAt_fault (by omega) hmark
  split at h
  · cases h
  split at h
  · dsimp only at h
    split at h
    next hsingle =>
      rcases bind_eq_error.mp h with hnext | ⟨next, -, h⟩
      · exact byteAt_fault hsingle.2 hnext
      split at h
      · exact Except.error.inj h ▸ .wrappedByte
      · cases h
    · cases h
  split at h
  · rcases bind_eq_error.mp h with hlength | ⟨length, -, h⟩
    · exact longLength_fault (by omega) hlength
    · cases h
  split at h
  · cases h
  · rcases bind_eq_error.mp h with hlength | ⟨length, -, h⟩
    · exact longLength_fault (by omega) hlength
    · cases h

theorem decodeElements_fault {decode : ItemDecoder} (hdecode : FaultsKnown decode)
    {fuel place : Nat} (h : decodeElements decode fuel place rest room = .error f) :
    (∃ reason, f = malformed reason) ∨ rest.length < room ∧ f = .misuse .pastEnd := by
  induction fuel generalizing place rest room with
  | zero => cases h
  | succ fuel ih =>
    rw [decodeElements] at h
    split at h
    · cases h
    rcases bind_eq_error.mp h with hx | ⟨⟨x, used⟩, -, h⟩
    · exact hdecode _ _ _ _ hx
    rcases bind_eq_error.mp h with hmore | ⟨more, -, h⟩
    · refine (ih hmore).imp_right fun hpast => ?_
      rw [List.length_drop] at hpast
      exact ⟨by omega, hpast.2⟩
    · cases h

theorem decodeItem_fault (levels : Nat) : FaultsKnown (decodeItem levels) := by
  induction levels with
  | zero =>
    intro place rest room f h
    unfold decodeItem at h
    rcases bind_eq_error.mp h with hheader | ⟨⟨isList, m, n⟩, -, h⟩
    · exact (readHeader_fault hheader).known
    dsimp only at h
    split at h
    · exact .inl ⟨_, (Except.error.inj h).symm⟩
    cases isList with
    | false => cases h
    | true => exact .inl ⟨_, (Except.error.inj h).symm⟩
  | succ inner ih =>
    intro place rest room f h
    unfold decodeItem at h
    rcases bind_eq_error.mp h with hheader | ⟨⟨isList, m, n⟩, -, h⟩
    · exact (readHeader_fault hheader).known
    dsimp only at h
    split at h
    · exact .inl ⟨_, (Except.error.inj h).symm⟩
    next hfit =>
    cases isList with
    | false => cases h
    | true =>
      rcases bind_eq_error.mp h with hitems | ⟨items, -, h⟩
      · refine (decodeElements_fault ih hitems).imp_right fun hpast => ?_
        rw [List.length_drop] at hpast
        exact ⟨by omega, hpast.2⟩
      · cases h

end Fault

theorem decode_fault {b : Bytes} {f : Fault} (h : decode b = .error f) :
    ∃ reason, f = malformed reason := by
  unfold decode at h
  split at h
  · exact ⟨_, (Except.error.inj h).symm⟩
  rcases bind_eq_error.mp h with hitem | ⟨⟨y, used⟩, -, h⟩
  · exact (decodeItem_fault maxDepth _ _ _ _ hitem).resolve_right fun hpast => by omega
  dsimp only at h
  split at h
  · cases h
  · exact ⟨_, (Except.error.inj h).symm⟩

/-- What is not accepted is malformed. -/
theorem decode_malformed {b : Bytes} (h : ∀ x, decode b ≠ .ok x) :
    ∃ reason, decode b = .error (malformed reason) := by
  cases hb : decode b with
  | ok x => exact absurd hb (h x)
  | error f =>
    obtain ⟨reason, rfl⟩ := decode_fault hb
    exact ⟨reason, rfl⟩

/-! ## Bytes behind an encoding -/

theorem lengthMark_le {offset n : Nat} (hn : n < lengthLimit) :
    (lengthMark offset n).length ≤ 9 := by
  by_cases hshort : n ≤ shortMax
  · rw [lengthMark_short hshort, List.length_singleton]
    omega
  · rw [lengthMark_long (by omega), List.length_cons]
    have h8 := length_ofNat_le_eight.mpr hn
    omega

private theorem lengthMark_gt {offset n : Nat} (hn : lengthLimit ≤ n) :
    9 < (lengthMark offset n).length := by
  have hlong : shortMax < n := Nat.lt_of_lt_of_le (by decide) hn
  have h9 : ¬(Bytes.ofNat n).length ≤ 8 := mt length_ofNat_le_eight.mp (by omega)
  rw [lengthMark_long hlong, List.length_cons]
  omega

/-- A payload that a mark can tell is a matter of the length of the encoding alone. -/
theorem payloadLength_lt_iff (x : Item) :
    x.payloadLength < lengthLimit ↔ x.encode.length < lengthLimit + 9 := by
  have hmarked : ∀ offset (payload : Bytes),
      payload.length < lengthLimit ↔
        (lengthMark offset payload.length ++ payload).length < lengthLimit + 9 := by
    intro offset payload
    rw [List.length_append]
    constructor
    · intro h
      have hle := @lengthMark_le offset _ h
      omega
    · intro h
      by_contra hge
      have hgt := @lengthMark_gt offset _ (Nat.le_of_not_lt hge)
      omega
  cases x with
  | bytes b =>
    rw [encode_bytes, Item.payloadLength]
    rcases encodeString_cases b with ⟨y, rfl, hy⟩ | hb
    · rw [encodeString_self hy, List.length_singleton]
      exact ⟨fun _ => by decide, fun _ => by decide⟩
    · rw [encodeString_marked hb]
      exact hmarked stringOffset b
  | list items =>
    rw [encode_list, Item.payloadLength]
    exact hmarked listOffset (encodeAll items)

/-- Whatever is accepted that starts with an encoding is that encoding. -/
theorem eq_of_decode_append {x y : Item} {t : Bytes} (h : decode (x.encode ++ t) = .ok y) :
    y = x ∧ t = [] := by
  obtain ⟨hy, -, hsize⟩ := decode_eq_ok h
  have hlength := (payloadLength_lt_iff y).mp hsize
  rw [hy, List.length_append] at hlength
  have hx : x.payloadLength < lengthLimit := (payloadLength_lt_iff x).mpr (by omega)
  rw [← List.append_nil y.encode] at hy
  obtain ⟨hxy, ht⟩ := encode_append_inj hsize hx hy
  exact ⟨hxy, ht.symm⟩

/-- Of two equal encodings a mark can tell the payload of both if it can tell that of one. -/
theorem encode_eq_iff {x y : Item} (hx : x.payloadLength < lengthLimit) :
    y.encode = x.encode ↔ y = x := by
  constructor
  · intro h
    have hy : y.payloadLength < lengthLimit := by
      rw [payloadLength_lt_iff] at hx ⊢
      exact (congrArg List.length h).trans_lt hx
    have happend : y.encode ++ [] = x.encode ++ [] := congrArg (· ++ []) h
    exact (encode_append_inj hy hx happend).1
  · exact congrArg Item.encode

/-! ## Prefixes -/

/-- What a decoder accepts it accepts neither cut short nor gone on with: no accepted byte string
is the beginning of another one. -/
structure PrefixFree {α : Type} (decode : Bytes → Except Fault α) : Prop where
  cut : ∀ b c a, decode b = .ok a → c <+: b → c ≠ b → ∃ reason, decode c = .error (malformed reason)
  extended : ∀ b c a, decode b = .ok a → b <+: c → c ≠ b →
    ∃ reason, decode c = .error (malformed reason)
  eq_of_isPrefix : ∀ b c a d, decode b = .ok a → decode c = .ok d → b <+: c → b = c

theorem decode_prefixFree : PrefixFree decode := by
  have hunique : ∀ b c x y, decode b = .ok x → decode c = .ok y → b <+: c → b = c := by
    rintro b - x y hb hc ⟨t, rfl⟩
    rw [← (decode_eq_ok hb).1] at hc
    obtain ⟨-, rfl⟩ := eq_of_decode_append hc
    rw [List.append_nil]
  refine ⟨fun b c x hb hle hne => ?_, fun b c x hb hle hne => ?_, hunique⟩
  · exact decode_malformed fun y hc => hne (hunique c b y x hc hb hle)
  · exact decode_malformed fun y hc => hne (hunique b c x y hb hc hle).symm

/-- A decoder that goes on from the item refuses with it. -/
theorem PrefixFree.bind {α : Type} (read : Item → Except Fault α) :
    PrefixFree fun b => decode b >>= read := by
  refine ⟨fun b c a hb hle hne => ?_, fun b c a hb hle hne => ?_, fun b c a d hb hc hle => ?_⟩
  · obtain ⟨x, hx, -⟩ := bind_eq_ok.mp hb
    obtain ⟨reason, hc⟩ := decode_prefixFree.cut b c x hx hle hne
    exact ⟨reason, by rw [hc, error_bind]⟩
  · obtain ⟨x, hx, -⟩ := bind_eq_ok.mp hb
    obtain ⟨reason, hc⟩ := decode_prefixFree.extended b c x hx hle hne
    exact ⟨reason, by rw [hc, error_bind]⟩
  · obtain ⟨x, hx, -⟩ := bind_eq_ok.mp hb
    obtain ⟨y, hy, -⟩ := bind_eq_ok.mp hc
    exact decode_prefixFree.eq_of_isPrefix b c x y hx hy hle

end EthWire.Rlp

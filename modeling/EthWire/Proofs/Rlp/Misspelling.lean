import EthWire.Proofs.Rlp.Canonical

/-!
# Spellings that are refused

The ways in which an item could be spelled, and is not: a mark on a byte that needs none,
a length in a longer form than it needs or with a zero byte in front, an element that
reaches beyond its list. Any of them at any depth makes the whole input malformed.
-/

namespace EthWire.Rlp

open Item (encodeAll depthAll)

/-- A spelling with a flaw at its front, or in an element of the list that it spells. -/
inductive Misspelled : Bytes → Prop
  /-- A mark on a byte that is its own encoding. -/
  | wrapped {x : UInt8} (hx : x.toNat < stringOffset) :
      Misspelled [UInt8.ofNat (stringOffset + 1), x]
  /-- A length behind the mark that the mark itself can hold. -/
  | longForm (isList : Bool) {size : Bytes} (payload : Bytes) (hpos : 0 < size.length)
      (hsize : size.length ≤ 8) (hshort : Bytes.toNat size ≤ shortMax) :
      Misspelled (UInt8.ofNat (markOffset isList + shortMax + size.length) :: size ++ payload)
  /-- A length behind the mark with a zero byte in front. -/
  | leadingZero (isList : Bool) {size : Bytes} (payload : Bytes) (hsize : size.length < 8) :
      Misspelled
        (UInt8.ofNat (markOffset isList + shortMax + (size.length + 1)) :: 0 :: size ++ payload)
  /-- A list that ends within one of its elements. -/
  | overrun (before : List Item) (x : Item) {n : Nat} (hx : x.payloadLength < lengthLimit)
      (hn : n < lengthLimit)
      (hfrom : (encodeAll before).length < n)
      (hto : n < (encodeAll before).length + x.encode.length) :
      Misspelled (lengthMark listOffset n ++ (encodeAll before ++ x.encode))
  /-- A list with a flaw in the element behind those of `before`. -/
  | inside (before : List Item) {s : Bytes} (after : Bytes) (hs : Misspelled s)
      (hn : (encodeAll before ++ (s ++ after)).length < lengthLimit) :
      Misspelled (lengthMark listOffset (encodeAll before ++ (s ++ after)).length
        ++ (encodeAll before ++ (s ++ after)))

theorem Misspelled.ne_nil {s : Bytes} (h : Misspelled s) : s ≠ [] := by
  cases h with
  | wrapped hx => simp
  | longForm => simp
  | leadingZero => simp
  | overrun before x hx hn hfrom hto =>
    have hpos := encode_pos x
    exact List.append_ne_nil_of_right_ne_nil _
      (List.append_ne_nil_of_right_ne_nil _ (List.ne_nil_of_length_pos hpos))
  | @inside before s after hs hn =>
    have hpos := lengthMark_pos listOffset (encodeAll before ++ (s ++ after)).length
    exact List.append_ne_nil_of_left_ne_nil (List.ne_nil_of_length_pos hpos) _

/-! ## What the front of an encoding looks like -/

theorem payloadLength_lt_of_mem {items : List Item} {n : Nat} (h : (encodeAll items).length < n) :
    ∀ x ∈ items, x.payloadLength < n := by
  induction items with
  | nil => simp
  | cons y ys ih =>
    rw [encodeAll_cons, List.length_append] at h
    have hy := payloadLength_le y
    intro x hx
    rcases List.mem_cons.mp hx with rfl | hx
    · omega
    · exact ih (by omega) x hx

/-- Encodings of elements that start alike start with the same elements. -/
theorem encodeAll_append_eq {before items : List Item} {u : Bytes}
    (hbefore : ∀ x ∈ before, x.payloadLength < lengthLimit)
    (hitems : ∀ x ∈ items, x.payloadLength < lengthLimit)
    (h : encodeAll items = encodeAll before ++ u) :
    ∃ more, items = before ++ more ∧ encodeAll more = u := by
  induction before generalizing items with
  | nil => exact ⟨items, rfl, by rw [h]; rfl⟩
  | cons x before ih =>
    rw [encodeAll_cons, List.append_assoc] at h
    cases items with
    | nil =>
      have hpos := encode_pos x
      have hlength := congrArg List.length h
      rw [encodeAll_nil, List.length_nil, List.length_append] at hlength
      omega
    | cons y ys =>
      rw [encodeAll_cons] at h
      obtain ⟨rfl, hrest⟩ := encode_append_inj (hitems y (by simp)) (hbefore x (by simp)) h
      obtain ⟨more, rfl, hmore⟩ := ih (fun z hz => hbefore z (by simp [hz]))
        (fun z hz => hitems z (by simp [hz])) hrest
      exact ⟨more, rfl, hmore⟩

/-- The decoder takes any encoding apart if enough levels are allowed. -/
private theorem decodeItem_front {y : Item} {u : Bytes} (hy : y.payloadLength < lengthLimit) :
    decodeItem y.depth 0 (y.encode ++ u) (y.encode ++ u).length = .ok (y, y.encode.length) := by
  have h := decodeItem_encode y.depth 0 (y.encode ++ u).length y u hy (by simp) (Nat.le_refl _)
  rwa [if_pos (Nat.le_refl _)] at h

/-- The front of an encoding holds a mark that is read without a fault. -/
private theorem readHeader_front {y : Item} {u : Bytes} (hy : y.payloadLength < lengthLimit)
    {rest : Bytes} (h : y.encode ++ u = rest) :
    ∃ header, readHeader rest rest.length = .ok header := by
  subst h
  obtain ⟨m, n, -, -, ⟨hmark, -⟩ | ⟨hmark, -⟩⟩ :=
    decodeItem_eq_ok (Nat.le_refl _) (decodeItem_front (u := u) hy)
  · exact ⟨_, readHeader_of_marked (Nat.le_refl _) hmark⟩
  · exact ⟨_, readHeader_of_marked (Nat.le_refl _) hmark⟩

/-- Behind the mark of a list stand the encodings of its elements. -/
private theorem list_front {y : Item} {u v : Bytes} {n : Nat} (hy : y.payloadLength < lengthLimit)
    (hn : n < lengthLimit) (h : y.encode ++ u = lengthMark listOffset n ++ v) :
    ∃ items, encodeAll items = v.take n ∧ ∀ x ∈ items, x.payloadLength < lengthLimit := by
  have hitem := decodeItem_front (u := u) hy
  rw [h] at hitem
  have hwindow := Nat.le_refl (lengthMark listOffset n ++ v).length
  have hlist : Marked (lengthMark listOffset n ++ v) (lengthMark listOffset n ++ v).length
      ⟨true, (lengthMark listOffset n).length, n⟩ :=
    @Marked.mark _ _ true n v hn rfl (by rw [markOffset_true, List.length_append]; omega)
      (by simp)
  obtain ⟨m, k, -, hfit, hkind⟩ := decodeItem_eq_ok hwindow hitem
  have hsame : ∀ header, Marked (lengthMark listOffset n ++ v)
      (lengthMark listOffset n ++ v).length header →
      header = ⟨true, (lengthMark listOffset n).length, n⟩ := by
    intro header hmark
    have h1 := readHeader_of_marked hwindow hmark
    rw [readHeader_of_marked hwindow hlist] at h1
    exact (Except.ok.inj h1).symm
  rcases hkind with ⟨hmark, -⟩ | ⟨hmark, inner, items, -, -, hitems⟩
  · cases hsame _ hmark
  · obtain ⟨rfl, rfl⟩ : m = (lengthMark listOffset n).length ∧ k = n := by
      have heq := hsame _ hmark
      exact ⟨congrArg Header.markLength heq, congrArg Header.payloadLength heq⟩
    rw [List.drop_left] at hitems
    rw [List.length_append] at hfit
    have hle : k ≤ v.length := by omega
    obtain ⟨hencode, -⟩ := decodeElements_sound (decodeItem_sound inner) hle (Nat.le_refl _) hitems
    have hlt : (encodeAll items).length < lengthLimit := by
      rw [hencode, List.length_take]
      omega
    exact ⟨items, hencode, payloadLength_lt_of_mem hlt⟩

/-- Behind a mark stands the shortest spelling of a length that needs it. -/
private theorem size_front {y : Item} {u size payload : Bytes} (isList : Bool)
    (hy : y.payloadLength < lengthLimit) (hpos : 0 < size.length) (hsize : size.length ≤ 8)
    (h : y.encode ++ u
      = UInt8.ofNat (markOffset isList + shortMax + size.length) :: size ++ payload) :
    ∃ n, size = Bytes.ofNat n ∧ shortMax < n := by
  obtain ⟨header, hheader⟩ := readHeader_front hy h
  have hoffset := markOffset_le isList
  have hm : shortMax = 55 := rfl
  rw [List.cons_append] at hheader
  rw [readHeader_long (toNat_ofNat_mark (by omega)) hpos hsize (by simp)] at hheader
  obtain ⟨n, hn, -⟩ := map_eq_ok.mp hheader
  obtain ⟨-, htake, -, hlong⟩ := longLength_eq_ok (Nat.le_refl _) hn
  rw [List.drop_succ_cons, List.drop_zero, List.take_left] at htake
  exact ⟨n, htake, hlong⟩

/-! ## No encoding starts with a misspelling -/

theorem Misspelled.encode_append_ne {s : Bytes} (h : Misspelled s) :
    ∀ {y : Item} (u t : Bytes), y.payloadLength < lengthLimit → y.encode ++ u ≠ s ++ t := by
  induction h with
  | @wrapped x hx =>
    intro y u t hy heq
    obtain ⟨header, hheader⟩ := readHeader_front hy heq
    have hmark : (UInt8.ofNat (stringOffset + 1)).toNat = stringOffset + 1 := rfl
    rw [List.cons_append, List.cons_append, readHeader_single hmark (by simp), if_pos hx]
      at hheader
    cases hheader
  | longForm isList payload hpos hsize hshort =>
    intro y u t hy heq
    rw [List.append_assoc] at heq
    obtain ⟨n, rfl, hlong⟩ := size_front isList hy hpos hsize heq
    rw [Bytes.toNat_ofNat] at hshort
    omega
  | @leadingZero isList size payload hsize =>
    intro y u t hy heq
    rw [List.append_assoc] at heq
    have hpos : 0 < ((0 : UInt8) :: size).length := Nat.succ_pos _
    obtain ⟨n, hn, -⟩ := size_front isList hy hpos hsize heq
    exact Bytes.head?_ofNat n (by rw [← hn]; rfl)
  | @overrun before x n hx hn hfrom hto =>
    intro y u t hy heq
    rw [List.append_assoc] at heq
    obtain ⟨items, hitems, hbounds⟩ := list_front hy hn heq
    have htake : (encodeAll before ++ x.encode ++ t).take n
        = encodeAll before ++ x.encode.take (n - (encodeAll before).length) := by
      rw [List.append_assoc, List.take_append, List.take_of_length_le (by omega),
        List.take_append_of_le_length (by omega)]
    rw [htake] at hitems
    obtain ⟨more, -, hmore⟩ := encodeAll_append_eq
      (payloadLength_lt_of_mem (by omega)) hbounds hitems
    cases more with
    | nil =>
      have hlength := congrArg List.length hmore
      rw [encodeAll_nil, List.length_nil, List.length_take] at hlength
      omega
    | cons z zs =>
      -- The element that the list cuts off would go on as its own beginning.
      have hz : z.payloadLength < lengthLimit := by
        have hlength := congrArg List.length hmore
        rw [encodeAll_cons, List.length_append, List.length_take] at hlength
        have hle := payloadLength_le z
        omega
      rw [encodeAll_cons] at hmore
      have hwhole : z.encode ++ (encodeAll zs ++ x.encode.drop (n - (encodeAll before).length))
          = x.encode ++ [] := by
        rw [← List.append_assoc, hmore, List.take_append_drop, List.append_nil]
      obtain ⟨-, hnil⟩ := encode_append_inj hz hx hwhole
      have hlength := congrArg List.length hnil
      rw [List.length_append, List.length_drop, List.length_nil] at hlength
      omega
  | @inside before s after hs hn ih =>
    intro y u t hy heq
    rw [List.append_assoc] at heq
    obtain ⟨items, hitems, hbounds⟩ := list_front hy hn heq
    rw [List.take_left] at hitems
    have hbefore : (encodeAll before).length < lengthLimit := by
      rw [List.length_append] at hn
      omega
    obtain ⟨more, rfl, hmore⟩ := encodeAll_append_eq
      (payloadLength_lt_of_mem hbefore) hbounds hitems
    cases more with
    | nil => exact hs.ne_nil (List.append_eq_nil_iff.mp hmore.symm).1
    | cons z zs =>
      rw [encodeAll_cons] at hmore
      exact ih _ _ (hbounds z (by simp)) hmore

theorem Misspelled.not_accepted {s : Bytes} (h : Misspelled s) (t : Bytes) (x : Item) :
    decode (s ++ t) ≠ .ok x := by
  intro hx
  obtain ⟨hencode, -, hsize⟩ := decode_eq_ok hx
  rw [← List.append_nil x.encode] at hencode
  exact h.encode_append_ne [] t hsize hencode

/-- Every item that can be read has one accepted spelling, its encoding. Whatever is spelled
otherwise, at its front or inside a list, and whatever goes on behind an item, is malformed. -/
theorem decode_unique_spelling :
    (∀ b x, decode b = .ok x → x.encode = b) ∧
    (∀ x : Item, x.depth ≤ maxDepth → x.payloadLength < lengthLimit →
      ∃! b, decode b = .ok x) ∧
    (∀ b, (∀ x : Item, x.encode ≠ b) → ∃ reason, decode b = .error (malformed reason)) ∧
    (∀ s t, Misspelled s → ∃ reason, decode (s ++ t) = .error (malformed reason)) ∧
    ∀ (x : Item) t, t ≠ [] → ∃ reason, decode (x.encode ++ t) = .error (malformed reason) := by
  refine ⟨fun b x h => (decode_eq_ok h).1, ?_, ?_, ?_, ?_⟩
  · intro x hdepth hsize
    refine ⟨x.encode, ?_, fun b h => (decode_eq_ok h).1.symm⟩
    dsimp only
    rw [decode_encode x hsize, if_pos hdepth]
  · intro b hb
    exact decode_malformed fun x h => hb x (decode_eq_ok h).1
  · intro s t hs
    exact decode_malformed (hs.not_accepted t)
  · intro x t ht
    exact decode_malformed fun y h => ht (eq_of_decode_append h).2

end EthWire.Rlp

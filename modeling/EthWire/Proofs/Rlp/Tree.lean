import EthWire.Proofs.Rlp.Field
import EthWire.Proofs.Rlp.RoundTrip

/-!
# Trees of values

Byte strings, natural numbers, lists and tuples in any nesting, written and read back:
numbers come back as their shortest byte strings and tuples as lists.
-/

namespace EthWire.Rlp

open Item (encodeAll depthAll)

mutual

/-- Whether a value is a tree of byte strings, natural numbers, lists and tuples. -/
def isTree : Value → Bool
  | .bytes _ => true
  | .byteArray _ => true
  | .int n => 0 ≤ n
  | .list vs => areTrees vs
  | .tuple vs => areTrees vs
  | _ => false

def areTrees : List Value → Bool
  | [] => true
  | v :: rest => isTree v && areTrees rest

end

mutual

/-- How deep lists and tuples nest in a value. -/
def nesting : Value → Nat
  | .list vs => nestingAll vs + 1
  | .tuple vs => nestingAll vs + 1
  | _ => 0

def nestingAll : List Value → Nat
  | [] => 0
  | v :: rest => max (nesting v) (nestingAll rest)

end

mutual

/-- The item that a tree stands for: each number is its byte string without a zero byte in
front, each tuple a list. -/
inductive StandsFor : Value → Item → Prop
  | bytes (b : Bytes) : StandsFor (.bytes b) (.bytes b)
  | byteArray (b : Bytes) : StandsFor (.byteArray b) (.bytes b)
  | int {n : Nat} {b : Bytes} (hvalue : Bytes.toNat b = n) (hhead : b.head? ≠ some 0) :
      StandsFor (.int n) (.bytes b)
  | list {vs : List Value} {items : List Item} (h : AllStandFor vs items) :
      StandsFor (.list vs) (.list items)
  | tuple {vs : List Value} {items : List Item} (h : AllStandFor vs items) :
      StandsFor (.tuple vs) (.list items)

inductive AllStandFor : List Value → List Item → Prop
  | nil : AllStandFor [] []
  | cons {v : Value} {item : Item} {vs : List Value} {items : List Item} (h : StandsFor v item)
      (hrest : AllStandFor vs items) : AllStandFor (v :: vs) (item :: items)

end

mutual

theorem exists_standsFor (v : Value) (hv : isTree v = true) : ∃ x, StandsFor v x := by
  match v with
  | .bytes b => exact ⟨_, .bytes b⟩
  | .byteArray b => exact ⟨_, .byteArray b⟩
  | .int n =>
    rw [isTree, decide_eq_true_eq] at hv
    obtain ⟨k, rfl⟩ := Int.eq_ofNat_of_zero_le hv
    exact ⟨_, .int (Bytes.toNat_ofNat k) (Bytes.head?_ofNat k)⟩
  | .list vs =>
    rw [isTree] at hv
    obtain ⟨items, hitems⟩ := exists_allStandFor vs hv
    exact ⟨_, .list hitems⟩
  | .tuple vs =>
    rw [isTree] at hv
    obtain ⟨items, hitems⟩ := exists_allStandFor vs hv
    exact ⟨_, .tuple hitems⟩
  | .null => cases hv
  | .bool _ => cases hv
  | .float _ => cases hv
  | .text _ => cases hv
  | .dict _ => cases hv
  | .fixed _ _ => cases hv
  | .record _ => cases hv

theorem exists_allStandFor (vs : List Value) (hvs : areTrees vs = true) :
    ∃ items, AllStandFor vs items := by
  match vs with
  | [] => exact ⟨[], .nil⟩
  | v :: rest =>
    rw [areTrees, Bool.and_eq_true] at hvs
    obtain ⟨x, hx⟩ := exists_standsFor v hvs.1
    obtain ⟨items, hitems⟩ := exists_allStandFor rest hvs.2
    exact ⟨x :: items, .cons hx hitems⟩

end

mutual

theorem depth_eq {v : Value} {x : Item} (h : StandsFor v x) : x.depth = nesting v := by
  match h with
  | .bytes b => simp [Item.depth, nesting]
  | .byteArray b => simp [Item.depth, nesting]
  | .int _ _ => simp [Item.depth, nesting]
  | .list hitems => rw [Item.depth, nesting, depthAll_eq hitems]
  | .tuple hitems => rw [Item.depth, nesting, depthAll_eq hitems]

theorem depthAll_eq {vs : List Value} {items : List Item} (h : AllStandFor vs items) :
    depthAll items = nestingAll vs := by
  match h with
  | .nil => rw [depthAll, nestingAll]
  | .cons hv hrest => rw [depthAll, nestingAll, depth_eq hv, depthAll_eq hrest]

end

/-! ## Room for lists -/

mutual

/-- A tree is written as the item that it stands for, if there is room for its lists. -/
theorem ofValueIn_eq {levels : Nat} {v : Value} {x : Item} (h : StandsFor v x)
    (hroom : nesting v ≤ levels) : Item.ofValueIn levels v = .ok x := by
  match h with
  | .bytes b => rw [Item.ofValueIn]
  | .byteArray b => rw [Item.ofValueIn]
  | @StandsFor.int n b hvalue hhead =>
    have hb : Bytes.ofNat n = b := by rw [← hvalue, Bytes.ofNat_toNat hhead]
    rw [Item.ofValueIn, uintBytes_natCast, hb, map_ok]
  | .list hitems =>
    rw [nesting] at hroom
    cases levels with
    | zero => exact absurd hroom (Nat.not_succ_le_zero _)
    | succ inner => rw [Item.ofValueIn, ofValuesIn_eq hitems (Nat.le_of_succ_le_succ hroom), map_ok]
  | .tuple hitems =>
    rw [nesting] at hroom
    cases levels with
    | zero => exact absurd hroom (Nat.not_succ_le_zero _)
    | succ inner => rw [Item.ofValueIn, ofValuesIn_eq hitems (Nat.le_of_succ_le_succ hroom), map_ok]

theorem ofValuesIn_eq {levels : Nat} {vs : List Value} {items : List Item}
    (h : AllStandFor vs items) (hroom : nestingAll vs ≤ levels) :
    Item.ofValuesIn levels vs = .ok items := by
  match h with
  | .nil => rw [Item.ofValuesIn]
  | .cons hv hrest =>
    rw [nestingAll, Nat.max_le] at hroom
    rw [Item.ofValuesIn, ofValueIn_eq hv hroom.1, ok_bind, ofValuesIn_eq hrest hroom.2, ok_bind,
      pure_eq_ok]

end

mutual

/-- A tree that nests deeper than there is room for is not written at all. -/
theorem ofValueIn_of_lt {levels : Nat} {v : Value} {x : Item} (h : StandsFor v x)
    (hdeep : levels < nesting v) : Item.ofValueIn levels v = .error (.misuse .nesting) := by
  match h with
  | .bytes _ => simp [nesting] at hdeep
  | .byteArray _ => simp [nesting] at hdeep
  | .int _ _ => simp [nesting] at hdeep
  | .list hitems =>
    rw [nesting] at hdeep
    cases levels with
    | zero => rw [Item.ofValueIn]
    | succ inner =>
      rw [Item.ofValueIn, ofValuesIn_of_lt hitems (Nat.lt_of_succ_lt_succ hdeep)]
      rfl
  | .tuple hitems =>
    rw [nesting] at hdeep
    cases levels with
    | zero => rw [Item.ofValueIn]
    | succ inner =>
      rw [Item.ofValueIn, ofValuesIn_of_lt hitems (Nat.lt_of_succ_lt_succ hdeep)]
      rfl

/-- The first tree that nests too deep ends the writing; those in front of it are written. -/
theorem ofValuesIn_of_lt {levels : Nat} {vs : List Value} {items : List Item}
    (h : AllStandFor vs items) (hdeep : levels < nestingAll vs) :
    Item.ofValuesIn levels vs = .error (.misuse .nesting) := by
  match h with
  | .nil => simp [nestingAll] at hdeep
  | @AllStandFor.cons v item rest items hv hrest =>
    rw [nestingAll, lt_max_iff] at hdeep
    rw [Item.ofValuesIn]
    by_cases hfirst : levels < nesting v
    · rw [ofValueIn_of_lt hv hfirst, error_bind]
    · rw [ofValueIn_eq hv (Nat.not_lt.mp hfirst), ok_bind,
        ofValuesIn_of_lt hrest (hdeep.resolve_left hfirst), error_bind]

end

/-- However much room there is for lists inside one another, as long as it is enough for those that
are read: a tree that nests no deeper than is read comes back as the item it stands for. One that
nests deeper is written and then refused, if there is room to write it; else it is not written. The
payload of the whole bounds those of its parts. -/
theorem decode_encodeValue (levels : Nat) (hlevels : maxDepth ≤ levels) (v : Value)
    (hv : isTree v = true) :
    (∃ x, StandsFor v x) ∧
    ∀ x, StandsFor v x → x.payloadLength < 2 ^ 64 →
      (nesting v ≤ maxDepth → ∃ b, encodeValueIn levels v = .ok b ∧ decode b = .ok x) ∧
      (maxDepth < nesting v → nesting v ≤ levels →
        ∃ b reason, encodeValueIn levels v = .ok b ∧ decode b = .error (malformed reason)) ∧
      (levels < nesting v → encodeValueIn levels v = .error (.misuse .nesting)) := by
  refine ⟨exists_standsFor v hv, fun x hx hsize => ?_⟩
  have hdepth := depth_eq hx
  have hwritten : nesting v ≤ levels → encodeValueIn levels v = .ok x.encode := by
    intro hroom
    rw [encodeValueIn, ofValueIn_eq hx hroom, map_ok]
  refine ⟨fun hle => ?_, fun hlt hroom => ?_, fun hdeep => ?_⟩
  · refine ⟨x.encode, hwritten (Nat.le_trans hle hlevels), ?_⟩
    rw [decode_encode x hsize, if_pos (by omega)]
  · refine ⟨x.encode, .nestedTooDeep, hwritten hroom, ?_⟩
    rw [decode_encode x hsize, if_neg (by omega)]
  · rw [encodeValueIn, ofValueIn_of_lt hx hdeep]
    rfl

/-- A tuple of a number, a mutable byte string and an empty list comes back as a list. -/
theorem decode_encodeValue_mixed :
    maxDepth ≤ encodeDepth ∧
    ∃ b, encodeValue (.tuple [.int 1024, .byteArray [0x7f], .list []]) = .ok b ∧
      decode b = .ok (.list [.bytes [4, 0], .bytes [0x7f], .list []]) := by
  have hstands : StandsFor (.tuple [.int 1024, .byteArray [0x7f], .list []])
      (.list [.bytes [4, 0], .bytes [0x7f], .list []]) :=
    .tuple (.cons (@StandsFor.int 1024 [4, 0] rfl (by decide))
      (.cons (.byteArray _) (.cons (.list .nil) .nil)))
  have hroom : maxDepth ≤ encodeDepth := by decide
  obtain ⟨hread, -⟩ := (decode_encodeValue encodeDepth hroom _ rfl).2 _ hstands (by decide)
  exact ⟨hroom, hread (by decide)⟩

/-- Empty lists around one another. -/
def nested : Nat → Value
  | 0 => .list []
  | n + 1 => .list [nested n]

theorem nested_standsFor {n : Nat} (hn : n < 2 ^ 32) :
    ∃ x, StandsFor (nested n) x ∧ x.encode.length ≤ 9 * (n + 1) := by
  induction n with
  | zero => exact ⟨.list [], .list .nil, by decide⟩
  | succ n ih =>
    obtain ⟨x, hx, hlength⟩ := ih (Nat.lt_of_succ_lt hn)
    refine ⟨.list [x], .list (.cons hx .nil), ?_⟩
    have hmark := @length_lengthMark_le listOffset x.encode.length (by rw [lengthLimit]; omega)
    rw [encode_list, encodeAll_cons, encodeAll_nil, List.append_nil, List.length_append]
    omega

theorem nesting_nested (n : Nat) : nesting (nested n) = n + 1 ∧ isTree (nested n) = true := by
  induction n with
  | zero => exact ⟨rfl, rfl⟩
  | succ n ih =>
    obtain ⟨hnesting, htree⟩ := ih
    simp [nested, nesting, nestingAll, isTree, areTrees, hnesting, htree]

/-- Four hundred lists around one another nest too deep to be read, but there is no encoding of
them that could be refused. -/
theorem encodeValue_nested :
    isTree (nested 399) = true ∧ maxDepth < nesting (nested 399) ∧
    (∃ x, StandsFor (nested 399) x ∧ x.payloadLength < 2 ^ 64) ∧
    encodeValue (nested 399) = .error (.misuse .nesting) ∧
    ¬∃ b reason, encodeValue (nested 399) = .ok b ∧ decode b = .error (malformed reason) := by
  obtain ⟨hnesting, htree⟩ := nesting_nested 399
  obtain ⟨x, hx, hlength⟩ := @nested_standsFor 399 (by decide)
  have hpayload := payloadLength_le x
  have hdeep : encodeDepth < nesting (nested 399) := by
    rw [hnesting]
    decide
  have herror : encodeValue (nested 399) = .error (.misuse .nesting) := by
    rw [encodeValue, encodeValueIn, ofValueIn_of_lt hx hdeep]
    rfl
  refine ⟨htree, by rw [hnesting]; decide, ⟨x, hx, by omega⟩, herror, ?_⟩
  rintro ⟨b, reason, hb, -⟩
  cases herror.symm.trans hb

end EthWire.Rlp

import EthWire.Proofs.Json.Field
import EthWire.Proofs.Json.ReadBack
import EthWire.Record.Codec

/-!
# Records and their JSON text

A record is read back from the text of its document in any layout.
-/

namespace EthWire

open Json (Legible StringReads Layout isPlain arranged)

/-! ## Layouts -/

namespace Json

variable {layout : Layout} {j : Json} {text : Text}

theorem dump_eq_ok (h : dump layout j = .ok text) : text = j.write layout := by
  unfold dump at h
  split at h
  next s =>
    obtain rfl := Except.ok.inj h
    rw [write, writeAt]
  next =>
    split_ifs at h
    exact (Except.ok.inj h).symm

theorem dump_of_fits (h : layout.Fits) (j : Json) : dump layout j = .ok (j.write layout) := by
  unfold dump
  split
  next s => rw [write, writeAt]
  next => exact if_pos h

theorem dump_obj_of_not_fits (h : ¬layout.Fits) (ms : List (Text × Json)) :
    dump layout (.obj ms) = .error (.misuse .overflow) :=
  if_neg h

end Json

/-! ## The texts of fields -/

theorem isPlain_digitChar : ∀ d < 16, isPlain (Text.digitChar d) = true := by decide

theorem stringReads_quantity (n : Nat) : StringReads (Text.quantity n) := by
  obtain ⟨ds, heq, -, hlt, -⟩ := @Text.ofNatBase_eq_map 16 (by decide) n
  have hdigits : (Text.ofNatBase 16 n).all isPlain = true := by
    rw [heq, List.all_map, List.all_eq_true]
    exact fun d hd => isPlain_digitChar d (hlt d hd)
  refine Json.stringReads_plain ?_
  rw [Text.quantity, List.all_append, hdigits]
  rfl

theorem stringReads_hexMarked (b : Bytes) : StringReads (Bytes.hexMarked b) := by
  have hdigits : (Bytes.hex b).all isPlain = true := by
    induction b with
    | nil => rfl
    | cons x b ih =>
      have hx : x.toNat < 256 := x.toNat_lt
      rw [Bytes.hex_cons, List.all_cons, List.all_cons, ih, isPlain_digitChar _ (by omega),
        isPlain_digitChar _ (by omega)]
      rfl
  refine Json.stringReads_plain ?_
  rw [Bytes.hexMarked, List.all_append, hdigits]
  rfl

theorem legible_quantity {levels : Nat} (n : Nat) : Legible levels (.str (Text.quantity n)) :=
  .str (stringReads_quantity n)

theorem legible_hexMarked {levels : Nat} (b : Bytes) : Legible levels (.str (Bytes.hexMarked b)) :=
  .str (stringReads_hexMarked b)

theorem legible_hex {levels : Nat} {kind : FixedKind} (v : Fixed kind) :
    Legible levels (.str v.hex) :=
  .str (stringReads_hexMarked v.bytes)

/-! ## Objects -/

/-- Members of an object with distinct keys of plain letters, each of which is read back. -/
structure LegibleMembers (levels : Nat) (members : List (String × Json)) : Prop where
  nodup : (members.map fun m => Text.ofString m.1).Nodup
  plain : ∀ m ∈ members, (Text.ofString m.1).all isPlain = true
  values : ∀ m ∈ members, Legible levels m.2

/-- The members of an object as they are read back, before they are put in order. -/
def listed (layout : Layout) (members : List (String × Json)) : List (Text × Json) :=
  members.map fun m => (Text.ofString m.1, arranged layout m.2)

theorem LegibleMembers.legible {levels : Nat} {members : List (String × Json)}
    (h : LegibleMembers levels members) : Legible (levels + 1) (Json.object members) := by
  refine .obj ?_ ?_ ?_
  · rw [List.map_map]
    exact h.nodup
  · intro m hm
    obtain ⟨n, hn, rfl⟩ := List.mem_map.mp hm
    exact Json.stringReads_plain (h.plain n hn)
  · intro m hm
    obtain ⟨n, hn, rfl⟩ := List.mem_map.mp hm
    exact h.values n hn

/-- The order that a layout asks for changes no lookup, for no key comes twice. -/
theorem LegibleMembers.exists_arranged {levels : Nat} {members : List (String × Json)}
    (h : LegibleMembers levels members) (layout : Layout) :
    ∃ ms, arranged layout (Json.object members) = .obj ms ∧
      ∀ key, ms.lookup key = (listed layout members).lookup key := by
  have hlisted : Json.arrangedMembers layout (members.map fun m => (Text.ofString m.1, m.2))
      = listed layout members := by
    rw [Json.arrangedMembers_eq_map, List.map_map]
    rfl
  have hkeys : ((listed layout members).map Prod.fst).Nodup := by
    rw [listed, List.map_map]
    exact h.nodup
  refine ⟨Json.arrange layout (listed layout members), ?_, fun key => ?_⟩
  · rw [Json.object, arranged, hlisted]
  · exact (Json.lookup_perm (Json.arrange_perm _).symm hkeys key).symm

/-- A reader that looks members up by their keys finds them in any layout. -/
theorem LegibleMembers.readObject {α : Type} {levels : Nat} {members : List (String × Json)}
    {layout : Layout} {ofMembers : List (Text × Json) → Except Fault α} {name : Text} {view : α}
    (h : LegibleMembers levels members)
    (hcongr : ∀ ms ns, (∀ key, ms.lookup key = ns.lookup key) → ofMembers ms = ofMembers ns)
    (hread : ofMembers (listed layout members) = .ok view) :
    ((arranged layout (Json.object members)).shape.asObject name >>= ofMembers) = .ok view := by
  obtain ⟨ms, hms, hlookup⟩ := h.exists_arranged layout
  rw [hms, Json.shape, Shape.asObject, ok_bind, hcongr ms _ hlookup, hread]

theorem legible_arr_map {α : Type} {levels : Nat} {write : α → Json} {as : List α}
    (h : ∀ a, Legible levels (write a)) : Legible (levels + 1) (.arr (as.map write)) := by
  refine .arr fun j hj => ?_
  obtain ⟨a, -, rfl⟩ := List.mem_map.mp hj
  exact h a

/-- A record that is read back from its document, its members in the order of the layout, is
read back from its text. -/
theorem decodeJson_eq_ok {α : Type} [JsonRecord α] {r view : α} {layout : Layout}
    (hlegible : Legible Json.nestingLimit (JsonRecord.toJson r))
    (hjson : JsonRecord.ofJson (arranged layout (JsonRecord.toJson r)) = .ok view) :
    decodeJson ((JsonRecord.toJson r).write layout) = .ok view := by
  rw [decodeJson, Json.parse, Json.read_write hlegible]
  show (JsonRecord.ofJson (arranged layout (JsonRecord.toJson r))).mapError _ = .ok view
  rw [hjson]
  rfl

/-! ## Transactions -/

namespace Transaction

theorem legible_jsonMembers {levels : Nat} (t : Transaction) :
    LegibleMembers levels t.jsonMembers where
  nodup := by
    simp only [jsonMembers, List.map_cons, List.map_nil]
    decide
  plain := by
    simp only [jsonMembers, List.forall_mem_cons]
    decide
  values := by
    simp only [jsonMembers, List.forall_mem_cons, legible_quantity, legible_hexMarked, legible_hex,
      List.not_mem_nil, true_and]
    cases t.recipient with
    | none => simp [Legible.null]
    | some address => simp [legible_hex]

theorem ofMembers_congr {ms ns : List (Text × Json)} (h : ∀ key, ms.lookup key = ns.lookup key) :
    ofMembers ms = ofMembers ns := by
  simp only [ofMembers, addressMember?, Json.require_congr h, Json.optional?_congr h]

theorem ofMembers_listed (layout : Layout) (t : Transaction) :
    ofMembers (listed layout t.jsonMembers) = .ok t := by
  have hto : addressMember? (listed layout t.jsonMembers) "to" = .ok t.recipient := by
    cases hrecipient : t.recipient with
    | none => simp [addressMember?, listed, jsonMembers, Json.optional?, Json.isNull, hrecipient]
    | some address =>
      simp [addressMember?, listed, jsonMembers, Json.optional?, Json.isNull, Json.shape,
        hrecipient]
  rw [ofMembers, hto]
  simp [listed, jsonMembers, Json.require, requireMember, Json.isNull, Json.shape]

theorem ofJson_arranged (layout : Layout) (t : Transaction) :
    Transaction.ofJson (arranged layout t.toJson) = .ok t :=
  (@legible_jsonMembers 0 t).readObject (fun _ _ => ofMembers_congr) (ofMembers_listed layout t)

/-- A transaction comes back from its JSON text, whatever the layout. -/
theorem decodeJson_write (t : Transaction) (layout : Layout) :
    decodeJson (t.toJson.write layout) = .ok t :=
  decodeJson_eq_ok t.legible_jsonMembers.legible (ofJson_arranged layout t)

end Transaction

end EthWire

import EthWire.Proofs.Record.Document
import EthWire.Record.Read

/-!
# Records of any kind and their JSON text

A header, a block, a log and a receipt are read back from their documents as a transaction is.
A block stands in the document of its header, whose reader passes over the two lists.
-/

namespace EthWire

open Json (Legible Layout arranged)

/-! ## Headers -/

namespace Header

theorem legible_jsonMembers {levels : Nat} (h : Header) : LegibleMembers levels h.jsonMembers where
  nodup := by
    simp only [jsonMembers, List.map_cons, List.map_nil]
    decide
  plain := by
    simp only [jsonMembers, List.forall_mem_cons]
    decide
  values := by simp [jsonMembers, legible_quantity, legible_hexMarked, legible_hex]

theorem ofMembers_congr {ms ns : List (Text × Json)} (h : ∀ key, ms.lookup key = ns.lookup key) :
    ofMembers ms = ofMembers ns := by
  simp only [ofMembers, fixedOrZero, Json.require_congr h, Json.optional?_congr h]

/-- Members that stand behind those of a header are not looked at. -/
theorem ofMembers_listed_append (layout : Layout) (h : Header) (more : List (Text × Json)) :
    ofMembers (listed layout h.jsonMembers ++ more) = .ok h := by
  simp [ofMembers, fixedOrZero, listed, jsonMembers, Json.require, Json.optional?, requireMember,
    Json.isNull, Json.shape]

theorem ofJson_arranged (layout : Layout) (h : Header) :
    Header.ofJson (arranged layout h.toJson) = .ok h := by
  have hread := ofMembers_listed_append layout h []
  rw [List.append_nil] at hread
  exact (@legible_jsonMembers 0 h).readObject (fun _ _ => ofMembers_congr) hread

theorem decodeJson_write (h : Header) (layout : Layout) :
    decodeJson (h.toJson.write layout) = .ok h :=
  decodeJson_eq_ok h.legible_jsonMembers.legible (ofJson_arranged layout h)

end Header

/-! ## Blocks -/

namespace Block

theorem legible_jsonMembers {levels : Nat} (b : Block) :
    LegibleMembers (levels + 2) b.jsonMembers where
  nodup := by
    simp only [jsonMembers, Header.jsonMembers, List.cons_append, List.nil_append, List.map_cons,
      List.map_nil]
    decide
  plain := by
    simp only [jsonMembers, Header.jsonMembers, List.cons_append, List.nil_append,
      List.forall_mem_cons]
    decide
  values := by
    intro m hm
    rcases List.mem_append.mp hm with hheader | hlists
    · exact b.header.legible_jsonMembers.values m hheader
    · have htransactions : Legible (levels + 2) (.arr (b.transactions.map Transaction.toJson)) :=
        legible_arr_map fun t => t.legible_jsonMembers.legible
      have huncles : Legible (levels + 2) (.arr (b.uncles.map Header.toJson)) :=
        legible_arr_map fun h => h.legible_jsonMembers.legible
      rcases List.mem_pair.mp hlists with rfl | rfl
      · exact htransactions
      · exact huncles

theorem ofMembers_congr {ms ns : List (Text × Json)} (h : ∀ key, ms.lookup key = ns.lookup key) :
    ofMembers ms = ofMembers ns := by
  simp only [ofMembers, Json.require_congr h, Json.member?_congr h, Header.ofMembers_congr h]

theorem ofMembers_listed (layout : Layout) (b : Block) :
    ofMembers (listed layout b.jsonMembers) = .ok b := by
  have hheader : Header.ofMembers (listed layout b.jsonMembers) = .ok b.header := by
    rw [jsonMembers, listed, List.map_append]
    exact Header.ofMembers_listed_append layout b.header _
  have htransactions := mapM_map_ok (Transaction.ofJson_arranged layout) b.transactions
  have huncles := mapM_map_ok (Header.ofJson_arranged layout) b.uncles
  rw [ofMembers, hheader]
  simp [listed, jsonMembers, Header.jsonMembers, Json.require, Json.member?, requireMember,
    Json.isNull, Json.shape, Shape.asArray, Function.comp_def, htransactions, huncles]

theorem ofJson_arranged (layout : Layout) (b : Block) :
    Block.ofJson (arranged layout b.toJson) = .ok b :=
  (@legible_jsonMembers 0 b).readObject (fun _ _ => ofMembers_congr) (ofMembers_listed layout b)

theorem decodeJson_write (b : Block) (layout : Layout) :
    decodeJson (b.toJson.write layout) = .ok b :=
  decodeJson_eq_ok b.legible_jsonMembers.legible (ofJson_arranged layout b)

end Block

/-! ## Logs -/

namespace Log

theorem legible_jsonMembers {levels : Nat} (l : Log) :
    LegibleMembers (levels + 1) l.jsonMembers where
  nodup := by
    simp only [jsonMembers, List.map_cons, List.map_nil]
    decide
  plain := by
    simp only [jsonMembers, List.forall_mem_cons]
    decide
  values := by
    have htopics : Legible (levels + 1) (.arr (l.topics.map fun t => .str t.hex)) :=
      legible_arr_map fun t => legible_hex t
    simp [jsonMembers, legible_quantity, legible_hexMarked, legible_hex, htopics, Legible.bool]

theorem ofMembers_congr {ms ns : List (Text × Json)} (h : ∀ key, ms.lookup key = ns.lookup key) :
    ofMembers ms = ofMembers ns := by
  simp only [ofMembers, hashMember, wordMember, Json.require_congr h, Json.optional?_congr h,
    Json.member?_congr h]

theorem ofMembers_listed (layout : Layout) (l : Log) :
    ofMembers (listed layout l.jsonMembers) = .ok l := by
  simp [ofMembers, hashMember, wordMember, listed, jsonMembers, Json.require, Json.optional?,
    Json.member?, requireMember, Json.isNull, Json.shape, Shape.asArray, Shape.asBool,
    Function.comp_def]

theorem ofJson_arranged (layout : Layout) (l : Log) :
    Log.ofJson (arranged layout l.toJson) = .ok l :=
  (@legible_jsonMembers 0 l).readObject (fun _ _ => ofMembers_congr) (ofMembers_listed layout l)

theorem decodeJson_write (l : Log) (layout : Layout) :
    decodeJson (l.toJson.write layout) = .ok l :=
  decodeJson_eq_ok l.legible_jsonMembers.legible (ofJson_arranged layout l)

end Log

/-! ## Receipts -/

namespace Outcome

theorem length_postState (o : Outcome) :
    o.postState.length = 0 ∨ o.postState.length = FixedKind.hash.size := by
  cases o with
  | failed => exact .inl rfl
  | successful => exact .inl rfl
  | stateRoot root => exact .inr root.length_bytes

theorem status_le_one (o : Outcome) : o.status = 0 ∨ o.status = 1 := by
  cases o with
  | failed => exact .inl rfl
  | successful => exact .inr rfl
  | stateRoot _ => exact .inl rfl

theorem ofParts_parts (o : Outcome) : ofParts o.status o.postState = .ok o := by
  cases o with
  | failed => rfl
  | successful => rfl
  | stateRoot root =>
    have hroot := Fixed.ofBytes?_bytes root
    obtain ⟨bytes, hlength⟩ := root
    cases bytes with
    | nil => cases hlength
    | cons x more => simp [ofParts, postState, status, hroot]

end Outcome

namespace Receipt

theorem legible_jsonMembers {levels : Nat} (r : Receipt) :
    LegibleMembers (levels + 3) r.jsonMembers where
  nodup := by
    simp only [jsonMembers, List.map_cons, List.map_nil]
    decide
  plain := by
    simp only [jsonMembers, List.forall_mem_cons]
    decide
  values := by
    have hlogs : Legible (levels + 3) (.arr (r.logs.map Log.toJson)) :=
      legible_arr_map fun l => l.legible_jsonMembers.legible
    cases hcontract : r.contractAddress with
    | none =>
      simp [jsonMembers, legible_quantity, legible_hexMarked, legible_hex, hlogs, hcontract,
        Legible.null]
    | some address =>
      simp [jsonMembers, legible_quantity, legible_hexMarked, legible_hex, hlogs, hcontract]

theorem ofMembers_congr {ms ns : List (Text × Json)} (h : ∀ key, ms.lookup key = ns.lookup key) :
    ofMembers ms = ofMembers ns := by
  simp only [ofMembers, rootMember, statusMember, Json.require_congr h, Json.optional?_congr h]

theorem ofMembers_listed (layout : Layout) (r : Receipt) :
    ofMembers (listed layout r.jsonMembers) = .ok r := by
  have hroot : rootMember (listed layout r.jsonMembers) = .ok r.outcome.postState := by
    have hoptional : Json.optional? (listed layout r.jsonMembers) "root"
        = some (.text (Bytes.hexMarked r.outcome.postState)) := by
      simp [listed, jsonMembers, Json.optional?, Json.isNull, Json.shape]
    rw [rootMember, hoptional]
    dsimp only
    rw [Shape.asBytes_hexMarked, ok_bind, if_pos r.outcome.length_postState]
    rfl
  have hstatus : statusMember (listed layout r.jsonMembers) r.outcome.postState
      = .ok r.outcome.status := by
    have hoptional : Json.optional? (listed layout r.jsonMembers) "status"
        = some (.text (Text.quantity r.outcome.status)) := by
      simp [listed, jsonMembers, Json.optional?, Json.isNull, Json.shape]
    have hmax : (r.outcome.status : Int) ≤ Word.max 256 := by
      rcases r.outcome.status_le_one with h | h
      · rw [h]; decide
      · rw [h]; decide
    rw [statusMember, hoptional]
    dsimp only
    rw [Shape.asQuantity_quantity hmax, ok_bind, if_pos r.outcome.status_le_one]
    rfl
  have hlogs := mapM_map_ok (Log.ofJson_arranged layout) r.logs
  rw [ofMembers, hroot, ok_bind, hstatus, ok_bind]
  cases hcontract : r.contractAddress with
  | none =>
    simp [listed, jsonMembers, Json.require, Json.optional?, requireMember, Json.isNull,
      Json.shape, Shape.asArray, Function.comp_def, hlogs, hcontract, Outcome.ofParts_parts]
    rw [← hcontract]
  | some address =>
    simp [listed, jsonMembers, Json.require, Json.optional?, requireMember, Json.isNull,
      Json.shape, Shape.asArray, Function.comp_def, hlogs, hcontract, Outcome.ofParts_parts]
    rw [← hcontract]

theorem ofJson_arranged (layout : Layout) (r : Receipt) :
    Receipt.ofJson (arranged layout r.toJson) = .ok r :=
  (@legible_jsonMembers 0 r).readObject (fun _ _ => ofMembers_congr) (ofMembers_listed layout r)

theorem decodeJson_write (r : Receipt) (layout : Layout) :
    decodeJson (r.toJson.write layout) = .ok r :=
  decodeJson_eq_ok r.legible_jsonMembers.legible (ofJson_arranged layout r)

end Receipt

/-! ## Records of any kind -/

/-- Whether records of the kind have an encoding in bytes beside their document. -/
def RecordKind.isWire : RecordKind → Bool
  | header | transaction | block | log | receipt => true
  | newMessage | message | criteria => false

namespace Record

/-- Reading a record whose kind is known as a value is reading one of that type. -/
theorem decodeJson_eq_map {α : Type} [JsonRecord α] {kind : RecordKind} {wrap : α → Record}
    (hname : kind.name = JsonRecord.name α)
    (hread : ∀ j, Record.ofJson kind j = (JsonRecord.ofJson j).map wrap) (text : Text) :
    Record.decodeJson kind text = (EthWire.decodeJson text).map wrap := by
  rw [Record.decodeJson, EthWire.decodeJson, hname]
  cases Json.parse text (JsonRecord.name α) with
  | error f => rfl
  | ok j =>
    rw [ok_bind, ok_bind, hread]
    cases (JsonRecord.ofJson j : Except Fault α) with
    | error f => rfl
    | ok r => rfl

theorem decodeJson_write (r : Record) (hkind : r.kind.isWire = true) (layout : Layout) :
    Record.decodeJson r.kind (r.toJson.write layout) = .ok r := by
  cases r with
  | header h =>
    rw [decodeJson_eq_map rfl (fun _ => rfl)]
    exact map_eq_ok.mpr ⟨h, h.decodeJson_write layout, rfl⟩
  | transaction t =>
    rw [decodeJson_eq_map rfl (fun _ => rfl)]
    exact map_eq_ok.mpr ⟨t, t.decodeJson_write layout, rfl⟩
  | block b =>
    rw [decodeJson_eq_map rfl (fun _ => rfl)]
    exact map_eq_ok.mpr ⟨b, b.decodeJson_write layout, rfl⟩
  | log l =>
    rw [decodeJson_eq_map rfl (fun _ => rfl)]
    exact map_eq_ok.mpr ⟨l, l.decodeJson_write layout, rfl⟩
  | receipt p =>
    rw [decodeJson_eq_map rfl (fun _ => rfl)]
    exact map_eq_ok.mpr ⟨p, p.decodeJson_write layout, rfl⟩
  | newMessage _ => cases hkind
  | message _ => cases hkind
  | criteria _ => cases hkind

/-- The document of a record of any kind is an object. -/
theorem toJson_eq_obj (r : Record) : ∃ ms, r.toJson = .obj ms := by
  cases r with
  | header _ | transaction _ | block _ | log _ | receipt _ | newMessage _ | message _
  | criteria _ => exact ⟨_, rfl⟩

theorem encodeJson_of_fits {layout : Layout} (h : layout.Fits) (r : Record) :
    r.encodeJson layout = .ok (r.toJson.write layout) :=
  Json.dump_of_fits h r.toJson

theorem encodeJson_of_not_fits {layout : Layout} (h : ¬layout.Fits) (r : Record) :
    r.encodeJson layout = .error (.misuse .overflow) := by
  obtain ⟨ms, hms⟩ := r.toJson_eq_obj
  rw [Record.encodeJson, hms, Json.dump_obj_of_not_fits h]

/-- A record comes back from its JSON text with every field, what only a node knows included,
in whatever layout it was written; and it is written again as the same text. The one layout that
is not written is one whose indentation is too wide for a line. -/
theorem json_round_trip (r : Record) (hkind : r.kind.isWire = true) (layout : Layout) :
    (layout.Fits → ∃ text, r.encodeJson layout = .ok text ∧
      Record.decodeJson r.kind text = .ok r ∧
      ∀ u, Record.decodeJson r.kind text = .ok u → u.encodeJson layout = .ok text) ∧
    (¬layout.Fits → r.encodeJson layout = .error (.misuse .overflow)) := by
  refine ⟨fun hfits => ?_, fun hwide => encodeJson_of_not_fits hwide r⟩
  have hwrite := encodeJson_of_fits hfits r
  have hread := r.decodeJson_write hkind layout
  refine ⟨_, hwrite, hread, fun u hu => ?_⟩
  obtain rfl := Except.ok.inj (hread.symm.trans hu)
  exact hwrite

/-- A receipt of a contract creation and its log keep what only a node knows, here in sorted
lines. -/
theorem json_round_trip_receipt :
    let r : Receipt :=
      { outcome := .stateRoot .zero
        logs := [{ topics := [.zero], data := [7], index := ⟨3, by decide⟩, removed := true }]
        contractAddress := some .zero, gasUsed := ⟨21000, by decide⟩ }
    let layout : Layout := { indent := some 2, sortKeys := true }
    (receipt r).kind.isWire = true ∧ layout.Fits ∧
    ∃ text, (receipt r).encodeJson layout = .ok text ∧
      Record.decodeJson .receipt text = .ok (receipt r) := by
  intro r layout
  have hfits : layout.Fits := by decide
  obtain ⟨text, hwrite, hread, -⟩ := (json_round_trip (receipt r) rfl layout).1 hfits
  exact ⟨rfl, hfits, text, hwrite, hread⟩

/-- No text is written of the empty transaction with an indentation of two to the 63rd blanks. -/
theorem encodeJson_wideIndent :
    let r : Record := transaction {}
    let layout : Layout := { indent := some (Nat.pow 2 63) }
    r.kind.isWire = true ∧ r.encodeJson layout = .error (.misuse .overflow) ∧
      ¬∃ text, r.encodeJson layout = .ok text := by
  intro r layout
  have hwide : r.encodeJson layout = .error (.misuse .overflow) :=
    encodeJson_of_not_fits (by decide) r
  refine ⟨rfl, hwide, ?_⟩
  rintro ⟨text, h⟩
  cases hwide.symm.trans h

end Record

end EthWire

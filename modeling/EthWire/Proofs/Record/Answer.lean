import EthWire.Proofs.Record.Arguments
import EthWire.Proofs.Refusal
import EthWire.Proofs.Rlp.Canonical

/-!
# Answers of decoders

A decoder answers with a record that its constructor accepts as it stands, or with a
malformation of the format that it reads. The reader of each record is taken apart into its
fields, none of which ends in any other way.
-/

namespace EthWire

/-- A record of the kind that passes the checks of its constructor, or a malformation. -/
inductive Answer (kind : RecordKind) (format : Format) : Except Fault Record → Prop
  | record {r : Record} (hkind : r.kind = kind) (hbuild : Record.build kind r.arguments = .ok r) :
      Answer kind format (.ok r)
  | malformed (field : Text) (reason : Reason) :
      Answer kind format (.error (.malformed format field reason))

variable {spared : Fault → Prop}

/-! ## Readers of records -/

/-- A member that stands for a default where it is missing or null. -/
theorem refuses_optionalMember {α : Type} {read : Shape Json → Except Fault α} {default : α}
    (h : ∀ s, Refuses .json spared (read s)) (members : List (Text × Json)) (key : String) :
    Refuses .json spared (match Json.optional? members key with
      | some s => read s
      | none => .ok default) := by
  cases Json.optional? members key with
  | none => exact refuses_ok default
  | some s => exact h s

namespace Header

theorem refuses_ofItem (item : Rlp.Item) : Refuses .rlp spared (Header.ofItem item) := by
  rw [ofItem, refuses_bind]
  refine ⟨Rlp.Item.refuses_asList, fun items _ => ?_⟩
  split
  · simp
  · simp

theorem refuses_fixedOrZero {kind : FixedKind} (members : List (Text × Json)) (key : String) :
    Refuses .json spared (fixedOrZero members key : Except Fault (Fixed kind)) :=
  refuses_optionalMember (fun _ => Shape.refuses_asFixed) members key

theorem refuses_ofMembers (members : List (Text × Json)) :
    Refuses .json spared (Header.ofMembers members) := by
  simp [ofMembers, refuses_fixedOrZero]

theorem refuses_ofJson (j : Json) : Refuses .json spared (Header.ofJson j) := by
  simp [ofJson, refuses_ofMembers]

end Header

namespace Transaction

theorem refuses_recipientOfBytes (b : Bytes) : Refuses .rlp spared (recipientOfBytes b) := by
  unfold recipientOfBytes
  split
  · simp
  · simp

theorem refuses_ofItem (item : Rlp.Item) : Refuses .rlp spared (Transaction.ofItem item) := by
  rw [ofItem, refuses_bind]
  refine ⟨Rlp.Item.refuses_asList, fun items _ => ?_⟩
  split
  · simp [refuses_recipientOfBytes]
  · simp

theorem refuses_addressMember? (members : List (Text × Json)) (key : String) :
    Refuses .json spared (addressMember? members key) :=
  refuses_optionalMember (fun _ => refuses_map.mpr Shape.refuses_asFixed) members key

theorem refuses_ofJson (j : Json) : Refuses .json spared (Transaction.ofJson j) := by
  simp [ofJson, ofMembers, refuses_addressMember?]

end Transaction

namespace Block

theorem refuses_ofItem (item : Rlp.Item) : Refuses .rlp spared (Block.ofItem item) := by
  rw [ofItem, refuses_bind]
  refine ⟨Rlp.Item.refuses_asList, fun items _ => ?_⟩
  split
  · simp [Header.refuses_ofItem, refuses_mapM Header.refuses_ofItem,
      refuses_mapM Transaction.refuses_ofItem]
  · simp

theorem refuses_ofJson (j : Json) : Refuses .json spared (Block.ofJson j) := by
  have hmembers : ∀ members, Refuses .json spared (Block.ofMembers members) := by
    intro members
    -- the reader goes on in one way with uncles and in another without
    cases huncles : Json.member? members "uncles"
    all_goals
      simp [ofMembers, huncles, Header.refuses_ofMembers, refuses_mapM Header.refuses_ofJson,
        refuses_mapM Transaction.refuses_ofJson]
  simp [ofJson, hmembers]

end Block

namespace Log

theorem refuses_ofItem (item : Rlp.Item) : Refuses .rlp spared (Log.ofItem item) := by
  have htopics : ∀ items : List Rlp.Item, Refuses .rlp spared
      (items.mapM fun t => (t.asFixed "topics" : Except Fault Hash)) :=
    refuses_mapM fun t => Rlp.Item.refuses_asFixed
  rw [ofItem, refuses_bind]
  refine ⟨Rlp.Item.refuses_asList, fun items _ => ?_⟩
  split
  · simp [htopics]
  · simp

theorem refuses_hashMember (members : List (Text × Json)) (key : String) :
    Refuses .json spared (hashMember members key) :=
  refuses_optionalMember (fun _ => Shape.refuses_asFixed) members key

theorem refuses_wordMember (members : List (Text × Json)) (key : String) :
    Refuses .json spared (wordMember members key) :=
  refuses_optionalMember (fun _ => Shape.refuses_asWord) members key

theorem refuses_ofJson (j : Json) : Refuses .json spared (Log.ofJson j) := by
  have htopics : ∀ js : List Json, Refuses .json spared
      (js.mapM fun t => (t.shape.asFixed "topics" : Except Fault Hash)) :=
    refuses_mapM fun t => Shape.refuses_asFixed
  have hmembers : ∀ members, Refuses .json spared (Log.ofMembers members) := by
    intro members
    cases hremoved : Json.member? members "removed"
    all_goals simp [ofMembers, hremoved, htopics, refuses_hashMember, refuses_wordMember]
  simp [ofJson, hmembers]

end Log

namespace Outcome

theorem refuses_ofBytes (b : Bytes) : Refuses .rlp spared (ofBytes b) := by
  unfold ofBytes
  split
  · simp
  · split
    · simp
    · split
      · simp
      · simp

theorem refuses_ofParts (format : Format) (status : Nat) (postState : Bytes) :
    Refuses format spared (ofParts status postState) := by
  unfold ofParts
  split
  · simp
  · split
    · simp
    · split
      · simp
      · simp

end Outcome

namespace Receipt

theorem refuses_ofItem (item : Rlp.Item) : Refuses .rlp spared (Receipt.ofItem item) := by
  rw [ofItem, refuses_bind]
  refine ⟨Rlp.Item.refuses_asList, fun items _ => ?_⟩
  split
  · simp [Outcome.refuses_ofBytes, refuses_mapM Log.refuses_ofItem]
  · simp

theorem refuses_rootMember (members : List (Text × Json)) :
    Refuses .json spared (rootMember members) := by
  have hsize : ∀ b : Bytes, Refuses .json spared
      (if b.length = 0 ∨ b.length = FixedKind.hash.size then pure b
        else .error (jsonFault "root" (.stateRootSize b.length))) := by
    intro b
    split
    · simp
    · simp
  cases hroot : Json.optional? members "root" with
  | none => simp [rootMember, hroot]
  | some s =>
    simp only [rootMember, hroot]
    exact refuses_bind.mpr ⟨Shape.refuses_asBytes, fun b _ => hsize b⟩

theorem refuses_statusMember (members : List (Text × Json)) (postState : Bytes) :
    Refuses .json spared (statusMember members postState) := by
  unfold statusMember
  split
  · simp
  · rw [refuses_bind]
    refine ⟨Shape.refuses_asQuantity, fun n _ => ?_⟩
    split
    · simp
    · simp

theorem refuses_ofJson (j : Json) : Refuses .json spared (Receipt.ofJson j) := by
  have hmembers : ∀ members, Refuses .json spared (Receipt.ofMembers members) := by
    intro members
    cases hcontract : Json.optional? members "contractAddress"
    all_goals
      simp [ofMembers, hcontract, refuses_rootMember, refuses_statusMember,
        Outcome.refuses_ofParts, refuses_mapM Log.refuses_ofJson]
  simp [ofJson, hmembers]

end Receipt

/-! ## Decoders -/

/-- A reader that refuses as it should, and whose records have the fields that their
constructor asks for. -/
theorem Refuses.answer {kind : RecordKind} {format : Format} {x : Except Fault Record}
    (h : Refuses format spared x) (hkind : ∀ r, x = .ok r → r.kind = kind)
    (hwork : ∀ r w, x = .ok r → r.work? = some w → w.isNegative = false) (name : Text) :
    Answer kind format (x.mapError (Fault.inRecord format name)) ∨
    ∃ f, spared f ∧ x.mapError (Fault.inRecord format name) = .error (f.inRecord format name) := by
  rcases h.mapError_cases name with ⟨r, hr, hx⟩ | ⟨field, reason, hx⟩ | hspared
  · rw [hx]
    have hbuild := Record.build_arguments fun w hw => hwork r w hr hw
    rw [hkind r hr] at hbuild
    exact .inl (.record (hkind r hr) hbuild)
  · rw [hx]
    exact .inl (.malformed field reason)
  · exact .inr hspared

namespace Record

theorem kind_of_ofJson {kind : RecordKind} {j : Json} {r : Record}
    (h : Record.ofJson kind j = .ok r) : r.kind = kind := by
  cases kind with
  | header | transaction | block | log | receipt | newMessage | message | criteria =>
    obtain ⟨_, _, rfl⟩ := map_eq_ok.mp h
    rfl

/-- What a document is answered with, beside the faults of its reader that are spared. -/
theorem decodeJson_answer {kind : RecordKind} {spared : Json → Fault → Prop}
    (hrefuses : ∀ j, Refuses .json (spared j) (Record.ofJson kind j))
    (hwork : ∀ j r w, Record.ofJson kind j = .ok r → r.work? = some w → w.isNegative = false)
    (text : Text) :
    Answer kind .json (Record.decodeJson kind text) ∨
    ∃ j f, Json.read text = .ok j ∧ spared j f ∧
      Record.decodeJson kind text = .error (f.inRecord .json kind.name) := by
  rw [Record.decodeJson, Json.parse]
  cases hread : Json.read text with
  | error cause => exact .inl (.malformed kind.name (.unreadable cause))
  | ok j =>
    rcases (hrefuses j).answer (fun r => kind_of_ofJson) (hwork j) kind.name with hx | ⟨f, hf, hx⟩
    · exact .inl hx
    · exact .inr ⟨j, f, rfl, hf, hx⟩

/-- The fields of a record that has an encoding are bounded by their types alone. -/
theorem isNegative_work {r : Record} {w : Binary64} (h : r.kind.isWire = true)
    (hw : r.work? = some w) : w.isNegative = false := by
  cases r with
  | header _ | transaction _ | block _ | log _ | receipt _ => cases hw
  | newMessage _ | message _ | criteria _ => cases h

theorem decodeRlp_answer {α : Type} [WireRecord α] {kind : RecordKind} (hwire : kind.isWire = true)
    (wrap : α → Record) (hkind : ∀ a, (wrap a).kind = kind)
    (hrefuses : ∀ item, Refuses .rlp (fun _ => False) (WireRecord.ofItem item : Except Fault α))
    (data : Bytes) : Answer kind .rlp ((EthWire.decodeRlp data).map wrap) := by
  rw [EthWire.decodeRlp]
  cases hitem : Rlp.decode data with
  | error f =>
    obtain ⟨reason, rfl⟩ := Rlp.decode_fault hitem
    exact .malformed _ reason
  | ok item =>
    have hcomm : ∀ (x : Except Fault α) (g : Fault → Fault),
        (x.mapError g).map wrap = (x.map wrap).mapError g := by
      intro x g
      cases x with
      | ok a => rfl
      | error f => rfl
    have hread : ∀ r, (WireRecord.ofItem item).map wrap = .ok r → r.kind = kind := by
      intro r hr
      obtain ⟨a, -, rfl⟩ := map_eq_ok.mp hr
      exact hkind a
    have hwork : ∀ r w, (WireRecord.ofItem item).map wrap = .ok r → r.work? = some w →
        w.isNegative = false :=
      fun r w hr hw => isNegative_work (by rw [hread r hr, hwire]) hw
    rw [ok_bind, hcomm]
    rcases (refuses_map.mpr (hrefuses item)).answer hread hwork _ with hanswer | ⟨_, hspared, _⟩
    · exact hanswer
    · exact hspared.elim

theorem refuses_ofJson {kind : RecordKind} (hkind : kind.isWire = true) (j : Json) :
    Refuses .json spared (Record.ofJson kind j) := by
  cases kind with
  | header => exact refuses_map.mpr (Header.refuses_ofJson j)
  | transaction => exact refuses_map.mpr (Transaction.refuses_ofJson j)
  | block => exact refuses_map.mpr (Block.refuses_ofJson j)
  | log => exact refuses_map.mpr (Log.refuses_ofJson j)
  | receipt => exact refuses_map.mpr (Receipt.refuses_ofJson j)
  | newMessage | message | criteria => cases hkind

/-- On any bytes and on any text the decoders of a record that has an encoding answer with a
record that its constructor accepts or with a malformation. No other fault comes out of them. -/
theorem decode_answers {kind : RecordKind} (hkind : kind.isWire = true) :
    (∀ data, Answer kind .rlp (Record.decodeRlp kind data)) ∧
    ∀ text, Answer kind .json (Record.decodeJson kind text) := by
  constructor
  · intro data
    cases kind with
    | header => exact decodeRlp_answer rfl header (fun _ => rfl) Header.refuses_ofItem data
    | transaction =>
      exact decodeRlp_answer rfl transaction (fun _ => rfl) Transaction.refuses_ofItem data
    | block => exact decodeRlp_answer rfl block (fun _ => rfl) Block.refuses_ofItem data
    | log => exact decodeRlp_answer rfl log (fun _ => rfl) Log.refuses_ofItem data
    | receipt => exact decodeRlp_answer rfl receipt (fun _ => rfl) Receipt.refuses_ofItem data
    | newMessage | message | criteria => cases hkind
  · intro text
    have hwork : ∀ j r w, Record.ofJson kind j = .ok r → r.work? = some w →
        w.isNegative = false :=
      fun j r w hr hw => isNegative_work (by rw [kind_of_ofJson hr, hkind]) hw
    have hrefuses : ∀ j, Refuses .json (fun _ => False) (Record.ofJson kind j) :=
      refuses_ofJson hkind
    rcases decodeJson_answer hrefuses hwork text with hanswer | ⟨_, _, _, hspared, _⟩
    · exact hanswer
    · exact hspared.elim

/-- The empty list is no transaction, and neither is a document of one. -/
theorem decode_answers_transaction :
    RecordKind.transaction.isWire = true ∧
    Answer .transaction .rlp (Record.decodeRlp .transaction [0xc0]) ∧
    Answer .transaction .json (Record.decodeJson .transaction "[]") :=
  ⟨rfl, (decode_answers rfl).1 [0xc0], (decode_answers rfl).2 "[]"⟩

end Record

end EthWire

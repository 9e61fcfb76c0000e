import EthWire.Proofs.Binary64.Overflow
import EthWire.Proofs.Record.Answer
import EthWire.Whisper.Batch

/-!
# Answers of whisper decoders

A proof of work is read as the float that is nearest to it. An integer beyond the finite numbers
has none, and then a fault comes out that is no malformation. It is the only one that does.
-/

namespace EthWire

variable {spared : Fault → Prop}

/-- The member with the proof of work, in the documents of the kinds that have one. -/
def RecordKind.workKey? : RecordKind → Option String
  | newMessage => some "powTarget"
  | message => some "pow"
  | criteria => some "minPow"
  | _ => none

/-- A document whose proof of work is an integer beyond the finite numbers. -/
inductive Overflows (kind : RecordKind) : Json → Prop
  | intro {key : String} {members : List (Text × Json)} {n : Int}
      (hkey : kind.workKey? = some key) (hmember : Json.member? members key = some (.int n))
      (hlimit : Binary64.overflowLimit ≤ n.natAbs) : Overflows kind (.obj members)

/-- The fault of such a document. -/
def OverflowFault (kind : RecordKind) (j : Json) (f : Fault) : Prop :=
  f = .misuse .overflow ∧ Overflows kind j

/-! ## Fields -/

namespace Whisper

variable {members : List (Text × Json)} {key : String}

@[simp] theorem refuses_textMember : Refuses .json spared (textMember members key) := by
  unfold textMember
  split
  · simp
  · simp
  · simp

@[simp] theorem refuses_bytesMember : Refuses .json spared (bytesMember members key) := by
  unfold bytesMember
  split
  · simp
  · simp

@[simp] theorem refuses_word32Member {default : Word 32} :
    Refuses .json spared (word32Member members key default) := by
  unfold word32Member
  split
  · simp
  · split
    · simp
    · simp
  · simp

theorem refuses_floatMember {kind : RecordKind} {default : Binary64}
    (hkey : kind.workKey? = some key) :
    Refuses .json (OverflowFault kind (.obj members)) (floatMember members key default) := by
  unfold floatMember
  split
  · simp
  · simp
  · rename_i n hmember
    split
    · simp
    · rename_i hnone
      have hlimit : Binary64.overflowLimit ≤ n.natAbs := Binary64.ofInt?_eq_none.mp hnone
      exact refuses_error.mpr (.spared ⟨rfl, .intro hkey hmember hlimit⟩)
  · simp

@[simp] theorem refuses_notNegative {name : Text} {x : Binary64} :
    Refuses .json spared (notNegative name x) := by
  unfold notNegative
  split
  · simp
  · simp

theorem isNegative_of_notNegative {name : Text} {x y : Binary64} (h : notNegative name x = .ok y) :
    y.isNegative = false := by
  unfold notNegative at h
  split at h
  · cases h
  · rename_i hx
    obtain rfl := Except.ok.inj h
    exact Bool.eq_false_iff.mpr hx

end Whisper

/-! ## Readers of records -/

theorem Json.eq_obj_of_asObject {j : Json} {record : Text} {members : List (Text × Json)}
    (h : j.shape.asObject record = .ok members) : j = .obj members := by
  cases j with
  | obj ms =>
    obtain rfl := Except.ok.inj h
    rfl
  | null | bool _ | int _ | float _ | str _ | arr _ => cases h

namespace NewMessage

theorem refuses_ofJson (j : Json) :
    Refuses .json (OverflowFault .newMessage j) (NewMessage.ofJson j) := by
  rw [ofJson, refuses_bind]
  refine ⟨Shape.refuses_asObject, fun members hmembers => ?_⟩
  obtain rfl := Json.eq_obj_of_asObject hmembers
  have htarget := @Whisper.refuses_floatMember members "powTarget" .newMessage defaultPowTarget rfl
  cases htopic : Json.optional? members "topic" with
  | none => simp [ofMembers, htopic, htarget]
  | some s => simp [ofMembers, htopic, htarget]

theorem yields_ofJson (j : Json) :
    Yields (fun m : NewMessage => m.powTarget.isNegative = false) (NewMessage.ofJson j) := by
  rw [ofJson, yields_bind]
  intro members _
  cases htopic : Json.optional? members "topic"
  all_goals
    simp only [ofMembers, htopic, yields_bind, pure_eq_ok, yields_ok]
    intros
    exact Whisper.isNegative_of_notNegative (by assumption)

end NewMessage

namespace Message

theorem refuses_ofJson (j : Json) :
    Refuses .json (OverflowFault .message j) (Message.ofJson j) := by
  rw [ofJson, refuses_bind]
  refine ⟨Shape.refuses_asObject, fun members hmembers => ?_⟩
  obtain rfl := Json.eq_obj_of_asObject hmembers
  have hpow := @Whisper.refuses_floatMember members "pow" .message .zero rfl
  simp [ofMembers, hpow]

theorem yields_ofJson (j : Json) :
    Yields (fun m : Message => m.pow.isNegative = false) (Message.ofJson j) := by
  simp only [ofJson, ofMembers, yields_bind, pure_eq_ok, yields_ok]
  intros
  exact Whisper.isNegative_of_notNegative (by assumption)

end Message

namespace Criteria

theorem refuses_ofJson (j : Json) :
    Refuses .json (OverflowFault .criteria j) (Criteria.ofJson j) := by
  have htopics : ∀ js : List Json, Refuses .json (OverflowFault .criteria j)
      (js.mapM fun t => (t.shape.asFixed "topics" : Except Fault Topic)) :=
    refuses_mapM fun t => Shape.refuses_asFixed
  rw [ofJson, refuses_bind]
  refine ⟨Shape.refuses_asObject, fun members hmembers => ?_⟩
  obtain rfl := Json.eq_obj_of_asObject hmembers
  have hpow := @Whisper.refuses_floatMember members "minPow" .criteria .zero rfl
  -- either list or flag may be missing, and its reader goes on from both
  cases harray : Json.member? members "topics" <;> cases hallow : Json.member? members "allowP2P"
  all_goals simp [ofMembers, harray, hallow, htopics, hpow]

theorem yields_ofJson (j : Json) :
    Yields (fun c : Criteria => c.minPow.isNegative = false) (Criteria.ofJson j) := by
  rw [ofJson, yields_bind]
  intro members _
  cases harray : Json.member? members "topics" <;> cases hallow : Json.member? members "allowP2P"
  all_goals
    simp only [ofMembers, harray, hallow, yields_bind, pure_eq_ok, yields_ok]
    intros
    exact Whisper.isNegative_of_notNegative (by assumption)

end Criteria

/-! ## Decoders -/

namespace Record

theorem refuses_ofJson_overflow (kind : RecordKind) (j : Json) :
    Refuses .json (OverflowFault kind j) (Record.ofJson kind j) := by
  cases kind with
  | header | transaction | block | log | receipt => exact refuses_ofJson rfl j
  | newMessage => exact refuses_map.mpr (NewMessage.refuses_ofJson j)
  | message => exact refuses_map.mpr (Message.refuses_ofJson j)
  | criteria => exact refuses_map.mpr (Criteria.refuses_ofJson j)

theorem isNegative_work_ofJson {kind : RecordKind} {j : Json} {r : Record} {w : Binary64}
    (hr : Record.ofJson kind j = .ok r) (hw : r.work? = some w) : w.isNegative = false := by
  cases kind with
  | header | transaction | block | log | receipt =>
    exact isNegative_work (by rw [kind_of_ofJson hr]; rfl) hw
  | newMessage =>
    obtain ⟨m, hm, rfl⟩ := map_eq_ok.mp hr
    obtain rfl := Option.some.inj hw
    exact NewMessage.yields_ofJson j m hm
  | message =>
    obtain ⟨m, hm, rfl⟩ := map_eq_ok.mp hr
    obtain rfl := Option.some.inj hw
    exact Message.yields_ofJson j m hm
  | criteria =>
    obtain ⟨c, hc, rfl⟩ := map_eq_ok.mp hr
    obtain rfl := Option.some.inj hw
    exact Criteria.yields_ofJson j c hc

/-- A document that is not of a record is answered with a malformation, unless its proof of work
is an integer beyond the finite numbers. -/
theorem decodeJson_answer_or_overflow (kind : RecordKind) (text : Text) :
    Answer kind .json (Record.decodeJson kind text) ∨
    Record.decodeJson kind text = .error (.misuse .overflow) ∧
      ∃ j, Json.read text = .ok j ∧ Overflows kind j := by
  rcases decodeJson_answer (refuses_ofJson_overflow kind) (fun _ _ _ => isNegative_work_ofJson) text
    with hanswer | ⟨j, f, hread, ⟨rfl, hoverflow⟩, hfault⟩
  · exact .inl hanswer
  · exact .inr ⟨hfault, j, hread, hoverflow⟩

end Record

namespace Message

/-- Messages that their constructor accepts, or a malformation. -/
inductive BatchAnswer : Except Fault (Collection Message) → Prop
  | messages {ms : List Message} (h : ∀ m ∈ ms, Message.build m.arguments = .ok m) :
      BatchAnswer (.ok ⟨.messages, ms⟩)
  | malformed (field : Text) (reason : Reason) : BatchAnswer (.error (.malformed .json field reason))

theorem refuses_mapM_ofJson (entries : List Json) :
    Refuses .json (fun f => f = .misuse .overflow ∧ ∃ j ∈ entries, Overflows .message j)
      (entries.mapM Message.ofJson) := by
  refine refuses_mapM_of_mem fun j hj => ?_
  refine (refuses_ofJson j).mono ?_
  rintro f ⟨rfl, hoverflows⟩
  exact ⟨rfl, j, hj, hoverflows⟩

/-- The same of an array of messages, of which one is enough to refuse it. -/
theorem decodeBatch_answer_or_overflow (text : Text) :
    BatchAnswer (Message.decodeBatch text) ∨
    Message.decodeBatch text = .error (.misuse .overflow) ∧
      ∃ entries, Json.read text = .ok (.arr entries) ∧ ∃ j ∈ entries, Overflows .message j := by
  rw [decodeBatch, Json.parse]
  cases hread : Json.read text with
  | error cause => exact .inl (.malformed "Messages" (.unreadable cause))
  | ok j =>
    cases j with
    | arr entries =>
      have hrefuses := refuses_mapM_ofJson entries
      rcases hrefuses.mapError_cases "Messages" with
        ⟨ms, hms, hx⟩ | ⟨field, reason, hx⟩ | ⟨f, ⟨rfl, hoverflows⟩, hx⟩
      · left
        show BatchAnswer ((entries.mapM Message.ofJson).mapError _ >>= _)
        rw [hx]
        have hwork := yields_mapM yields_ofJson entries ms hms
        exact .messages fun m hm => build_arguments (hwork m hm)
      · left
        show BatchAnswer ((entries.mapM Message.ofJson).mapError _ >>= _)
        rw [hx]
        exact .malformed field reason
      · right
        refine ⟨?_, entries, rfl, hoverflows⟩
        show ((entries.mapM Message.ofJson).mapError _ >>= _) = _
        rw [hx]
        rfl
    | null | bool _ | int _ | float _ | str _ | obj _ =>
      exact .inl (.malformed "Messages" (.notArray _))

end Message

namespace Whisper

/-- On any text, the readers of whisper records and of arrays of messages answer with what their
constructors accept or with a malformation, unless a proof of work is an integer beyond the
finite numbers. -/
theorem decode_answer_or_overflow (text : Text) :
    (∀ kind, Answer kind .json (Record.decodeJson kind text) ∨
      Record.decodeJson kind text = .error (.misuse .overflow) ∧
        ∃ j, Json.read text = .ok j ∧ Overflows kind j) ∧
    (Message.BatchAnswer (Message.decodeBatch text) ∨
      Message.decodeBatch text = .error (.misuse .overflow) ∧
        ∃ entries, Json.read text = .ok (.arr entries) ∧ ∃ j ∈ entries, Overflows .message j) :=
  ⟨fun kind => Record.decodeJson_answer_or_overflow kind text,
    Message.decodeBatch_answer_or_overflow text⟩

/-- Whether a computation ends with a value or a malformation. -/
def isAnswered {α : Type} : Except Fault α → Bool
  | .ok _ => true
  | .error (.malformed ..) => true
  | .error _ => false

theorem isAnswered_of_answer {kind : RecordKind} {format : Format} {x : Except Fault Record}
    (h : Answer kind format x) : isAnswered x = true := by
  cases h with
  | record _ _ => rfl
  | malformed _ _ => rfl

/-- A message to send that asks for a proof of work of 10 to the power of 309. -/
def hugeTarget : Text :=
  Text.ofString "\x7b\"powTarget\":1" ++ List.replicate 309 (CodePoint.ofChar '0')
    ++ Text.ofString "\x7d"

/-- Such a message is not answered with a malformation. -/
theorem decodeJson_hugeTarget :
    Record.decodeJson .newMessage hugeTarget = .error (.misuse .overflow) ∧
    ¬Answer .newMessage .json (Record.decodeJson .newMessage hugeTarget) := by
  have hanswer : ¬Answer .newMessage .json (Record.decodeJson .newMessage hugeTarget) :=
    fun h => absurd (isAnswered_of_answer h) (by decide +kernel)
  have hoverflow := Record.decodeJson_answer_or_overflow .newMessage hugeTarget
  exact ⟨(hoverflow.resolve_left hanswer).1, hanswer⟩

end Whisper

end EthWire

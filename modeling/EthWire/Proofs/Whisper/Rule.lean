import EthWire.Proofs.Whisper.History

/-!
# The rules of whisper fields

Each field of a message to send or of a filter keeps one of a few rules. A rule says what such a
field may hold, and to what a value is brought before it is stored there, if it can be: a byte
string is copied, a topic is cut or padded to its width, an integer becomes a float where floats
are kept. The checks of the fields follow the rules.
-/

namespace EthWire

inductive FieldRule
  | text
  | bytes
  | word
  | topic
  | work
  | topics
  | flag
deriving DecidableEq, Repr

namespace FieldRule

/-- What a field of the rule may hold. -/
inductive Holds : FieldRule → Value → Prop
  | text (s : Text) : Holds text (.text s)
  | bytes (b : Bytes) : Holds bytes (.bytes b)
  | word {n : Int} (hlow : 0 ≤ n) (hhigh : n < 2 ^ 32) : Holds word (.int n)
  | topic (t : Topic) (hwidth : t.bytes.length = 4) : Holds topic (.fixed .topic t)
  /-- A float that is not below zero. -/
  | work {x : Binary64} (h : x.isNegative = false) : Holds work (.float x)
  | topics {vs : List Value} (h : ∀ v ∈ vs, Holds topic v) : Holds topics (.tuple vs)
  | flag (b : Bool) : Holds flag (.bool b)

/-- A topic as it is, and any byte string cut or padded to one. -/
def topicOf? : Value → Option Value
  | .fixed .topic t => some (.fixed .topic t)
  | v => v.bytes?.map fun b => .fixed .topic (Topic.ofBytes b)

/-- What is stored for a value, unless the rule refuses it. One element that is no topic refuses
a sequence of topics. -/
def normal? : FieldRule → Value → Option Value
  | text, .text s => some (.text s)
  | bytes, v => v.bytes?.map .bytes
  | word, .int n => if 0 ≤ n ∧ n < 2 ^ 32 then some (.int n) else none
  | topic, v => topicOf? v
  | work, .float x => if x.isNegative then none else some (.float x)
  | work, .int n => if n < 0 then none else (Binary64.ofInt? n).map .float
  | topics, v => v.sequence?.bind fun vs => (vs.mapM topicOf?).map .tuple
  | flag, .bool b => some (.bool b)
  | _, _ => none

variable {rule : FieldRule} {v w : Value}

/-! ## What is stored keeps the rule -/

theorem holds_of_topicOf? (h : topicOf? v = some w) : Holds topic w := by
  unfold topicOf? at h
  split at h
  next t =>
    obtain rfl := Option.some.inj h
    exact .topic t t.length_bytes
  next =>
    obtain ⟨b, -, rfl⟩ := Option.map_eq_some_iff.mp h
    exact .topic (Topic.ofBytes b) (Topic.ofBytes b).length_bytes

theorem holds_of_mapM_topicOf? {vs ws : List Value} (h : vs.mapM topicOf? = some ws) :
    ∀ w ∈ ws, Holds topic w := by
  induction vs generalizing ws with
  | nil =>
    obtain rfl := Option.some.inj h
    simp
  | cons v vs ih =>
    rw [List.mapM_cons] at h
    obtain ⟨u, hu, h⟩ := Option.bind_eq_some_iff.mp h
    obtain ⟨us, hus, h⟩ := Option.bind_eq_some_iff.mp h
    obtain rfl := Option.some.inj h
    exact List.forall_mem_cons.mpr ⟨holds_of_topicOf? hu, ih hus⟩

theorem holds_of_normal? (h : rule.normal? v = some w) : rule.Holds w := by
  unfold normal? at h
  split at h
  next s =>
    obtain rfl := Option.some.inj h
    exact .text s
  next =>
    obtain ⟨b, -, rfl⟩ := Option.map_eq_some_iff.mp h
    exact .bytes b
  next n =>
    obtain ⟨⟨hlow, hhigh⟩, hw⟩ := Option.ite_none_right_eq_some.mp h
    obtain rfl := Option.some.inj hw
    exact .word hlow hhigh
  next => exact holds_of_topicOf? h
  next x =>
    obtain ⟨hx, hw⟩ := Option.ite_none_left_eq_some.mp h
    obtain rfl := Option.some.inj hw
    exact .work (Bool.eq_false_iff.mpr hx)
  next n =>
    obtain ⟨hn, hw⟩ := Option.ite_none_left_eq_some.mp h
    obtain ⟨x, hx, rfl⟩ := Option.map_eq_some_iff.mp hw
    exact .work (Binary64.isWork_of_ofInt? (Int.not_lt.mp hn) hx).2
  next =>
    obtain ⟨vs, -, hvs⟩ := Option.bind_eq_some_iff.mp h
    obtain ⟨ws, hws, rfl⟩ := Option.map_eq_some_iff.mp hvs
    exact .topics (holds_of_mapM_topicOf? hws)
  next b =>
    obtain rfl := Option.some.inj h
    exact .flag b
  next => cases h

/-! ## The checks follow the rules -/

/-- A check that accepts what the rule accepts and answers what `store` makes the stored value. -/
def Checks (rule : FieldRule) {β : Type} (check : Value → Text → Except Fault β)
    (store : β → Value) : Prop :=
  ∀ v name, rule.normal? v = (check v name).toOption.map store

theorem checks_text : Checks text Value.asText .text := by
  intro v name
  cases v <;> rfl

theorem checks_flag : Checks flag Value.asBool .bool := by
  intro v name
  cases v <;> rfl

theorem checks_bytes : Checks bytes Value.asBytes .bytes := by
  intro v name
  rw [normal?, Value.asBytes]
  cases v.bytes? <;> rfl

theorem checks_word : Checks word (@Value.asWord 32) fun w => .int w.val := by
  intro v name
  cases v with
  | int n =>
    by_cases hn : 0 ≤ n ∧ n < 2 ^ 32
    · obtain ⟨k, rfl⟩ := Int.eq_ofNat_of_zero_le hn.1
      have hk : k < Nat.pow 2 32 := Int.ofNat_lt.mp hn.2
      have hchecked := @Value.asWord_int 32 name ⟨k, hk⟩
      rw [normal?, if_pos hn, hchecked]
      rfl
    · have hrange : n < 0 ∨ ((Word.max 32 : Nat) : Int) < n := by
        have hmax : ((Word.max 32 : Nat) : Int) = 2 ^ 32 - 1 := by decide
        omega
      rw [normal?, if_neg hn, Value.asWord, Value.asNat, if_pos hrange]
      rfl
  | null | bool _ | text _ | float _ | bytes _ | byteArray _ | list _ | tuple _ | dict _
  | fixed _ _ | record _ => rfl

theorem checks_work : Checks work Value.asFloat .float := by
  intro v name
  cases v with
  | float x =>
    rw [normal?, Value.asFloat]
    cases x.isNegative <;> rfl
  | int n =>
    rw [normal?, Value.asFloat]
    by_cases hn : n < 0
    · rw [if_pos hn, if_pos hn]
      rfl
    · rw [if_neg hn, if_neg hn]
      cases Binary64.ofInt? n <;> rfl
  | null | bool _ | text _ | bytes _ | byteArray _ | list _ | tuple _ | dict _ | fixed _ _
  | record _ => rfl

theorem checks_topic : Checks topic Value.asTopic (.fixed .topic) := by
  intro v name
  cases v with
  | fixed kind x => cases kind <;> rfl
  | null | bool _ | int _ | text _ | float _ | bytes _ | byteArray _ | list _ | tuple _ | dict _
  | record _ => rfl

/-- A check that follows a rule on each element follows it on all of them. -/
theorem Checks.mapM {β : Type} {check : Value → Text → Except Fault β} {store : β → Value}
    (h : Checks rule check store) (vs : List Value) (name : Text) :
    vs.mapM rule.normal? = (vs.mapM fun v => check v name).toOption.map (List.map store) := by
  induction vs with
  | nil => rfl
  | cons v vs ih =>
    rw [List.mapM_cons, List.mapM_cons, h v name, ih]
    cases check v name with
    | error e => rfl
    | ok b => cases vs.mapM fun v => check v name <;> rfl

theorem checks_topics :
    Checks topics Criteria.topicsArgument fun ts => .tuple (ts.map (.fixed .topic)) := by
  intro v name
  rw [normal?, Criteria.topicsArgument, Value.asSequence]
  cases v.sequence? with
  | none => rfl
  | some vs =>
    have hall := checks_topic.mapM vs name
    show (vs.mapM (normal? topic)).map Value.tuple
      = (vs.mapM fun t => Value.asTopic t name).toOption.map _
    rw [hall]
    cases vs.mapM fun t => Value.asTopic t name <;> rfl

end FieldRule

end EthWire

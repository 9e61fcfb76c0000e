import EthWire.Proofs.Whisper.Answer
import EthWire.Proofs.Whisper.Rule

/-!
# Sequences of assignments

A message to send or a filter is changed field by field, and an assignment may be refused. After
any sequence of them each field keeps its rule and holds what is stored for the last value that
it took, or what it held before; so assignments to different fields can be made in any order.
-/

namespace EthWire

/-- Records of the type `α` with fields of the type `φ`. An assignment is accepted if the rule of
the field accepts the value, whatever the record holds. -/
class Assignable (φ : Type) (α : outParam Type) where
  rule : φ → FieldRule
  get : α → φ → Value
  assign : α → φ → Value → Except Fault α
  normal?_eq : ∀ x f v, (rule f).normal? v = (assign x f v).toOption.map fun y => get y f
  get_of_ne : ∀ {x y f v}, assign x f v = .ok y → ∀ g, g ≠ f → get y g = get x g
  eq_of_get : ∀ {x y}, (∀ f, get x f = get y f) → x = y

namespace Assignable

variable {φ α : Type} [Assignable φ α]

/-- The record after an assignment. One that is refused leaves it as it was. -/
def next (x : α) (s : φ × Value) : α :=
  match assign x s.1 s.2 with
  | .ok y => y
  | .error _ => x

def after (x : α) (steps : List (φ × Value)) : α := steps.foldl next x

/-- Every field keeps its rule. -/
def Valid (φ : Type) {α : Type} [Assignable φ α] (x : α) : Prop :=
  ∀ f : φ, (rule f).Holds (get x f)

/-- What an assignment does: it stores what its value is brought to and leaves the other fields,
or it is refused and leaves them all. -/
inductive Outcome (x : α) (f : φ) (v : Value) : α → Prop
  | stored {y : α} (h : assign x f v = .ok y) (hnormal : (rule f).normal? v = some (get y f))
      (hothers : ∀ g, g ≠ f → get y g = get x g) : Outcome x f v y
  | refused {fault : Fault} (h : assign x f v = .error fault)
      (hnormal : (rule f).normal? v = none) : Outcome x f v x

/-! ## One assignment -/

theorem outcome_next (x : α) (f : φ) (v : Value) : Outcome x f v (next x (f, v)) := by
  have hnormal := normal?_eq x f v
  unfold next
  cases h : assign x f v with
  | ok y =>
    rw [h] at hnormal
    exact .stored h hnormal (get_of_ne h)
  | error fault =>
    rw [h] at hnormal
    exact .refused h hnormal

theorem valid_of_outcome {x y : α} {f : φ} {v : Value} (hx : Valid φ x) (h : Outcome x f v y) :
    Valid φ y := by
  cases h with
  | refused _ _ => exact hx
  | stored _ hnormal hothers =>
    intro g
    by_cases hg : g = f
    · rw [hg]
      exact FieldRule.holds_of_normal? hnormal
    · rw [hothers g hg]
      exact hx g

theorem yields_assign {x : α} (hx : Valid φ x) (f : φ) (v : Value) :
    Yields (Valid φ) (assign x f v) := by
  intro y hy
  have hnext : next x (f, v) = y := by simp only [next, hy]
  rw [← hnext]
  exact valid_of_outcome hx (outcome_next x f v)

/-- A record is built by assignments of the arguments that are given. -/
theorem yields_assignArguments {x : α} (hx : Valid φ x) (args : Arguments) (name : φ → Text)
    (fields : List φ) :
    Yields (Valid φ) (fields.foldlM (fun y f =>
      match args.lookup (name f) with
      | some v => assign y f v
      | none => pure y) x) := by
  refine yields_foldlM (P := Valid φ) (fun y f hy => ?_) hx fields
  cases args.lookup (name f) with
  | none => exact yields_ok.mpr hy
  | some v => exact yields_assign hy f v

/-! ## Sequences -/

theorem after_append (x : α) (before rest : List (φ × Value)) :
    after x (before ++ rest) = after (after x before) rest := List.foldl_append

theorem valid_after {x : α} (hx : Valid φ x) (steps : List (φ × Value)) :
    Valid φ (after x steps) := by
  induction steps generalizing x with
  | nil => exact hx
  | cons s steps ih => exact ih (valid_of_outcome hx (outcome_next x s.1 s.2))

variable [DecidableEq φ]

/-- What an assignment stores in a field, if anything. -/
def stored? (f : φ) (s : φ × Value) : Option Value :=
  if s.1 = f then (rule f).normal? s.2 else none

/-- What the last assignment that was accepted for a field stored there. -/
def lastStored? (f : φ) (steps : List (φ × Value)) : Option Value :=
  steps.reverse.findSome? (stored? f)

theorem get_next (x : α) (s : φ × Value) (f : φ) :
    get (next x s) f = (stored? f s).getD (get x f) := by
  obtain ⟨g, v⟩ := s
  have houtcome := outcome_next x g v
  generalize next x (g, v) = y at houtcome ⊢
  unfold stored?
  by_cases hg : g = f
  · subst hg
    rw [if_pos rfl]
    cases houtcome with
    | refused _ hnormal => rw [hnormal]; rfl
    | stored _ hnormal _ => rw [hnormal]; rfl
  · rw [if_neg hg]
    cases houtcome with
    | refused _ _ => rfl
    | stored _ _ hothers => exact hothers f (Ne.symm hg)

theorem next_comm (x : α) {s t : φ × Value} (h : s.1 ≠ t.1) :
    next (next x s) t = next (next x t) s := by
  refine @eq_of_get φ α _ _ _ fun f => ?_
  rw [get_next, get_next, get_next, get_next]
  unfold stored?
  by_cases hs : s.1 = f
  · rw [if_neg fun ht => h (hs.trans ht.symm)]
    rfl
  · rw [if_neg hs]
    rfl

/-- The induction takes the last assignment off, which is the first that counts. -/
theorem get_after (x : α) (steps : List (φ × Value)) (f : φ) :
    get (after x steps) f = (lastStored? f steps).getD (get x f) := by
  induction steps using List.reverseRecOn with
  | nil => rfl
  | append_singleton steps s ih =>
    rw [after_append, lastStored?, List.reverse_append, List.reverse_singleton,
      List.singleton_append, List.findSome?_cons]
    show get (next (after x steps) s) f = _
    rw [get_next, ih]
    cases stored? f s with
    | none => rfl
    | some w => rfl

theorem after_swap (x : α) (before rest : List (φ × Value)) {s t : φ × Value} (h : s.1 ≠ t.1) :
    after x (before ++ s :: t :: rest) = after x (before ++ t :: s :: rest) := by
  rw [after_append, after_append]
  show after (next (next (after x before) s) t) rest = after (next (next (after x before) t) s) rest
  rw [next_comm _ h]

/-- What is known of a sequence of assignments to the fields of a record. -/
structure Assigned (x : α) (steps : List (φ × Value)) : Prop where
  /-- After every step, and before the first, every field keeps its rule. -/
  valid : ∀ before, before <+: steps → Valid φ (after x before)
  /-- Every step stores what its value is brought to, or changes nothing. -/
  outcome : ∀ before f v, before ++ [(f, v)] <+: steps →
    Outcome (after x before) f v (after x (before ++ [(f, v)]))
  /-- In the end a field holds what the last accepted assignment stored, or what it held. -/
  final : ∀ f, get (after x steps) f = (lastStored? f steps).getD (get x f)
  /-- Neighbouring assignments to different fields can change places. -/
  commute : ∀ before s t rest, steps = before ++ s :: t :: rest → s.1 ≠ t.1 →
    after x steps = after x (before ++ t :: s :: rest)

theorem assigned_of_valid {x : α} (hx : Valid φ x) (steps : List (φ × Value)) : Assigned x steps := by
  refine ⟨fun before _ => valid_after hx before, fun before f v _ => ?_, get_after x steps, ?_⟩
  · rw [after_append]
    exact outcome_next (after x before) f v
  · rintro before s t rest rfl h
    exact after_swap x before rest h

end Assignable

/-! ## Fields of messages and filters -/

/-- A check that follows the rule of a field, as a way to set the field. -/
theorem FieldRule.Checks.normal?_map {rule : FieldRule} {α β : Type} {store : β → Value}
    {check : Value → Text → Except Fault β} (h : rule.Checks check store) {set : β → α}
    {get : α → Value} (hget : ∀ b, get (set b) = store b) (v : Value) (name : Text) :
    rule.normal? v = ((check v name).map set).toOption.map get := by
  rw [h v name]
  cases check v name with
  | error fault => rfl
  | ok b => exact congrArg some (hget b).symm

namespace NewMessage

def rule : Field → FieldRule
  | .symKeyId | .sig | .targetPeer => .text
  | .publicKey | .payload | .padding => .bytes
  | .ttl | .powTime => .word
  | .topic => .topic
  | .powTarget => .work

/-- The field as a value. -/
def get (m : NewMessage) : Field → Value
  | .symKeyId => .text m.symKeyId
  | .publicKey => .bytes m.publicKey
  | .sig => .text m.sig
  | .ttl => .int m.ttl.val
  | .topic => .fixed .topic m.topic
  | .payload => .bytes m.payload
  | .padding => .bytes m.padding
  | .powTime => .int m.powTime.val
  | .powTarget => .float m.powTarget
  | .targetPeer => .text m.targetPeer

theorem normal?_eq (m : NewMessage) (f : Field) (v : Value) :
    (rule f).normal? v = (m.assign f v).toOption.map fun n => n.get f := by
  cases f with
  | symKeyId | sig | targetPeer =>
    apply FieldRule.checks_text.normal?_map
    exact fun _ => rfl
  | publicKey | payload | padding =>
    apply FieldRule.checks_bytes.normal?_map
    exact fun _ => rfl
  | ttl | powTime =>
    apply FieldRule.checks_word.normal?_map
    exact fun _ => rfl
  | topic =>
    apply FieldRule.checks_topic.normal?_map
    exact fun _ => rfl
  | powTarget =>
    apply FieldRule.checks_work.normal?_map
    exact fun _ => rfl

theorem get_of_ne {m n : NewMessage} {f : Field} {v : Value} (h : m.assign f v = .ok n) (g : Field)
    (hg : g ≠ f) : n.get g = m.get g := by
  cases f
  all_goals
    obtain ⟨_, _, rfl⟩ := map_eq_ok.mp h
    cases g <;> first | rfl | exact absurd rfl hg

theorem eq_of_get {m n : NewMessage} (h : ∀ f, m.get f = n.get f) : m = n := by
  have hword : ∀ {a b : Word 32}, Value.int a.val = .int b.val → a = b :=
    fun h => Word.val_inj.mp (Int.ofNat_inj.mp (Value.int.inj h))
  have htopic : m.topic = n.topic := eq_of_heq (Value.fixed.inj (h .topic)).2
  cases m
  cases n
  simp only [mk.injEq]
  exact ⟨Value.text.inj (h .symKeyId), Value.bytes.inj (h .publicKey), Value.text.inj (h .sig),
    hword (h .ttl), htopic, Value.bytes.inj (h .payload), Value.bytes.inj (h .padding),
    hword (h .powTime), Value.float.inj (h .powTarget), Value.text.inj (h .targetPeer)⟩

instance : Assignable Field NewMessage where
  rule := rule
  get := get
  assign := assign
  normal?_eq := normal?_eq
  get_of_ne := get_of_ne
  eq_of_get := eq_of_get

/-- All but the proof of work is right by its type. -/
theorem valid_of_isNegative {m : NewMessage} (h : m.powTarget.isNegative = false) :
    Assignable.Valid Field m := by
  intro f
  cases f with
  | symKeyId | sig | targetPeer => exact .text _
  | publicKey | payload | padding => exact .bytes _
  | ttl => exact .word (Int.natCast_nonneg _) (Int.ofNat_lt.mpr m.ttl.val_lt)
  | powTime => exact .word (Int.natCast_nonneg _) (Int.ofNat_lt.mpr m.powTime.val_lt)
  | topic => exact .topic _ m.topic.length_bytes
  | powTarget => exact .work h

/-- How a message to send comes about. -/
inductive Made : NewMessage → Prop
  | built {args : Arguments} {m : NewMessage} (h : build args = .ok m) : Made m
  | read {text : Text} {m : NewMessage} (h : decodeJson text = .ok m) : Made m

theorem Made.valid {m : NewMessage} (h : Made m) : Assignable.Valid Field m := by
  cases h with
  | @built args _ h =>
    obtain ⟨_, -, h⟩ := bind_eq_ok.mp h
    have hdefault := @valid_of_isNegative {} Binary64.isWork_defaultPowTarget.2
    exact Assignable.yields_assignArguments hdefault args Field.name Field.all m h
  | read h =>
    obtain ⟨j, -, h⟩ := bind_eq_ok.mp h
    exact valid_of_isNegative (yields_ofJson j m (mapError_eq_ok.mp h))

end NewMessage

namespace Criteria

def rule : Field → FieldRule
  | .symKeyId | .privateKeyId => .text
  | .sig => .bytes
  | .minPow => .work
  | .topics => .topics
  | .allowP2P => .flag

/-- The field as a value. -/
def get (c : Criteria) : Field → Value
  | .symKeyId => .text c.symKeyId
  | .privateKeyId => .text c.privateKeyId
  | .sig => .bytes c.sig
  | .minPow => .float c.minPow
  | .topics => .tuple (c.topics.map (.fixed .topic))
  | .allowP2P => .bool c.allowP2P

theorem normal?_eq (c : Criteria) (f : Field) (v : Value) :
    (rule f).normal? v = (c.assign f v).toOption.map fun d => d.get f := by
  cases f with
  | symKeyId | privateKeyId =>
    apply FieldRule.checks_text.normal?_map
    exact fun _ => rfl
  | sig =>
    apply FieldRule.checks_bytes.normal?_map
    exact fun _ => rfl
  | minPow =>
    apply FieldRule.checks_work.normal?_map
    exact fun _ => rfl
  | topics =>
    apply FieldRule.checks_topics.normal?_map
    exact fun _ => rfl
  | allowP2P =>
    apply FieldRule.checks_flag.normal?_map
    exact fun _ => rfl

theorem get_of_ne {c d : Criteria} {f : Field} {v : Value} (h : c.assign f v = .ok d) (g : Field)
    (hg : g ≠ f) : d.get g = c.get g := by
  cases f
  all_goals
    obtain ⟨_, _, rfl⟩ := map_eq_ok.mp h
    cases g <;> first | rfl | exact absurd rfl hg

theorem eq_of_get {c d : Criteria} (h : ∀ f, c.get f = d.get f) : c = d := by
  have htopic : Function.Injective (Value.fixed .topic) :=
    fun _ _ ht => eq_of_heq (Value.fixed.inj ht).2
  have htopics : c.topics = d.topics :=
    List.map_injective_iff.mpr htopic (Value.tuple.inj (h .topics))
  cases c
  cases d
  simp only [mk.injEq]
  exact ⟨Value.text.inj (h .symKeyId), Value.text.inj (h .privateKeyId), Value.bytes.inj (h .sig),
    Value.float.inj (h .minPow), htopics, Value.bool.inj (h .allowP2P)⟩

instance : Assignable Field Criteria where
  rule := rule
  get := get
  assign := assign
  normal?_eq := normal?_eq
  get_of_ne := get_of_ne
  eq_of_get := eq_of_get

theorem valid_of_isNegative {c : Criteria} (h : c.minPow.isNegative = false) :
    Assignable.Valid Field c := by
  intro f
  cases f with
  | symKeyId | privateKeyId => exact .text _
  | sig => exact .bytes _
  | minPow => exact .work h
  | topics =>
    refine .topics fun v hv => ?_
    obtain ⟨t, -, rfl⟩ := List.mem_map.mp hv
    exact .topic t t.length_bytes
  | allowP2P => exact .flag _

/-- How a filter comes about. -/
inductive Made : Criteria → Prop
  | built {args : Arguments} {c : Criteria} (h : build args = .ok c) : Made c
  | read {text : Text} {c : Criteria} (h : decodeJson text = .ok c) : Made c
  | forTopic {v : Value} {c : Criteria} (h : forTopic v = .ok c) : Made c

theorem Made.valid {c : Criteria} (h : Made c) : Assignable.Valid Field c := by
  cases h with
  | @built args _ h =>
    obtain ⟨_, -, h⟩ := bind_eq_ok.mp h
    have hdefault := @valid_of_isNegative {} Binary64.isWork_zero.2
    exact Assignable.yields_assignArguments hdefault args Field.name Field.all c h
  | read h =>
    obtain ⟨j, -, h⟩ := bind_eq_ok.mp h
    exact valid_of_isNegative (yields_ofJson j c (mapError_eq_ok.mp h))
  | forTopic h =>
    obtain ⟨_, -, rfl⟩ := map_eq_ok.mp h
    exact valid_of_isNegative Binary64.isWork_zero.2

end Criteria

/-! ## Messages and filters -/

namespace Whisper

/-- However a message to send or a filter came about, any sequence of assignments keeps the rules
of its fields; each assignment stores what its value is brought to or changes nothing; in the end
a field holds what the last accepted assignment stored; and those to different fields commute. -/
theorem fields_after_assignments :
    (∀ m : NewMessage, m.Made → ∀ steps : List (NewMessage.Field × Value),
      Assignable.Assigned m steps) ∧
    ∀ c : Criteria, c.Made → ∀ steps : List (Criteria.Field × Value),
      Assignable.Assigned c steps :=
  ⟨fun _ hm steps => Assignable.assigned_of_valid hm.valid steps,
    fun _ hc steps => Assignable.assigned_of_valid hc.valid steps⟩

/-- A long topic is cut and a lifetime below zero refused; a sequence with one element that is no
topic is refused as a whole. -/
theorem fields_after_assignments_small :
    let m : NewMessage := {}
    let c : Criteria := {}
    let steps : List (NewMessage.Field × Value) :=
      [(.topic, .byteArray [1, 2, 3, 4, 5]), (.ttl, .int 7), (.ttl, .int (-1))]
    let topics : List (Criteria.Field × Value) :=
      [(.topics, .list [.bytes [1]]), (.topics, .list [.bytes [2], .null]), (.allowP2P, .bool true)]
    (m.Made ∧ Assignable.Assigned m steps ∧
      (Assignable.after m steps).topic.bytes = [1, 2, 3, 4] ∧
      (Assignable.after m steps).ttl.val = 7) ∧
    (c.Made ∧ Assignable.Assigned c topics ∧
      (Assignable.after c topics).topics.map Fixed.bytes = [[1, 0, 0, 0]] ∧
      (Assignable.after c topics).allowP2P = true) := by
  intro m c steps topics
  have hm : m.Made := @NewMessage.Made.built [] m rfl
  have hc : c.Made := @Criteria.Made.built [] c rfl
  have hmessage := fields_after_assignments.1 m hm steps
  have hcriteria := fields_after_assignments.2 c hc topics
  exact ⟨⟨hm, hmessage, by decide, by decide⟩, hc, hcriteria, by decide, by decide⟩

end Whisper

end EthWire

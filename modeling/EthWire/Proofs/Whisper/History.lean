import EthWire.Proofs.Record.Arguments
import EthWire.Proofs.Whisper.RoundTrip

/-!
# Histories of whisper records

A record is built from named arguments, and messages to send and filters are then changed field by
field. Whatever is done to it, its proof of work stays a number that a document holds, so that the
record is read back from its document.
-/

namespace EthWire

variable {ε α β : Type}

theorem yields_map {P : β → Prop} {x : Except ε α} {f : α → β} :
    Yields P (x.map f) ↔ ∀ a, x = .ok a → P (f a) := by
  cases x with
  | error e => simp [Except.map]
  | ok a => simp

/-- What each step preserves holds at the end of a fold. -/
theorem yields_foldlM {P : β → Prop} {step : β → α → Except ε β}
    (hstep : ∀ b a, P b → Yields P (step b a)) {b : β} (hb : P b) (as : List α) :
    Yields P (as.foldlM step b) := by
  induction as generalizing b with
  | nil => exact yields_ok.mpr hb
  | cons a as ih =>
    rw [List.foldlM_cons, yields_bind]
    exact fun c hc => ih (hstep b a hb c hc)

/-! ## Proofs of work -/

namespace Binary64

theorem isNegative_ofRatio (num den : Nat) : (ofRatio false num den).isNegative = false := by
  unfold ofRatio
  dsimp only
  split
  · rfl
  · split
    · dsimp only
      split
      · rfl
      · rfl
    · dsimp only
      split
      · rfl
      · rfl

theorem isWork_zero : IsWork zero := ⟨by decide, rfl⟩

theorem isWork_defaultPowTarget : IsWork defaultPowTarget := ⟨by decide +kernel, by decide +kernel⟩

theorem isWork_of_ofInt? {n : Int} (hn : 0 ≤ n) {x : Binary64} (h : ofInt? n = some x) :
    x.IsWork := by
  have hsign : decide (n < 0) = false := decide_eq_false (Int.not_lt.mpr hn)
  have hx : ofRatio false n.natAbs 1 = x := by
    unfold ofInt? at h
    rw [hsign] at h
    split at h
    · cases h
    · exact Option.some.inj h
  rw [← hx]
  exact ⟨canonical_ofRatio false n.natAbs Nat.one_pos, isNegative_ofRatio n.natAbs 1⟩

end Binary64

/-- A value whose float, if it is one, is in its one form. -/
def Value.IsProper : Value → Prop
  | .float x => x.Canonical
  | _ => True

theorem Value.isWork_asFloat {v : Value} (hv : v.IsProper) {name : Text} :
    Yields Binary64.IsWork (v.asFloat name) := by
  cases v with
  | float x =>
    rw [asFloat]
    by_cases hx : x.isNegative = true
    · rw [if_pos hx]
      exact yields_error
    · rw [if_neg hx]
      exact yields_ok.mpr ⟨hv, Bool.eq_false_iff.mpr hx⟩
  | int n =>
    rw [asFloat]
    by_cases hn : n < 0
    · rw [if_pos hn]
      exact yields_error
    · rw [if_neg hn]
      cases hx : Binary64.ofInt? n with
      | none => exact yields_error
      | some x => exact yields_ok.mpr (Binary64.isWork_of_ofInt? (Int.not_lt.mp hn) hx)
  | null | bool _ | text _ | bytes _ | byteArray _ | list _ | tuple _ | dict _ | fixed _ _
  | record _ => exact yields_error

/-- Arguments whose floats are in their one form. -/
def Arguments.IsProper (args : Arguments) : Prop := ∀ a ∈ args, a.2.IsProper

theorem Arguments.IsProper.lookup {args : Arguments} (h : args.IsProper) {name : Text} {v : Value}
    (hv : args.lookup name = some v) : v.IsProper :=
  h (name, v) (Json.mem_of_lookup hv)

/-! ## One assignment -/

namespace NewMessage

theorem assign_isWork {m : NewMessage} (hm : m.powTarget.IsWork) {v : Value} (hv : v.IsProper)
    (field : Field) : Yields (fun n : NewMessage => n.powTarget.IsWork) (m.assign field v) := by
  cases field with
  | powTarget => exact yields_map.mpr fun x hx => Value.isWork_asFloat hv x hx
  | symKeyId | publicKey | sig | ttl | topic | payload | padding | powTime | targetPeer =>
    exact yields_map.mpr fun _ _ => hm

theorem build_isWork {args : Arguments} (hargs : args.IsProper) :
    Yields (fun m : NewMessage => m.powTarget.IsWork) (build args) := by
  rw [build, yields_bind]
  intro _ _
  refine yields_foldlM (P := fun m : NewMessage => m.powTarget.IsWork) (fun m field hm => ?_)
    Binary64.isWork_defaultPowTarget Field.all
  cases hv : args.lookup field.name with
  | none => exact yields_ok.mpr hm
  | some v => exact assign_isWork hm (hargs.lookup hv) field

end NewMessage

namespace Criteria

theorem assign_isWork {c : Criteria} (hc : c.minPow.IsWork) {v : Value} (hv : v.IsProper)
    (field : Field) : Yields (fun d : Criteria => d.minPow.IsWork) (c.assign field v) := by
  cases field with
  | minPow => exact yields_map.mpr fun x hx => Value.isWork_asFloat hv x hx
  | symKeyId | privateKeyId | sig | topics | allowP2P => exact yields_map.mpr fun _ _ => hc

theorem build_isWork {args : Arguments} (hargs : args.IsProper) :
    Yields (fun c : Criteria => c.minPow.IsWork) (build args) := by
  rw [build, yields_bind]
  intro _ _
  refine yields_foldlM (P := fun c : Criteria => c.minPow.IsWork) (fun c field hc => ?_)
    Binary64.isWork_zero Field.all
  cases hv : args.lookup field.name with
  | none => exact yields_ok.mpr hc
  | some v => exact assign_isWork hc (hargs.lookup hv) field

end Criteria

namespace Message

theorem build_isWork {args : Arguments} (hargs : args.IsProper) :
    Yields (fun m : Message => m.pow.IsWork) (build args) := by
  have hpow : Yields Binary64.IsWork (args.get "pow" Value.asFloat Binary64.zero) := by
    unfold Arguments.get
    split
    next v hv => exact Value.isWork_asFloat (hargs.lookup hv)
    next => exact yields_ok.mpr Binary64.isWork_zero
  simp only [build, yields_bind, pure_eq_ok, yields_ok]
  intros
  exact hpow _ (by assumption)

end Message

/-! ## Whole histories -/

namespace Record

/-- How a whisper record comes about: it is built, and what can change is changed field by field.
An assignment that is refused changes nothing. -/
inductive Reached : Record → Prop
  | newMessage {args : Arguments} {m : NewMessage} (hargs : args.IsProper)
      (h : NewMessage.build args = .ok m) : Reached (.newMessage m)
  | message {args : Arguments} {m : Message} (hargs : args.IsProper)
      (h : Message.build args = .ok m) : Reached (.message m)
  | criteria {args : Arguments} {c : Criteria} (hargs : args.IsProper)
      (h : Criteria.build args = .ok c) : Reached (.criteria c)
  | setNewMessage {m n : NewMessage} {field : NewMessage.Field} {v : Value}
      (hm : Reached (.newMessage m)) (hv : v.IsProper) (h : m.assign field v = .ok n) :
      Reached (.newMessage n)
  | setCriteria {c d : Criteria} {field : Criteria.Field} {v : Value}
      (hc : Reached (.criteria c)) (hv : v.IsProper) (h : c.assign field v = .ok d) :
      Reached (.criteria d)

theorem Reached.isWork {r : Record} (h : Reached r) :
    ∃ x, r.work? = some x ∧ x.IsWork := by
  induction h with
  | newMessage hargs h => exact ⟨_, rfl, NewMessage.build_isWork hargs _ h⟩
  | message hargs h => exact ⟨_, rfl, Message.build_isWork hargs _ h⟩
  | criteria hargs h => exact ⟨_, rfl, Criteria.build_isWork hargs _ h⟩
  | setNewMessage hm hv h ih =>
    obtain ⟨x, hx, hwork⟩ := ih
    obtain rfl := Option.some.inj hx
    exact ⟨_, rfl, NewMessage.assign_isWork hwork hv _ _ h⟩
  | setCriteria hc hv h ih =>
    obtain ⟨x, hx, hwork⟩ := ih
    obtain rfl := Option.some.inj hx
    exact ⟨_, rfl, Criteria.assign_isWork hwork hv _ _ h⟩

/-- The record that is read back for one. -/
def settled : Record → Record
  | newMessage m => .newMessage m.settled
  | message m => .message m.settled
  | criteria c => .criteria c.settled
  | r => r

/-- The fields that hold text. -/
def texts : Record → List Text
  | newMessage m => [m.symKeyId, m.sig, m.targetPeer]
  | criteria c => [c.symKeyId, c.privateKeyId]
  | _ => []

theorem decodeJson_write_of_isWork {r : Record} {x : Binary64} (hx : r.work? = some x)
    (hwork : x.IsWork) (layout : Json.Layout) :
    Record.decodeJson r.kind (r.toJson.write layout) = .ok r.settled := by
  cases r with
  | newMessage m =>
    obtain rfl := Option.some.inj hx
    rw [decodeJson_eq_map rfl (fun _ => rfl)]
    exact map_eq_ok.mpr ⟨_, NewMessage.decodeJson_write hwork layout, rfl⟩
  | message m =>
    obtain rfl := Option.some.inj hx
    rw [decodeJson_eq_map rfl (fun _ => rfl)]
    exact map_eq_ok.mpr ⟨_, Message.decodeJson_write hwork layout, rfl⟩
  | criteria c =>
    obtain rfl := Option.some.inj hx
    rw [decodeJson_eq_map rfl (fun _ => rfl)]
    exact map_eq_ok.mpr ⟨_, Criteria.decodeJson_write hwork layout, rfl⟩
  | header _ | transaction _ | block _ | log _ | receipt _ => cases hx

theorem settled_agrees_iff {r : Record} {x : Binary64} (hx : r.work? = some x) :
    r.settled.agrees r = true ↔ x ≠ .nan false ∧ ∀ s ∈ r.texts, ¬s.HasPair := by
  cases r with
  | newMessage m =>
    obtain rfl := Option.some.inj hx
    simp [settled, texts, agrees, NewMessage.agrees, NewMessage.settled,
      Binary64.agrees_spelled_iff, Text.joined_eq_self_iff]
    tauto
  | message m =>
    obtain rfl := Option.some.inj hx
    simp [settled, texts, agrees, Message.agrees, Message.settled, Binary64.agrees_spelled_iff]
  | criteria c =>
    obtain rfl := Option.some.inj hx
    simp [settled, texts, agrees, Criteria.agrees, Criteria.settled,
      Binary64.agrees_spelled_iff, Text.joined_eq_self_iff]
    tauto
  | header _ | transaction _ | block _ | log _ | receipt _ => cases hx

end Record

end EthWire

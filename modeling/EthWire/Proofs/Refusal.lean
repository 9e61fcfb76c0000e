import EthWire.Json.Field
import EthWire.Proofs.Result
import EthWire.Rlp.Field

/-!
# Refusals

How a reader may end that has no value. A decoder reports a malformation as it is, and an
argument that the record itself does not take as a malformation of the record. Any other fault
would escape it; which ones may, if any, is said by `spared`.
-/

namespace EthWire

variable {α β : Type} {format : Format} {spared : Fault → Prop}

inductive Refusal (format : Format) (spared : Fault → Prop) : Fault → Prop
  | malformed (field : Text) (reason : Reason) :
      Refusal format spared (.malformed format field reason)
  | argument (name : Text) (problem : ArgumentProblem) :
      Refusal format spared (.argument name problem)
  | spared {f : Fault} (h : spared f) : Refusal format spared f

/-- A computation that ends with a value or with a refusal. -/
def Refuses (format : Format) (spared : Fault → Prop) (x : Except Fault α) : Prop :=
  ∀ f, x = .error f → Refusal format spared f

theorem Refuses.mono {x : Except Fault α} {p q : Fault → Prop} (h : Refuses format p x)
    (hpq : ∀ f, p f → q f) : Refuses format q x := by
  intro f hf
  cases h f hf with
  | malformed field reason => exact .malformed field reason
  | argument name problem => exact .argument name problem
  | spared hp => exact .spared (hpq f hp)

/-- What a decoder makes of such a computation. -/
theorem Refuses.mapError_cases {x : Except Fault α} (h : Refuses format spared x) (name : Text) :
    (∃ a, x = .ok a ∧ x.mapError (Fault.inRecord format name) = .ok a) ∨
    (∃ field reason,
      x.mapError (Fault.inRecord format name) = .error (.malformed format field reason)) ∨
    ∃ f, spared f ∧ x.mapError (Fault.inRecord format name) = .error (f.inRecord format name) := by
  cases x with
  | ok a => exact .inl ⟨a, rfl, rfl⟩
  | error f =>
    cases h f rfl with
    | malformed field reason => exact .inr (.inl ⟨field, reason, rfl⟩)
    | argument param problem => exact .inr (.inl ⟨name, .rejected param problem, rfl⟩)
    | spared hf => exact .inr (.inr ⟨f, hf, rfl⟩)

/-! ## Steps -/

@[simp] theorem refuses_ok (a : α) : Refuses format spared (.ok a) := by
  intro f hf
  cases hf

@[simp] theorem refuses_error {f : Fault} :
    Refuses format spared (.error f : Except Fault α) ↔ Refusal format spared f := by
  constructor
  · intro h
    exact h f rfl
  · intro h g hg
    obtain rfl := Except.error.inj hg
    exact h

@[simp] theorem refuses_bind {x : Except Fault α} {f : α → Except Fault β} :
    Refuses format spared (x >>= f) ↔
      Refuses format spared x ∧ ∀ a, x = .ok a → Refuses format spared (f a) := by
  cases x with
  | ok a => simp
  | error e => simp

@[simp] theorem refuses_map {x : Except Fault α} {f : α → β} :
    Refuses format spared (x.map f) ↔ Refuses format spared x := by
  cases x with
  | ok a => simp
  | error e =>
    rw [refuses_error]
    exact refuses_error

theorem refuses_mapM_of_mem {read : α → Except Fault β} {as : List α}
    (h : ∀ a ∈ as, Refuses format spared (read a)) : Refuses format spared (as.mapM read) := by
  induction as with
  | nil => exact refuses_ok []
  | cons a as ih =>
    rw [List.forall_mem_cons] at h
    rw [List.mapM_cons, refuses_bind]
    refine ⟨h.1, fun b _ => ?_⟩
    rw [refuses_bind]
    exact ⟨ih h.2, fun bs _ => refuses_ok _⟩

theorem refuses_mapM {read : α → Except Fault β} (h : ∀ a, Refuses format spared (read a))
    (as : List α) : Refuses format spared (as.mapM read) :=
  refuses_mapM_of_mem fun a _ => h a

@[simp] theorem refusal_malformed (field : Text) (reason : Reason) :
    Refusal format spared (.malformed format field reason) :=
  .malformed field reason

@[simp] theorem refusal_argument (name : Text) (problem : ArgumentProblem) :
    Refusal format spared (.argument name problem) :=
  .argument name problem

/-! ## Fields of items -/

namespace Rlp.Item

variable {kind : FixedKind} {bits : Nat} {item : Item} {field : Text}

@[simp] theorem refusal_fieldFault (reason : Reason) :
    Refusal .rlp spared (fieldFault field reason) :=
  .malformed field reason

@[simp] theorem refuses_asBytes : Refuses .rlp spared (item.asBytes field) := by
  cases item with
  | bytes b => simp [asBytes]
  | list items => simp [asBytes]

@[simp] theorem refuses_asList : Refuses .rlp spared (item.asList field) := by
  cases item with
  | bytes b => simp [asList]
  | list items => simp [asList]

@[simp] theorem refuses_asFixed :
    Refuses .rlp spared (item.asFixed field : Except Fault (Fixed kind)) := by
  rw [asFixed, refuses_bind]
  refine ⟨refuses_asBytes, fun b _ => ?_⟩
  split
  · exact refuses_ok _
  · simp

@[simp] theorem refuses_asNat {max : Int} : Refuses .rlp spared (item.asNat max field) := by
  rw [asNat, refuses_bind]
  refine ⟨refuses_asBytes, fun b _ => ?_⟩
  split
  · simp
  · dsimp only
    split
    · simp
    · exact refuses_ok _

@[simp] theorem refuses_asWord :
    Refuses .rlp spared (item.asWord field : Except Fault (Word bits)) := by
  rw [asWord, refuses_bind]
  refine ⟨refuses_asNat, fun n _ => ?_⟩
  split
  · exact refuses_ok _
  · simp

end Rlp.Item

/-! ## Fields of documents -/

@[simp] theorem refusal_jsonFault (field : Text) (reason : Reason) :
    Refusal .json spared (jsonFault field reason) :=
  .malformed field reason

namespace Shape

variable {kind : FixedKind} {bits : Nat} {s : Shape α} {field : Text}

@[simp] theorem refuses_asMarkedHex : Refuses .json spared (s.asMarkedHex field) := by
  unfold asMarkedHex
  split
  · split
    · exact refuses_ok _
    · simp
  · simp

@[simp] theorem refuses_quantityOfDigits {digits : Text} :
    Refuses .json spared (quantityOfDigits digits field) := by
  unfold quantityOfDigits
  split
  · simp
  · split
    · simp
    · split
      · exact refuses_ok _
      · simp

@[simp] theorem refuses_asQuantity {max : Int} : Refuses .json spared (s.asQuantity max field) := by
  have bounded : ∀ n : Int, Refuses .json spared
      (if n < 0 ∨ max < n then .error (jsonFault field (.quantityRange (bitLength max.natAbs)))
        else pure n.toNat) := by
    intro n
    split
    · simp
    · exact refuses_ok _
  unfold asQuantity
  split
  · simp
  · exact bounded _
  · refine refuses_bind.mpr ⟨refuses_asMarkedHex, fun digits _ => ?_⟩
    exact refuses_bind.mpr ⟨refuses_quantityOfDigits, fun n _ => bounded n⟩

@[simp] theorem refuses_asWord :
    Refuses .json spared (s.asWord field : Except Fault (Word bits)) := by
  rw [asWord, refuses_bind]
  refine ⟨refuses_asQuantity, fun n _ => ?_⟩
  split
  · exact refuses_ok _
  · simp

@[simp] theorem refuses_asBytes : Refuses .json spared (s.asBytes field) := by
  rw [asBytes, refuses_bind]
  refine ⟨refuses_asMarkedHex, fun digits _ => ?_⟩
  split
  · simp
  · split
    · exact refuses_ok _
    · simp

@[simp] theorem refuses_asFixed :
    Refuses .json spared (s.asFixed field : Except Fault (Fixed kind)) := by
  rw [asFixed, refuses_bind]
  refine ⟨refuses_asBytes, fun b _ => ?_⟩
  split
  · exact refuses_ok _
  · simp

@[simp] theorem refuses_asObject : Refuses .json spared (s.asObject field) := by
  unfold asObject
  split
  · exact refuses_ok _
  · simp

@[simp] theorem refuses_asArray : Refuses .json spared (s.asArray field) := by
  unfold asArray
  split
  · exact refuses_ok _
  · simp

@[simp] theorem refuses_asBool : Refuses .json spared (s.asBool field) := by
  unfold asBool
  split
  · exact refuses_ok _
  · simp

end Shape

@[simp] theorem Json.refuses_require {members : List (Text × Json)} {key : String} {record : Text} :
    Refuses .json spared (Json.require members key record) := by
  rw [Json.require, refuses_map, requireMember]
  split
  · split
    · simp
    · exact refuses_ok _
  · simp

end EthWire

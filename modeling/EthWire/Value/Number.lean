import EthWire.Binary64.Shortest
import EthWire.Rlp.Encode
import EthWire.Value.Agreement

/-!
# Numbers of any type in writing

Numbers that are given as values: their hexadecimal text and their bytes. A truth
value counts as one or zero. Only integers can be written; a negative number of any
type is reported as negative first.
-/

namespace EthWire.Value

/-- The fault of a number below zero, which shows the number. -/
def belowZero? (v : Value) (report : (shown : Text) → Misuse) : Option Fault :=
  match v with
  | float x => if x.isNegative then some (.misuse (report x.write)) else none
  | v => match v.integer? with
    | some n =>
        if n < 0 then some (.showing (Text.isWritten n) (.misuse (report (Text.ofInt n))))
        else none
    | none => none

/-- The hexadecimal text of a natural number. -/
def quantity (v : Value) : Except Fault Text :=
  match v.belowZero? .negativeQuantity with
  | some f => .error f
  | none =>
      match v.integer? with
      | some n => .ok (Text.quantity n.toNat)
      | none => .error (.misuse .wrongType)

/-- The shortest big-endian byte string of a natural number. A float is one only if it
is zero. -/
def uintBytes (v : Value) : Except Fault Bytes :=
  match v with
  | float x =>
      match v.belowZero? .negativeInteger with
      | some f => .error f
      | none => if x.agreesInt 0 then .ok [] else .error (.misuse .noOperation)
  | v =>
      match v.integer? with
      | some n => Rlp.uintBytes n
      | none => .error (.misuse .wrongType)

end EthWire.Value

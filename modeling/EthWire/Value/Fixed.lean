import EthWire.Value.Agreement
import EthWire.Value.Argument

/-!
# Fixed-width values from arguments

The ways to make a fixed-width value of something else. Reports name the kind.
-/

namespace EthWire

namespace Fixed

variable {kind : FixedKind}

/-- The value of a byte string of any type. -/
def ofArgument (v : Value) : Except Fault (Fixed kind) := do
  Value.fixedOfBytes (← v.asBytes kind.name)

/-- The value of hexadecimal text with or without its mark. -/
def ofHex (t : Text) : Except Fault (Fixed kind) :=
  match Bytes.ofHex t.withoutHexMark with
  | .ok b => Value.fixedOfBytes b
  | .error position => .error (.argument kind.name (.badHex position))

/-- The value of a hexadecimal text of any type. -/
def ofHexArgument (v : Value) : Except Fault (Fixed kind) :=
  match v with
  | .text t => ofHex t
  | _ => .error (.argument kind.name (.mustBe "a hex string"))

end Fixed

namespace Nonce

/-- The nonce of a natural number. -/
def ofNat? (n : Nat) : Option Nonce :=
  if n < Nat.pow 2 64 then some ⟨Bytes.ofNatWidth 8 n, Bytes.length_ofNatWidth 8 n⟩ else none

/-- The nonce of a number of any type. -/
def ofArgument (v : Value) : Except Fault Nonce :=
  match v.integer? with
  | none => .error (.misuse .noOperation)
  | some n =>
      match if n < 0 then none else ofNat? n.toNat with
      | some nonce => .ok nonce
      | none => .error (.misuse .overflow)

def toNat (nonce : Nonce) : Nat := Bytes.toNat nonce.bytes

end Nonce

/-- The topic of a byte string of any type. -/
def Topic.ofArgument (v : Value) : Except Fault Topic :=
  (v.asBytes "topic").map Topic.ofBytes

end EthWire

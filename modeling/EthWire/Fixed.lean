import EthWire.Hex

/-!
# Fixed-width values

Hashes, addresses and their like are byte strings of the width of their kind.
-/

namespace EthWire

inductive FixedKind
  | hash
  | address
  | nonce
  | bloom
  | topic
  | publicKey
deriving DecidableEq, Repr

namespace FixedKind

/-- The width in bytes. -/
def size : FixedKind → Nat
  | hash => 32
  | address => 20
  | nonce => 8
  | bloom => 256
  | topic => 4
  | publicKey => 64

def name : FixedKind → Text
  | hash => "Hash"
  | address => "Address"
  | nonce => "Nonce"
  | bloom => "Bloom"
  | topic => "TopicType"
  | publicKey => "PublicKey"

end FixedKind

/-- A byte string of the width of `kind`. -/
structure Fixed (kind : FixedKind) where
  bytes : Bytes
  length_bytes : bytes.length = kind.size
deriving DecidableEq

abbrev Hash := Fixed .hash
abbrev Address := Fixed .address
abbrev Nonce := Fixed .nonce
abbrev Bloom := Fixed .bloom
abbrev Topic := Fixed .topic
abbrev PublicKey := Fixed .publicKey

namespace Fixed

variable {kind : FixedKind}

def ofBytes? (b : Bytes) : Option (Fixed kind) :=
  if h : b.length = kind.size then some ⟨b, h⟩ else none

def zero : Fixed kind := ⟨Bytes.zero kind.size, List.length_replicate ..⟩

def hex (v : Fixed kind) : Text := Bytes.hexMarked v.bytes

end Fixed

/-- The topic of a byte string: its first four bytes, with zero bytes behind a
shorter string. -/
def Topic.ofBytes (b : Bytes) : Topic :=
  ⟨(b.take 4).rightpad 4 0, by
    simp only [List.length_rightpad, List.length_take, FixedKind.size]
    omega⟩

end EthWire

import EthWire.Digest.Hash
import EthWire.Fault.Basic
import EthWire.Secp256k1.Curve
import EthWire.Value.Argument

/-!
# Keys

A private key is a scalar between one and the order of the group; its public key is
that multiple of the base point.
-/

namespace EthWire

structure PrivateKey where
  scalar : Nat
  scalar_pos : 0 < scalar
  scalar_lt : scalar < Secp256k1.n
deriving DecidableEq

namespace PublicKey

/-- The two coordinates of a point; the point at infinity has no key and shows as
zeros. -/
def ofPoint (q : Secp256k1.Point) : PublicKey :=
  match q with
  | .infinity => .zero
  | .affine x y =>
      ⟨Bytes.ofNatWidth 32 x ++ Bytes.ofNatWidth 32 y, by
        simp [Bytes.length_ofNatWidth, FixedKind.size]⟩

/-- A public key with the byte that marks an uncompressed point. -/
def serialize (key : PublicKey) : Bytes := 4 :: key.bytes

/-- A public key with or without the mark of an uncompressed point. -/
def deserialize (b : Bytes) : Except Fault PublicKey :=
  match b with
  | 4 :: rest =>
      if rest.length = FixedKind.publicKey.size then Value.fixedOfBytes rest
      else Value.fixedOfBytes b
  | _ => Value.fixedOfBytes b

end PublicKey

namespace PrivateKey

/-- The key of 32 bytes. -/
def ofBytes (b : Bytes) : Except Fault PrivateKey :=
  if b.length ≠ 32 then .error (.privateKey (.width b.length))
  else
    let scalar := Bytes.toNat b
    if h : 0 < scalar ∧ scalar < Secp256k1.n then .ok ⟨scalar, h.1, h.2⟩
    else .error (.privateKey .range)

/-- The key of a byte string of any type. -/
def ofValue (v : Value) : Except Fault PrivateKey :=
  match v.bytes? with
  | some b => ofBytes b
  | none => .error (.privateKey (.wrongType v.typeName))

/-- The key of a hexadecimal text, with blanks around it. -/
def ofHex (t : Text) : Except Fault PrivateKey :=
  match Bytes.ofHex (t.strip CodePoint.isBlank).withoutHexMark with
  | .ok b => ofBytes b
  | .error position => .error (.privateKey (.badHex position))

/-- The key of a hexadecimal text of any type. -/
def ofHexValue (v : Value) : Except Fault PrivateKey :=
  match v with
  | .text t => ofHex t
  | _ => .error (.privateKey .notText)

/-- The 32 bytes of a key. -/
def toBytes (key : PrivateKey) : Bytes := Bytes.ofNatWidth 32 key.scalar

def hex (key : PrivateKey) : Text := Bytes.hexMarked key.toBytes

def publicKey (key : PrivateKey) : PublicKey :=
  .ofPoint (Secp256k1.Point.generator.times key.scalar)

def address (key : PrivateKey) : Address := .ofPublicKey key.publicKey

/-- A key in reports, the same for all keys. -/
def describe (_ : PrivateKey) : Text := "PrivateKey(<redacted>)"

end PrivateKey

end EthWire

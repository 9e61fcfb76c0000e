import EthWire.Digest.Sha256
import EthWire.Secp256k1.Curve

/-!
# Signing nonces

The nonces of a signature are drawn from the key and the digest alone, by the keyed
digest in feedback, so that signing the same digest again gives the same signature.
-/

namespace EthWire.Secp256k1

/-- The key and the value of the generator. -/
structure NonceState where
  key : Bytes
  value : Bytes

namespace NonceState

/-- Mixes a byte and some data into the generator. -/
def update (s : NonceState) (mark : UInt8) (data : Bytes) : NonceState :=
  let key := Sha256.hmac s.key (s.value ++ [mark] ++ data)
  ⟨key, Sha256.hmac key s.value⟩

/-- The generator for a key and a digest, which is reduced once modulo the order. -/
def start (scalar : Nat) (digest : Bytes) : NonceState :=
  let z := Bytes.toNat digest
  let data := Bytes.ofNatWidth 32 scalar ++ Bytes.ofNatWidth 32 (if n ≤ z then z - n else z)
  let initial : NonceState := ⟨List.replicate 32 0, List.replicate 32 1⟩
  (initial.update 0 data).update 1 data

/-- The next candidate for a nonce, and the generator that gave it. -/
def next (s : NonceState) : Nat × NonceState :=
  let value := Sha256.hmac s.key s.value
  (Bytes.toNat value, { s with value })

end NonceState

end EthWire.Secp256k1

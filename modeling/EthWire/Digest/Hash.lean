import EthWire.Digest.Keccak
import EthWire.Fixed
import EthWire.Rlp.Item

/-!
# Hashes

Keccak digests as hash values, the hash of an item, and the address of a public key
with its mixed case spelling.
-/

namespace EthWire

/-- A digest takes four lanes of eight bytes. -/
theorem Keccak.length_keccak256 (message : Bytes) : (keccak256 message).length = 32 := by
  simp [keccak256, bytesOfLane, List.length_flatMap, List.map_const']

namespace Hash

def ofBytes (message : Bytes) : Hash :=
  ⟨Keccak.keccak256 message, Keccak.length_keccak256 message⟩

/-- The hash of the encoding of an item. -/
def ofItem (item : Rlp.Item) : Hash := ofBytes item.encode

end Hash

namespace Address

/-- The address of a public key: the last twenty bytes of its hash. -/
def ofPublicKey (key : PublicKey) : Address :=
  ⟨(Keccak.keccak256 key.bytes).drop 12, by
    simp [Keccak.length_keccak256, FixedKind.size]⟩

/-- A lower case hexadecimal digit in the case that a digest digit asks for. -/
def checksumDigit (c : CodePoint) (nibble : Nat) : CodePoint :=
  if 8 ≤ nibble ∧ 0x61 ≤ c.val then .ofNat (c.val - 0x20) else c

/-- The half bytes of a byte string, the higher half of each first. -/
def nibbles (b : Bytes) : List Nat := b.flatMap fun x => [x.toNat / 16, x.toNat % 16]

/-- The spelling of an address whose letters are upper case where the digest of the
lower case digits has a digit of at least eight. -/
def checksumHex (address : Address) : Text :=
  let lower := Bytes.hex address.bytes
  let digest := Keccak.keccak256 (lower.map fun c => UInt8.ofNat c.val)
  Text.ofString "0x" ++ List.zipWith checksumDigit lower (nibbles digest)

end Address

end EthWire

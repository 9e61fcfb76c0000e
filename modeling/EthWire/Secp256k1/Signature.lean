import EthWire.Secp256k1.Key
import EthWire.Secp256k1.Nonce

/-!
# Recoverable signatures

A signature is 65 bytes: the numbers `r` and `s` of 32 bytes each, and a recovery
identifier, the parity of the ordinate of the point that `r` stands for. From these
and the digest the public key of the signer can be computed. Of the two forms of a
signature the one with the smaller `s` is given.
-/

namespace EthWire.Secp256k1

/-- The greatest `s` of a canonical signature. -/
def halfOrder : Nat := n / 2

/-- The three numbers of a signature. -/
structure Parts where
  r : Nat
  s : Nat
  recoveryId : Nat
deriving DecidableEq, Repr

/-- The number of bytes of a signature. -/
def signatureSize : Nat := 65

/-- Splits a signature into its numbers. -/
def split (signature : Bytes) : Except Fault Parts :=
  if signature.length = signatureSize then
    .ok ⟨Bytes.toNat (signature.take 32), Bytes.toNat ((signature.drop 32).take 32),
      Bytes.toNat (signature.drop 64)⟩
  else .error (.signatureLength signature.length)

/-- The signature of three numbers. -/
def Parts.toBytes (x : Parts) : Bytes :=
  Bytes.ofNatWidth 32 x.r ++ Bytes.ofNatWidth 32 x.s ++ [UInt8.ofNat x.recoveryId]

/-- The digest as a number modulo the order. -/
def digestScalar (digest : Bytes) : Nat := Bytes.toNat digest % n

/-- The public point under which `r` and `s` sign the digest by the curve point of
abscissa `r` that the recovery identifier chooses. -/
def recoverPoint (digest : Bytes) (r s recoveryId : Nat) : Except Fault Point :=
  match Point.ofAbscissa? r recoveryId with
  | none => .error (.signature .notOnCurve)
  | some q =>
      let e := digestScalar digest
      match ((q.times s).add (Point.generator.times ((n - e) % n))).times (inverse n r) with
      | .infinity => .error (.signature .infinity)
      | found => .ok found

/-- The public key of a signature over a digest of 32 bytes. -/
def recover (digest : Bytes) (x : Parts) : Except Fault PublicKey :=
  if 1 < x.recoveryId then .error (.signature (.recoveryId x.recoveryId))
  else if x.r = 0 ∨ n ≤ x.r then .error (.signature .rRange)
  else if x.s = 0 ∨ n ≤ x.s then .error (.signature .sRange)
  else (recoverPoint digest x.r x.s x.recoveryId).map .ofPoint

/-! ## Signing -/

/-- The numbers that a nonce gives, if neither is zero, with the smaller `s`. -/
def valuesForNonce? (scalar : Nat) (digest : Bytes) (nonce : Nat) : Option (Nat × Nat) :=
  if nonce = 0 ∨ n ≤ nonce then none
  else match Point.generator.times nonce with
    | .infinity => none
    | .affine x _ =>
        let r := x % n
        let s := inverse n nonce * (Bytes.toNat digest + scalar * r) % n
        if r = 0 ∨ s = 0 then none else some (r, if halfOrder < s then n - s else s)

/-- The numbers for the first nonce that gives any, among the next `tries`. -/
def drawValues? (scalar : Nat) (digest : Bytes) : (tries : Nat) → NonceState → Option (Nat × Nat)
  | 0, _ => none
  | tries + 1, state =>
      let (nonce, state) := state.next
      match valuesForNonce? scalar digest nonce with
      | some found => some found
      | none => drawValues? scalar digest tries (state.update 0 [])

/-- A candidate fails with a chance of two to the minus 127. -/
def maxTries : Nat := 128

/-- The recovery identifier that leads back to a public key: zero is tried first, and
a failure of the first try is final. -/
def findRecoveryId (digest : Bytes) (r s : Nat) (key : PublicKey) : Except Fault Nat := do
  if PublicKey.ofPoint (← recoverPoint digest r s 0) = key then pure 0
  else if PublicKey.ofPoint (← recoverPoint digest r s 1) = key then pure 1
  else .error (.signature .noRecoveryId)

/-- Signs a digest of 32 bytes. -/
def sign (key : PrivateKey) (digest : Bytes) : Except Fault Bytes :=
  match drawValues? key.scalar digest maxTries (.start key.scalar digest) with
  | none => .error (.signature .noRecoveryId)
  | some (r, s) => do
      let recoveryId ← findRecoveryId digest r s key.publicKey
      pure (Parts.toBytes ⟨r, s, recoveryId⟩)

/-! ## Arguments of any type -/

/-- A digest of 32 bytes, given as a byte string or a fixed-width value. -/
def digestArgument (v : Value) : Except Fault Bytes := do
  let b ← match v with
    | .fixed _ x => .ok x.bytes
    | v => v.asBytes "digest"
  if b.length = 32 then pure b else .error (.argument "digest" (.width 32 b.length))

/-- A byte of a sequence of numbers. -/
def byteArgument (v : Value) : Except Fault UInt8 :=
  match v with
  | .int k => if 0 ≤ k ∧ k < 256 then .ok (UInt8.ofNat k.toNat) else .error (.misuse .badByte)
  | .bool b => .ok (if b then 1 else 0)
  | _ => .error (.misuse .wrongType)

/-- The bytes of whatever can be seen as bytes: a byte string, a fixed-width value, a
sequence of numbers, or a number, which stands for that many zero bytes. -/
def rawBytes (v : Value) : Except Fault Bytes :=
  match v with
  | .fixed _ x => .ok x.bytes
  | .bytes b => .ok b
  | .byteArray b => .ok b
  | .list xs => xs.mapM byteArgument
  | .tuple xs => xs.mapM byteArgument
  | .bool b => .ok (Bytes.zero (if b then 1 else 0))
  | .int k =>
      if k < 0 then .error (.misuse .badByte)
      else if k < 0x1000000 then .ok (Bytes.zero k.toNat)
      else .error (.misuse .overflow)
  | .dict [] => .ok []
  | _ => .error (.misuse .wrongType)

end EthWire.Secp256k1

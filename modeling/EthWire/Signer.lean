import EthWire.Secp256k1.Signature
import EthWire.Transaction.Basic

/-!
# Signers

The two schemes of signing a transaction. The legacy scheme covers the six fields of
the payload; the replay protected scheme covers the chain as well and tells it in the
recovery value. On recovery both ask for the smaller `s`.
-/

namespace EthWire

/-- The number of a chain, which is at least one. -/
abbrev ChainId := { n : Nat // 0 < n }

/-- A scheme of signing. -/
inductive Signer
  | legacy
  | replayProtected (chain : ChainId)
deriving DecidableEq

namespace Signer

def chainId? : Signer → Option Nat
  | legacy => none
  | replayProtected c => some c.val

def kindName : Signer → Text
  | legacy => "legacy"
  | replayProtected .. => "replay_protected"

/-- The replay protected signer of a chain, if the value is a chain. -/
def protectedFor (v : Value) : Except Fault Signer :=
  match v with
  | .int c =>
      if h : 0 < c.toNat then .ok (.replayProtected ⟨c.toNat, h⟩) else .error (.wrongChain v none)
  | _ => .error (.wrongChain v none)

/-- The signer of a chain, or the legacy signer where none is given. -/
def forChain (v : Value) : Except Fault Signer :=
  match v with
  | .null => .ok .legacy
  | v => protectedFor v

/-- The legacy signer, which has no chain. -/
def legacyFor (v : Value) : Except Fault Signer :=
  match v with
  | .null => .ok .legacy
  | v => .error (.wrongChain v none)

/-! ## Digests -/

/-- The item that a signature over a transaction covers. -/
def payloadItem (signer : Signer) (t : Transaction) : Rlp.Item :=
  match signer with
  | legacy => .list t.payloadItems
  | replayProtected c => .list (t.payloadItems ++ [.nat c.val, .nat 0, .nat 0])

/-- The bytes that are hashed for a signature. -/
def payload (signer : Signer) (t : Transaction) : Bytes := (signer.payloadItem t).encode

/-- The digest that is signed. -/
def digest (signer : Signer) (t : Transaction) : Hash := .ofBytes (signer.payload t)

/-- The digest is the hash of the payload and of nothing else. -/
theorem digest_bytes (signer : Signer) (t : Transaction) :
    (signer.digest t).bytes = Keccak.keccak256 (signer.payload t) := rfl

/-! ## Signature values -/

/-- The recovery value of the recovery identifier zero. -/
def baseValue : Signer → Nat
  | legacy => 27
  | replayProtected c => 35 + 2 * c.val

/-- The values `v`, `r` and `s` of a signature. -/
structure Values where
  v : Nat
  r : Nat
  s : Nat
deriving DecidableEq, Repr

def values (signer : Signer) (signature : Bytes) : Except Fault Values := do
  let x ← Secp256k1.split signature
  pure ⟨x.recoveryId + signer.baseValue, x.r, x.s⟩

/-- The values of a signature of any type. -/
def valuesArgument (signer : Signer) (signature : Value) : Except Fault Values := do
  signer.values (← signature.asBytes "signature")

/-- A signature value as a word. -/
def valueWord (name : Text) (k : Nat) : Except Fault (Word 256) :=
  match Word.ofNat? k with
  | some w => .ok w
  | none => .error (Fault.outOfRange name k)

/-- The transaction with the values of a signature. -/
def withSignature (signer : Signer) (t : Transaction) (signature : Bytes) :
    Except Fault Transaction := do
  let x ← signer.values signature
  let v ← valueWord "v" x.v
  let r ← valueWord "r" x.r
  let s ← valueWord "s" x.s
  pure { t with v, r, s }

/-- The transaction with the values of a signature of any type. -/
def withSignatureArgument (signer : Signer) (t : Transaction) (signature : Value) :
    Except Fault Transaction := do
  signer.withSignature t (← signature.asBytes "signature")

/-- The transaction signed with a key. -/
def sign (signer : Signer) (t : Transaction) (key : PrivateKey) : Except Fault Transaction := do
  signer.withSignature t (← Secp256k1.sign key (signer.digest t).bytes)

/-! ## Senders -/

/-- The address of the key that gave `r` and `s` over a digest. -/
def recoverAddress (digest : Hash) (r s : Nat) (recoveryId : Int) : Except Fault Address :=
  if recoveryId ≠ 0 ∧ recoveryId ≠ 1 then .error (.signature (.recoveryId recoveryId))
  else if r = 0 ∨ Secp256k1.n ≤ r ∨ s = 0 ∨ Secp256k1.n ≤ s then
    .error (.signature .valuesRange)
  else if Secp256k1.halfOrder < s then .error (.signature .highS)
  else (Secp256k1.recover digest.bytes ⟨r, s, recoveryId.toNat⟩).map .ofPublicKey

/-- A chain, or nothing, in a report. -/
def chainValue : Option Nat → Value
  | some c => .int c
  | none => .null

/-- The address that signed a transaction. A recovery value without a chain names the
legacy scheme, whichever signer is asked. -/
def sender (signer : Signer) (t : Transaction) : Except Fault Address :=
  if !t.hasSignature then .error .missingSignature
  else if t.isProtected then
    match signer with
    | legacy => .error (.wrongChain (chainValue t.chainId?) none)
    | replayProtected c =>
        if t.chainId? = some c.val then
          recoverAddress (signer.digest t) t.r.val t.s.val ((t.v.val : Int) - signer.baseValue)
        else .error (.wrongChain (chainValue t.chainId?) (some c.val))
  else recoverAddress (legacy.digest t) t.r.val t.s.val ((t.v.val : Int) - legacy.baseValue)

/-- The senders of several transactions, each by itself. -/
def senders (signer : Signer) (ts : List Transaction) : List (Except Fault Address) :=
  ts.map signer.sender

end Signer

end EthWire

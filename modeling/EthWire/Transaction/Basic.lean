import EthWire.Digest.Hash
import EthWire.Json.Basic
import EthWire.Word

/-!
# Transactions

Transactions of the first kind, with the three signature values `v`, `r` and `s`;
all three are zero as long as nobody has signed. A recovery value `v` outside 0, 1,
27 and 28 protects a transaction against replay: from 35 on it tells the chain.
-/

namespace EthWire

structure Transaction where
  nonce : Word 64 := .zero
  gasPrice : Word 256 := .zero
  gas : Word 64 := .zero
  /-- The recipient; a transaction without one creates a contract. -/
  recipient : Option Address := none
  value : Word 256 := .zero
  data : Bytes := []
  v : Word 256 := .zero
  r : Word 256 := .zero
  s : Word 256 := .zero
deriving DecidableEq

namespace Transaction

/-- The recipient as bytes; contract creation has the empty string. -/
def recipientBytes (t : Transaction) : Bytes :=
  match t.recipient with
  | some address => address.bytes
  | none => []

/-- The six fields that a signature covers. -/
def payloadItems (t : Transaction) : List Rlp.Item :=
  [.nat t.nonce.val,
   .nat t.gasPrice.val,
   .nat t.gas.val,
   .bytes t.recipientBytes,
   .nat t.value.val,
   .bytes t.data]

def toItem (t : Transaction) : Rlp.Item :=
  .list (t.payloadItems ++ [.nat t.v.val, .nat t.r.val, .nat t.s.val])

/-- The hash of the whole encoding, signature values included. -/
def hash (t : Transaction) : Hash := Hash.ofItem t.toItem

/-- The most that the sender can spend. -/
def cost (t : Transaction) : Nat := t.value.val + t.gas.val * t.gasPrice.val

def hasSignature (t : Transaction) : Bool :=
  !(t.v.val == 0 && t.r.val == 0 && t.s.val == 0)

/-- The recovery values that belong to no chain. -/
def unprotectedValues : List Nat := [0, 1, 27, 28]

/-- Whether the recovery value belongs to a chain. -/
def isProtected (t : Transaction) : Bool := !unprotectedValues.contains t.v.val

/-- The chain that the recovery value tells, if it tells one. -/
def chainId? (t : Transaction) : Option Nat :=
  if !t.isProtected || t.v.val < 35 then none else some ((t.v.val - 35) / 2)

def isContractCreation (t : Transaction) : Bool := t.recipient.isNone

/-- The transaction without its signature values. -/
def unsigned (t : Transaction) : Transaction :=
  { t with v := .zero, r := .zero, s := .zero }

def jsonMembers (t : Transaction) : List (String × Json) :=
  [("nonce", .str (Text.quantity t.nonce.val)),
   ("gasPrice", .str (Text.quantity t.gasPrice.val)),
   ("gas", .str (Text.quantity t.gas.val)),
   ("to", match t.recipient with
    | some address => .str address.hex
    | none => .null),
   ("value", .str (Text.quantity t.value.val)),
   ("input", .str (Bytes.hexMarked t.data)),
   ("v", .str (Text.quantity t.v.val)),
   ("r", .str (Text.quantity t.r.val)),
   ("s", .str (Text.quantity t.s.val)),
   ("hash", .str t.hash.hex)]

def toJson (t : Transaction) : Json := Json.object t.jsonMembers

/-- A short description. -/
def summary (t : Transaction) : Text :=
  Text.ofString "Transaction(nonce=" ++ Text.ofNat t.nonce.val
    ++ Text.ofString ", to="
    ++ (match t.recipient with
      | some address => address.hex.take 12 ++ Text.ofString "..."
      | none => "<create>")
    ++ Text.ofString ", value=" ++ Text.ofNat t.value.val
    ++ Text.ofString ", signed="
    ++ Text.ofString (if t.hasSignature then "True" else "False") ++ Text.ofString ")"

end Transaction

end EthWire

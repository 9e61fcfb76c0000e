import EthWire.Value.Agreement
import EthWire.Value.Argument

/-!
# Fixed collections

Collections that are read by position, which has to lie within their bounds; no
position is counted from the end.
-/

namespace EthWire

inductive CollectionKind
  | headers
  | transactions
  | logs
  | messages
deriving DecidableEq, Repr

def CollectionKind.name : CollectionKind → Text
  | headers => "Headers"
  | transactions => "Transactions"
  | logs => "Logs"
  | messages => "Messages"

structure Collection (α : Type) where
  kind : CollectionKind
  items : List α

namespace Collection

variable {α : Type}

def size (c : Collection α) : Nat := c.items.length

/-- The item in a position. -/
def get (c : Collection α) (index : Int) : Except Fault α :=
  match if index < 0 then none else c.items[index.toNat]? with
  | some x => .ok x
  | none => .error (.outside index c.size)

/-- The item in a position of any type; a truth value is no position. -/
def getArgument (c : Collection α) (index : Value) : Except Fault α :=
  match index with
  | .int i => c.get i
  | v => .error (.misuse (.indexType v.typeName))

def summary (c : Collection α) : Text :=
  c.kind.name ++ Text.ofString "(size=" ++ Text.ofNat c.size ++ Text.ofString ")"

/-- The collection of the members of a value. -/
def ofValue (kind : CollectionKind) (v : Value) : Except Fault (Collection Value) :=
  match v.members? with
  | some items => .ok ⟨kind, items⟩
  | none => .error (.misuse .wrongType)

/-- Whether two collections are of one kind and agree item by item. -/
def agrees (a b : Collection Value) : Bool :=
  a.kind == b.kind && Value.agreeAll a.items b.items

/-- Whether the hashes of two collections that agree are equal. They are, but only
items that never change have a hash. -/
def hashesAgree (a b : Collection Value) : Except Fault Bool :=
  if Value.allFrozen a.items && Value.allFrozen b.items then .ok true
  else .error (.misuse .unhashable)

end Collection

end EthWire

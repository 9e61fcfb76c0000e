import EthWire.Value.Basic

/-!
# Agreement of values

When two values count as equal. Numbers are compared as numbers whatever their type,
with true as one and false as zero; byte strings by content; a fixed-width value
agrees with its own kind and with a frozen byte string.
-/

namespace EthWire.Value

/-- A value as an integer, if it is an integer or a truth value. -/
def integer? : Value → Option Int
  | int n => some n
  | bool b => some (if b then 1 else 0)
  | _ => none

/-- Agreement of two numbers, or `none` if one of the values is no number. -/
def agreeNumbers : Value → Value → Option Bool
  | float x, float y => some (x.agrees y)
  | float x, v => v.integer?.map x.agreesInt
  | v, float x => v.integer?.map x.agreesInt
  | a, b => do
      let m ← a.integer?
      let n ← b.integer?
      pure (m == n)

mutual

def agrees : Value → Value → Bool
  | null, null => true
  | text a, text b => a == b
  | bytes a, bytes b => a == b
  | bytes a, byteArray b => a == b
  | byteArray a, bytes b => a == b
  | byteArray a, byteArray b => a == b
  | fixed k a, fixed l b => k == l && a.bytes == b.bytes
  | fixed _ a, bytes b => a.bytes == b
  | bytes a, fixed _ b => a == b.bytes
  | list a, list b => agreeAll a b
  | tuple a, tuple b => agreeAll a b
  | dict a, dict b => a.length == b.length && agreeEntries a b
  | record a, record b => a.agrees b
  | a, b => (agreeNumbers a b).getD false

/-- Agreement of two lists, element by element. -/
def agreeAll : List Value → List Value → Bool
  | [], [] => true
  | a :: as, b :: bs => agrees a b && agreeAll as bs
  | _, _ => false

/-- Whether each entry of the first dictionary agrees with one of the second. -/
def agreeEntries : List (Text × Value) → List (Text × Value) → Bool
  | [], _ => true
  | (key, a) :: rest, b =>
      (match b.lookup key with
        | some v => agrees a v
        | none => false) && agreeEntries rest b

end

mutual

/-- Whether the value never changes, so that it can be hashed. -/
def isFrozen : Value → Bool
  | byteArray _ => false
  | list _ => false
  | dict _ => false
  | tuple xs => allFrozen xs
  | record r => r.isFrozen
  | _ => true

def allFrozen : List Value → Bool
  | [] => true
  | v :: rest => isFrozen v && allFrozen rest

end

end EthWire.Value

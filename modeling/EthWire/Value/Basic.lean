import EthWire.Record.Basic
import EthWire.Text.Numeral

/-!
# Values of any type

Arguments whose types are checked when they are used: fields of records under
construction, items to encode, settings.
-/

namespace EthWire

inductive Value
  | null
  | bool (b : Bool)
  | int (n : Int)
  | float (x : Binary64)
  | text (s : Text)
  | bytes (b : Bytes)
  | byteArray (b : Bytes)
  | list (elements : List Value)
  | tuple (elements : List Value)
  | dict (entries : List (Text × Value))
  | fixed (kind : FixedKind) (v : Fixed kind)
  | record (r : Record)

namespace Value

/-- The name of a value's type in reports. -/
def typeName : Value → Text
  | null => "NoneType"
  | bool _ => "bool"
  | int _ => "int"
  | float _ => "float"
  | text _ => "str"
  | bytes _ => "bytes"
  | byteArray _ => "bytearray"
  | list _ => "list"
  | tuple _ => "tuple"
  | dict _ => "dict"
  | fixed kind _ => kind.name
  | record r => r.kind.name

/-- A dictionary with keys given as string literals. -/
def dictionary (entries : List (String × Value)) : Value :=
  dict (entries.map fun (key, v) => (Text.ofString key, v))

/-- The content of a byte string, frozen or not. -/
def bytes? : Value → Option Bytes
  | bytes b => some b
  | byteArray b => some b
  | _ => none

/-- The elements of a list or a tuple. -/
def sequence? : Value → Option (List Value)
  | list xs => some xs
  | tuple xs => some xs
  | _ => none

/-- The members of a collection that is built from this value; those of a text are
its code points, those of a dictionary its keys. -/
def members? : Value → Option (List Value)
  | list xs => some xs
  | tuple xs => some xs
  | text s => some (s.map fun c => text [c])
  | bytes b => some (b.map fun x => int x.toNat)
  | byteArray b => some (b.map fun x => int x.toNat)
  | dict entries => some (entries.map fun e => text e.1)
  | _ => none

mutual

/-- The value of a JSON document. -/
def ofJson : Json → Value
  | .null => null
  | .bool b => bool b
  | .int n => int n
  | .float x => float x
  | .str s => text s
  | .arr xs => list (ofJsonList xs)
  | .obj ms => dict (ofJsonMembers ms)

def ofJsonList : List Json → List Value
  | [] => []
  | j :: rest => ofJson j :: ofJsonList rest

def ofJsonMembers : List (Text × Json) → List (Text × Value)
  | [] => []
  | (key, j) :: rest => (key, ofJson j) :: ofJsonMembers rest

end

/-! ## Numerals -/

mutual

/-- Whether every integer in the value is short enough to be written. -/
def isWritten : Value → Bool
  | int n => Text.isWritten n
  | list xs => areWritten xs
  | tuple xs => areWritten xs
  | dict entries => entriesWritten entries
  | _ => true

def areWritten : List Value → Bool
  | [] => true
  | v :: rest => isWritten v && areWritten rest

def entriesWritten : List (Text × Value) → Bool
  | [] => true
  | (_, v) :: rest => isWritten v && entriesWritten rest

end

end Value

end EthWire

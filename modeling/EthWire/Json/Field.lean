import EthWire.Fault.Basic
import EthWire.Fixed
import EthWire.Json.Writer
import EthWire.Word

/-!
# Fields of JSON objects

What a record asks of a value in one of its fields. The readers look at the shape of
a value only, so they serve documents and arguments of any type alike.
-/

namespace EthWire

/-- What a reader sees of a value whose parts are of type `α`. -/
inductive Shape (α : Type)
  | null
  | bool (b : Bool)
  | int (n : Int)
  | float (x : Binary64)
  | text (s : Text)
  | array (elements : List α)
  | object (members : List (Text × α))
  | other (type : Text)

namespace Json

def shape : Json → Shape Json
  | .null => .null
  | .bool b => .bool b
  | .int n => .int n
  | .float x => .float x
  | .str s => .text s
  | .arr xs => .array xs
  | .obj ms => .object ms

def isNull : Json → Bool
  | .null => true
  | _ => false

end Json

namespace Value

def shape : Value → Shape Value
  | null => .null
  | bool b => .bool b
  | int n => .int n
  | float x => .float x
  | text s => .text s
  | list xs => .array xs
  | dict es => .object es
  | v => .other v.typeName

def isNull : Value → Bool
  | null => true
  | _ => false

end Value

/-- A malformation found in a field of a JSON object. -/
def jsonFault (field : Text) (reason : Reason) : Fault := .malformed .json field reason

namespace Shape

variable {α : Type}

def typeName : Shape α → Text
  | null => "NoneType"
  | bool _ => "bool"
  | int _ => "int"
  | float _ => "float"
  | text _ => "str"
  | array _ => "list"
  | object _ => "dict"
  | other type => type

/-- The digits of a text behind its mark `0x`. -/
def asMarkedHex (s : Shape α) (field : Text) : Except Fault Text :=
  match s with
  | text t =>
      match t.afterHexMark? with
      | some digits => .ok digits
      | none => .error (jsonFault field .noHexMark)
  | s => .error (jsonFault field (.notHexString s.typeName))

/-- The number that the digits of a quantity denote. -/
def quantityOfDigits (digits : Text) (field : Text) : Except Fault Int :=
  match digits with
  | [] => .error (jsonFault field .emptyQuantity)
  | first :: more =>
      if first.val = 0x30 ∧ more ≠ [] then .error (jsonFault field .quantityLeadingZero)
      else
        match Text.readInt? 16 digits with
        | some n => .ok n
        | none => .error (jsonFault field (.badQuantity digits))

/-- A quantity up to `max`: a plain integer, or hexadecimal text. -/
def asQuantity (max : Int) (s : Shape α) (field : Text) : Except Fault Nat := do
  let n ← match s with
    | bool _ => .error (jsonFault field .boolQuantity)
    | int n => .ok n
    | s => do quantityOfDigits (← s.asMarkedHex field) field
  if n < 0 ∨ max < n then .error (jsonFault field (.quantityRange (bitLength max.natAbs)))
  else pure n.toNat

/-- A quantity that fits a word of `bits` bits. -/
def asWord {bits : Nat} (s : Shape α) (field : Text) : Except Fault (Word bits) := do
  let n ← s.asQuantity (Word.max bits) field
  match Word.ofNat? n with
  | some w => pure w
  | none => .error (jsonFault field (.quantityRange bits))

/-- A byte string in hexadecimal text. -/
def asBytes (s : Shape α) (field : Text) : Except Fault Bytes := do
  let digits ← s.asMarkedHex field
  if digits.length % 2 = 1 then .error (jsonFault field .oddHex)
  else
    match Bytes.ofHex digits with
    | .ok b => pure b
    | .error position => .error (jsonFault field (.badHex position))

/-- A byte string of `size` bytes in hexadecimal text. -/
def asBytesOf (size : Int) (s : Shape α) (field : Text) : Except Fault Bytes := do
  let b ← s.asBytes field
  if (b.length : Int) = size then pure b
  else .error (jsonFault field (.byteCount size b.length))

/-- A fixed-width value in hexadecimal text. -/
def asFixed {kind : FixedKind} (s : Shape α) (field : Text) : Except Fault (Fixed kind) := do
  let b ← s.asBytes field
  match Fixed.ofBytes? b with
  | some v => pure v
  | none => .error (jsonFault field (.byteCount kind.size b.length))

def asObject (s : Shape α) (record : Text) : Except Fault (List (Text × α)) :=
  match s with
  | object members => .ok members
  | s => .error (jsonFault record (.notObject s.typeName))

def asArray (s : Shape α) (field : Text) : Except Fault (List α) :=
  match s with
  | array elements => .ok elements
  | s => .error (jsonFault field (.notArray s.typeName))

def asBool (s : Shape α) (field : Text) : Except Fault Bool :=
  match s with
  | bool b => .ok b
  | _ => .error (jsonFault field .notBool)

end Shape

/-- A member that must be there and must not be null. -/
def requireMember {α : Type} (isNull : α → Bool) (members : List (Text × α)) (key record : Text) :
    Except Fault α :=
  match members.lookup key with
  | some v => if isNull v then .error (jsonFault record (.missingField key)) else .ok v
  | none => .error (jsonFault record (.missingField key))

namespace Json

/-- The shape of a member that must be there and must not be null. -/
def require (members : List (Text × Json)) (key : String) (record : Text) :
    Except Fault (Shape Json) :=
  (requireMember isNull members (Text.ofString key) record).map shape

/-- A member, unless it is missing or null. -/
def optional? (members : List (Text × Json)) (key : String) : Option (Shape Json) :=
  match members.lookup (Text.ofString key) with
  | some j => if j.isNull then none else some j.shape
  | none => none

/-- A member as it stands, null included, unless it is missing. -/
def member? (members : List (Text × Json)) (key : String) : Option (Shape Json) :=
  (members.lookup (Text.ofString key)).map shape

/-! ## Texts -/

/-- Reads JSON text for a record. -/
def parse (text record : Text) : Except Fault Json :=
  (read text).mapError fun cause => jsonFault record (.unreadable cause)

/-- The text of a value, if the layout can be written; a bare string has no lines to lay
out. -/
def dump (layout : Layout) (j : Json) : Except Fault Text :=
  match j with
  | .str s => .ok (writeString s)
  | j => if layout.Fits then .ok (j.write layout) else .error (.misuse .overflow)

end Json

end EthWire

import EthWire.Fault.Basic
import EthWire.Value.Description

/-!
# Checked arguments

What a record under construction asks of the value for one of its fields. Each check
names the field in its report. Buffers are copied, so that a later change of the
caller's value never reaches the record.
-/

namespace EthWire

namespace Value

/-- A value of the wrong type for a field. -/
def typeFault (name expected : Text) (v : Value) : Fault :=
  .argument name (.wrongType expected v.typeName)

/-- A natural number up to `max`. -/
def asNat (max : Int) (v : Value) (name : Text) : Except Fault Nat :=
  match v with
  | int n => if n < 0 ∨ max < n then .error (Fault.outOfRange name n) else .ok n.toNat
  | v => .error (typeFault name "int" v)

/-- A natural number that fits a word of `bits` bits. -/
def asWord {bits : Nat} (v : Value) (name : Text) : Except Fault (Word bits) := do
  let n ← v.asNat (Word.max bits) name
  match Word.ofNat? n with
  | some w => pure w
  | none => .error (Fault.outOfRange name n)

/-- A copy of a byte string. -/
def asBytes (v : Value) (name : Text) : Except Fault Bytes :=
  match v.bytes? with
  | some b => .ok b
  | none => .error (typeFault name "bytes" v)

/-- A fixed-width value made of bytes; a wrong width is reported under its kind. -/
def fixedOfBytes {kind : FixedKind} (b : Bytes) : Except Fault (Fixed kind) :=
  match Fixed.ofBytes? b with
  | some v => .ok v
  | none => .error (.argument kind.name (.width kind.size b.length))

/-- A fixed-width value: one of the kind, or a byte string of its width. -/
def asFixed {kind : FixedKind} (v : Value) (name : Text) : Except Fault (Fixed kind) :=
  match v with
  | fixed k x => if h : k = kind then .ok (h ▸ x) else .error (typeFault name kind.name v)
  | v =>
      match v.bytes? with
      | some b => fixedOfBytes b
      | none => .error (typeFault name kind.name v)

/-- A topic, or a byte string of any length that is cut or padded to one. -/
def asTopic (v : Value) (name : Text) : Except Fault Topic :=
  match v with
  | fixed .topic t => .ok t
  | v => (v.asBytes name).map Topic.ofBytes

def asText (v : Value) (name : Text) : Except Fault Text :=
  match v with
  | text t => .ok t
  | v => .error (typeFault name "str" v)

def asBool (v : Value) (name : Text) : Except Fault Bool :=
  match v with
  | bool b => .ok b
  | _ => .error (.argument name (.mustBe "bool"))

/-- A number that is not below zero, as a float. -/
def asFloat (v : Value) (name : Text) : Except Fault Binary64 :=
  match v with
  | float x => if x.isNegative then .error (.argument name (.negative x.write)) else .ok x
  | int n =>
      if n < 0 then .error (.belowZero name n)
      else match Binary64.ofInt? n with
        | some x => .ok x
        | none => .error (.misuse .overflow)
  | v => .error (typeFault name "number" v)

/-- The elements of a list or a tuple. -/
def asSequence (what : Text) (v : Value) (name : Text) : Except Fault (List Value) :=
  match v.sequence? with
  | some xs => .ok xs
  | none => .error (.argument name (.mustBe (Text.ofString "a sequence of " ++ what)))

/-- Records of one kind, in a list or a tuple. -/
def asRecords {α : Type} (pick : Record → Option α) (what : Text) (v : Value) (name : Text) :
    Except Fault (List α) := do
  let xs ← v.asSequence what name
  match xs.mapM fun
    | record r => pick r
    | _ => none with
  | some rs => pure rs
  | none => .error (.argument name (.mustBe (Text.ofString "a sequence of " ++ what)))

end Value

/-- Arguments by name. -/
abbrev Arguments := List (Text × Value)

namespace Arguments

/-- Refuses arguments of other names than these. -/
def checkNames (names : List Text) (args : Arguments) : Except Fault Unit :=
  if args.all fun a => names.contains a.1 then .ok () else .error (.misuse .arguments)

/-- The checked argument of a name, or `default` if it is not given. -/
def get {α : Type} (args : Arguments) (name : String)
    (check : Value → Text → Except Fault α) (default : α) : Except Fault α :=
  match args.lookup (Text.ofString name) with
  | some v => check v name
  | none => .ok default

end Arguments

end EthWire

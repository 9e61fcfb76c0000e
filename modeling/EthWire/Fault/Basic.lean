import EthWire.Json.Reader
import EthWire.Value.Basic

/-!
# Faults

Everything that can go wrong, by its cause. A fault is one that the library reports
with a code of its own, or a misuse: a call that no correct caller makes.
-/

namespace EthWire

/-- Why an argument is refused. -/
inductive ArgumentProblem
  | wrongType (expected got : Text)
  | mustBe (what : Text)
  | outOfRange (n : Int)
  | width (size got : Nat)
  | negative (shown : Text)
  | badHex (position : Nat)
  | stateRootWidth
  | statusWithStateRoot
  | noKey
deriving Repr

inductive Format
  | rlp
  | json
deriving DecidableEq, Repr

/-- Why an encoded record is refused. -/
inductive Reason
  | emptyInput
  | trailingBytes (count : Nat)
  | payloadExceeds (length offset : Nat)
  | nestedTooDeep
  | unexpectedEnd
  | wrappedByte
  | truncatedLength
  | lengthLeadingZero
  | longFormShortPayload
  | notList
  | notString
  | elementCount (expected got : Nat)
  | byteCount (expected : Int) (got : Nat)
  | integerLeadingZero
  | integerOverflow (bits : Nat)
  | receiptStatus (b : Bytes)
  | notHexString (type : Text)
  | noHexMark
  | boolQuantity
  | emptyQuantity
  | quantityLeadingZero
  | badQuantity (digits : Text)
  | quantityRange (bits : Nat)
  | oddHex
  | badHex (position : Nat)
  | missingField (key : Text)
  | notObject (type : Text)
  | notArray (type : Text)
  | unreadable (cause : Json.Unreadable)
  | notBool
  | wrongType (expected got : Text)
  | word32Range (n : Int)
  | stateRootSize (got : Nat)
  | receiptStatusValue (n : Nat)
  | rejected (name : Text) (problem : ArgumentProblem)
deriving Repr

/-- Why a signature is refused. -/
inductive SignatureProblem
  | recoveryId (n : Int)
  | rRange
  | sRange
  | valuesRange
  | highS
  | notOnCurve
  | infinity
  | noRecoveryId
deriving DecidableEq, Repr

/-- Why a private key is refused. -/
inductive KeyProblem
  | wrongType (got : Text)
  | notText
  | badHex (position : Nat)
  | width (got : Nat)
  | range
deriving Repr

/-- Calls that no correct caller makes. -/
inductive Misuse
  /-- a value of a type that no item can hold -/
  | notEncodable (type : Text)
  /-- a negative integer inside an item, as it is shown -/
  | negativeInteger (shown : Text)
  /-- a negative quantity, as it is shown -/
  | negativeQuantity (shown : Text)
  /-- an index that is no integer -/
  | indexType (type : Text)
  /-- arguments of the wrong names or number -/
  | arguments
  /-- a value of a type that the operation does not take at all -/
  | wrongType
  /-- the hash of a value that can change -/
  | unhashable
  /-- a number too great for a float or a fixed width -/
  | overflow
  /-- a number of more decimal digits than are written -/
  | longNumeral
  /-- a negative length, or a byte above 255 -/
  | badByte
  /-- an operation that values of the type do not have -/
  | noOperation
  /-- a byte beyond the end of a byte string -/
  | pastEnd
  /-- a document or a value that nests too deep, where that has no report -/
  | nesting
  /-- a path that no file can have -/
  | badPath
  /-- a path with a surrogate that stands for no byte -/
  | loneSurrogate
  /-- a file that should hold text and is not in UTF-8 -/
  | notText
  /-- a log format without a field, or a level that is none -/
  | badLogging
  /-- a setting whose name stands for something else than a level -/
  | reservedLevel

inductive Fault
  | argument (name : Text) (problem : ArgumentProblem)
  | malformed (format : Format) (field : Text) (reason : Reason)
  | outOfBounds (index : Int) (size : Nat)
  | signatureLength (length : Nat)
  | missingSignature
  | signature (problem : SignatureProblem)
  | chainId (got : Value) (expected : Option Nat)
  | privateKey (problem : KeyProblem)
  | config (problems : List Text)
  | misuse (what : Misuse)

namespace Fault

/-- A fault whose report shows integers: if one of them is too long to be written, there is
no report. -/
def showing (written : Bool) (f : Fault) : Fault := if written then f else .misuse .longNumeral

/-- A number outside its range. -/
def outOfRange (name : Text) (n : Int) : Fault :=
  showing (Text.isWritten n) (.argument name (.outOfRange n))

/-- A number below zero, where none may be. -/
def belowZero (name : Text) (n : Int) : Fault :=
  showing (Text.isWritten n) (.argument name (.negative (Text.ofInt n)))

/-- A position outside a collection of `size` items. -/
def outside (index : Int) (size : Nat) : Fault :=
  showing (Text.isWritten index) (.outOfBounds index size)

/-- A chain that is none, or another one than expected. -/
def wrongChain (got : Value) (expected : Option Nat) : Fault :=
  showing (got.isWritten && expected.all (Text.isWritten ·)) (.chainId got expected)

/-- A fault found while a record is built from `format` becomes a malformation of the
record `name`; every other fault stays. -/
def inRecord (format : Format) (name : Text) : Fault → Fault
  | .argument param problem => .malformed format name (.rejected param problem)
  | f => f

end Fault

end EthWire

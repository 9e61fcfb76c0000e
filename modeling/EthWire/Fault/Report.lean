import EthWire.Fault.Basic
import EthWire.Value.Description

/-!
# Reports of faults

The code, the message and the details of each fault. A message that quotes what
stopped a reader puts it behind a colon at its end.
-/

namespace EthWire

/-- The number and the name of a kind of fault. -/
structure FaultCode where
  number : Nat
  name : String
deriving DecidableEq, Repr

/-- Messages are joined from pieces. -/
private def sentence (parts : List Text) : Text := parts.flatten

/-- What is said of a text that is not hexadecimal. -/
def hexMessage (position : Nat) : Text :=
  sentence ["invalid hex: a digit is missing or is not hexadecimal, at the position ",
    Text.ofNat position]

namespace ArgumentProblem

def message : ArgumentProblem → Text
  | wrongType expected got => sentence ["expected ", expected, ", got ", got]
  | mustBe what => sentence ["expected ", what]
  | outOfRange n => sentence ["out of range: ", Text.ofInt n]
  | width size got => sentence ["must be ", Text.ofNat size, " bytes, got ", Text.ofNat got]
  | negative shown => sentence ["cannot be negative: ", shown]
  | badHex position => hexMessage position
  | stateRootWidth => "must be empty or 32 bytes"
  | statusWithStateRoot => "must be 0 when post_state is set"
  | noKey => "pass --key or --keyfile, or set keyfile in the configuration"

end ArgumentProblem

/-- The message about an argument. -/
def argumentMessage (name : Text) (problem : ArgumentProblem) : Text :=
  sentence ["Invalid parameter: ", name, " - ", problem.message]

def Json.Unreadable.message : Json.Unreadable → Text
  | .tooDeep => "JSON nested too deeply"
  | .problem what line column position =>
      sentence ["invalid JSON: ", what.message, ": line ", Text.ofNat line, " column ",
        Text.ofNat column, " (char ", Text.ofNat position, ")"]

def Format.name : Format → Text
  | .rlp => "rlp"
  | .json => "json"

namespace Reason

def message : Reason → Text
  | emptyInput => "empty input"
  | trailingBytes count => sentence [Text.ofNat count, " trailing bytes after top-level item"]
  | payloadExceeds length offset =>
      sentence ["payload of ", Text.ofNat length, " bytes exceeds input at offset ",
        Text.ofNat offset]
  | nestedTooDeep => sentence ["lists nested deeper than ", Text.ofNat Rlp.maxDepth, " levels"]
  | unexpectedEnd => "unexpected end of input"
  | wrappedByte => "non-canonical single byte string"
  | truncatedLength => "truncated length prefix"
  | lengthLeadingZero => "length prefix has leading zero bytes"
  | longFormShortPayload => "long-form length used for a short payload"
  | notList => "expected list, got string"
  | notString => "expected string, got list"
  | elementCount expected got =>
      sentence ["expected ", Text.ofNat expected, " elements, got ", Text.ofNat got]
  | byteCount expected got =>
      sentence ["expected ", Text.ofInt expected, " bytes, got ", Text.ofNat got]
  | integerLeadingZero => "integer has leading zero bytes"
  | integerOverflow bits => sentence ["integer overflows ", Text.ofNat bits, " bits"]
  | receiptStatus b => sentence ["invalid receipt status value ", Bytes.hex b]
  | notHexString type => sentence ["expected hex string, got ", type]
  | noHexMark => "hex string without 0x prefix"
  | boolQuantity => "expected quantity, got bool"
  | emptyQuantity => "empty hex quantity"
  | quantityLeadingZero => "hex quantity with leading zero digits"
  | badQuantity digits =>
      sentence ["invalid hex quantity: no numeral of base 16 can be read from: ",
        (Text.quoted digits).take 200]
  | quantityRange bits => sentence ["quantity out of range (max ", Text.ofNat bits, " bits)"]
  | oddHex => "hex string of odd length"
  | badHex position => hexMessage position
  | missingField key => sentence ["missing required field '", key, "'"]
  | notObject type => sentence ["expected JSON object, got ", type]
  | notArray type => sentence ["expected JSON array, got ", type]
  | unreadable cause => cause.message
  | notBool => "expected bool"
  | wrongType expected got => sentence ["expected ", expected, ", got ", got]
  | word32Range n => sentence ["out of uint32 range: ", Text.ofInt n]
  | stateRootSize got => sentence ["expected empty or 32 bytes, got ", Text.ofNat got]
  | receiptStatusValue n => sentence ["must be 0 or 1, got ", Text.ofNat n]
  | rejected name problem => argumentMessage name problem

end Reason

def SignatureProblem.message : SignatureProblem → Text
  | .recoveryId n => sentence ["recovery id ", Text.ofInt n, " is not 0 or 1"]
  | .rRange => "r out of range"
  | .sRange => "s out of range"
  | .valuesRange => "r or s out of range"
  | .highS => "s exceeds n/2 (Homestead rule)"
  | .notOnCurve => "r is not the x coordinate of a curve point"
  | .infinity => "recovered point at infinity"
  | .noRecoveryId => "no recovery id reproduces the signing key"

def KeyProblem.message : KeyProblem → Text
  | .wrongType got => sentence ["expected bytes, got ", got]
  | .notText => "expected a hex string"
  | .badHex position => hexMessage position
  | .width got => sentence ["must be 32 bytes, got ", Text.ofNat got]
  | .range => "scalar out of range [1, n)"

/-- The message of a misuse, if it has one of its own. -/
def Misuse.message? : Misuse → Option Text
  | .notEncodable type => some (sentence ["RLP cannot encode ", type])
  | .negativeInteger shown => some (sentence ["RLP integers cannot be negative: ", shown])
  | .negativeQuantity shown => some (sentence ["quantity cannot be negative: ", shown])
  | .indexType type => some (sentence ["index must be int, got ", type])
  | _ => none

namespace Fault

/-- The code of a fault; misuses have none. -/
def code? : Fault → Option FaultCode
  | argument .. => some ⟨1001, "INVALID_PARAMETER"⟩
  | malformed .. => some ⟨2001, "MALFORMED_ENCODING"⟩
  | outOfBounds .. => some ⟨3001, "INDEX_OUT_OF_BOUNDS"⟩
  | signatureLength _ => some ⟨4001, "INVALID_SIGNATURE_LENGTH"⟩
  | missingSignature => some ⟨4002, "MISSING_SIGNATURE"⟩
  | signature _ => some ⟨4003, "INVALID_SIGNATURE"⟩
  | chainId .. => some ⟨4004, "INVALID_CHAIN_ID"⟩
  | privateKey _ => some ⟨5001, "INVALID_PRIVATE_KEY"⟩
  | config _ => some ⟨6001, "INVALID_CONFIG"⟩
  | misuse _ => none

/-- The message without the code. -/
def message : Fault → Text
  | argument name problem => argumentMessage name problem
  | malformed format field reason =>
      sentence ["Malformed ", format.name, " encoding",
        if field.isEmpty then [] else sentence [" in ", field], ": ", reason.message]
  | outOfBounds index size =>
      sentence ["Index out of bounds: ", Text.ofInt index, " (size: ", Text.ofNat size, ")"]
  | signatureLength length =>
      sentence ["Invalid signature length: ", Text.ofNat length, " (expected: 65)"]
  | missingSignature => "Transaction carries no signature"
  | signature problem => sentence ["Invalid signature: ", problem.message]
  | chainId got none => sentence ["Invalid signature: invalid chain id ", got.display]
  | chainId got (some expected) =>
      sentence ["Invalid signature: chain id ", got.display,
        " does not match signer chain id ", Text.ofNat expected]
  | privateKey problem => sentence ["Invalid private key: ", problem.message]
  | config problems => sentence ["Invalid configuration: ", Text.join "; " problems]
  | misuse what => (what.message?).getD []

/-- The message with the code in front, as it is shown to a user. -/
def display (f : Fault) : Text :=
  match f.code? with
  | some code => sentence ["[", Text.ofNat code.number, "] ", f.message]
  | none => f.message

/-- What a fault says about its cause beside the message. -/
def details : Fault → Value
  | argument name _ => .dictionary [("parameter", .text name)]
  | malformed format field reason =>
      .dictionary ([("format", .text format.name), ("reason", .text reason.message)]
        ++ if field.isEmpty then [] else [("field", .text field)])
  | outOfBounds index size => .dictionary [("index", .int index), ("size", .int size)]
  | signatureLength length => .dictionary [("length", .int length), ("expected", .int 65)]
  | chainId got expected =>
      .dictionary [("chain_id", got), ("expected", match expected with
        | some n => .int n
        | none => .null)]
  | config problems => .dictionary [("problems", .list (problems.map .text))]
  | _ => .null

/-- A fault as a dictionary, for logs. -/
def report (f : Fault) : Value :=
  let code := f.code?.getD ⟨0, ""⟩
  .dictionary ([("code", .int code.number), ("name", .text (Text.ofString code.name)),
      ("message", .text f.message)]
    ++ match f.details with
      | .null => []
      | details => [("details", details)])

end Fault

end EthWire

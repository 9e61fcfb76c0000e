import EthWire.Binary64.Shortest
import EthWire.Text.Quoted
import EthWire.Value.Basic

/-!
# Values in reports

How a value is shown in an error report or a log line: `describe` shows it as part of
a larger value, with texts in quotes, and `display` on its own.
-/

namespace EthWire

namespace Fixed

/-- A fixed-width value with its kind; a bloom filter shows only its beginning. -/
def describe {kind : FixedKind} (v : Fixed kind) : Text :=
  kind.name ++ Text.ofString "("
    ++ (if kind = .bloom then v.hex.take 18 ++ Text.ofString "..." else v.hex)
    ++ Text.ofString ")"

/-- A fixed-width value on its own: an address in mixed case, the others in digits. -/
def display : {kind : FixedKind} → Fixed kind → Text
  | .address, v => Address.checksumHex v
  | _, v => v.hex

end Fixed

namespace Value

def describeBool (b : Bool) : Text := if b then "True" else "False"

/-- Described elements in parentheses; a single one has a comma behind it. -/
def describeTuple : List Text → Text
  | [part] => Text.ofString "(" ++ part ++ Text.ofString ",)"
  | parts => Text.ofString "(" ++ Text.join ", " parts ++ Text.ofString ")"

mutual

def describe : Value → Text
  | null => "None"
  | bool b => describeBool b
  | int n => Text.ofInt n
  | float x => x.write
  | text s => s.quoted
  | bytes b => Bytes.quoted b
  | byteArray b => Text.ofString "bytearray(" ++ Bytes.quoted b ++ Text.ofString ")"
  | list xs => Text.ofString "[" ++ Text.join ", " (describeAll xs) ++ Text.ofString "]"
  | tuple xs => describeTuple (describeAll xs)
  | dict entries =>
      Text.ofString "\x7b" ++ Text.join ", " (describeEntries entries) ++ Text.ofString "\x7d"
  | fixed _ v => v.describe
  | record r => r.summary

def describeAll : List Value → List Text
  | [] => []
  | v :: rest => describe v :: describeAll rest

def describeEntries : List (Text × Value) → List Text
  | [] => []
  | (key, v) :: rest =>
      (key.quoted ++ Text.ofString ": " ++ describe v) :: describeEntries rest

end

/-- A value on its own: a text without quotes. -/
def display : Value → Text
  | text s => s
  | fixed _ v => v.display
  | v => v.describe

end Value

end EthWire

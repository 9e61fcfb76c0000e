import EthWire.Binary64.Shortest
import EthWire.Json.Basic
import EthWire.Text.Quoted

/-!
# Writing JSON text

JSON text in ASCII: whatever lies outside is escaped by its UTF-16 units. A text is
written compactly, or with one line for each element at a fixed indentation.
-/

namespace EthWire.Json

/-- How a document is laid out: without blanks if there is no indentation, and with
the keys of each object in order if they are sorted. -/
structure Layout where
  indent : Option Nat := none
  sortKeys : Bool := false
deriving DecidableEq, Repr

/-- The greatest number of blanks that a line is indented by. -/
def maxIndent : Nat := 0x7fffffffffffffff

/-- A layout that can be written: one without an indentation that is too wide. -/
def Layout.Fits (layout : Layout) : Prop := layout.indent.all (· ≤ maxIndent) = true

instance (layout : Layout) : Decidable layout.Fits := inferInstanceAs (Decidable (_ = true))

def unitEscape (n : Nat) : Text := Text.ofString "\\u" ++ Text.hexPadded 4 n

/-- One code point inside a string. -/
def escapePoint (c : CodePoint) : Text :=
  if c.val = 0x22 then "\\\""
  else if c.val = 0x5c then "\\\\"
  else if c.val = 0xa then "\\n"
  else if c.val = 0xd then "\\r"
  else if c.val = 0x9 then "\\t"
  else if c.val = 0x8 then "\\b"
  else if c.val = 0xc then "\\f"
  else if 0x20 ≤ c.val ∧ c.val ≤ 0x7e then [c]
  else if c.val ≤ 0xffff then unitEscape c.val
  else
    let n := c.val - 0x10000
    unitEscape (0xd800 + n / 0x400) ++ unitEscape (0xdc00 + n % 0x400)

def writeString (s : Text) : Text :=
  [CodePoint.ofChar '"'] ++ s.flatMap escapePoint ++ [CodePoint.ofChar '"']

def writeFloat : Binary64 → Text
  | .nan _ => "NaN"
  | .infinite negative => if negative then "-Infinity" else "Infinity"
  | .finite negative significand exponent => Binary64.writeFinite negative significand exponent

/-- The line break in front of an element at a depth, if the layout breaks lines. -/
def lineBreak (layout : Layout) (depth : Nat) : Text :=
  match layout.indent with
  | none => []
  | some width =>
      CodePoint.ofChar '\n' :: List.replicate (depth * width) (CodePoint.ofChar ' ')

def keySeparator (layout : Layout) : Text :=
  if layout.indent.isSome then ": " else ":"

/-- Brackets around written elements, each on a line of its own at `depth`. -/
def enclose (layout : Layout) (depth : Nat) (opening closing : Char) : List Text → Text
  | [] => [CodePoint.ofChar opening, CodePoint.ofChar closing]
  | parts =>
      [CodePoint.ofChar opening]
        ++ Text.join [CodePoint.ofChar ','] (parts.map (lineBreak layout (depth + 1) ++ ·))
        ++ lineBreak layout depth ++ [CodePoint.ofChar closing]

/-- Members in the order in which they are written. -/
def arrange {α : Type} (layout : Layout) (members : List (Text × α)) : List (Text × α) :=
  if layout.sortKeys then members.mergeSort fun a b => !Text.before b.1 a.1 else members

mutual

/-- A value whose own brackets stand at `depth`. -/
def writeAt (layout : Layout) (depth : Nat) : Json → Text
  | .null => "null"
  | .bool b => if b then "true" else "false"
  | .int n => Text.ofInt n
  | .float x => writeFloat x
  | .str s => writeString s
  | .arr elements => enclose layout depth '[' ']' (writeElements layout (depth + 1) elements)
  | .obj members =>
      enclose layout depth '\x7b' '\x7d'
        ((arrange layout (writeMembers layout (depth + 1) members)).map fun (key, text) =>
          writeString key ++ keySeparator layout ++ text)

def writeElements (layout : Layout) (depth : Nat) : List Json → List Text
  | [] => []
  | j :: rest => writeAt layout depth j :: writeElements layout depth rest

/-- The keys of an object with their written values. -/
def writeMembers (layout : Layout) (depth : Nat) : List (Text × Json) → List (Text × Text)
  | [] => []
  | (key, j) :: rest => (key, writeAt layout depth j) :: writeMembers layout depth rest

end

def write (layout : Layout) (j : Json) : Text := writeAt layout 0 j

end EthWire.Json

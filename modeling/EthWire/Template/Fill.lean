import EthWire.Template.Number
import EthWire.Text.Class
import EthWire.Text.Quoted

/-!
# Filling templates

The text of a template once each key has a value. A key without a value, or a value that
its directive cannot show, leaves the whole template without a text.
-/

namespace EthWire.Template

/-- What a key stands for. -/
inductive Datum
  | text (t : Text)
  | number (n : Nat)
  /-- a number that may have a fraction, and here has none -/
  | real (n : Nat)
  /-- a value that shows as `t` only -/
  | constant (t : Text)
deriving DecidableEq, Repr

namespace Datum

/-- The plain text of a value. -/
def plain : Datum → Text
  | text t => t
  | number n => Text.ofNat n
  | real n => Text.ofNat n ++ Text.ofString ".0"
  | constant t => t

/-- The text of a value, a text in quotation marks. -/
def quoted : Datum → Text
  | text t => t.quoted
  | d => d.plain

/-- The same, with ASCII only. -/
def quotedAscii (d : Datum) : Text :=
  d.quoted.flatMap fun c => if c.isAscii then [c] else Text.escaped c

/-- A text of one code point, or the code point of a number. -/
def point? : Datum → Option CodePoint
  | text [c] => some c
  | number n => if h : n < 0x110000 then some ⟨n, h⟩ else none
  | _ => none

/-- A number that has digits in any base. -/
def whole? : Datum → Option Nat
  | number n => some n
  | _ => none

/-- A number that has decimal digits. -/
def number? : Datum → Option Nat
  | number n => some n
  | real n => some n
  | _ => none

end Datum

/-- The ways to show a value. -/
inductive Style
  | plain
  | quoted
  | quotedAscii
  /-- one code point -/
  | point
  | decimal
  | octal
  | hexadecimal (upper : Bool)
  /-- a decimal fraction -/
  | fraction
  | scientific (upper : Bool)
  /-- the shorter one of a decimal fraction and scientific notation -/
  | general (upper : Bool)
deriving DecidableEq, Repr

/-- The way of showing that a letter stands for. -/
def Style.ofLetter? (c : CodePoint) : Option Style :=
  match c.toChar with
  | 's' => some plain
  | 'r' => some quoted
  | 'a' => some quotedAscii
  | 'c' => some point
  | 'd' => some decimal
  | 'i' => some decimal
  | 'u' => some decimal
  | 'o' => some octal
  | 'x' => some (hexadecimal false)
  | 'X' => some (hexadecimal true)
  | 'f' => some fraction
  | 'F' => some fraction
  | 'e' => some (scientific false)
  | 'E' => some (scientific true)
  | 'g' => some (general false)
  | 'G' => some (general true)
  | _ => none

namespace Directive

/-- The first width that is too great to be filled up to. -/
def widthLimit : Nat := 10000000

/-- The first precision that is refused. -/
def precisionLimit : Nat := 2147483648

/-- The digits behind the point where no precision is given. -/
def defaultPlaces : Nat := 6

/-- Fills a text up with blanks to the width. -/
def pad (d : Directive) (t : Text) : Text :=
  let blank := CodePoint.ofChar ' '
  if d.flags.left then t.rightpad d.width blank else t.leftpad d.width blank

/-- A text that is cut to the precision and filled up to the width. -/
def showText (d : Directive) (t : Text) : Text :=
  d.pad (match d.precision with
    | some p => t.take p
    | none => t)

/-- A number with its sign and the mark of its base, filled up to the width. -/
def showNumber (d : Directive) (mark digits : Text) : Text :=
  let sign : Text := if d.flags.sign then "+" else if d.flags.blank then " " else []
  let front := sign ++ mark
  if d.flags.zero && !d.flags.left then
    front ++ digits.leftpad (d.width - front.length) (CodePoint.ofChar '0')
  else d.pad (front ++ digits)

/-- A whole number in a base; its mark shows if the flags ask for it. -/
def showWhole (d : Directive) (mark digits : Text) : Text :=
  d.showNumber (if d.flags.alternate then mark else [])
    (digits.leftpad (d.precision.getD 0) (CodePoint.ofChar '0'))

/-- The text of a number in a style of numbers. -/
def showNumberIn? (d : Directive) (v : Datum) (style : Style) : Option Text :=
  let places := d.precision.getD defaultPlaces
  let alternate := d.flags.alternate
  if widthLimit ≤ places then none
  else match style with
    | .decimal => v.number?.map fun n => d.showWhole [] (Text.ofNat n)
    | .octal => v.whole?.map fun n => d.showWhole "0o" (Text.ofNatBase 8 n)
    | .hexadecimal false => v.whole?.map fun n => d.showWhole "0x" (Text.ofNatBase 16 n)
    | .hexadecimal true =>
        v.whole?.map fun n => d.showWhole "0X" (Text.upper (Text.ofNatBase 16 n))
    | .fraction => v.number?.map fun n => d.showNumber [] (fixedPoint alternate places n)
    | .scientific upper =>
        v.number?.map fun n => d.showNumber [] (scientific upper alternate places n)
    | .general upper => v.number?.map fun n => d.showNumber [] (general upper alternate places n)
    | _ => none

/-- The text of a value in a style, if it has one: styles of numbers show numbers only. -/
def showIn? (d : Directive) (v : Datum) : Style → Option Text
  | .plain => some (d.showText v.plain)
  | .quoted => some (d.showText v.quoted)
  | .quotedAscii => some (d.showText v.quotedAscii)
  | .point => v.point?.map fun c => d.pad [c]
  | style => d.showNumberIn? v style

/-- The text of a value, if the directive can show it. -/
def show? (d : Directive) (v : Datum) : Option Text :=
  if widthLimit ≤ d.width ∨ precisionLimit ≤ d.precision.getD 0 then none
  else (Style.ofLetter? d.conversion).bind (d.showIn? v)

end Directive

/-- All keys with their values, as one value. -/
def summary (fields : List (Text × Datum)) : Datum :=
  let shown := fields.map fun (key, v) => key.quoted ++ Text.ofString ": " ++ v.quoted
  .constant (Text.ofString "\x7b" ++ Text.join ", " shown ++ Text.ofString "\x7d")

/-- The text of pieces; `first` tells that no placeholder stands in front of them. Only
there all keys can be shown together. -/
def fillFrom? (fields : List (Text × Datum)) : (first : Bool) → List Piece → Option Text
  | _, [] => some []
  | first, .literal c :: rest => (fillFrom? fields first rest).map (c :: ·)
  | first, .placeholder key d :: rest => do
      let v ← match key with
        | some key => fields.lookup key
        | none => if first then some (summary fields) else none
      let shown ← d.show? v
      let following ← fillFrom? fields false rest
      pure (shown ++ following)

/-- The text of a template whose keys have values. -/
def fill? (fields : List (Text × Datum)) (template : Text) : Option Text := do
  fillFrom? fields true (← pieces? template)

end EthWire.Template

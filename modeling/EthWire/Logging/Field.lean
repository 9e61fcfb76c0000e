import EthWire.Text.Alphanumeric
import EthWire.Text.Class

/-!
# Fields of log formats

A log format needs a field: a percent sign, a name in parentheses, flags, a width, a
precision behind a point, and a letter. What counts as a field is settled here by its
spelling alone; whether it can be shown is seen when a line is made.
-/

namespace EthWire.Logging

def isFlag (c : CodePoint) : Bool := (Text.ofString "#0+ -").contains c

/-- What follows a star or at least one decimal digit of any script. -/
def afterSize? (t : Text) : Option Text :=
  match t with
  | [] => none
  | c :: rest =>
      if c.val = 0x2a then some rest
      else
        let digits := t.takeWhile fun c => c.decimalDigit?.isSome
        if digits.isEmpty then none else some (t.drop digits.length)

/-- What follows a width, which may be missing. -/
def afterWidth (t : Text) : Text := (afterSize? t).getD t

/-- What follows a point with a precision, which may be missing; a point alone is not
passed. -/
def afterPrecision (t : Text) : Text :=
  match t with
  | [] => []
  | c :: rest => if c.val = 0x2e then (afterSize? rest).getD t else t

/-- The letters that tell how to show a value, in either case. Dotted and dotless i and
the long s count as forms of i and s. -/
def isConversion (c : CodePoint) : Bool :=
  c.val == 0x130 || match c.toUpper with
    | [u] => (Text.ofString "DIOUXEFGCRSA%").contains u
    | _ => false

/-- Whether a text begins with a field behind its percent sign. -/
def startsField (t : Text) : Bool :=
  match t with
  | [] => false
  | opening :: rest =>
      let name := rest.takeWhile CodePoint.isWordPoint
      match rest.drop name.length with
      | [] => false
      | closing :: rest =>
          opening.val == 0x28 && closing.val == 0x29 && !name.isEmpty
            && match afterPrecision (afterWidth (rest.dropWhile isFlag)) with
              | [] => false
              | conversion :: _ => isConversion conversion

/-- Whether a format has a field somewhere. -/
def hasField : Text → Bool
  | [] => false
  | c :: rest => (c.val == 0x25 && startsField rest) || hasField rest

end EthWire.Logging

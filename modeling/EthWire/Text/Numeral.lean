import EthWire.Text.Class

/-!
# Integers written by hand

The lenient spelling of an integer: blanks around it, one sign, digits of any
script, single underscores between digits and, in base sixteen, a `0x` mark.
A decimal numeral has at most `decimalLimit` digits.
-/

namespace EthWire.Text

/-- The greatest number of digits of a decimal numeral that is read or written. -/
def decimalLimit : Nat := 4300

/-- Whether the numeral of an integer is short enough to be written. -/
def isWritten (n : Int) : Bool := n.natAbs < Nat.pow 10 decimalLimit

/-- Brings blanks and digits from outside ASCII to their ASCII forms; what has no
such form becomes a question mark. -/
def foldToAscii (c : CodePoint) : CodePoint :=
  if c.isAscii then c
  else if c.isBlank then ' '
  else match c.decimalDigit? with
    | some d => digitChar d
    | none => '?'

/-- Digits with single underscores between them, `separated` telling that an
underscore may come next. Gives the values of the digits. -/
def underscoredDigits? (base : Nat) : (separated : Bool) → Text → Option (List Nat)
  | separated, [] => if separated then some [] else none
  | separated, c :: rest =>
      match (digit? c).filter (· < base) with
      | some d => (underscoredDigits? base true rest).map (d :: ·)
      | none =>
          if separated && c.val == 0x5f then underscoredDigits? base false rest else none

/-- Takes a sign off the front; the first part tells whether it was a minus. -/
def splitSign : Text → Bool × Text
  | [] => (false, [])
  | c :: rest => if c.val = 0x2d then (true, rest) else if c.val = 0x2b then (false, rest)
      else (false, c :: rest)

/-- Takes `0x` or `0X` and one underscore after it off the front. -/
def dropHexMark : Text → Text
  | z :: x :: rest =>
      if z.val = 0x30 ∧ (x.val = 0x78 ∨ x.val = 0x58) then
        match rest with
        | u :: after => if u.val = 0x5f then after else rest
        | [] => []
      else z :: x :: rest
  | t => t

def readInt? (base : Nat) (t : Text) : Option Int :=
  let body := strip CodePoint.isAsciiBlank (t.map foldToAscii)
  let (negative, unsigned) := splitSign body
  let digits := if base = 16 then dropHexMark unsigned else unsigned
  match underscoredDigits? base false digits with
  | none => none
  | some ds =>
      if base = 10 && decimalLimit < ds.length then none
      else
        let n := Positional.value base ds
        some (if negative then -(n : Int) else n)

end EthWire.Text

import EthWire.Text.Basic

/-!
# Templates

A template is text with placeholders in it. A placeholder is a percent sign, a key in
parentheses, flags, a width, a precision behind a point, and a letter that tells how to
show the value of the key. One without a key shows all keys with their values. Two percent
signs stand for one.
-/

namespace EthWire.Template

/-- How a value is fitted into its place. -/
structure Flags where
  /-- a minus sign: blanks go behind the value -/
  left : Bool := false
  /-- a plus sign: numbers show a sign -/
  sign : Bool := false
  /-- a blank: numbers show a blank in the place of a sign -/
  blank : Bool := false
  /-- a number sign: numbers show the mark of their base, or their point -/
  alternate : Bool := false
  /-- a zero: numbers are filled up with zeros -/
  zero : Bool := false
deriving DecidableEq, Repr

/-- How a value is shown. -/
structure Directive where
  flags : Flags
  width : Nat
  precision : Option Nat
  /-- the letter of the directive -/
  conversion : CodePoint
deriving DecidableEq, Repr

inductive Piece
  | literal (c : CodePoint)
  | placeholder (key : Option Text) (d : Directive)
deriving DecidableEq, Repr

/-! ## Reading -/

/-- The flags with one more, if the code point is a flag. -/
def Flags.with? (f : Flags) (c : CodePoint) : Option Flags :=
  match c.val with
  | 0x2d => some { f with left := true }
  | 0x2b => some { f with sign := true }
  | 0x20 => some { f with blank := true }
  | 0x23 => some { f with alternate := true }
  | 0x30 => some { f with zero := true }
  | _ => none

/-- Leading flags on top of those that are there, and what follows. -/
def takeFlags (f : Flags) : Text → Flags × Text
  | [] => (f, [])
  | c :: rest =>
      match f.with? c with
      | some g => takeFlags g rest
      | none => (f, c :: rest)

/-- The key up to the parenthesis that closes it, and what follows. Parentheses inside
a key come in pairs, of which `depth` are open. -/
def takeKey? : (depth : Nat) → Text → Option (Text × Text)
  | _, [] => none
  | depth, c :: rest =>
      if c.val = 0x29 then
        match depth with
        | 0 => some ([], rest)
        | outer + 1 => (takeKey? outer rest).map fun (key, rest) => (c :: key, rest)
      else
        (takeKey? (if c.val = 0x28 then depth + 1 else depth) rest).map
          fun (key, rest) => (c :: key, rest)

/-- The number that leading decimal digits denote, zero if there are none, and what
follows. -/
def takeNumber (t : Text) : Nat × Text :=
  let isDigit (c : CodePoint) : Bool := 0x30 ≤ c.val && c.val ≤ 0x39
  let digits := t.takeWhile isDigit
  (Positional.value 10 (digits.map fun c => c.val - 0x30), t.drop digits.length)

/-- A precision behind a point, and what follows; a point alone stands for zero. -/
def takePrecision : Text → Option Nat × Text
  | [] => (none, [])
  | c :: rest =>
      if c.val = 0x2e then
        let (n, rest) := takeNumber rest
        (some n, rest)
      else (none, c :: rest)

/-- Drops one of the letters that once told the size of a number. -/
def dropSize : Text → Text
  | [] => []
  | c :: rest => if c.val = 0x68 ∨ c.val = 0x6c ∨ c.val = 0x4c then rest else c :: rest

/-- A key in parentheses, if there is one, and what follows. -/
def takeOptionalKey? (t : Text) : Option (Option Text × Text) :=
  match t with
  | [] => some (none, [])
  | c :: rest =>
      if c.val = 0x28 then (takeKey? 0 rest).map fun (key, rest) => (some key, rest)
      else some (none, t)

/-- The placeholder behind a percent sign, and what follows it. -/
def takePlaceholder? (t : Text) : Option (Piece × Text) := do
  let (key, rest) ← takeOptionalKey? t
  let (flags, rest) := takeFlags {} rest
  let (width, rest) := takeNumber rest
  let (precision, rest) := takePrecision rest
  match dropSize rest with
  | [] => none
  | conversion :: rest => some (.placeholder key { flags, width, precision, conversion }, rest)

/-- The pieces of a template whose first `skip` code points are taken already. -/
def piecesFrom? : (skip : Nat) → Text → Option (List Piece)
  | _, [] => some []
  | skip + 1, _ :: rest => piecesFrom? skip rest
  | 0, c :: rest =>
      if c.val ≠ 0x25 then (piecesFrom? 0 rest).map (.literal c :: ·)
      else match rest with
        | [] => none
        | d :: _ =>
            if d.val = 0x25 then (piecesFrom? 1 rest).map (.literal c :: ·)
            else do
              let (piece, after) ← takePlaceholder? rest
              let pieces ← piecesFrom? (rest.length - after.length) rest
              pure (piece :: pieces)

/-- The pieces of a template. -/
def pieces? (t : Text) : Option (List Piece) := piecesFrom? 0 t

end EthWire.Template

import EthWire.Text.Class

/-!
# Words of a command line

Each argument is classed before any is used: an option, by its name or by the
beginning of one name only, with or without a value attached to it; a word; or the
separator `--`, behind which all arguments are words.
-/

namespace EthWire.CommandLine

/-- An option under its names. -/
structure OptionSpec (ι : Type) where
  id : ι
  names : List Text
  takesValue : Bool

/-- The words that may stand beside the options. -/
inductive Operands
  /-- words by position, at most `count` -/
  | words (count : Nat)
  /-- a command, which takes all that follows -/
  | command
deriving DecidableEq

structure Grammar (ι : Type) where
  options : List (OptionSpec ι)
  operands : Operands

inductive Token (ι : Type)
  | word
  | separator
  | option (spec : OptionSpec ι) (attached : Option Text)
  | unknownOption

def dash : CodePoint := CodePoint.ofChar '-'

def separatorText : Text := "--"

/-- Whether an argument is a negative number: digits, with at most one point, which
has digits behind it. A line break may stand at the end. -/
def looksNegative (arg : Text) : Bool :=
  match arg with
  | [] => false
  | c :: rest =>
      let body := if rest.getLast? == some (CodePoint.ofChar '\n') then rest.dropLast else rest
      let isDigit (d : CodePoint) : Bool := d.decimalDigit?.isSome
      let whole := body.takeWhile isDigit
      c == dash && match body.drop whole.length with
        | [] => !whole.isEmpty
        | point :: fraction =>
            point == CodePoint.ofChar '.' && !fraction.isEmpty && fraction.all isDigit

/-- Parts an argument at its first equals sign. -/
def splitAttached (arg : Text) : Text × Option Text :=
  let name := arg.takeWhile fun c => c != CodePoint.ofChar '='
  match arg.drop name.length with
  | [] => (name, none)
  | _ :: value => (name, some value)

namespace Grammar

variable {ι : Type}

/-- Each name of each option. -/
def named (g : Grammar ι) : List (Text × OptionSpec ι) :=
  g.options.flatMap fun spec => spec.names.map fun name => (name, spec)

def find? (g : Grammar ι) (name : Text) : Option (OptionSpec ι) := g.named.lookup name

/-- The options that the beginning of a name may stand for, with the value attached.
The value of an option with a single dash may follow its letter directly. -/
def abbreviated (g : Grammar ι) (arg : Text) : List (OptionSpec ι × Option Text) :=
  match arg with
  | _ :: d :: rest =>
      if d = dash then
        let (start, attached) := splitAttached arg
        (g.named.filter fun n => start.isPrefixOf n.1).map fun n => (n.2, attached)
      else
        (g.named.filter fun n => n.1 == [dash, d]).map fun n => (n.2, some rest)
  | _ => []

/-- The class of one argument, or `none` if it may stand for several options. -/
def classify? (g : Grammar ι) (arg : Text) : Option (Token ι) :=
  match arg with
  | [] => some .word
  | c :: rest =>
      if c ≠ dash ∨ rest = [] then some .word
      else match g.find? arg with
        | some spec => some (.option spec none)
        | none =>
            match splitAttached arg with
            | (name, some value) =>
                match g.find? name with
                | some spec => some (.option spec (some value))
                | none => classifyRest? arg
            | (_, none) => classifyRest? arg
where
  /-- The class of an argument that is no option's full name. -/
  classifyRest? (arg : Text) : Option (Token ι) :=
    match g.abbreviated arg with
    | [(spec, attached)] => some (.option spec attached)
    | _ :: _ :: _ => none
    | [] =>
        if looksNegative arg || arg.contains (CodePoint.ofChar ' ') then some .word
        else some .unknownOption

/-- The classes of all arguments. -/
def tokens? (g : Grammar ι) : List Text → Option (List (Text × Token ι))
  | [] => some []
  | arg :: rest =>
      if arg = separatorText then some ((arg, .separator) :: rest.map fun word => (word, .word))
      else do
        let token ← g.classify? arg
        let tokens ← tokens? g rest
        pure ((arg, token) :: tokens)

end Grammar

end EthWire.CommandLine

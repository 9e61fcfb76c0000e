import EthWire.CommandLine.Token

/-!
# Reading a command line

The arguments of a command line as events, from left to right. An event may end the
reading: a request for help, say, counts if nothing in front of it is wrong, whatever
comes behind it.
-/

namespace EthWire.CommandLine

inductive Event (ι : Type)
  /-- an option with its value; the value is absent where the option takes none, and
  where only a separator stands in its place -/
  | option (id : ι) (value : Option Text)
  /-- the next word by position; absent where only a separator stands in its place -/
  | operand (value : Option Text)
  | command (name : Text) (rest : List Text)
  /-- an argument that nothing takes -/
  | surplus
  /-- an option with a value too many or too few, or of a name that fits several -/
  | invalid

section Events

variable {ι : Type}

/-- A word in the place of a value; a separator there counts for nothing. -/
def placedValue (word : Text) : Option Text :=
  if word = separatorText then none else some word

/-- The events of classed arguments, with places for `left` more operands. -/
def Grammar.eventsFrom (g : Grammar ι) :
    (left : Nat) → List (Text × Token ι) → List (Event ι)
  | _, [] => []
  | left, (_, .option spec attached) :: rest =>
      match spec.takesValue, attached with
      | true, some value => .option spec.id (placedValue value) :: g.eventsFrom left rest
      | false, none => .option spec.id none :: g.eventsFrom left rest
      | false, some _ => [.invalid]
      | true, none =>
          match rest with
          | (value, .word) :: rest => .option spec.id (some value) :: g.eventsFrom left rest
          | _ => [.invalid]
  | left, (_, .unknownOption) :: rest => .surplus :: g.eventsFrom left rest
  | left, (_, .separator) :: rest =>
      match left, rest with
      | left + 1, (word, .word) :: rest =>
          match g.operands with
          | .command => [.invalid]
          | .words _ => .operand (some word) :: g.eventsFrom left rest
      | left, rest => .surplus :: g.eventsFrom left rest
  | left, (word, .word) :: rest =>
      match left with
      | 0 => .surplus :: g.eventsFrom 0 rest
      | left + 1 =>
          match g.operands with
          | .command => [.command word (rest.map Prod.fst)]
          | .words _ =>
              match rest with
              | (_, .separator) :: rest =>
                  .operand (placedValue word) :: g.eventsFrom left rest
              | rest => .operand (placedValue word) :: g.eventsFrom left rest

/-- The events of a command line. -/
def Grammar.events (g : Grammar ι) (args : List Text) : List (Event ι) :=
  match g.tokens? args with
  | none => [.invalid]
  | some tokens =>
      let left := match g.operands with
        | .words count => count
        | .command => 1
      g.eventsFrom left tokens

end Events

/-- Why there is nothing to run. -/
inductive Stop
  | usage
  | help
  | version
deriving DecidableEq, Repr

/-- What a command line gives. -/
structure Given (ι : Type) where
  /-- the options with their values, the last one first -/
  options : List (ι × Option Text) := []
  operands : List (Option Text) := []
  command : Option (Text × List Text) := none
  /-- whether arguments were left over -/
  surplus : Bool := false

namespace Given

variable {ι : Type} [BEq ι]

/-- Whether an option is there. -/
def has (x : Given ι) (id : ι) : Bool := (x.options.lookup id).isSome

/-- The last value of an option. -/
def value? (x : Given ι) (id : ι) : Option Text := (x.options.lookup id).join

/-- Takes in one event; `check` refuses options and operands by their values. -/
def take (stop? : ι → Option Stop) (check : Given ι → Event ι → Bool) (x : Given ι)
    (event : Event ι) : Except Stop (Given ι) :=
  if !check x event then .error .usage
  else match event with
    | .option id value =>
        match stop? id with
        | some stop => .error stop
        | none => .ok { x with options := (id, value) :: x.options }
    | .operand value => .ok { x with operands := x.operands ++ [value] }
    | .command name rest => .ok { x with command := some (name, rest) }
    | .surplus => .ok { x with surplus := true }
    | .invalid => .error .usage

/-- What the arguments give, by a grammar. -/
def read (g : Grammar ι) (stop? : ι → Option Stop) (check : Given ι → Event ι → Bool)
    (args : List Text) : Except Stop (Given ι) :=
  (g.events args).foldlM (take stop? check) {}

end Given

end EthWire.CommandLine

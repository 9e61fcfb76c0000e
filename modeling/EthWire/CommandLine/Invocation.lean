import EthWire.CommandLine.Event
import EthWire.Text.Numeral

/-!
# Invocations

The options and commands of the tool, and the invocation that a command line spells.
Global options stand in front of the command.
-/

namespace EthWire.CommandLine

/-- The kinds of records that the tool converts. -/
inductive WireKind
  | header
  | block
  | transaction
  | receipt
  | log
deriving DecidableEq, Repr

namespace WireKind

def all : List WireKind := [header, block, transaction, receipt, log]

def name : WireKind → Text
  | header => "header"
  | block => "block"
  | transaction => "transaction"
  | receipt => "receipt"
  | log => "log"

def ofName? (name : Text) : Option WireKind := all.find? fun kind => kind.name == name

end WireKind

/-- Where a private key comes from. -/
structure KeySource where
  key : Option Text
  keyfile : Option Text
deriving DecidableEq

/-- The number of an option, blank where only a separator stands in its place. -/
inductive GivenNumber
  | blank
  | number (n : Int)
deriving DecidableEq, Repr

/-- A transaction to sign, as it is asked for. Data is absent where only a separator
stands for it. -/
structure SigningRequest where
  recipient : Option Text
  nonce : GivenNumber
  value : GivenNumber
  gas : GivenNumber
  gasPrice : GivenNumber
  data : Option Text
  /-- print the record as JSON -/
  asJson : Bool
  source : KeySource
deriving DecidableEq

/-- A command with its arguments. Data is absent where only a separator stands for it. -/
inductive Command
  | keygen (output : Option Text)
  | address (source : KeySource)
  | decode (kind : WireKind) (data : Option Text) (fromJson : Bool)
  | sign (request : SigningRequest)
  | sender (raw : Option Text)
deriving DecidableEq

def Command.name : Command → Text
  | keygen _ => "keygen"
  | address _ => "address"
  | decode .. => "decode"
  | sign _ => "sign"
  | sender _ => "sender"

/-- A command with the global options. -/
structure Invocation where
  config : Option Text
  chainId : Option GivenNumber
  legacy : Bool
  logLevel : Option Text
  command : Command
deriving DecidableEq

/-! ## Options -/

inductive OptionName
  | help
  | version
  | config
  | chainId
  | legacy
  | logLevel
  | output
  | key
  | keyfile
  | fromJson
  | recipient
  | nonce
  | value
  | gas
  | gasPrice
  | data
  | json
deriving DecidableEq, Repr

namespace OptionName

def names : OptionName → List Text
  | help => ["-h", "--help"]
  | version => ["--version"]
  | config => ["--config"]
  | chainId => ["--chain-id"]
  | legacy => ["--legacy"]
  | logLevel => ["--log-level"]
  | output => ["--output", "-o"]
  | key => ["--key"]
  | keyfile => ["--keyfile"]
  | fromJson => ["--from-json"]
  | recipient => ["--to"]
  | nonce => ["--nonce"]
  | value => ["--value"]
  | gas => ["--gas"]
  | gasPrice => ["--gas-price"]
  | data => ["--data"]
  | json => ["--json"]

def takesValue : OptionName → Bool
  | help => false
  | version => false
  | legacy => false
  | fromJson => false
  | json => false
  | _ => true

/-- Whether the value of the option is an integer. -/
def isNumeric : OptionName → Bool
  | chainId => true
  | nonce => true
  | value => true
  | gas => true
  | gasPrice => true
  | _ => false

def spec (o : OptionName) : OptionSpec OptionName := ⟨o, o.names, o.takesValue⟩

/-- The request that ends the reading. -/
def stop? : OptionName → Option Stop
  | help => some .help
  | version => some .version
  | _ => none

/-- Options that exclude each other. -/
def excludes : OptionName → OptionName → Bool
  | key, keyfile => true
  | keyfile, key => true
  | _, _ => false

end OptionName

/-- A grammar of named options; each command can be asked for help. -/
def grammar (options : List OptionName) (operands : Operands) : Grammar OptionName :=
  ⟨(OptionName.help :: options).map OptionName.spec, operands⟩

/-- Whether an event can be taken: numbers that are not blank have to be integers, and
an option that excludes one that is there already is refused. -/
def admissible (x : Given OptionName) : Event OptionName → Bool
  | .option id value =>
      (!id.isNumeric || value.all fun t => (Text.readInt? 10 t).isSome)
        && !(x.options.any fun o => id.excludes o.1)
  | _ => true

/-- The same, and the first operand is a kind of records. -/
def admissibleForDecode (x : Given OptionName) (event : Event OptionName) : Bool :=
  admissible x event && match event with
    | .operand value =>
        !x.operands.isEmpty || (value.bind WireKind.ofName?).isSome
    | _ => true

/-- The number of an option, if the option is there. -/
def Given.number? (x : Given OptionName) (id : OptionName) : Option GivenNumber :=
  (x.options.lookup id).map fun value =>
    match value.bind (Text.readInt? 10) with
    | some n => .number n
    | none => .blank

/-- The source of the key. -/
def Given.keySource (x : Given OptionName) : KeySource := ⟨x.value? .key, x.value? .keyfile⟩

/-! ## Commands -/

/-- A command, if what it needs is there and nothing is left over. -/
def finish {α : Type} (x : Given OptionName) (command : Option α) : Except Stop α :=
  match command with
  | some c => if x.surplus then .error .usage else .ok c
  | none => .error .usage

def readKeygen (args : List Text) : Except Stop Command := do
  let x ← Given.read (grammar [.output] (.words 0)) OptionName.stop? admissible args
  finish x (some (.keygen (x.value? .output)))

def readAddress (args : List Text) : Except Stop Command := do
  let x ← Given.read (grammar [.key, .keyfile] (.words 0)) OptionName.stop? admissible args
  finish x (some (.address x.keySource))

def readDecode (args : List Text) : Except Stop Command := do
  let x ← Given.read (grammar [.fromJson] (.words 2)) OptionName.stop? admissibleForDecode args
  finish x (match x.operands with
    | [kind, data] =>
        (kind.bind WireKind.ofName?).map fun kind => .decode kind data (x.has .fromJson)
    | _ => none)

/-- The gas of a plain transfer. -/
def defaultGas : Int := 21000

def readSign (args : List Text) : Except Stop Command := do
  let options : List OptionName :=
    [.recipient, .nonce, .value, .gas, .gasPrice, .data, .json, .key, .keyfile]
  let x ← Given.read (grammar options (.words 0)) OptionName.stop? admissible args
  finish x ((x.number? .nonce).map fun nonce => .sign
    { recipient := x.value? .recipient
      nonce
      value := (x.number? .value).getD (.number 0)
      gas := (x.number? .gas).getD (.number defaultGas)
      gasPrice := (x.number? .gasPrice).getD (.number 1)
      data := (x.options.lookup .data).getD (some "0x")
      asJson := x.has .json
      source := x.keySource })

def readSender (args : List Text) : Except Stop Command := do
  let x ← Given.read (grammar [] (.words 1)) OptionName.stop? admissible args
  finish x (match x.operands with
    | [raw] => some (.sender raw)
    | _ => none)

/-- The reader of a command of that name. -/
def commandReader? (name : Text) : Option (List Text → Except Stop Command) :=
  [(Text.ofString "keygen", readKeygen),
   (Text.ofString "address", readAddress),
   (Text.ofString "decode", readDecode),
   (Text.ofString "sign", readSign),
   (Text.ofString "sender", readSender)].lookup name

/-- The grammar in front of the command. -/
def globalGrammar : Grammar OptionName :=
  grammar [.version, .config, .chainId, .legacy, .logLevel] .command

/-- The invocation that a command line spells. -/
def Invocation.read (args : List Text) : Except Stop Invocation := do
  let x ← Given.read globalGrammar OptionName.stop? admissible args
  match x.command with
  | none => .error .usage
  | some (name, rest) =>
      match commandReader? name with
      | none => .error .usage
      | some reader => do
          let command ← reader rest
          finish x (some
            { config := x.value? .config
              chainId := x.number? .chainId
              legacy := x.has .legacy
              logLevel := x.value? .logLevel
              command })

end EthWire.CommandLine

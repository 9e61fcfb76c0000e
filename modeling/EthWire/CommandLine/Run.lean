import EthWire.CommandLine.Note
import EthWire.Config.File
import EthWire.Logging.Logger
import EthWire.Record.Build
import EthWire.Record.Codec
import EthWire.Signer
import EthWire.Value.Fixed

/-!
# Running the tool

What a command line does, as a function of all that a run may look at: the files, the
standard input, the time and a fresh key. A run ends with a code, its output, its
reports and the files as they are afterwards. A failure is reported in one line that
begins with `error:`, and then there is no output.
-/

namespace EthWire.CommandLine

/-- What a run may look at. -/
structure Surroundings where
  files : Files
  input : Text
  moment : Logging.Moment
  host : Logging.Host
  /-- the key that key generation gives out -/
  freshKey : PrivateKey

/-- How a run ends. -/
inductive Ending
  /-- a command line that spells no invocation -/
  | usage
  | finished (code : Nat) (output errors : Text) (files : Files)
  /-- a failure that has no report -/
  | broken (failure : Failure)

/-- What a command achieves: the lines it prints, what it logs, and the files. -/
structure Achievement where
  output : List Text
  notes : List Note
  files : Files

/-- The name under which the tool logs. -/
def loggerName : Text := "ethrecords.cli"

def versionLine : Text := "ethrecords 0.3.0"

def helpLines : List Text :=
  ["usage: ethrecords [--version] [--config FILE] [--chain-id N] [--legacy] [--log-level LEVEL]",
   "                  keygen|address|decode|sign|sender ...",
   "",
   "  keygen [--output FILE]",
   "  address (--key HEX | --keyfile FILE)",
   "  decode KIND (HEX|-)",
   "  decode KIND --from-json (TEXT|-)",
   "  sign --nonce N [--to ADDRESS] [--value V] [--gas G] [--gas-price P] [--data HEX] [--json]",
   "       (--key HEX | --keyfile FILE)",
   "  sender (HEX|-)"]

def unlines (lines : List Text) : Text := lines.flatMap (· ++ [CodePoint.ofChar '\n'])

/-- A fault as a failure. -/
def orFail {α : Type} (x : Except Fault α) : Except Failure α := x.mapError .fault

/-- A value that is a text and not empty. -/
def filled : Option Text → Option Text
  | some [] => none
  | t => t

/-! ## Arguments -/

/-- The text of an argument without blanks around it; a dash stands for the input. -/
def readData (s : Surroundings) (data : Option Text) : Except Failure Text :=
  match data with
  | none => .error (.fault (.misuse .noOperation))
  | some t =>
      let source := if t = [dash] then s.input else t
      .ok (source.strip CodePoint.isBlank)

/-- The bytes of hexadecimal text with or without its mark. -/
def decodeHex (t : Text) (name : Text) : Except Fault Bytes :=
  (Bytes.ofHex t.withoutHexMark).mapError fun position => .argument name (.badHex position)

/-- A given number as a value; a blank one is the empty list. -/
def GivenNumber.toValue : GivenNumber → Value
  | blank => .list []
  | number n => .int n

/-- The chain to use: none for the legacy signer, else the one that is asked for, else
the one of the configuration. -/
def resolveChainId (i : Invocation) (config : Config) : Value :=
  if i.legacy then .null
  else match i.chainId with
    | some c => c.toValue
    | none => config.signer.chainId

/-- The private key of a source. A key counts before a file, and a file before the one
of the configuration. -/
def loadKey (source : KeySource) (config : Config) (files : Files) :
    Except Failure PrivateKey :=
  match filled source.key with
  | some key => orFail (PrivateKey.ofHex key)
  | none =>
      let configured := match config.keyfile with
        | .text t => filled (some t)
        | _ => none
      match (filled source.keyfile).or configured with
      | some path => do orFail (PrivateKey.ofHex (← files.readText path))
      | none => .error (.fault (.argument "key" .noKey))

/-- The layout of JSON output that a configuration asks for. -/
def layoutOf (config : Config) : Json.Layout where
  indent := match config.codec.jsonIndent with
    | .int n => some n.toNat
    | _ => none
  sortKeys := match config.codec.jsonSortKeys with
    | .bool b => b
    | _ => false

/-! ## Commands -/

/-- Makes a key, and prints it unless it goes into a file. -/
def runKeygen (s : Surroundings) (files : Files) (output : Option Text) :
    Except Failure Achievement := do
  let key := s.freshKey
  let address := key.address.checksumHex
  match filled output with
  | some path =>
      let files ← files.write path (key.hex ++ [CodePoint.ofChar '\n']).toUtf8
      pure ⟨[address], [.keyWritten path], files⟩
  | none => pure ⟨[key.hex, address], [], files⟩

/-- The encoding of the record in a JSON text. -/
def recode (α : Type) [WireRecord α] (text : Text) : Except Fault Text := do
  let record : α ← decodeJson text
  pure (Bytes.hexMarked (encodeRlp record))

/-- The JSON text of the record in an encoding. -/
def describe (α : Type) [WireRecord α] (config : Config) (data : Bytes) :
    Except Fault Text := do
  let record : α ← decodeRlp data
  encodeJson record (layoutOf config)

/-- From JSON text to the encoding, by the kind of the record. -/
def recodeKind : WireKind → Text → Except Fault Text
  | .header => recode Header
  | .block => recode Block
  | .transaction => recode Transaction
  | .receipt => recode Receipt
  | .log => recode Log

/-- From an encoding to JSON text, by the kind of the record. -/
def describeKind : WireKind → Config → Bytes → Except Fault Text
  | .header => describe Header
  | .block => describe Block
  | .transaction => describe Transaction
  | .receipt => describe Receipt
  | .log => describe Log

def runDecode (s : Surroundings) (config : Config) (kind : WireKind) (data : Option Text)
    (fromJson : Bool) : Except Failure Text := do
  let text ← readData s data
  if fromJson then orFail (recodeKind kind text)
  else orFail do describeKind kind config (← decodeHex text "data")

/-- The recipient of a request; an empty one stands for none. -/
def recipientOf (shown : Option Text) : Except Fault (Option Address) :=
  match filled shown with
  | some t => (Fixed.ofHex t).map some
  | none => .ok none

/-- The unsigned transaction of a request. -/
def requested (request : SigningRequest) : Except Fault Transaction := do
  let recipient ← recipientOf request.recipient
  let data ← match request.data with
    | some t => decodeHex t "data"
    | none => .error (.misuse .wrongType)
  Transaction.create
    [(Text.ofString "nonce", request.nonce.toValue),
     (Text.ofString "to", match recipient with
      | some address => .fixed .address address
      | none => .null),
     (Text.ofString "value", request.value.toValue),
     (Text.ofString "gas", request.gas.toValue),
     (Text.ofString "gas_price", request.gasPrice.toValue),
     (Text.ofString "data", .bytes data)]

/-- The transaction of a request, signed for a chain. -/
def signRequested (request : SigningRequest) (key : PrivateKey) (chainId : Value) :
    Except Fault Transaction := do
  let t ← requested request
  let signer ← Signer.forChain chainId
  signer.sign t key

def runSign (config : Config) (files : Files) (chainId : Value) (request : SigningRequest) :
    Except Failure Achievement := do
  let key ← loadKey request.source config files
  let signed ← orFail (signRequested request key chainId)
  let output ←
    if request.asJson then orFail (encodeJson signed (layoutOf config))
    else pure (Bytes.hexMarked (encodeRlp signed))
  pure ⟨[output], [.signed signed.summary chainId], files⟩

def runSender (s : Surroundings) (chainId : Value) (raw : Option Text) : Except Failure Text := do
  let text ← readData s raw
  orFail do
    let t : Transaction ← decodeRlp (← decodeHex text "raw")
    let signer ← Signer.forChain chainId
    pure (← signer.sender t).checksumHex

/-- What a command achieves with these files. -/
def perform (s : Surroundings) (config : Config) (files : Files) (i : Invocation) :
    Except Failure Achievement :=
  match i.command with
  | .keygen output => runKeygen s files output
  | .address source => do
      let key ← loadKey source config files
      pure ⟨[key.address.checksumHex], [], files⟩
  | .decode kind data fromJson => do
      pure ⟨[← runDecode s config kind data fromJson], [], files⟩
  | .sign request => runSign config files (resolveChainId i config) request
  | .sender raw => do pure ⟨[← runSender s (resolveChainId i config) raw], [], files⟩

/-! ## Runs -/

/-- The configuration of an invocation. -/
def loadConfig (i : Invocation) (files : Files) : Except Failure Config :=
  match filled i.config with
  | some path => do orFail (Config.load path (← files.read path))
  | none => .ok {}

/-- The log settings of an invocation. -/
def logSettings (i : Invocation) (config : Config) : Config.LogSection :=
  match filled i.logLevel with
  | some level => { config.log with level := .text level }
  | none => config.log

/-- The report of a failure to the user, if it has one. -/
def report? : Failure → Option Text
  | .fault (.misuse _) => none
  | .fault f => some f.display
  | .file path problem => some (Failure.fileMessage path problem)

/-- The line that tells the user of a failure. -/
def errorLine (message : Text) : Text := unlines [Text.ofString "error: " ++ message]

/-- What is logged of a failure: faults are, files that cannot be opened are not. -/
def failureNotes (i : Invocation) : Failure → List Note
  | .fault f => [.failed i.command f]
  | .file .. => []

/-- The entries of notes. -/
def entriesOf (s : Surroundings) (notes : List Note) : List Logging.Entry :=
  notes.map fun note =>
    ⟨s.moment, s.host, loggerName, note.level, note.origin, note.message⟩

/-- Runs an invocation. -/
def Invocation.run (i : Invocation) (s : Surroundings) : Ending :=
  match loadConfig i s.files with
  | .error failure =>
      match report? failure with
      | some message => .finished 1 [] (errorLine message) s.files
      | none => .broken failure
  | .ok config =>
      match Logging.Logger.start (logSettings i config) s.files with
      | .error failure => .broken failure
      | .ok (logger, files) =>
          match perform s config files i with
          | .ok done =>
              let lines := logger.lines (entriesOf s done.notes)
              .finished 0 (unlines done.output) lines.flatten (logger.record lines done.files)
          | .error failure =>
              match report? failure with
              | none => .broken failure
              | some message =>
                  let lines := logger.lines (entriesOf s (failureNotes i failure))
                  .finished 1 [] (lines.flatten ++ errorLine message) (logger.record lines files)

/-- Runs a command line. -/
def run (args : List Text) (s : Surroundings) : Ending :=
  match Invocation.read args with
  | .ok i => i.run s
  | .error .usage => .usage
  | .error .help => .finished 0 (unlines helpLines) [] s.files
  | .error .version => .finished 0 (unlines [versionLine]) [] s.files

end EthWire.CommandLine

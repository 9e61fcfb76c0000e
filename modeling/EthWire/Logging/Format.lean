import EthWire.Logging.Level
import EthWire.Template.Fill

/-!
# Lines of log files

An entry in the log, the values of its fields, and its line in a format.
-/

namespace EthWire.Logging

/-- Where in the tool an entry comes from. -/
structure Origin where
  function : Text
  line : Nat
deriving DecidableEq, Repr

/-- A time, as log lines show it and as fields count it. -/
structure Moment where
  /-- the date and the time of day, to the millisecond -/
  shown : Text
  /-- whole seconds since the epoch -/
  seconds : Nat
  /-- milliseconds since the last whole second -/
  milliseconds : Nat
  /-- milliseconds since the tool was started -/
  elapsed : Nat

/-- The tool as it runs. -/
structure Host where
  /-- the directory of its modules -/
  directory : Text
  process : Nat
  thread : Nat

/-- An event to be logged. -/
structure Entry where
  moment : Moment
  host : Host
  logger : Text
  level : Level
  origin : Origin
  message : Text

namespace Entry

/-- The last part of the logger's name. -/
def moduleName (e : Entry) : Text :=
  (e.logger.reverse.takeWhile fun c => c.val != 0x2e).reverse

/-- The file of the module. -/
def fileName (e : Entry) : Text := e.moduleName ++ Text.ofString ".py"

/-- The fields of every entry, in the order in which they are shown together. -/
def fields (e : Entry) : List (Text × Template.Datum) :=
  [("name", .text e.logger),
   ("msg", .text e.message),
   ("args", .constant "()"),
   ("levelname", .text e.level.name),
   ("levelno", .number e.level.number),
   ("pathname", .text (e.host.directory ++ Text.ofString "/" ++ e.fileName)),
   ("filename", .text e.fileName),
   ("module", .text e.moduleName),
   ("exc_info", .constant "None"),
   ("exc_text", .constant "None"),
   ("stack_info", .constant "None"),
   ("lineno", .number e.origin.line),
   ("funcName", .text e.origin.function),
   ("created", .real e.moment.seconds),
   ("msecs", .real e.moment.milliseconds),
   ("relativeCreated", .real e.moment.elapsed),
   ("thread", .number e.host.thread),
   ("threadName", .text "MainThread"),
   ("processName", .text "MainProcess"),
   ("process", .number e.host.process),
   ("message", .text e.message)]

/-- The field for the time, which an entry has only if the format asks for it. -/
def timeField (e : Entry) (format : Text) : List (Text × Template.Datum) :=
  if (Text.ofString "%(asctime)").isInfixOf format then
    [(Text.ofString "asctime", .text e.moment.shown)]
  else []

/-- The line of an entry, if the format can show it. -/
def line? (e : Entry) (format : Text) : Option Text :=
  Template.fill? (e.fields ++ e.timeField format) format

end Entry

end EthWire.Logging

import EthWire.Config.Basic
import EthWire.Fault.Report
import EthWire.Json.Writer
import EthWire.Text.Utf8
import EthWire.Value.Agreement

/-!
# Configuration files

A configuration file holds a JSON object with a member for each section. Sections
and settings may be left out, but no other keys may be there. Whatever is read is
checked, so a loaded configuration has no problems.
-/

namespace EthWire.Config

/-- Refuses a configuration for the problems found. -/
def refuse {α : Type} (problems : List Text) : Except Fault α := .error (.config problems)

/-! ## Reading -/

/-- The keys of an object that are not known, in order. -/
def unknownKeys (known : List Text) (members : List (Text × Json)) : List Text :=
  Text.sort ((members.map Prod.fst).filter fun key => !known.contains key)

/-- Refuses keys that are not known; the report puts `path` in front of them. -/
def checkKeys (known : List Text) (path : Text) (members : List (Text × Json)) :
    Except Fault Unit :=
  match unknownKeys known members with
  | [] => .ok ()
  | unknown => refuse (unknown.map fun key => Text.ofString "Unknown key: " ++ path ++ key)

/-- The members of a section, none if the section is missing. -/
def sectionMembers (name : String) (known : List Text) (members : List (Text × Json)) :
    Except Fault (List (Text × Json)) :=
  match members.lookup (Text.ofString name) with
  | none => .ok []
  | some (.obj settings) => do
      checkKeys known (Text.ofString name ++ Text.ofString ".") settings
      pure settings
  | some _ =>
      refuse [Text.ofString "Section '" ++ Text.ofString name
        ++ Text.ofString "' must be an object"]

/-- A setting, or `default` if it is missing. -/
def setting (members : List (Text × Json)) (key : String) (default : Value) : Value :=
  match members.lookup (Text.ofString key) with
  | some j => .ofJson j
  | none => default

/-- The configuration of a JSON object, before its values are checked. -/
def ofMembers (members : List (Text × Json)) : Except Fault Config := do
  checkKeys ["keyfile", "signer", "codec", "log"] [] members
  let base : Config := {}
  let signer ← sectionMembers "signer" ["chain_id"] members
  let codec ← sectionMembers "codec" ["json_indent", "json_sort_keys"] members
  let log ← sectionMembers "log" ["level", "file", "format", "max_size_mb", "backup_count"]
    members
  pure
    { signer := { chainId := setting signer "chain_id" base.signer.chainId }
      codec :=
        { jsonIndent := setting codec "json_indent" base.codec.jsonIndent
          jsonSortKeys := setting codec "json_sort_keys" base.codec.jsonSortKeys }
      log :=
        { level := setting log "level" base.log.level
          file := setting log "file" base.log.file
          format := setting log "format" base.log.format
          maxSizeMb := setting log "max_size_mb" base.log.maxSizeMb
          backupCount := setting log "backup_count" base.log.backupCount }
      keyfile := setting members "keyfile" base.keyfile }

/-- A configuration that has no problems. -/
def checked (c : Config) : Except Fault Config := do
  match ← c.validate with
  | [] => pure c
  | problems => refuse problems

/-- The configuration in the content of a file. -/
def load (path : Text) (content : Bytes) : Except Fault Config :=
  match Text.ofUtf8? content with
  | none => refuse [path ++ Text.ofString ": invalid JSON: not a text in UTF-8"]
  | some text =>
      match Json.read text with
      | .error .tooDeep => .error (.misuse .nesting)
      | .error cause => refuse [path ++ Text.ofString ": " ++ cause.message]
      | .ok (.obj members) => do checked (← ofMembers members)
      | .ok _ => refuse [path ++ Text.ofString ": expected a JSON object"]

/-! ## Writing -/

/-- The JSON form of a setting; a configuration without problems holds no others. -/
def settingJson : Value → Json
  | .bool b => .bool b
  | .int n => .int n
  | .text t => .str t
  | _ => .null

def toJson (c : Config) : Json :=
  Json.object
    [("keyfile", settingJson c.keyfile),
     ("signer", Json.object [("chain_id", settingJson c.signer.chainId)]),
     ("codec", Json.object
       [("json_indent", settingJson c.codec.jsonIndent),
        ("json_sort_keys", settingJson c.codec.jsonSortKeys)]),
     ("log", Json.object
       [("level", settingJson c.log.level),
        ("file", settingJson c.log.file),
        ("format", settingJson c.log.format),
        ("max_size_mb", settingJson c.log.maxSizeMb),
        ("backup_count", settingJson c.log.backupCount)])]

/-- The content of a file that holds the configuration. -/
def save (c : Config) : Text := c.toJson.write { indent := some 2 }

/-- The settings in the order in which they are written. -/
def settings (c : Config) : List Value :=
  [c.keyfile, c.signer.chainId, c.codec.jsonIndent, c.codec.jsonSortKeys, c.log.level,
   c.log.file, c.log.format, c.log.maxSizeMb, c.log.backupCount]

/-- Whether two configurations agree in every setting. -/
def agrees (a b : Config) : Bool := Value.agreeAll a.settings b.settings

end EthWire.Config

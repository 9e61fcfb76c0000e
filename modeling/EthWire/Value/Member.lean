import EthWire.Json.Field
import EthWire.Value.Agreement

/-!
# Members of values

A member by its key, of a value of any type. Only dictionaries have members; a list
or a text may hold the key itself, but gives nothing for it.
-/

namespace EthWire

/-- Whether a text occurs in another one. -/
def Text.occursIn (part : Text) : Text → Bool
  | [] => part.isEmpty
  | c :: rest => part.isPrefixOf (c :: rest) || occursIn part rest

namespace Value

/-- Whether a list, a tuple or a text holds a key; `none` for all else. -/
def holds? (v : Value) (key : Text) : Option Bool :=
  match v with
  | list xs => some (xs.any fun x => x.agrees (text key))
  | tuple xs => some (xs.any fun x => x.agrees (text key))
  | text t => some (key.occursIn t)
  | _ => none

/-- A member that must be there and must not be null. -/
def require (v : Value) (key record : Text) : Except Fault Value :=
  match v with
  | dict entries => requireMember isNull entries key record
  | v =>
      if v.holds? key = some false then .error (jsonFault record (.missingField key))
      else .error (.misuse .wrongType)

end Value

end EthWire

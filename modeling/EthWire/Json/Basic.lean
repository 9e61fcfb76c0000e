import EthWire.Binary64.Basic
import EthWire.Text.Basic

/-!
# JSON values

An object keeps its members in order and has each key once. Integers are exact,
every other number is a binary64 number.
-/

namespace EthWire

inductive Json
  | null
  | bool (b : Bool)
  | int (n : Int)
  | float (x : Binary64)
  | str (s : Text)
  | arr (elements : List Json)
  | obj (members : List (Text × Json))
deriving Repr

namespace Json

/-- Gives `key` a value: in the place of an earlier member of that key, or at the end. -/
def put {α : Type} (key : Text) (value : α) : List (Text × α) → List (Text × α)
  | [] => [(key, value)]
  | (k, v) :: rest => if k = key then (key, value) :: rest else (k, v) :: put key value rest

instance : Coe Text Json := ⟨.str⟩

/-- A string value. -/
def ofString (s : String) : Json := .str (Text.ofString s)

/-- An object with keys given as string literals. -/
def object (members : List (String × Json)) : Json :=
  .obj (members.map fun (k, v) => (Text.ofString k, v))

end Json

end EthWire

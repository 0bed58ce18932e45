import ToolChanger.Json.Basic
import ToolChanger.Toml.Moment

namespace ToolChanger.Toml

open Decimal

inductive Value where
  | string (text : String)
  | integer (n : Int) (fits : -0x8000000000000000 ≤ n ∧ n < 0x8000000000000000)
  | real (x : Binary64)
  /-- infinity or no number -/
  | nonfinite
  | boolean (value : Bool)
  | moment (moment : Moment)
  | array (items : List Value)
  | table (members : List (String × Value))

namespace Value

def isFinite : Value → Bool
  | nonfinite => false
  | _ => true

/-- The only member of the object that a moment becomes. -/
def momentName : String := "$__toml_private_datetime"

mutual

def toJson : Value → Json
  | string text => .string text
  | integer n fits => .number (.whole n ⟨fits.1, by omega⟩)
  | real x => .number (.real x)
  | nonfinite => .null
  | boolean value => .bool value
  | moment m => .object [(momentName, .string m.text)]
  | array items => .array (itemsToJson items)
  | table members => .object (membersToJson members)

def itemsToJson : List Value → List Json
  | [] => []
  | item :: rest => toJson item :: itemsToJson rest

def membersToJson : List (String × Value) → List (String × Json)
  | [] => []
  | (name, value) :: rest => (name, toJson value) :: membersToJson rest

end

end Value

end ToolChanger.Toml

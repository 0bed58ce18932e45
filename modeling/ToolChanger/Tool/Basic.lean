import ToolChanger.Json.Basic
import ToolChanger.Text.Blank
import ToolChanger.Tool.Number

namespace ToolChanger

open Decimal

namespace Tool

/-- What a tool is for. `other` is any kind the library has no word for. -/
inductive Kind where
  | flat
  | ball
  | vBit
  | drill
  | surfacing
  | threadMill
  | probe
  | other
  deriving DecidableEq, Repr

def Kind.label : Kind → String
  | flat => "Flat End Mill"
  | ball => "Ball End Mill"
  | vBit => "V-Bit"
  | drill => "Drill"
  | surfacing => "Surfacing"
  | threadMill => "Thread Mill"
  | probe => "Probe"
  | other => "Other"

structure Offsets where
  length : Binary64
  x : Binary64
  y : Binary64
  z : Binary64
  deriving DecidableEq

structure Metadata where
  notes : String
  image : String
  sku : String
  deriving DecidableEq, BEq

end Tool

/-- One record of the tool library. Members that are not modelled stay in `extra`, sorted by name. -/
structure Tool where
  id : ToolId
  pocket : Option Pocket := none
  name : String := ""
  kind : Tool.Kind := .flat
  diameter : Binary64 := Binary64.zero false
  offsets : Option Tool.Offsets := none
  metadata : Option Tool.Metadata := none
  extra : List (String × Json) := []
  deriving BEq

def Tool.displayName (tool : Tool) : String :=
  if Text.allBlank tool.name.toList then "Tool " ++ toString tool.id.toNat else tool.name

end ToolChanger

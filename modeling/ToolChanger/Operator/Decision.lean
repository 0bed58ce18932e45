import ToolChanger.Override
import ToolChanger.Json.Printer

namespace ToolChanger

inductive Decision where
  /-- load the program as it is -/
  | bypass
  /-- load nothing -/
  | cancel
  /-- renumber with the pockets shown -/
  | map
  /-- move a tool and ask again -/
  | remap (tool : ToolId) (target : Override)
  /-- read the stores again and ask again, with other session overrides if any are given -/
  | refresh (session : Option Overrides)
  deriving DecidableEq

namespace Decision

def ofWord : String → Option Decision
  | "bypass" => some bypass
  | "cancel" => some cancel
  | "map" => some map
  | "refresh" => some (refresh none)
  | _ => none

/-- An override that means out of the magazine where it is left out. -/
def targetOf? : Option Json → Option Override
  | none => some .outOfMagazine
  | some value => (Override.ofJson value).toOption

/-- Session overrides, none where they are left out or null. -/
def sessionOf? : Option Json → Option (Option Overrides)
  | none | some .null => some none
  | some value => (Overrides.ofJson? value).map some

def ofMembers? (members : List (String × Json)) : Option Decision := do
  let action ← (← Json.single? ["action"] members).bind Json.asString?
  match action with
  | "remap" =>
    let tool ← (← Json.single? ["toolId"] members).bind Json.asUInt32?
    return remap tool (← targetOf? (← Json.single? ["pocket"] members))
  | "refresh" => return refresh (← sessionOf? (← Json.single? ["sessionMappings"] members))
  | _ => ofWord action

def ofItems? : List Json → Option Decision
  | [.string "remap", tool, target] => do return remap (← tool.asUInt32?) (← targetOf? (some target))
  | [.string "refresh", session] => do return refresh (← sessionOf? (some session))
  | [.string action] => ofWord action
  | _ => none

/-- The decision in a dialog's answer. Blanks around a word and its case do not count. -/
def ofJson? : Json → Option Decision
  | .string word => ofWord (String.ofList ((Text.trim word.toList).map Char.toLower))
  | .object members => ofMembers? members
  | .array items => ofItems? items
  | _ => none

def toJson : Decision → Json
  | bypass => .object [("action", .string "bypass")]
  | cancel => .object [("action", .string "cancel")]
  | map => .object [("action", .string "map")]
  | remap tool target =>
    .object [("action", .string "remap"), ("toolId", Json.ofUInt32 tool), ("pocket", target.toJson)]
  | refresh session =>
    .object [("action", .string "refresh"),
      ("sessionMappings", match session with
        | some overrides => overrides.toJson
        | none => .null)]

end Decision

end ToolChanger

import ToolChanger.Override
import ToolChanger.Json.Printer
import ToolChanger.Json.Raw

namespace ToolChanger

structure Settings where
  /-- Renumber a program when it is loaded. -/
  enabled : Bool := true
  /-- The source named in annotated comments. -/
  label : String := "Fusion"
  overrides : Overrides := Table.empty
  /-- Members of other names, sorted. -/
  extra : List (String × Json) := []
  deriving BEq

namespace Settings

def isValid (settings : Settings) : Bool := !Text.allBlank settings.label.toList

/-- The names of the members that are modelled; the second is an older name of the first. -/
def memberNames : List String :=
  ["enableTranslation", "enableToolNumberTranslation", "annotationLabel", "manualToolMappings"]

def ofJson? : Json → Option Settings
  | .object members => do
    let enabled ← match ← Json.single? ["enableTranslation", "enableToolNumberTranslation"] members with
      | none => some true
      | some value => value.asBool?
    let label ← match ← Json.single? ["annotationLabel"] members with
      | none => some "Fusion"
      | some value => value.asString?
    let overrides ← match ← Json.single? ["manualToolMappings"] members with
      | none => some Table.empty
      | some value => Overrides.ofJson? value
    let others := members.filter fun member => !memberNames.contains member.1
    return { enabled, label, overrides, extra := Json.sortMembers (Json.sortedValues others) }
  | _ => none

def toJson (settings : Settings) : Json :=
  .object <|
    [("enableTranslation", .bool settings.enabled), ("annotationLabel", .string settings.label),
      ("manualToolMappings", settings.overrides.toJson)] ++ settings.extra

end Settings

/-- The number of pockets that the machine's settings name, if they do. -/
structure Machine where
  count : Option UInt32 := none
  deriving DecidableEq, Repr

namespace Machine

def defaultCapacity : UInt32 := 8

def capacity (machine : Machine) : UInt32 :=
  match machine.count with
  | some count => if count = 0 then defaultCapacity else count
  | none => defaultCapacity

def countOfJson? (value : Json) : Option (Option UInt32) := do
  match ← value.fields? ["count"] with
  | [none] | [some .null] => return none
  | [some count] => return some (← count.asUInt32?)
  | _ => none

def ofJson? (value : Json) : Option Machine := do
  match ← value.fields? ["tool"] with
  | [some changer] => return ⟨← countOfJson? changer⟩
  | [none] => return {}
  | _ => none

def selection : Json.Selection := .record [("tool", .fields ["count"])] false

end Machine

end ToolChanger

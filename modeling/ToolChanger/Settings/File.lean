import ToolChanger.Json.Reader
import ToolChanger.Store.Basic
import ToolChanger.Store.FileSystem
import ToolChanger.Toml.Printer
import ToolChanger.Toml.Reader

namespace ToolChanger.Settings

inductive Format where
  | json
  | toml
  deriving DecidableEq, Repr

def Format.ofPath? (path : String) : Option Format :=
  match Path.extension? path with
  | some "json" => some json
  | some "toml" => some toml
  | _ => none

/-- A member of a table in JSON. An override that is no finite number is none and left out, while elsewhere
null takes the place of such a number. -/
def memberOfToml? (member : String × Toml.Value) : Option (String × Json) :=
  if member.1 = "manualToolMappings" then
    match member.2 with
    | .table entries =>
      some (member.1, (Toml.Value.table (entries.filter fun entry => entry.2.isFinite)).toJson)
    | _ => none
  else some (member.1, member.2.toJson)

def ofToml? (members : List (String × Toml.Value)) : Option Settings := do
  Settings.ofJson? (.object (← members.mapM memberOfToml?))

def Format.decode (format : Format) (text : String) : Except StoreError Settings :=
  match format with
  | json => ((Json.parse? text).bind Settings.ofJson?).elim (.error .badJson) .ok
  | toml => ((Toml.parse? text).bind ofToml?).elim (.error .badToml) .ok

def Format.encode (format : Format) (settings : Settings) : Except StoreError String :=
  match format with
  | json => .ok settings.toJson.toPretty
  | toml => (Toml.print? settings.toJson).elim (.error .notToml) .ok

variable {m : Type → Type} [Monad m] [FileSystem m]

/-- The format of a path; a path without one is refused. -/
def formatOf (path : String) : ExceptT StoreError m Format :=
  match Format.ofPath? path with
  | some format => return format
  | none => throw (.unsupportedFormat path)

def loadFile (path : String) : ExceptT StoreError m Settings := do
  match ← (FileSystem.readText path : m _) with
  | .error _ => throw .refused
  | .ok text =>
    let format ← formatOf path
    let settings ← (format.decode text : Except _ _)
    settings.validate
    return settings

def saveFile (path : String) (settings : Settings) : ExceptT StoreError m Unit := do
  settings.validate
  let format ← formatOf path
  let text ← (format.encode settings : Except _ _)
  unless ← (FileSystem.write path text.toUTF8 : m Bool) do throw .refused

end ToolChanger.Settings

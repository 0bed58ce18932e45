import ToolChanger.Json.Raw
import ToolChanger.Tool.Basic

/-!
# Tool records as JSON

The pocket of a record may also be found under an older name; members of other names are handed through. In a
section members of other names are not even looked at.
-/

namespace ToolChanger.Tool

open Decimal

def Kind.word : Kind → String
  | flat => "flat"
  | ball => "ball"
  | vBit => "v-bit"
  | drill => "drill"
  | surfacing => "surfacing"
  | threadMill => "thread-mill"
  | probe => "probe"
  | other => "other"

/-- The kind a word names; every unknown word is `other`. -/
def Kind.ofWord (word : String) : Kind :=
  (([flat, ball, vBit, drill, surfacing, threadMill, probe] : List Kind).find?
    fun kind => kind.word == word).getD other

/-- A word, or an object with that word as its only name and null as its value. -/
def Kind.ofJson? : Json → Option Kind
  | .string word => some (ofWord word)
  | .object [(word, .null)] => some (ofWord word)
  | _ => none

def realField : Option Json → Option Binary64
  | none => some (Binary64.zero false)
  | some value => value.asReal?

def textField : Option Json → Option String
  | none => some ""
  | some value => value.asString?

def pocketField : Option Json → Option (Option Pocket)
  | none | some .null => some none
  | some value => value.asUInt32?.map some

def sectionField {α : Type} (read : Json → Option α) : Option Json → Option (Option α)
  | none | some .null => some none
  | some value => (read value).map some

def Offsets.memberNames : List String := ["tlo", "x", "y", "z"]

def Offsets.ofJson? (value : Json) : Option Offsets := do
  match ← value.fields? memberNames with
  | [length, x, y, z] =>
    return ⟨← realField length, ← realField x, ← realField y, ← realField z⟩
  | _ => none

def Metadata.memberNames : List String := ["notes", "image", "sku"]

def Metadata.ofJson? (value : Json) : Option Metadata := do
  match ← value.fields? memberNames with
  | [notes, image, sku] => return ⟨← textField notes, ← textField image, ← textField sku⟩
  | _ => none

def memberNames : List String :=
  ["id", "pocketNumber", "toolNumber", "name", "type", "diameter", "offsets", "metadata"]

def ofJson? : Json → Option Tool
  | .object members => do
    let id ← (← Json.single? ["id"] members).bind Json.asUInt32?
    let pocket ← pocketField (← Json.single? ["pocketNumber", "toolNumber"] members)
    let name ← textField (← Json.single? ["name"] members)
    let kind ← match ← Json.single? ["type"] members with
      | none => some Kind.flat
      | some value => Kind.ofJson? value
    let diameter ← realField (← Json.single? ["diameter"] members)
    let offsets ← sectionField Offsets.ofJson? (← Json.single? ["offsets"] members)
    let metadata ← sectionField Metadata.ofJson? (← Json.single? ["metadata"] members)
    let others := members.filter fun member => !memberNames.contains member.1
    return {
      id, pocket, name, kind, diameter, offsets, metadata
      extra := Json.sortMembers (Json.sortedValues others) }
  | _ => none

def listOfJson? : Json → Option (List Tool)
  | .array items => items.mapM ofJson?
  | _ => none

def listSelection : Json.Selection :=
  .each (.record [("offsets", .fields Offsets.memberNames), ("metadata", .fields Metadata.memberNames)] true)

def realJson (x : Binary64) : Json := .number (.real x)

def Offsets.toJson (offsets : Offsets) : Json :=
  .object [("tlo", realJson offsets.length), ("x", realJson offsets.x), ("y", realJson offsets.y),
    ("z", realJson offsets.z)]

def Metadata.toJson (metadata : Metadata) : Json :=
  .object [("notes", .string metadata.notes), ("image", .string metadata.image),
    ("sku", .string metadata.sku)]

def pocketJson : Option Pocket → Json
  | none => .null
  | some pocket => Json.ofUInt32 pocket

/-- The modelled members in a fixed order, sections only where they are present, then the others. -/
def toJson (tool : Tool) : Json :=
  .object <|
    [("id", Json.ofUInt32 tool.id), ("pocketNumber", pocketJson tool.pocket),
      ("name", .string tool.name), ("type", .string tool.kind.word),
      ("diameter", realJson tool.diameter)] ++
    (tool.offsets.map fun offsets => ("offsets", offsets.toJson)).toList ++
    (tool.metadata.map fun metadata => ("metadata", metadata.toJson)).toList ++
    tool.extra

def listToJson (tools : List Tool) : Json := .array (tools.map toJson)

end ToolChanger.Tool

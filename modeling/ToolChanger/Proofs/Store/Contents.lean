import Mathlib.Logic.Function.Basic
import ToolChanger.Proofs.Settings.Codec
import ToolChanger.Proofs.Tool.Codec
import ToolChanger.Store.Folder
import ToolChanger.Text.Utf8

namespace ToolChanger

/-- What the files of the documents hold, each as a whole. -/
abbrev Contents := Document → Except ReadFailure ByteArray

/-- Whether what is printed for a document is parsed as what it was. -/
def Document.Lossless (document : Document) (value : Json) : Prop :=
  Json.parsePart? document.selection value.toPretty = some value

def FileSystem.decoded (bytes : ByteArray) : Except ReadFailure String :=
  match String.fromUTF8? bytes with
  | some text => .ok text
  | none => .error .refused

theorem Json.allBlank_toPretty_array (items : List Json) : Text.allBlank (array items).toPretty.toList = false := by
  rw [toPretty, String.toList_ofList]
  cases items <;> rfl

theorem Json.allBlank_toPretty_object (members : List (String × Json)) :
    Text.allBlank (object members).toPretty.toList = false := by
  rw [toPretty, String.toList_ofList]
  cases members <;> rfl

namespace Contents

variable {α : Type} {contents : Contents} {document : Document} {value : Json}

def read (contents : Contents) (document : Document) (default : α) (decode : Json → Option α) :
    Except StoreError α :=
  match (contents document).bind FileSystem.decoded with
  | .error .missing => .ok default
  | .error .refused => .error .refused
  | .ok text =>
    if Text.allBlank text.toList then .ok default
    else match (Json.parsePart? document.selection text).bind decode with
      | some value => .ok value
      | none => .error (.malformed document.file)

def tools (contents : Contents) : Except StoreError (List Tool) :=
  contents.read .toolLibrary [] Tool.listOfJson?

def settings (contents : Contents) : Except StoreError Settings := do
  let settings ← contents.read .settings {} Settings.ofJson?
  if settings.isValid then return settings else throw .blankLabel

def machine (contents : Contents) : Except StoreError Machine := contents.read .machine {} Machine.ofJson?

theorem read_congr {next : Contents} (same : next document = contents document) (default : α)
    (decode : Json → Option α) :
    next.read document default decode = contents.read document default decode := by
  rw [read, same, read]

theorem settings_of_read {found : Settings} (reads : contents.read .settings {} Settings.ofJson? = .ok found) :
    contents.settings = if found.isValid then .ok found else .error .blankLabel := by
  rw [Contents.settings, reads]
  rfl

theorem settings_congr {next : Contents} (same : next .settings = contents .settings) :
    next.settings = contents.settings := by
  rw [Contents.settings, read_congr same, Contents.settings]

/-- The file of a document is missing or blank. -/
def Vacant (contents : Contents) (document : Document) : Prop :=
  contents document = .error .missing ∨
    ∃ text : String, contents document = .ok text.toUTF8 ∧ Text.allBlank text.toList = true

theorem read_of_vacant (vacant : contents.Vacant document) (default : α) (decode : Json → Option α) :
    contents.read document default decode = .ok default := by
  rw [read]
  rcases vacant with missing | ⟨text, written, blank⟩
  · rw [missing]
    rfl
  · rw [written, Except.bind, FileSystem.decoded, Text.fromUTF8?_toUTF8]
    exact if_pos blank

theorem settings_of_vacant (vacant : contents.Vacant .settings) : contents.settings = .ok {} :=
  settings_of_read (read_of_vacant vacant _ _)

/-! ### Documents put in place -/

def put (contents : Contents) (document : Document) (value : Json) : Contents :=
  Function.update contents document (.ok value.toPretty.toUTF8)

def saved (contents : Contents) (document : Document) (value : Json) : Except StoreError Unit → Contents
  | .ok _ => contents.put document value
  | .error _ => contents

theorem read_put {default meant : α} {decode : Json → Option α}
    (solid : Text.allBlank value.toPretty.toList = false) (lossless : document.Lossless value)
    (decodes : decode value = some meant) :
    (contents.put document value).read document default decode = .ok meant := by
  rw [read, put, Function.update_self, Except.bind, FileSystem.decoded, Text.fromUTF8?_toUTF8]
  dsimp only
  rw [solid, lossless, Option.bind_some, decodes]
  rfl

theorem put_of_ne {replaced : Document} (other : document ≠ replaced) :
    contents.put replaced value document = contents document :=
  Function.update_of_ne other _ _

theorem tools_put {tools : List Tool} (storable : ∀ tool ∈ tools, tool.Storable)
    (lossless : Document.toolLibrary.Lossless (Tool.listToJson tools)) :
    (contents.put .toolLibrary (Tool.listToJson tools)).tools = .ok tools :=
  read_put (Json.allBlank_toPretty_array _) lossless (Tool.listOfJson?_listToJson storable)

theorem settings_put {settings : Settings} (storable : settings.Storable) (valid : settings.isValid = true)
    (lossless : Document.settings.Lossless settings.toJson) :
    (contents.put .settings settings.toJson).settings = .ok settings := by
  have given : (contents.put .settings settings.toJson).read .settings {} Settings.ofJson? = .ok settings :=
    read_put (Json.allBlank_toPretty_object _) lossless (Settings.ofJson?_toJson storable)
  rw [settings_of_read given, if_pos valid]

theorem settings_putTools (contents : Contents) (tools : List Tool) :
    (contents.put .toolLibrary (Tool.listToJson tools)).settings = contents.settings :=
  settings_congr (put_of_ne (by decide))

theorem tools_putSettings (contents : Contents) (settings : Settings) :
    (contents.put .settings settings.toJson).tools = contents.tools :=
  read_congr (put_of_ne (by decide)) _ _

end Contents

end ToolChanger

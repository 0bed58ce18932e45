import ToolChanger.Store.Basic
import ToolChanger.Store.FileSystem
import ToolChanger.Json.Reader
import ToolChanger.Tool.Codec

/-!
# Documents in a folder

Each document is a JSON file in one folder. It is written to another file first, which then takes the place of the
old one, so no half-written document is ever read.
-/

namespace ToolChanger

structure Folder where
  path : String

def Document.file : Document → String
  | toolLibrary => "tools.json"
  | settings => "plugin-settings.json"
  | machine => "settings.json"

def Document.selection : Document → Json.Selection
  | toolLibrary => Tool.listSelection
  | settings => .whole
  | machine => Machine.selection

namespace Folder

variable {m : Type → Type} [Monad m] [FileSystem m]

def load {α : Type} (folder : Folder) (document : Document) (default : α) (decode : Json → Option α) :
    ExceptT StoreError m α := do
  match ← (FileSystem.readText (Path.join folder.path document.file) : m _) with
  | .error .missing => return default
  | .error .refused => throw .refused
  | .ok text =>
    if Text.allBlank text.toList then return default
    else match (Json.parsePart? document.selection text).bind decode with
      | some value => return value
      | none => throw (.malformed document.file)

/-- The file that a document is written to before it takes the old one's place. -/
def draft (document : Document) : String := "." ++ document.file ++ ".tmp"

def save (folder : Folder) (document : Document) (value : Json) : ExceptT StoreError m Unit := do
  let target := Path.join folder.path document.file
  let temporary := Path.join folder.path (draft document)
  unless ← (FileSystem.createDirectories folder.path : m Bool) do throw .noDirectory
  unless ← (FileSystem.write temporary value.toPretty.toUTF8 : m Bool) do throw .refused
  unless ← (FileSystem.rename temporary target : m Bool) do
    (FileSystem.remove temporary : m Unit)
    throw .refused

/-- The folder of the documents is part of the environment. -/
abbrev In (m : Type → Type) := ReaderT Folder m

def inFolder {α : Type} (action : Folder → ExceptT StoreError m α) : ExceptT StoreError (In m) α :=
  ExceptT.mk fun folder => (action folder).run

instance : Store (In m) where
  loadTools := inFolder fun folder => folder.load .toolLibrary [] Tool.listOfJson?
  saveTools tools := inFolder fun folder => folder.save .toolLibrary (Tool.listToJson tools)
  loadSettings := inFolder fun folder => do
    let settings ← folder.load .settings {} Settings.ofJson?
    settings.validate
    return settings
  saveSettings settings := inFolder fun folder => do
    settings.validate
    folder.save .settings settings.toJson
  loadMachine := inFolder fun folder => folder.load .machine {} Machine.ofJson?

end Folder

end ToolChanger

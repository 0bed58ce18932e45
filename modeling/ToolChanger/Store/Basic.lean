import ToolChanger.Library
import ToolChanger.Settings

namespace ToolChanger

inductive Document where
  | toolLibrary
  | settings
  | machine
  deriving DecidableEq, Repr

def Document.title : Document → String
  | toolLibrary => "tool library"
  | settings => "translator settings"
  | machine => "machine configuration"

inductive StoreError where
  | notLoaded (document : Document)
  | notSaved (document : Document)
  | blankLabel
  /-- what is stored has another shape than expected -/
  | malformed (file : String)
  | noDirectory
  | unsupportedFormat (file : String)
  | refused
  | badJson
  | badToml
  /-- TOML has no way to write the settings -/
  | notToml
  deriving DecidableEq, Repr

def StoreError.message : StoreError → String
  | notLoaded document => "Failed to load " ++ document.title
  | notSaved document => "Failed to save " ++ document.title
  | blankLabel => "Invalid setting 'annotationLabel': must not be empty"
  | malformed file => "Malformed " ++ file
  | noDirectory => "Data directory error"
  | unsupportedFormat file => "Unsupported settings format: " ++ file
  | refused => "I/O error"
  | badJson => "JSON error"
  | badToml | notToml => "TOML error"

/-- Access to the documents, with effects in `m`. -/
class Store (m : Type → Type) where
  loadTools : ExceptT StoreError m (List Tool)
  saveTools : List Tool → ExceptT StoreError m Unit
  loadSettings : ExceptT StoreError m Settings
  saveSettings : Settings → ExceptT StoreError m Unit
  loadMachine : ExceptT StoreError m Machine

namespace Store

variable {m : Type → Type} [Monad m] [Store m]

/-- What an action gives, or a substitute if it fails. -/
def orElse {α : Type} (action : ExceptT StoreError m α) (substitute : α) : m α := do
  match ← action.run with
  | .ok value => return value
  | .error _ => return substitute

def libraryOrEmpty : m Library := do
  return ⟨← orElse loadTools []⟩

def settingsOrDefault : m Settings := orElse loadSettings {}

def capacityOrDefault : m UInt32 := do
  return (← orElse loadMachine {}).capacity

end Store

def Settings.validate {m : Type → Type} [Monad m] (settings : Settings) : ExceptT StoreError m Unit :=
  if settings.isValid then return () else throw .blankLabel

end ToolChanger

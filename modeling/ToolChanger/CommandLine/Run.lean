import ToolChanger.CommandLine.Arguments
import ToolChanger.Load
import ToolChanger.Operator.Console
import ToolChanger.Store.Folder

namespace ToolChanger.CommandLine

structure Report where
  exitCode : UInt8 := 0
  output : String := ""
  /-- remarks and errors, which are printed apart from the output -/
  remarks : String := ""
  deriving DecidableEq, Repr

structure Environment where
  folder : Option String
  configuration : Option String

def versionText : String := "atcmap 0.3.0\n"

def usage : String :=
  "Usage: atcmap [OPTIONS] translate <FILE> [--output <FILE>] [--yes]\n" ++
  "       atcmap [OPTIONS] status <FILE>\n" ++
  "Options: --data-dir <DIR>, --verbose, --log-json, --version\n"

def shownName (file : String) : String := (Path.fileName? file).getD file

def remarksOn : Outcome → String
  | .aborted => "Load cancelled, nothing written\n"
  | .unchanged => "Program left unchanged\n"
  | .renumbered result =>
    "Translated " ++ toString result.renumbering.toolNumbers ++ " tool change(s), " ++
      toString result.renumbering.heightOffsets ++ " height offset(s), " ++
      toString result.renumbering.comments ++ " comment(s)\n" ++
      if result.sync.saved then
        "Updated " ++ toString result.sync.changes.count ++ " tool(s) in the library\n"
      else ""

section

variable {m : Type → Type} [Monad m] [Store m]

/-- Loads a program with the operator who types the given lines, and tells what is printed meanwhile. -/
def converse (input : List Console.Line) (job : Job) : m (String × Outcome) := do
  let visit ← load (pure ()) job (Console.operator input)
  return (Console.transcript (visit.shown.map (·.summary)) input, visit.outcome)

def approve (job : Job) : m (String × Outcome) := do
  let visit ← load (pure ()) job Operator.approving
  return ("", visit.outcome)

def summarize (job : Job) : m Summary := do
  let capacity ← Store.capacityOrDefault
  return ⟨job.fileName, ← analyzeStored job.program Table.empty, capacity, Table.empty⟩

end

variable {m : Type → Type} [Monad m] [FileSystem m]

def withProgram (file : String) (action : Job → m Report) : m Report := do
  match ← FileSystem.readText file with
  | .ok program => action ⟨shownName file, program⟩
  | .error _ => return { exitCode := 1, remarks := "Error: Failed to read " ++ file ++ "\n" }

def deliver (output : Option String) (remarks text : String) : m Report := do
  match output with
  | none => return { output := text, remarks }
  | some file =>
    if ← (FileSystem.write file text.toUTF8 : m Bool) then return { remarks }
    else return { exitCode := 1, remarks := remarks ++ "Error: Failed to write " ++ file ++ "\n" }

def translate (folder : Folder) (file : String) (output : Option String)
    (ask : Job → Folder.In m (String × Outcome)) : m Report :=
  withProgram file fun job => do
    let (said, outcome) ← (ask job).run folder
    let remarks := said ++ remarksOn outcome
    match outcome.text? job with
    | none => return { exitCode := 1, remarks }
    | some text => deliver output remarks text

def status (folder : Folder) (file : String) : m Report :=
  withProgram file fun job => do
    let summary ← (summarize job : Folder.In m Summary).run folder
    if summary.classification.isEmpty then
      return { output := summary.fileName ++ ": no tool changes found\n" }
    else return { output := summary.text ++ "\n" }

def folderOf (invocation : Invocation) (environment : Environment) : Option Folder :=
  match invocation.folder with
  | some path => some ⟨path⟩
  | none => environment.configuration.map fun path => ⟨Path.join path "atcmap"⟩

/-- Runs the program. Questions that cannot be waived go to `ask`. -/
def run (environment : Environment) (arguments : List String)
    (ask : Job → Folder.In m (String × Outcome)) : m Report := do
  match parse environment.folder arguments with
  | .error .version => return { output := versionText }
  | .error .misuse => return { exitCode := 2, remarks := usage }
  | .ok invocation =>
    match folderOf invocation environment with
    | none => return { exitCode := 1, remarks := "Error: Failed to locate data directory\n" }
    | some folder =>
      match invocation.command with
      | .translate file output true => translate folder file output approve
      | .translate file output false => translate folder file output ask
      | .status file => status folder file

end ToolChanger.CommandLine

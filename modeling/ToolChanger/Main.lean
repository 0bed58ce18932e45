import ToolChanger.CommandLine.Run

namespace ToolChanger

def succeeds (action : IO Unit) : IO Bool := do
  try action; return true catch _ => return false

instance : FileSystem IO where
  read path := do
    try return .ok (← IO.FS.readBinFile path)
    catch
      | .noFileOrDirectory .. => return .error .missing
      | _ => return .error .refused
  write path bytes := succeeds (IO.FS.writeBinFile path bytes)
  createDirectories path := do
    if Path.endsInDot path then
      discard (succeeds (IO.FS.createDirAll (Path.parent path)))
      succeeds (discard (IO.FS.realPath path))
    else succeeds (IO.FS.createDirAll path)
  rename source target := succeeds (IO.FS.rename source target)
  remove path := discard (succeeds (IO.FS.removeFile path))

/-- The bytes up to the end of a line, which is included, or of the input. -/
partial def readLine (input : IO.FS.Stream) (line : ByteArray) : IO ByteArray := do
  match (← input.read 1).toList with
  | [] => return line
  | byte :: _ => if byte = 10 then return line.push byte else readLine input (line.push byte)

partial def askOnce (capacity : UInt32) : IO (Option Decision) := do
  let terminal ← IO.getStderr
  terminal.putStr Console.question
  terminal.flush
  let line ← readLine (← IO.getStdin) ByteArray.empty
  match String.fromUTF8? line with
  | none => return none
  | some text =>
    if text.isEmpty then return none
    match Console.react capacity text.toList with
    | .decided decision => return some decision
    | .reply text =>
      terminal.putStr text
      askOnce capacity

partial def converseHere (job : Job) : Progress → Folder.In IO Outcome
  | .finished outcome => return outcome
  | .waiting round => do
    (IO.eprint ("\n" ++ round.summary.text ++ "\n\n") : IO Unit)
    let decision ← (askOnce round.summary.capacity : IO _)
    converseHere job (← round.answer job decision)

def configurationFolder : IO (Option String) := do
  match ← IO.getEnv "XDG_CONFIG_HOME" with
  | some path =>
    if Path.isAbsolute path then return some path
    else return (← IO.getEnv "HOME").map (Path.join · ".config")
  | none => return (← IO.getEnv "HOME").map (Path.join · ".config")

end ToolChanger

open ToolChanger in
def main (arguments : List String) : IO UInt32 := do
  let environment : CommandLine.Environment :=
    ⟨← IO.getEnv "ATCMAP_DATA_DIR", ← configurationFolder⟩
  let report ← CommandLine.run environment arguments fun job => do
    return ("", ← converseHere job (← job.start))
  IO.eprint report.remarks
  IO.print report.output
  return report.exitCode.toUInt32

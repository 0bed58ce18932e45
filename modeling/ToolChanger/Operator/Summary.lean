import ToolChanger.Classification
import ToolChanger.Magazine

namespace ToolChanger

open Program (Reference)

structure Summary where
  fileName : String
  classification : Classification
  capacity : UInt32
  session : Overrides

namespace Summary

def status (summary : Summary) : Status := summary.classification.status

/-- The pockets that no tool of the program is in. -/
def freePockets (summary : Summary) : List Pocket :=
  let used := summary.classification.inMagazine.filterMap (·.pocket)
  (Magazine.pockets summary.capacity).filter fun pocket => !used.contains pocket

def padded (width : Nat) (text : String) : String :=
  text ++ String.ofList (List.replicate (width - text.toList.length) ' ')

def row (place : Reference → String) (reference : Reference) : String :=
  "  " ++ padded 6 (ToolId.word reference.tool) ++ " " ++ padded 12 (place reference) ++ " " ++
    reference.displayName ++ (if reference.overridden then " *" else "") ++
    "  (line " ++ toString reference.line ++ ")\n"

def block (heading : String) (references : List Reference) (place : Reference → String) : String :=
  if references.isEmpty then ""
  else "\n" ++ heading ++ " (" ++ toString references.length ++ "):\n" ++
    String.join (references.map (row place))

def pocketCall (reference : Reference) : String :=
  match reference.pocket with
  | some pocket => "-> T" ++ toString pocket.toNat
  | none => ""

def text (summary : Summary) : String :=
  let classification := summary.classification
  let free := summary.freePockets.map fun pocket => toString pocket.toNat
  summary.fileName ++ ": " ++ summary.status.title ++ " [" ++ summary.status.label ++ "]\n" ++
    summary.status.message classification ++ "\n" ++
    block "In magazine" classification.inMagazine pocketCall ++
    block "Manual change" classification.manual (fun _ => "Manual") ++
    block "Unknown" classification.unknown (fun _ => "Unknown") ++
    "\nMagazine: " ++ toString summary.capacity.toNat ++ " pocket(s), free: " ++
    (if free.isEmpty then "none" else ", ".intercalate free)

end Summary

end ToolChanger

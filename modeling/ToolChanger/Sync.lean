import ToolChanger.Classification

/-!
# Bringing the library up to date

A tool that was accepted in the magazine is recorded in its pocket, one that was taken out by an override has no
pocket, and whoever else is on record for a pocket now given away loses it.
-/

namespace ToolChanger

structure Changes where
  assigned : List (ToolId × Pocket)
  cleared : List ToolId
  vacated : List ToolId
  deriving DecidableEq, Repr

def Changes.count (changes : Changes) : Nat :=
  changes.assigned.length + changes.cleared.length + changes.vacated.length

namespace Library

/-- Records each tool in its pocket, in order, and tells which records changed. -/
def assignAll (library : Library) : List (ToolId × Pocket) → Library × List (ToolId × Pocket)
  | [] => (library, [])
  | (tool, pocket) :: rest =>
    if library.pocketOf tool = some pocket then library.assignAll rest
    else
      let (updated, changed) := (library.setPocket tool (some pocket)).assignAll rest
      (updated, (tool, pocket) :: changed)

/-- Takes each tool off its pocket, in order, and tells which ones had one. -/
def clearAll (library : Library) : List ToolId → Library × List ToolId
  | [] => (library, [])
  | tool :: rest =>
    if (library.pocketOf tool).isNone then library.clearAll rest
    else
      let (updated, changed) := (library.setPocket tool none).clearAll rest
      (updated, tool :: changed)

end Library

namespace Classification

def assignments (classification : Classification) (library : Library) : List (ToolId × Pocket) :=
  classification.inMagazine.filterMap fun reference =>
    if library.contains reference.tool then reference.pocket.map (reference.tool, ·) else none

def removals (classification : Classification) : List ToolId :=
  (classification.manual.filter (·.overridden)).map (·.tool)

end Classification

/-- The tool that a pocket is given to; of several the last. -/
def ownerOf (assignments : List (ToolId × Pocket)) (pocket : Pocket) : Option ToolId :=
  (assignments.reverse.find? (·.2 = pocket)).map (·.1)

/-- The tools on record for a pocket that is given to another tool. -/
def Library.ousted (library : Library) (assignments : List (ToolId × Pocket)) : List ToolId :=
  (library.indexed.filter fun record =>
    (record.pocket.bind (ownerOf assignments)).any (· ≠ record.id)).map (·.id)

def Library.sync (library : Library) (classification : Classification) : Library × Changes :=
  let assignments := classification.assignments library
  let (library, assigned) := library.assignAll assignments
  let (library, cleared) := library.clearAll classification.removals
  let (library, vacated) := library.clearAll (library.ousted assignments)
  (library, { assigned, cleared, vacated })

end ToolChanger

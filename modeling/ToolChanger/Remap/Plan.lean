import ToolChanger.Remap.Layers

/-!
# Planning a move

Moving a tool into a pocket that another tool holds swaps the two: the other tool gets the moved tool's old pocket,
or leaves the magazine if there was none. A tool that the library knows is moved there and in the stored
overrides; any other one in the session only.
-/

namespace ToolChanger

inductive MoveError where
  | pocket (reason : PocketError)
  | notATool (tool : ToolId)
  deriving DecidableEq, Repr

def MoveError.message : MoveError → String
  | pocket reason => reason.message
  | notATool tool => tool.word ++ " is not a valid tool"

/-- The changes that move one tool. An override that is `none` is dropped. -/
structure Plan where
  tool : ToolId
  previous : Option Pocket
  displaced : List (ToolId × Option Pocket)
  libraryUpdates : List (ToolId × Option Pocket)
  persistedUpdates : List (ToolId × Option Override)
  sessionUpdates : List (ToolId × Option Override)
  deriving DecidableEq, Repr

def Overrides.update (overrides : Overrides) (updates : List (ToolId × Option Override)) : Overrides :=
  updates.foldl (fun overrides (tool, decided) =>
    match decided with
    | some decided => overrides.insert tool decided
    | none => overrides.erase tool) overrides

def Library.update (library : Library) (updates : List (ToolId × Option Pocket)) : Library :=
  updates.foldl (fun library (tool, pocket) => library.setPocket tool pocket) library

/-- The number of updates that change a record, each one seen after those before it. -/
def Library.countUpdates (library : Library) : List (ToolId × Option Pocket) → Nat
  | [] => 0
  | (tool, pocket) :: rest =>
    (if library.contains tool && library.pocketOf tool ≠ pocket then 1 else 0) +
      (library.setPocket tool pocket).countUpdates rest

namespace Plan

def touchesLibrary (plan : Plan) : Bool := !plan.libraryUpdates.isEmpty

def touchesSettings (plan : Plan) : Bool := !plan.persistedUpdates.isEmpty

def apply (plan : Plan) (layers : Layers) : Layers where
  library := layers.library.update plan.libraryUpdates
  persisted := layers.persisted.update plan.persistedUpdates
  session := layers.session.update plan.sessionUpdates

end Plan

namespace Layers

/-- The tools that have to make room. The first tool in the pocket gets the moved tool's old one, if that
is another pocket; then whatever else sits there leaves the magazine. -/
def displacements (layers : Layers) (tool : ToolId) (pocket : Pocket) : List (ToolId × Option Pocket) :=
  let others := layers.roster.filter (· ≠ tool)
  let sitting (place : Pocket) := others.filter fun other => layers.pocketOf other = some place
  match sitting pocket with
  | [] => []
  | first :: rest =>
    match (layers.pocketOf tool).filter (· ≠ pocket) with
    | none => (first, none) :: rest.map (·, none)
    | some old => (first, some old) :: (rest ++ sitting old).map (·, none)

def libraryUpdate? (layers : Layers) (tool : ToolId) (decided : Override) :
    Option (ToolId × Option Pocket) :=
  if layers.library.contains tool && layers.library.pocketOf tool ≠ decided.pocket? then
    some (tool, decided.pocket?)
  else none

/-- The change of a stored override. Only tools of the library have any. -/
def persistedUpdate? (layers : Layers) (tool : ToolId) (decided : Override) :
    Option (ToolId × Option Override) :=
  if layers.library.contains tool then some (tool, some decided)
  else if layers.persisted.contains tool then some (tool, none)
  else none

/-- The change of a session override. A tool that the library does not know and that nobody asked to move
is forgotten when it loses its pocket. -/
def sessionUpdate? (layers : Layers) (requested : Bool) (tool : ToolId) (decided : Override) :
    Option (ToolId × Option Override) :=
  if layers.library.contains tool then
    if layers.session.contains tool then some (tool, none) else none
  else if requested || decided.pocket?.isSome then some (tool, some decided)
  else some (tool, none)

/-- The library records that an override hides and that name a pocket now given away. -/
def strays (layers : Layers) (moved : List ToolId) (given : List Pocket) :
    List (ToolId × Option Pocket) :=
  (layers.library.indexed.filter fun record =>
    !moved.contains record.id && record.pocket.any given.contains).map fun record => (record.id, none)

def displaced (layers : Layers) (tool : ToolId) (target : Override) : List (ToolId × Option Pocket) :=
  match target.pocket? with
  | some pocket => layers.displacements tool pocket
  | none => []

/-- What a move decides, tool by tool, the requested one first. -/
def moves (layers : Layers) (tool : ToolId) (target : Override) : List (ToolId × Override) :=
  (tool, target) ::
    (layers.displaced tool target).map fun (other, pocket) => (other, Override.ofPocket? pocket)

def given (layers : Layers) (tool : ToolId) (target : Override) : List Pocket :=
  target.pocket?.toList ++ (layers.displaced tool target).filterMap (·.2)

def draft (layers : Layers) (tool : ToolId) (target : Override) : Plan :=
  let moves := layers.moves tool target
  { tool
    previous := layers.pocketOf tool
    displaced := layers.displaced tool target
    libraryUpdates :=
      moves.filterMap (fun (moved, decided) => layers.libraryUpdate? moved decided) ++
        layers.strays (moves.map (·.1)) (layers.given tool target)
    persistedUpdates := moves.filterMap fun (moved, decided) => layers.persistedUpdate? moved decided
    sessionUpdates :=
      moves.filterMap fun (moved, decided) => layers.sessionUpdate? (moved = tool) moved decided }

def plan (layers : Layers) (capacity : UInt32) (tool : ToolId) (target : Override) :
    Except MoveError Plan := do
  if tool = 0 then throw (.notATool tool)
  if let some pocket := target.pocket? then
    if let .error reason := Magazine.check pocket capacity then throw (.pocket reason)
  return layers.draft tool target

end Layers

end ToolChanger

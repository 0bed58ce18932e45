import ToolChanger.Store.Path

namespace ToolChanger

inductive ReadFailure where
  | missing
  | refused
  deriving DecidableEq, Repr

/-- Access to files, with effects in `m`. A change tells whether it was made. -/
class FileSystem (m : Type → Type) where
  read : String → m (Except ReadFailure ByteArray)
  write : String → ByteArray → m Bool
  /-- makes a directory and all that it is in, as far as they are missing -/
  createDirectories : String → m Bool
  /-- puts a file in the place of another one in a single step -/
  rename : String → String → m Bool
  remove : String → m Unit

def FileSystem.readText {m : Type → Type} [Monad m] [FileSystem m] (path : String) :
    m (Except ReadFailure String) := do
  match ← read path with
  | .ok bytes =>
    match String.fromUTF8? bytes with
    | some text => return .ok text
    | none => return .error .refused
  | .error failure => return .error failure

inductive Node where
  | file (bytes : ByteArray)
  | directory

/-- The files and directories around a working directory, which itself always exists. -/
structure Disk where
  nodes : List (List String × Node) := []

namespace Disk

/-- What is at a place. The working directory is the place without a name; it lies in directories, which lie
in the directory named by a slash. -/
def node? (disk : Disk) (place : List String) : Option Node :=
  if place == ["/"] || place.all (· == "..") then some .directory else disk.nodes.lookup place

def isFile (disk : Disk) (place : List String) : Bool :=
  match disk.node? place with
  | some (.file _) => true
  | _ => false

def put (disk : Disk) (place : List String) (node : Node) : Disk :=
  ⟨disk.nodes.filter (·.1 ≠ place) ++ [(place, node)]⟩

def drop (disk : Disk) (place : List String) : Disk := ⟨disk.nodes.filter (·.1 ≠ place)⟩

/-! ### Following paths

A place above the working directory starts with two dots, any other one outside of it with a slash. -/

def start (path : String) : List String := if Path.isAbsolute path then ["/"] else []

def follow (place : List String) (part : String) : List String :=
  if part = ".." then
    match place.getLast? with
    | none | some ".." => place ++ [part]
    | some "/" => place
    | some _ => place.dropLast
  else place ++ [part]

def isOpen (place : List String) : Bool := place.head? != some "/"

/-- Follows the parts of a path. Each one but the last must lead to a directory. -/
def walk (disk : Disk) (place : List String) : List String → Except ReadFailure (List String)
  | [] => .ok place
  | part :: rest =>
    match disk.node? place with
    | some .directory =>
      if Path.isName part then disk.walk (follow place part) rest else .error .refused
    | some (.file _) => .error .refused
    | none => .error .missing

def locate (disk : Disk) (path : String) : Except ReadFailure (List String) := do
  if !Path.isPath path then throw .refused
  let place ← disk.walk (start path) (Path.parts path)
  if Path.namesDirectory path && disk.isFile place then throw .refused
  return place

/-! ### Operations -/

def read (disk : Disk) (path : String) : Except ReadFailure ByteArray := do
  match disk.node? (← disk.locate path) with
  | some (.file bytes) => .ok bytes
  | some .directory => .error .refused
  | none => .error .missing

def write (disk : Disk) (path : String) (bytes : ByteArray) : Option Disk := do
  let place ← (disk.locate path).toOption
  match disk.node? place with
  | some .directory => none
  | _ =>
    if Path.namesDirectory path || !isOpen place then none else some (disk.put place (.file bytes))

def isDirectory (disk : Disk) (path : String) : Bool :=
  match disk.locate path with
  | .ok place =>
    match disk.node? place with
    | some .directory => true
    | _ => false
  | .error _ => false

/-- Makes the directories that some parts lead through, as far as they are missing, up to the first one that
cannot be made, and tells whether there is none. -/
def makeDirectories (disk : Disk) (place : List String) : List String → Bool × Disk
  | [] => (true, disk)
  | part :: rest =>
    let next := follow place part
    match disk.node? next with
    | some .directory => disk.makeDirectories next rest
    | some (.file _) => (false, disk)
    | none =>
      if Path.isName part && isOpen next then (disk.put next .directory).makeDirectories next rest
      else (false, disk)

/-- Makes the directory of a path and those it is in. A directory whose path ends in a single dot is not
made, but has to be there. -/
def createDirectories (disk : Disk) (path : String) : Bool × Disk :=
  if !Path.isPath path then (false, disk)
  else if Path.endsInDot path then
    let (_, disk) := disk.makeDirectories (start path) (Path.parts path).dropLast
    (disk.isDirectory path, disk)
  else disk.makeDirectories (start path) (Path.parts path)

def rename (disk : Disk) (source target : String) : Option Disk := do
  let place ← (disk.locate source).toOption
  let bytes ← (disk.read source).toOption
  (disk.drop place).write target bytes

def remove (disk : Disk) (path : String) : Disk :=
  match disk.locate path with
  | .ok place => if disk.isFile place then disk.drop place else disk
  | .error _ => disk

def files (disk : Disk) : List (String × ByteArray) :=
  disk.nodes.filterMap fun
    | (place, .file bytes) => if place.head? = some ".." then none else some ("/".intercalate place, bytes)
    | (_, .directory) => none

def change (attempt : Disk → Option Disk) : StateM Disk Bool := do
  match attempt (← get) with
  | some disk => set disk; return true
  | none => return false

instance : FileSystem (StateM Disk) where
  read path := return (← get).read path
  write path bytes := change (·.write path bytes)
  createDirectories path := modifyGet (·.createDirectories path)
  rename source target := change (·.rename source target)
  remove path := modify (·.remove path)

end Disk

end ToolChanger

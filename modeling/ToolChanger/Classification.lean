import ToolChanger.Program.ToolChange

/-!
# Classification

Each tool of a program falls into one of three buckets: it sits in the magazine, it has to be changed by
hand, or nothing is known of it. The bucket follows from the resolved reference.
-/

namespace ToolChanger

open Program (Reference)

/-- The pocket that a tool resolves to: an override's word is final, else the library's record counts. -/
def effectivePocket (library : Library) (overrides : Overrides) (tool : ToolId) : Option Pocket :=
  match overrides.get? tool with
  | some decided => decided.pocket?
  | none => library.pocketOf tool

inductive Bucket where
  | inMagazine
  | manual
  | unknown
  deriving DecidableEq, Repr

def Program.Reference.bucket (reference : Reference) : Bucket :=
  if reference.pocket.isSome then .inMagazine
  else if reference.entry.isSome || reference.overridden then .manual
  else .unknown

inductive Status where
  | ready
  | needsAttention
  | blocking
  deriving DecidableEq, Repr

structure Classification where
  all : List Reference
  deriving BEq

namespace Classification

def inBucket (classification : Classification) (bucket : Bucket) : List Reference :=
  classification.all.filter (·.bucket = bucket)

def inMagazine (classification : Classification) : List Reference := classification.inBucket .inMagazine

def manual (classification : Classification) : List Reference := classification.inBucket .manual

def unknown (classification : Classification) : List Reference := classification.inBucket .unknown

def inLibrary (classification : Classification) : List ToolId :=
  (classification.all.filter (·.entry.isSome)).map (·.tool)

def isEmpty (classification : Classification) : Bool := classification.all.isEmpty

def status (classification : Classification) : Status :=
  if !classification.unknown.isEmpty then .blocking
  else if !classification.manual.isEmpty then .needsAttention
  else .ready

/-- The bucket that holds a tool, the magazine before the others. -/
def bucketOf (classification : Classification) (tool : ToolId) : Option Bucket :=
  [Bucket.inMagazine, .manual, .unknown].find? fun bucket =>
    (classification.inBucket bucket).any (·.tool = tool)

def reference? (classification : Classification) (tool : ToolId) : Option Reference :=
  classification.all.find? (·.tool = tool)

/-- The pockets of the tools in the magazine. A tool that is listed twice has the later one's. -/
def pocketMap (classification : Classification) : Table Pocket :=
  Table.ofList <| classification.inMagazine.filterMap fun reference =>
    reference.pocket.map fun pocket => (reference.tool, pocket)

end Classification

/-- A reference with everything but line and tool looked up afresh. -/
def Program.Reference.resolve (library : Library) (overrides : Overrides) (reference : Reference) :
    Reference :=
  { reference with
    entry := library.get? reference.tool
    overridden := overrides.contains reference.tool
    pocket := effectivePocket library overrides reference.tool }

def classify (references : List Reference) (library : Library) (overrides : Overrides) :
    Classification :=
  ⟨references.map (·.resolve library overrides)⟩

/-- What is decided about a tool: its bucket and its pocket there. An override is final, and a record counts
for tools without one. -/
def verdict (library : Library) (overrides : Overrides) (tool : ToolId) : Bucket × Option Pocket :=
  match overrides.state tool, library.get? tool with
  | .inPocket pocket, _ => (.inMagazine, some pocket)
  | .outOfMagazine, _ => (.manual, none)
  | .unset, some record => (if record.pocket.isSome then .inMagazine else .manual, record.pocket)
  | .unset, none => (.unknown, none)

/-- The lists that references are sorted into, one reference after the other. -/
structure Buckets where
  all : List Reference := []
  inMagazine : List Reference := []
  manual : List Reference := []
  unknown : List Reference := []
  inLibrary : List ToolId := []

def Buckets.push (library : Library) (overrides : Overrides) (buckets : Buckets) (reference : Reference) :
    Buckets :=
  let entry := library.get? reference.tool
  let decided := verdict library overrides reference.tool
  let resolved :=
    { reference with entry, overridden := overrides.contains reference.tool, pocket := decided.2 }
  let listed := { buckets with
    all := buckets.all ++ [resolved]
    inLibrary := if entry.isSome then buckets.inLibrary ++ [reference.tool] else buckets.inLibrary }
  match decided.1 with
  | .inMagazine => { listed with inMagazine := buckets.inMagazine ++ [resolved] }
  | .manual => { listed with manual := buckets.manual ++ [resolved] }
  | .unknown => { listed with unknown := buckets.unknown ++ [resolved] }

def sortEach (references : List Reference) (library : Library) (overrides : Overrides) : Buckets :=
  references.foldl (Buckets.push library overrides) {}

def analyze (program : String) (library : Library) (overrides : Overrides) : Classification :=
  classify (Program.references program library overrides) library overrides

def Status.title : Status → String
  | ready => "All Tools Ready for ATC"
  | needsAttention => "Manual Tool Changes Required"
  | blocking => "Tools Not Found in Library"

def Status.label : Status → String
  | ready => "ready"
  | needsAttention => "needs attention"
  | blocking => "blocking"

def Status.message (classification : Classification) : Status → String
  | ready =>
    "All tools are in the tool library and assigned to magazine pockets. " ++
      "Tool numbers will be mapped to pocket numbers."
  | needsAttention =>
    toString classification.manual.length ++
      " tool(s) are in the tool library but not in the magazine. " ++
      "These will require manual tool changes."
  | blocking =>
    toString classification.unknown.length ++
      " tool(s) are not in the tool library. If you map tools, known tools " ++
      "will be translated and unknown tools will remain as-is."

end ToolChanger

import ToolChanger.Operator.Basic
import ToolChanger.Remap.Apply
import ToolChanger.Remap.Reconcile
import ToolChanger.Renumbering
import ToolChanger.Sync

/-!
# Loading a program

A load shows summaries to an operator until one is accepted, waived or cancelled. `start` and `Round.answer` are
its two steps; between them it waits for an answer. `load` runs it with an `Operator`.
-/

namespace ToolChanger

/-- What was recorded in the library, or why nothing was. -/
structure SyncReport where
  changes : Changes := ⟨[], [], []⟩
  saved : Bool := false
  failure : Option StoreError := none
  deriving DecidableEq, Repr

structure Job where
  fileName : String
  program : String

structure Renumbered where
  renumbering : Renumbering
  pockets : Table Pocket
  classification : Classification
  sync : SyncReport

inductive Outcome where
  | unchanged
  | renumbered (result : Renumbered)
  | aborted

def Outcome.text? (job : Job) : Outcome → Option String
  | unchanged => some job.program
  | renumbered result => some result.renumbering.text
  | aborted => none

structure Round where
  settings : Settings
  summary : Summary

inductive Progress where
  | waiting (round : Round)
  | finished (outcome : Outcome)

section

variable {m : Type → Type} [Monad m] [Store m]

def analyzeStored (program : String) (session : Overrides) : m Classification := do
  let library ← Store.libraryOrEmpty
  let settings ← Store.settingsOrDefault
  return analyze program library (settings.overrides.overlay session)

def reconcileStored (incoming previous : Overrides) : m Overrides := do
  let library ← Store.libraryOrEmpty
  let settings ← Store.settingsOrDefault
  let capacity ← Store.capacityOrDefault
  return reconcile incoming previous library settings.overrides capacity

/-- Moves a tool and gives the session after that; a move that is refused or fails leaves it as it was. -/
def moveStored (tool : ToolId) (target : Override) (capacity : UInt32) (session : Overrides) :
    m Overrides := do
  let library ← Store.libraryOrEmpty
  let settings ← Store.settingsOrDefault
  match Layers.plan ⟨library, settings.overrides, session⟩ capacity tool target with
  | .error _ => return session
  | .ok plan => Store.orElse (plan.carryOut session) session

/-- Brings the stored library up to date. It is written only if something changed. -/
def syncStored (classification : Classification) : m SyncReport := do
  match ← (Store.loadTools : ExceptT StoreError m _).run with
  | .error error => return { failure := some error }
  | .ok tools =>
    let (library, changes) := Library.sync ⟨tools⟩ classification
    if changes.count = 0 then return { changes }
    match ← (Store.saveTools library.records : ExceptT StoreError m _).run with
    | .ok () => return { changes, saved := true }
    | .error error => return { changes, failure := some error }

def accept (program : String) (label : String) (classification : Classification) :
    m Renumbered := do
  let sync ← syncStored classification
  let pockets := classification.pocketMap
  return {
    renumbering := Renumbering.ofProgram pockets label program, pockets, classification, sync }

namespace Job

def ask (job : Job) (settings : Settings) (session : Overrides) (classification : Classification) :
    m Progress := do
  let capacity ← Store.capacityOrDefault
  return .waiting ⟨settings, job.fileName, classification, capacity, session⟩

/-- Begins a load. If renumbering is switched off or the program changes no tool, that is all. -/
def start (job : Job) : m Progress := do
  let settings ← Store.settingsOrDefault
  if !settings.enabled then return .finished .unchanged
  let session ← reconcileStored Table.empty Table.empty
  let classification ← analyzeStored job.program session
  if classification.isEmpty then return .finished .unchanged
  job.ask settings session classification

def again (job : Job) (incoming previous : Overrides) : m Progress := do
  let session ← reconcileStored incoming previous
  let settings ← Store.settingsOrDefault
  let classification ← analyzeStored job.program session
  job.ask settings session classification

end Job

/-- Goes on with an answer. No answer is the same as waiving the renumbering. -/
def Round.answer (job : Job) (round : Round) (decision : Option Decision) : m Progress := do
  let session := round.summary.session
  match decision with
  | none | some .bypass => return .finished .unchanged
  | some .cancel => return .finished .aborted
  | some .map =>
    return .finished (.renumbered
      (← accept job.program round.settings.label round.summary.classification))
  | some (.remap tool target) =>
    job.again (← moveStored tool target round.summary.capacity session) session
  | some (.refresh incoming) => job.again (incoming.getD session) session

structure Shown (α : Type) where
  summary : Summary
  noted : α
  decision : Option Decision

structure Visit (α : Type) where
  shown : List (Shown α)
  outcome : Outcome

/-- Goes on with an operator. Before each answer `note` looks at the world. -/
def Operator.goOn {α : Type} (note : m α) (job : Job) : Operator m → Progress → m (Visit α)
  | _, .finished outcome => return ⟨[], outcome⟩
  | .gone, .waiting round => do
    let noted ← note
    match ← round.answer job none with
    | .finished outcome => return ⟨[⟨round.summary, noted, none⟩], outcome⟩
    | .waiting _ => return ⟨[⟨round.summary, noted, none⟩], .unchanged⟩
  | .ready meanwhile answer next, .waiting round => do
    let noted ← note
    meanwhile
    let decision := answer round.summary
    let visit ← (next round.summary).goOn note job (← round.answer job decision)
    return ⟨⟨round.summary, noted, decision⟩ :: visit.shown, visit.outcome⟩

def load {α : Type} (note : m α) (job : Job) (operator : Operator m) : m (Visit α) := do
  operator.goOn note job (← job.start)

end

end ToolChanger

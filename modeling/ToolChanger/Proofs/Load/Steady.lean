import ToolChanger.Proofs.Load.Look
import ToolChanger.Store.Memory

namespace ToolChanger

/-- Reading a document leaves the state as it is. -/
class Store.Steady (σ : Type) [Store (StateM σ)] : Prop where
  loadTools (state : σ) : ((Store.loadTools : ExceptT StoreError (StateM σ) _).run.run state).2 = state
  loadSettings (state : σ) :
    ((Store.loadSettings : ExceptT StoreError (StateM σ) _).run.run state).2 = state
  loadMachine (state : σ) :
    ((Store.loadMachine : ExceptT StoreError (StateM σ) _).run.run state).2 = state

theorem Memory.read_run {α : Type} (document : Document) (get : Memory → α) (memory : Memory) :
    ((Memory.read document get).run.run memory).2 = memory := by
  obtain ⟨tools, settings, machine, failReads, others⟩ := memory
  cases failReads <;> rfl

instance : Store.Steady Memory where
  loadTools := Memory.read_run _ _
  loadSettings := Memory.read_run _ _
  loadMachine := Memory.read_run _ _

variable {σ : Type} [Store (StateM σ)]

namespace Store

def libraryIn (state : σ) : Library := ((libraryOrEmpty : StateM σ _).run state).1

def settingsIn (state : σ) : Settings := ((settingsOrDefault : StateM σ _).run state).1

def capacityIn (state : σ) : UInt32 := ((capacityOrDefault : StateM σ _).run state).1

omit [Store (StateM σ)] in
theorem orElse_run_snd {α : Type} (action : ExceptT StoreError (StateM σ) α) (substitute : α) (state : σ) :
    ((orElse action substitute).run state).2 = (action.run.run state).2 := by
  unfold orElse
  rcases ran : action.run.run state with ⟨result, final⟩
  rw [run_bind ran]
  cases result <;> rfl

variable [Steady σ]

theorem libraryOrEmpty_run (state : σ) :
    (libraryOrEmpty : StateM σ _).run state = (libraryIn state, state) :=
  Prod.ext rfl ((orElse_run_snd loadTools [] state).trans (Steady.loadTools state))

theorem settingsOrDefault_run (state : σ) :
    (settingsOrDefault : StateM σ _).run state = (settingsIn state, state) :=
  Prod.ext rfl ((orElse_run_snd loadSettings {} state).trans (Steady.loadSettings state))

theorem capacityOrDefault_run (state : σ) :
    (capacityOrDefault : StateM σ _).run state = (capacityIn state, state) :=
  Prod.ext rfl ((orElse_run_snd loadMachine {} state).trans (Steady.loadMachine state))

def viewIn (state : σ) : View := ⟨libraryIn state, settingsIn state, capacityIn state⟩

def reconciledIn (state : σ) (incoming previous : Overrides) : Overrides :=
  (viewIn state).reconciled incoming previous

theorem look (state : σ) : Look (viewIn state) state state :=
  ⟨libraryOrEmpty_run state, settingsOrDefault_run state, capacityOrDefault_run state⟩

theorem looks (n : Nat) (state : σ) : Looks (viewIn state) n state state := by
  induction n with
  | zero => exact .none state
  | succ n ih => exact .more (look state) ih

end Store

open Store

variable [Steady σ]

def Job.roundIn (job : Job) (state : σ) (session : Overrides) : Round :=
  (viewIn state).round job session

theorem again_run (job : Job) (incoming previous : Overrides) (state : σ) :
    (job.again incoming previous : StateM σ _).run state =
      (.waiting (job.roundIn state (reconciledIn state incoming previous)), state) :=
  again_of_looks (looks 7 state) job incoming previous

theorem start_run (job : Job) (state : σ) :
    (job.start : StateM σ _).run state =
      (if !(settingsIn state).enabled then .finished .unchanged
        else
          let round := job.roundIn state (reconciledIn state Table.empty Table.empty)
          if round.summary.classification.isEmpty then .finished .unchanged else .waiting round,
        state) := by
  rw [start_of_looks (look state) (looks 5 state) (look state), show (viewIn state).settings =
    settingsIn state from rfl]
  cases (settingsIn state).enabled with
  | false => rfl
  | true =>
    simp only [Bool.not_true, Bool.false_eq_true, if_false]
    exact (apply_ite (·, state) _ _ _).symm

end ToolChanger

import ToolChanger.Load

namespace ToolChanger

theorem run_bind {σ α β : Type} {action : StateM σ α} {state final : σ} {value : α}
    (ran : action.run state = (value, final)) (next : α → StateM σ β) :
    (action >>= next).run state = (next value).run final := by
  rw [StateT.run_bind, ran]
  rfl

section

variable {σ ε α β : Type} {action : ExceptT ε (StateM σ) α} {state final : σ}

theorem run_bind_ok {value : α} (ran : action.run.run state = (.ok value, final))
    (next : α → ExceptT ε (StateM σ) β) :
    (action >>= next).run.run state = (next value).run.run final := by
  rw [ExceptT.run_bind, run_bind ran]

theorem run_bind_error {error : ε} (ran : action.run.run state = (.error error, final))
    (next : α → ExceptT ε (StateM σ) β) :
    (action >>= next).run.run state = (.error error, final) := by
  rw [ExceptT.run_bind, run_bind ran]
  rfl

end

/-- What the three documents say. -/
structure View where
  library : Library
  settings : Settings
  capacity : UInt32

namespace View

def layers (view : View) (session : Overrides) : Layers :=
  ⟨view.library, view.settings.overrides, session⟩

def reconciled (view : View) (incoming previous : Overrides) : Overrides :=
  reconcile incoming previous view.library view.settings.overrides view.capacity

def round (view : View) (job : Job) (session : Overrides) : Round where
  settings := view.settings
  summary := {
    fileName := job.fileName
    classification := analyze job.program view.library (view.layers session).overrides
    capacity := view.capacity
    session }

end View

variable {σ : Type} [Store (StateM σ)]

namespace Store

/-- In a state a look at any document shows what a view says, and leads to the next state. -/
structure Look (view : View) (state next : σ) : Prop where
  library : (libraryOrEmpty : StateM σ _).run state = (view.library, next)
  settings : (settingsOrDefault : StateM σ _).run state = (view.settings, next)
  capacity : (capacityOrDefault : StateM σ _).run state = (view.capacity, next)

/-- A number of looks, one after the other, all show what a view says. -/
inductive Looks (view : View) : Nat → σ → σ → Prop
  | none (state : σ) : Looks view 0 state state
  | more {n : Nat} {state next final : σ} (look : Look view state next) (later : Looks view n next final) :
    Looks view (n + 1) state final

theorem Looks.add {view : View} {n k : Nat} {state final : σ} (looks : Looks view (n + k) state final) :
    ∃ between, Looks view n state between ∧ Looks view k between final := by
  induction n generalizing state with
  | zero =>
    rw [Nat.zero_add] at looks
    exact ⟨state, .none state, looks⟩
  | succ n ih =>
    rw [Nat.add_right_comm] at looks
    cases looks with
    | more look later =>
      obtain ⟨between, first, second⟩ := ih later
      exact ⟨between, .more look first, second⟩

end Store

open Store (Look Looks)

variable {view : View} {state next final : σ}

theorem reconcileStored_of_looks (looks : Looks view 3 state final) (incoming previous : Overrides) :
    (reconcileStored incoming previous : StateM σ _).run state =
      (view.reconciled incoming previous, final) := by
  obtain _ | ⟨first, _ | ⟨second, _ | ⟨third, ⟨⟩⟩⟩⟩ := looks
  unfold reconcileStored
  rw [run_bind first.library, run_bind second.settings, run_bind third.capacity]
  rfl

theorem analyzeStored_of_looks (looks : Looks view 2 state final) (program : String)
    (session : Overrides) :
    (analyzeStored program session : StateM σ _).run state =
      (analyze program view.library (view.layers session).overrides, final) := by
  obtain _ | ⟨first, _ | ⟨second, ⟨⟩⟩⟩ := looks
  unfold analyzeStored
  rw [run_bind first.library, run_bind second.settings]
  rfl

theorem ask_of_look (look : Look view state next) (job : Job) (settings : Settings) (session : Overrides)
    (classification : Classification) :
    (job.ask settings session classification : StateM σ _).run state =
      (.waiting ⟨settings, job.fileName, classification, view.capacity, session⟩, next) := by
  unfold Job.ask
  rw [run_bind look.capacity]
  rfl

theorem again_of_looks (looks : Looks view 7 state final) (job : Job) (incoming previous : Overrides) :
    (job.again incoming previous : StateM σ _).run state =
      (.waiting (view.round job (view.reconciled incoming previous)), final) := by
  obtain ⟨_, reconciling, _ | ⟨reading, looks⟩⟩ := Looks.add (n := 3) (k := 4) looks
  obtain ⟨_, analyzing, _ | ⟨asking, ⟨⟩⟩⟩ := Looks.add (n := 2) (k := 1) looks
  unfold Job.again
  rw [run_bind (reconcileStored_of_looks reconciling incoming previous), run_bind reading.settings,
    run_bind (analyzeStored_of_looks analyzing job.program _), ask_of_look asking]
  rfl

theorem start_of_looks {first second : σ} (reading : Look view state first)
    (looks : Looks view 5 first second) (asking : Look view second final) (job : Job) :
    (job.start : StateM σ _).run state =
      if !view.settings.enabled then (.finished .unchanged, first)
      else
        let round := view.round job (view.reconciled Table.empty Table.empty)
        if round.summary.classification.isEmpty then (.finished .unchanged, second)
        else (.waiting round, final) := by
  obtain ⟨_, reconciling, analyzing⟩ := Looks.add (n := 3) (k := 2) looks
  unfold Job.start
  rw [run_bind reading.settings]
  cases view.settings.enabled with
  | false => rfl
  | true =>
    simp only [Bool.not_true, Bool.false_eq_true, if_false]
    rw [run_bind (reconcileStored_of_looks reconciling Table.empty Table.empty),
      run_bind (analyzeStored_of_looks analyzing job.program _)]
    unfold View.round
    simp only
    split
    · rfl
    · exact ask_of_look asking _ _ _ _

/-! ### An answer that accepts -/

/-- What a round ends in when it is accepted, given what came of recording the pockets. -/
def Round.accepted (job : Job) (round : Round) (sync : SyncReport) : Renumbered where
  renumbering :=
    Renumbering.ofProgram round.summary.classification.pocketMap round.settings.label job.program
  pockets := round.summary.classification.pocketMap
  classification := round.summary.classification
  sync := sync

theorem answer_map_run (job : Job) (round : Round) (state : σ) :
    (round.answer job (some .map) : StateM σ _).run state =
      let synced := (syncStored round.summary.classification : StateM σ _).run state
      (.finished (.renumbered (round.accepted job synced.1)), synced.2) := by
  unfold Round.answer accept
  simp only [StateT.run_bind]
  rfl

end ToolChanger

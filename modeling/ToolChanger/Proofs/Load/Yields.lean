import ToolChanger.Proofs.Load.Keeps

namespace ToolChanger

variable {σ α β ε : Type} {P : σ → Prop}

/-- Where an invariant holds, an action gives a value with a property and the invariant still holds. -/
def Yields (P : σ → Prop) (Q : α → Prop) (action : StateM σ α) : Prop :=
  ∀ state, P state → Q (action.run state).1 ∧ P (action.run state).2

def Succeeds (Q : α → Prop) (result : Except ε α) : Prop := ∀ value, result = .ok value → Q value

variable {Q : α → Prop} {R : β → Prop}

theorem yields_pure {value : α} (holds : Q value) : Yields P Q (pure value : StateM σ α) :=
  fun _ kept => ⟨holds, kept⟩

theorem Yields.bind {action : StateM σ α} {next : α → StateM σ β} (first : Yields P Q action)
    (later : ∀ value, Q value → Yields P R (next value)) : Yields P R (action >>= next) := by
  intro state kept
  rcases ran : action.run state with ⟨value, final⟩
  have given := first state kept
  rw [ran] at given
  rw [run_bind ran]
  exact later value given.1 final given.2

theorem Keeps.yields {action : StateM σ α} (keeps : Keeps P action) : Yields P (fun _ => True) action :=
  fun state kept => ⟨trivial, keeps state kept⟩

theorem Yields.bind_except {action : ExceptT ε (StateM σ) α} {next : α → ExceptT ε (StateM σ) β}
    (first : Yields P (Succeeds Q) action.run)
    (later : ∀ value, Q value → Yields P (Succeeds R) (next value).run) :
    Yields P (Succeeds R) (action >>= next).run := by
  rw [ExceptT.run_bind]
  refine first.bind fun result sound => ?_
  cases result with
  | ok value => exact later value (sound value rfl)
  | error error => exact yields_pure fun value same => by cases same

theorem yields_ok {value : α} (holds : Q value) :
    Yields P (Succeeds Q) (pure value : ExceptT ε (StateM σ) α).run :=
  yields_pure fun _ same => Except.ok.inj same ▸ holds

theorem Yields.orElse {action : ExceptT StoreError (StateM σ) α} {substitute : α}
    (yields : Yields P (Succeeds Q) action.run) (otherwise : Q substitute) :
    Yields P Q (Store.orElse action substitute) := by
  refine yields.bind fun result sound => ?_
  cases result with
  | ok value => exact yields_pure (sound value rfl)
  | error error => exact yields_pure otherwise

/-! ### Outcomes -/

variable [Store (StateM σ)] {note : StateM σ α} {job : Job} {S : Progress → Prop}

/-- What holds of a round that waits, and is handed on by every answer, holds of what the load ends in. -/
theorem goOn_yields (noting : Keeps P note)
    (answers : ∀ round decision, S (.waiting round) →
      Yields P S (round.answer job decision : StateM σ _))
    {operator : Operator (StateM σ)} {progress : Progress} {state : σ}
    (edits : operator.Edits (fun before after => P before → P after) note job progress state)
    (shows : S progress) (kept : P state) {result : Renumbered}
    (renumbered : ((operator.goOn note job progress).run state).1.outcome = .renumbered result) :
    S (.finished (.renumbered result)) := by
  induction operator generalizing progress state with
  | gone =>
    cases progress with
    | finished outcome =>
      obtain rfl : outcome = .renumbered result := renumbered
      exact shows
    | waiting round => cases renumbered
  | ready meanwhile answer next ih =>
    cases progress with
    | finished outcome =>
      obtain rfl : outcome = .renumbered result := renumbered
      exact shows
    | waiting round =>
      obtain ⟨harmless, later⟩ := edits
      have after := harmless (noting state kept)
      obtain ⟨given, still⟩ := answers round (answer round.summary) shows _ after
      exact ih round.summary later given still renumbered

theorem load_yields (noting : Keeps P note) (starts : Yields P S (job.start : StateM σ _))
    (answers : ∀ round decision, S (.waiting round) →
      Yields P S (round.answer job decision : StateM σ _))
    {operator : Operator (StateM σ)} {state : σ}
    (edits : operator.EditsLoad (fun before after => P before → P after) note job state)
    (kept : P state) {result : Renumbered}
    (renumbered : ((load note job operator).run state).1.outcome = .renumbered result) :
    S (.finished (.renumbered result)) := by
  obtain ⟨shows, still⟩ := starts state kept
  exact goOn_yields noting answers edits shows still renumbered

end ToolChanger

import ToolChanger.Proofs.Load.Keeps

namespace ToolChanger

variable {σ α : Type} [Store (StateM σ)]

theorem exists_shown (note : StateM σ α) (job : Job) (operator : Operator (StateM σ)) (round : Round)
    (state : σ) : ∃ decision rest, ((operator.goOn note job (.waiting round)).run state).1.shown =
      ⟨round.summary, (note.run state).1, decision⟩ :: rest := by
  cases operator with
  | gone => exact ⟨none, [], rfl⟩
  | ready meanwhile answer next => exact ⟨_, _, rfl⟩

/-- What holds whenever a round waits holds where some summary is shown; and where that is answered, what is
shown later is what comes of the answer, given after whatever happened meanwhile. -/
theorem goOn_split {I : Progress → σ → Prop} {R : σ → σ → Prop} {job : Job}
    (step : ∀ round noted edited decision, I (.waiting round) noted → R noted edited →
      let answered := (round.answer job decision : StateM σ _).run edited
      I answered.1 answered.2)
    {operator : Operator (StateM σ)} {progress : Progress} {state : σ} (holds : I progress state)
    (edits : operator.Edits R get job progress state)
    {before later : List (Shown σ)} {shown : Shown σ} {decision : Decision}
    (split : ((operator.goOn get job progress).run state).1.shown = before ++ shown :: later)
    (asked : shown.decision = some decision) :
    ∃ round edited, shown.summary = round.summary ∧ I (.waiting round) shown.noted ∧ R shown.noted edited ∧
      let answered := (round.answer job (some decision) : StateM σ _).run edited
      ∃ next : Operator (StateM σ), later = ((next.goOn get job answered.1).run answered.2).1.shown := by
  induction operator generalizing progress state before with
  | gone =>
    cases progress with
    | finished outcome => cases before <;> cases split
    | waiting round =>
      have alone : [(⟨round.summary, state, none⟩ : Shown σ)] = before ++ shown :: later := split
      have member : shown ∈ [(⟨round.summary, state, none⟩ : Shown σ)] := by simp [alone]
      obtain rfl := List.mem_singleton.mp member
      cases asked
  | ready meanwhile answer next ih =>
    cases progress with
    | finished outcome => cases before <;> cases split
    | waiting round =>
      obtain ⟨edited, others⟩ := edits
      have cons : (⟨round.summary, state, answer round.summary⟩ : Shown σ) ::
          (((next round.summary).goOn get job
            ((round.answer job (answer round.summary) : StateM σ _).run (meanwhile.run state).2).1).run
            ((round.answer job (answer round.summary) : StateM σ _).run
              (meanwhile.run state).2).2).1.shown = before ++ shown :: later := split
      rcases before with _ | ⟨head, before⟩
      · obtain ⟨rfl, rest⟩ := List.cons.inj cons
        rw [show answer round.summary = _ from asked] at rest
        exact ⟨round, (meanwhile.run state).2, rfl, holds, edited, next round.summary, rest.symm⟩
      · obtain ⟨-, rest⟩ := List.cons.inj cons
        exact ih round.summary (step round state _ _ holds edited) others rest

end ToolChanger

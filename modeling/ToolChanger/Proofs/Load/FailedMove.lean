import ToolChanger.Proofs.Load.Failing
import ToolChanger.Proofs.Load.Rounds
import ToolChanger.Proofs.Remap.HalfMove
import ToolChanger.Proofs.Remap.Outcome

/-!
# A move that fails

Until its call fails each round shows what reconciling made of the documents, which nobody else changes (`Ready`).
The round after the failure reads what the move has written by then.
-/

namespace ToolChanger

open Store (Looks)

namespace Scripted

variable {store : Scripted} {error : StoreError} {n k : Nat} {plan : Plan}

/-! ### Until the call fails -/

def Fused (error : StoreError) (store : Scripted) : Prop :=
  store.script = [] ∨ ∃ n, store.FailsAfter n error

theorem robust_fused (error : StoreError) : Robust (Fused error) where
  next store fused := by
    rcases fused with spent | ⟨_ | n, fails⟩
    · rw [next_of_spent spent]
      exact .inl spent
    · exact .inl fails.next_zero
    · exact .inr ⟨n, fails.next_succ⟩
  revised _ _ _ fused := fused

theorem Fused.later (fused : Fused error store) (n : Nat) :
    (next^[n] store).script = [] ∨ ∃ k, store.FailsAfter (n + k) error := by
  rcases fused with spent | ⟨m, fails⟩
  · exact .inl (spent_iterate spent n)
  · by_cases few : m < n
    · exact .inl (fails.spent few)
    · obtain ⟨k, rfl⟩ : ∃ k, m = n + k := ⟨m - n, by omega⟩
      exact .inr ⟨k, fails⟩

/-- While the call is still to fail, a round that waits shows the documents as they are. -/
def Ready (job : Job) (error : StoreError) (progress : Progress) (store : Scripted) : Prop :=
  store.script = [] ∨ ((∃ n, store.FailsAfter n error) ∧ ∀ round, progress = .waiting round →
    ∃ incoming previous, round = store.view.round job (store.view.reconciled incoming previous))

variable {job : Job}

theorem ready_of_finished (fused : Fused error store) (outcome : Outcome) :
    Ready job error (.finished outcome) store :=
  fused.imp id fun fails => ⟨fails, fun _ same => by cases same⟩

theorem view_eq {final : Scripted} (same : final.documents = store.documents) :
    final.view = store.view := by
  unfold view
  rw [same]

theorem ready_again (fused : Fused error store) (job : Job) (incoming previous : Overrides) :
    let went := (job.again incoming previous : StateM Scripted _).run store
    Ready job error went.1 went.2 := by
  intro went
  have looked : went.2 = next^[7] store := advances_again job incoming previous store
  rcases fused.later 7 with spent | ⟨k, fails⟩
  · exact .inl (looked ▸ spent)
  · obtain ⟨looks, left, same⟩ := fails.looks
    have ran : went = _ := again_of_looks looks job incoming previous
    rw [ran]
    refine .inr ⟨⟨k, left⟩, fun round waits => ⟨incoming, previous, ?_⟩⟩
    cases waits
    simp only [view_eq same]

theorem ready_start (fused : Fused error store) (job : Job) :
    let began := (job.start : StateM Scripted _).run store
    Ready job error began.1 began.2 := by
  intro began
  have kept : Fused error began.2 := (robust_fused error).keep.start job store fused
  cases progress : began.1 with
  | finished outcome => exact ready_of_finished kept outcome
  | waiting round =>
    have looked : began.2 = next^[7] store := advances_start job progress
    rcases fused.later 7 with spent | ⟨k, fails⟩
    · exact .inl (looked ▸ spent)
    · obtain ⟨looks, left, same⟩ := fails.looks
      obtain ⟨first, _ | ⟨reading, ⟨⟩⟩, looks⟩ := Looks.add (n := 1) (k := 6) looks
      obtain ⟨second, looking, _ | ⟨asking, ⟨⟩⟩⟩ := Looks.add (n := 5) (k := 1) looks
      have ran : began = _ := start_of_looks reading looking asking job
      rw [looked]
      refine .inr ⟨⟨k, left⟩, fun other waits => ⟨Table.empty, Table.empty, ?_⟩⟩
      obtain rfl := Progress.waiting.inj waits
      rw [ran] at progress
      rw [view_eq same]
      split at progress
      · cases progress
      · simp only at progress
        split at progress
        · cases progress
        · exact (Progress.waiting.inj progress).symm

theorem ready_answer (fused : Fused error store) (job : Job) (round : Round)
    (decision : Option Decision) :
    let answered := (round.answer job decision : StateM Scripted _).run store
    Ready job error answered.1 answered.2 :=
  (robust_fused error).keep.answer_leads (fun outcome _ fused => ready_of_finished fused outcome)
    (fun incoming previous _ fused => ready_again fused job incoming previous) round decision store fused

/-! ### The round after the failure -/

theorem answer_failing {tool : ToolId} {target : Override} {round : Round} {incoming previous : Overrides}
    (shows : round = store.view.round job (store.view.reconciled incoming previous))
    (fails : store.FailsAfter (2 + k) error)
    (accepted : (store.view.layers round.summary.session).plan round.summary.capacity tool target = .ok plan)
    (inside : k < plan.calls) :
    ∃ session final, (round.answer job (some (.remap tool target)) : StateM Scripted _).run store =
        (.waiting (final.view.round job session), final) ∧
      final.view.layers session = (if 2 ≤ k then (store.view.layers round.summary.session).halfway tool target
        else store.view.layers round.summary.session).reread round.summary.capacity := by
  obtain ⟨final, moved, spent, documents⟩ := moveStored_run_failing fails accepted inside
  refine ⟨final.view.reconciled round.summary.session round.summary.session, final, ?_, ?_⟩
  · unfold Round.answer
    simp only
    rw [run_bind moved]
    exact again_of_looks (looks_of_spent spent 7) job _ _
  · obtain ⟨-, -, rfl⟩ := Layers.plan_eq_ok_iff.mp accepted
    have reached : final.view.layers round.summary.session =
        if 2 ≤ k then (store.view.layers round.summary.session).halfway tool target
        else store.view.layers round.summary.session := by
      unfold view
      rw [documents]
      split <;> rfl
    have capacity : final.view.capacity = round.summary.capacity := by
      rw [shows]
      unfold view
      rw [documents]
      split <;> rfl
    rw [← reached, ← capacity]
    rfl

end Scripted

/-! ### The whole load -/

section

variable {job : Job} {error : StoreError} {k : Nat} {tool : ToolId} {target : Override} {plan : Plan}

theorem goOn_failing {operator : Operator (StateM Scripted)} {progress : Progress} {store : Scripted}
    (ready : Scripted.Ready job error progress store)
    (silent : operator.Edits (fun before after => after.script = before.script ∧
      (before.script ≠ [] → after = before)) get job progress store)
    {before later : List (Shown Scripted)} {shown : Shown Scripted}
    (split : ((operator.goOn get job progress).run store).1.shown = before ++ shown :: later)
    (asked : shown.decision = some (.remap tool target))
    (accepted : shown.layers.plan shown.summary.capacity tool target = .ok plan)
    (fails : shown.noted.FailsAfter (2 + k) error) (inside : k < plan.calls) :
    ∃ next rest, later = next :: rest ∧
      (∃ incoming previous, shown.layers.session = reconcile incoming previous shown.layers.library
        shown.layers.persisted shown.summary.capacity) ∧
      next.layers = (if 2 ≤ k then shown.layers.halfway tool target else shown.layers).reread
        shown.summary.capacity := by
  have step (round : Round) (noted edited : Scripted) (decision : Option Decision)
      (ready : Scripted.Ready job error (.waiting round) noted)
      (silent : edited.script = noted.script ∧ (noted.script ≠ [] → edited = noted)) :
      let answered := (round.answer job decision : StateM Scripted _).run edited
      Scripted.Ready job error answered.1 answered.2 := by
    refine Scripted.ready_answer ?_ job round decision
    rcases ready with spent | ⟨⟨n, pending⟩, -⟩
    · exact .inl (silent.1.trans spent)
    · exact .inr ⟨n, (silent.1.trans pending :)⟩
  obtain ⟨round, edited, summary, ready, ⟨-, quiet⟩, operator, rest⟩ :=
    goOn_split step ready silent split asked
  -- The failure is still to come, so the round is current and nobody has changed anything.
  have pending : shown.noted.script ≠ [] := by
    rw [show shown.noted.script = _ from fails]
    simp
  obtain rfl := quiet pending
  obtain ⟨-, current⟩ := ready.resolve_left pending
  obtain ⟨incoming, previous, shows⟩ := current round rfl
  have here : shown.layers = shown.noted.view.layers round.summary.session := by
    rw [Shown.layers, summary]
  rw [here, summary] at accepted
  obtain ⟨session, final, went, reached⟩ := Scripted.answer_failing shows fails accepted inside
  rw [went] at rest
  obtain ⟨decision, others, first⟩ := exists_shown get job operator (final.view.round job session) final
  rw [here, summary]
  refine ⟨_, others, rest.trans first, ⟨incoming, previous, ?_⟩, reached⟩
  rw [shows]
  rfl

end

end ToolChanger

import ToolChanger.Proofs.Load.Rounds
import ToolChanger.Proofs.Load.Scripted
import ToolChanger.Proofs.Load.Unshared
import ToolChanger.Proofs.Remap.Agreement

/-!
# A move that succeeds

A move that succeeds is written as planned, and since it shares no pocket, the reconciling that follows it has
nothing to settle.
-/

namespace ToolChanger

/-- A round that waits shows what reconciling made of the documents. -/
def Progress.Reflects (job : Job) (view : View) : Progress → Prop
  | waiting round => ∃ incoming previous, round = view.round job (view.reconciled incoming previous)
  | finished _ => True

namespace Scripted

variable {α : Type} {store : Scripted} {job : Job} {round : Round} {plan : Plan} {tool : ToolId}
  {target : Override}

/-! ### Where no call fails -/

theorem robust_spent : Robust fun store => store.script = [] where
  next _ spent := by
    rw [next_of_spent spent]
    exact spent
  revised _ _ _ spent := spent

theorem revise_run_of_spent (spent : store.script = []) (get : Documents → α)
    (change : α → Documents → Documents) :
    (revise get change).run.run store =
      (.ok (), store.put (change (get store.documents) store.documents)) := by
  have still := next_of_spent spent
  rw [revise_run, still, failure?_of_spent spent, still]

theorem carryOut_run_of_spent (spent : store.script = []) (plan : Plan) (session : Overrides) :
    ∃ final, (plan.carryOut session : ExceptT StoreError (StateM Scripted) _).run.run store =
        (.ok (session.update plan.sessionUpdates), final) ∧
      final.script = [] ∧ final.documents = plan.onSettings (plan.onTools store.documents) := by
  obtain ⟨between, records, still, changed⟩ : ∃ between,
      (plan.recordTools : ExceptT StoreError (StateM Scripted) _).run.run store = (.ok (), between) ∧
        between.script = [] ∧
        between.documents = plan.onTools store.documents := by
    rw [Plan.recordTools_scripted]
    split
    · exact ⟨_, revise_run_of_spent spent _ _, spent, rfl⟩
    · rename_i untouched
      have nothing : plan.libraryUpdates = [] := by simpa [Plan.touchesLibrary] using untouched
      refine ⟨store, rfl, spent, ?_⟩
      rw [Plan.onTools, nothing]
      rfl
  obtain ⟨final, overrides, stays, reached⟩ : ∃ final,
      (plan.recordOverrides : ExceptT StoreError (StateM Scripted) _).run.run between = (.ok (), final) ∧
        final.script = [] ∧
        final.documents = plan.onSettings between.documents := by
    rw [Plan.recordOverrides_scripted]
    split
    · exact ⟨_, revise_run_of_spent still _ _, still, rfl⟩
    · rename_i untouched
      have nothing : plan.persistedUpdates = [] := by simpa [Plan.touchesSettings] using untouched
      refine ⟨between, rfl, still, ?_⟩
      rw [Plan.onSettings, nothing]
      rfl
  rw [changed] at reached
  refine ⟨final, ?_, stays, reached⟩
  rw [Plan.carryOut_eq, run_bind_ok records, run_bind_ok overrides]
  rfl

theorem moveStored_run_of_spent (spent : store.script = []) {capacity : UInt32} {session : Overrides}
    (accepted : (store.view.layers session).plan capacity tool target = .ok plan) :
    ∃ final, (moveStored tool target capacity session : StateM Scripted _).run store =
        ((plan.apply (store.view.layers session)).session, final) ∧
      final.script = [] ∧ final.view.capacity = store.view.capacity ∧
      ∀ session', final.view.layers session' =
        { plan.apply (store.view.layers session) with session := session' } := by
  have look := look_of_spent spent
  obtain ⟨final, carried, still, changed⟩ := carryOut_run_of_spent spent plan session
  have planned : Layers.plan ⟨store.view.library, store.view.settings.overrides, session⟩ capacity tool
      target = .ok plan := accepted
  refine ⟨final, ?_, still, ?_, fun session' => ?_⟩
  · unfold moveStored
    rw [run_bind look.library, run_bind look.settings, planned]
    unfold Store.orElse
    exact run_bind carried _
  · rw [view, changed]
    rfl
  · rw [view, changed]
    rfl

/-! ### Rounds that show the documents as they are -/

/-- No call is going to fail, and what is shown are the documents as they are. -/
def Current (job : Job) (progress : Progress) (store : Scripted) : Prop :=
  store.script = [] ∧ progress.Reflects job store.view

theorem current_again (spent : store.script = []) (job : Job) (incoming previous : Overrides) :
    let went := (job.again incoming previous : StateM Scripted _).run store
    Current job went.1 went.2 := by
  intro went
  have ran : went = _ := again_of_looks (looks_of_spent spent 7) job incoming previous
  rw [ran]
  exact ⟨spent, incoming, previous, rfl⟩

theorem current_start (spent : store.script = []) (job : Job) :
    let began := (job.start : StateM Scripted _).run store
    Current job began.1 began.2 := by
  intro began
  have look := look_of_spent spent
  have ran : began = _ := start_of_looks look (looks_of_spent spent 5) look job
  rw [ran]
  split
  · exact ⟨spent, trivial⟩
  · simp only
    split
    · exact ⟨spent, trivial⟩
    · exact ⟨spent, Table.empty, Table.empty, rfl⟩

theorem current_answer (spent : store.script = []) (job : Job) (round : Round)
    (decision : Option Decision) :
    let answered := (round.answer job decision : StateM Scripted _).run store
    Current job answered.1 answered.2 :=
  robust_spent.keep.answer_leads (fun _ _ spent => ⟨spent, trivial⟩)
    (fun incoming previous _ spent => current_again spent job incoming previous) round decision store spent

theorem answer_move (current : Current job (.waiting round) store)
    (accepted : (store.view.layers round.summary.session).plan round.summary.capacity tool target = .ok plan)
    (noTool : (store.view.layers round.summary.session).override? 0 = none)
    (within : (store.view.layers round.summary.session).Within round.summary.capacity) :
    ∃ session final, (round.answer job (some (.remap tool target)) : StateM Scripted _).run store =
        (.waiting (final.view.round job session), final) ∧
      final.view.layers session = (store.view.layers round.summary.session).after tool target := by
  obtain ⟨spent, incoming, previous, shows⟩ := current
  obtain ⟨isTool, allowed, rfl⟩ := Layers.plan_eq_ok_iff.mp accepted
  have unshared : (store.view.layers round.summary.session).OneToolPerPocket := by
    rw [shows]
    exact oneToolPerPocket_reconcile _ _ _ _ _
  have capacity : round.summary.capacity = store.view.capacity := by
    rw [shows]
    rfl
  obtain ⟨final, moved, still, sameCapacity, reached⟩ := moveStored_run_of_spent spent accepted
  let after := (store.view.layers round.summary.session).after tool target
  have settled := Layers.reconcile_after unshared within noTool isTool allowed round.summary.session
  have stays : final.view.reconciled after.session round.summary.session = after.session := by
    have library : final.view.library = after.library := congrArg Layers.library (reached Table.empty)
    have persisted : final.view.settings.overrides = after.persisted :=
      congrArg Layers.persisted (reached Table.empty)
    unfold View.reconciled
    rw [library, persisted, sameCapacity, ← capacity]
    exact settled
  refine ⟨after.session, final, ?_, reached _⟩
  unfold Round.answer
  simp only
  rw [run_bind moved]
  refine (again_of_looks (looks_of_spent still 7) job _ _).trans ?_
  exact congrArg (fun session => (Progress.waiting (final.view.round job session), final)) stays

end Scripted

/-- If no call fails and nobody else edits the documents, a move is seen in the next round just as it was
asked for: the tool is where it was to go, whoever was there has the pocket that the tool had before, and
every other tool is where it was. -/
theorem load_move (job : Job) (operator : Operator (StateM Scripted)) (store : Scripted)
    (working : store.script = [])
    (silent : operator.EditsLoad (fun before after => after = before) get job store)
    {before later : List (Shown Scripted)} {shown : Shown Scripted} {tool : ToolId} {target : Override}
    (split : ((load get job operator).run store).1.shown = before ++ shown :: later)
    (asked : shown.decision = some (.remap tool target)) (isTool : tool ≠ 0)
    (allowed : ∀ pocket, target.pocket? = some pocket →
      Magazine.has shown.summary.capacity pocket = true)
    (noTool : shown.layers.override? 0 = none)
    (within : shown.layers.Within shown.summary.capacity) :
    ∃ next rest, later = next :: rest ∧
      next.layers.pocketOf tool = target.pocket? ∧
      (∀ pocket holder, target.pocket? = some pocket → holder ≠ tool →
        shown.layers.pocketOf holder = some pocket →
        next.layers.pocketOf holder = shown.layers.pocketOf tool) ∧
      (∀ other, other ≠ tool →
        (∀ pocket, target.pocket? = some pocket → shown.layers.pocketOf other ≠ some pocket) →
        next.layers.pocketOf other = shown.layers.pocketOf other) ∧
      ∀ reference ∈ next.summary.classification.all,
        reference.pocket = next.layers.pocketOf reference.tool := by
  have step (round : Round) (noted edited : Scripted) (decision : Option Decision)
      (current : Scripted.Current job (.waiting round) noted) (same : edited = noted) :
      let answered := (round.answer job decision : StateM Scripted _).run edited
      Scripted.Current job answered.1 answered.2 :=
    Scripted.current_answer (same ▸ current.1) job round decision
  obtain ⟨round, _, summary, current, rfl, operator, rest⟩ :=
    goOn_split step (Scripted.current_start working job) silent split asked
  have here : shown.layers = shown.noted.view.layers round.summary.session := by
    rw [Shown.layers, summary]
  rw [here, summary] at within
  rw [summary] at allowed
  rw [here] at noTool
  have accepted := Layers.plan_eq_ok_iff.mpr
    ⟨isTool, allowed, (rfl : (shown.noted.view.layers round.summary.session).draft tool target = _)⟩
  have unshared : (shown.noted.view.layers round.summary.session).OneToolPerPocket := by
    obtain ⟨-, incoming, previous, shows⟩ := current
    rw [shows]
    exact oneToolPerPocket_reconcile _ _ _ _ _
  obtain ⟨session, final, went, reached⟩ := Scripted.answer_move current accepted noTool within
  rw [went] at rest
  obtain ⟨decision, others, first⟩ := exists_shown get job operator (final.view.round job session) final
  have lands (other : ToolId) :
      (final.view.layers session).pocketOf other =
        if other = tool then target.pocket?
        else if shown.layers.pocketOf other ≠ none ∧ shown.layers.pocketOf other = target.pocket? then
          shown.layers.pocketOf tool
        else shown.layers.pocketOf other := by
    rw [reached, Layers.pocketOf_after, Layers.swapped_of_unshared unshared, here]
  refine ⟨_, others, rest.trans first, ?_, ?_, ?_, ?_⟩
  · exact (lands tool).trans (if_pos rfl)
  · intro pocket holder wanted different held
    refine (lands holder).trans ?_
    rw [if_neg different, if_pos ⟨by simp [held], held.trans wanted.symm⟩]
  · intro other different apart
    refine (lands other).trans ?_
    rw [if_neg different, if_neg]
    rintro ⟨somewhere, inWay⟩
    obtain ⟨pocket, held⟩ := Option.ne_none_iff_exists'.mp somewhere
    exact apart pocket (inWay.symm.trans held) held
  · intro reference listed
    exact (pocket_of_mem_analyze listed).trans (Layers.pocketOf_eq_effectivePocket _ _).symm

/-- Tool 60, which only the session knows, is put where a stored override keeps tool 2; so the override
puts tool 2 in pocket 4, though its record says 7. -/
theorem load_move_from_session :
    let store : Scripted := { documents := {
      tools := [{ id := 1, pocket := some 1 }, { id := 2, pocket := some 7 }]
      settings := { overrides := Table.ofList [(2, .inPocket 2)] } } }
    let job : Job := ⟨"part.nc", "M6 T1\nM6 T2\nM6 T60"⟩
    let operator : Operator (StateM Scripted) := Operator.ofScript
      [(pure (), some (.refresh (some (Table.ofList [(60, .inPocket 4)])))),
        (pure (), some (.remap 60 (.inPocket 2))), (pure (), some .map)]
    ∃ first shown next, ((load get job operator).run store).1.shown = [first, shown, next] ∧
      [1, 2, 60].map shown.layers.pocketOf = [some 1, some 2, some 4] ∧
      [1, 2, 60].map next.layers.pocketOf = [some 1, some 4, some 2] := by
  intro store job operator
  have length : ((load get job operator).run store).1.shown.length = 3 := by decide +kernel
  have noted : (((load get job operator).run store).1.shown[1]?).map (fun shown =>
      (shown.decision, shown.summary.capacity, shown.layers.override? 0,
        [1, 2, 60].map shown.layers.pocketOf)) =
      some (some (.remap 60 (.inPocket 2)), 8, none, [some 1, some 2, some 4]) := by decide +kernel
  have named : (((load get job operator).run store).1.shown[1]?).map (fun shown =>
      (shown.layers.namedPockets.all (Magazine.has 8 ·))) = some true := by decide +kernel
  obtain ⟨first, shown, next, all⟩ := List.length_eq_three.mp length
  simp only [all, List.getElem?_cons_succ, List.getElem?_cons_zero, Option.map_some, Option.some.injEq,
    Prod.mk.injEq] at noted named
  obtain ⟨asked, capacity, noTool, pockets⟩ := noted
  have within : shown.layers.Within shown.summary.capacity := fun _ pocket held => by
    rw [capacity]
    exact List.all_eq_true.mp named pocket (Layers.mem_namedPockets held)
  have allowed (pocket : Pocket) (same : (Override.inPocket 2).pocket? = some pocket) :
      Magazine.has shown.summary.capacity pocket = true := by
    obtain rfl := Option.some.inj same
    rw [capacity]
    decide
  have quiet : operator.Meanwhile fun edit => ∀ state : Scripted, (edit.run state).2 = state :=
    ⟨fun _ => rfl, fun _ => ⟨fun _ => rfl, fun _ => ⟨fun _ => rfl, fun _ => trivial⟩⟩⟩
  have split : ((load get job operator).run store).1.shown = [first] ++ shown :: [next] := all
  obtain ⟨_, _, rest, moved, swapped, others, -⟩ := load_move job operator store rfl
    (Operator.edits_of_meanwhile get job quiet _ _) split asked (by decide) allowed noTool within
  obtain ⟨rfl, -⟩ := List.cons.inj rest
  obtain ⟨one, two, sixty⟩ : shown.layers.pocketOf 1 = some 1 ∧ shown.layers.pocketOf 2 = some 2 ∧
    shown.layers.pocketOf 60 = some 4 := by simpa using pockets
  refine ⟨first, shown, next, all, pockets, ?_⟩
  have apart : next.layers.pocketOf 1 = shown.layers.pocketOf 1 :=
    others 1 (by decide) fun pocket same => by
      obtain rfl := Option.some.inj same
      simp [one]
  simp [moved, swapped 2 2 rfl (by decide) two, apart, one, sixty, Override.pocket?]

end ToolChanger

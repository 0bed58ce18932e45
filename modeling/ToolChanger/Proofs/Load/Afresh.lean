import ToolChanger.Proofs.Load.Scripted
import ToolChanger.Proofs.Load.Unshared
import ToolChanger.Proofs.Library.Accepted
import ToolChanger.Proofs.Remap.Sessionless

/-!
# The next load

Accepting records the pockets in the library, where the next load finds them unless a stored override speaks
against it.
-/

namespace ToolChanger

open Program (Reference)

/-! ### The tools of a program -/

theorem tools_analyze (program : String) (library : Library) (overrides : Overrides) :
    (analyze program library overrides).all.map (·.tool) = (Program.changes program).map (·.2) := by
  simp only [analyze, classify, Program.references, List.map_map]
  rfl

theorem isEmpty_analyze (program : String) (library : Library) (overrides : Overrides) :
    (analyze program library overrides).isEmpty = (Program.changes program).isEmpty := by
  have same := congrArg List.isEmpty (tools_analyze program library overrides)
  rwa [List.isEmpty_map, List.isEmpty_map] at same

namespace Layers

def reference (layers : Layers) (change : Nat × ToolId) : Reference where
  line := change.1
  tool := change.2
  entry := layers.library.get? change.2
  overridden := layers.overrides.contains change.2
  pocket := layers.pocketOf change.2

theorem all_analyze (program : String) (layers : Layers) :
    (analyze program layers.library layers.overrides).all =
      (Program.changes program).map layers.reference := by
  simp only [analyze, classify, Program.references, List.map_map]
  refine List.map_congr_left fun change _ => ?_
  simp only [Function.comp_apply, Reference.resolve, reference, pocketOf_eq_effectivePocket]

end Layers

theorem reference?_analyze {program : String} {library : Library} {overrides : Overrides}
    {reference : Reference} (listed : reference ∈ (analyze program library overrides).all)
    (later : Library) (inForce : Overrides) :
    ∃ again, (analyze program later inForce).reference? reference.tool = some again ∧
      again.pocket = effectivePocket later inForce reference.tool := by
  have named : reference.tool ∈ (analyze program later inForce).all.map (·.tool) := by
    rw [tools_analyze, ← tools_analyze program library overrides]
    exact List.mem_map_of_mem listed
  obtain ⟨other, inside, same⟩ := List.mem_map.mp named
  have someone : ((analyze program later inForce).reference? reference.tool).isSome :=
    List.find?_isSome.mpr ⟨other, inside, decide_eq_true same⟩
  obtain ⟨again, found⟩ := Option.isSome_iff_exists.mp someone
  refine ⟨again, found, ?_⟩
  unfold Classification.reference? at found
  have tool : again.tool = reference.tool := by simpa using List.find?_some found
  rw [pocket_of_mem_analyze (List.mem_of_find?_eq_some found), tool]

/-! ### A load that begins -/

/-- Whether the stored overrides leave a tool where it was accepted: they put it in that pocket, or say
nothing of it and put nobody else there; a tool that was accepted without a pocket is given none. -/
def View.Upholds (view : View) (tool : ToolId) : Option Pocket → Prop
  | some pocket => view.settings.overrides.get? tool = some (.inPocket pocket) ∨
      view.settings.overrides.get? tool = none ∧
        ∀ other, view.settings.overrides.get? other ≠ some (.inPocket pocket)
  | none => ∀ pocket, (view.layers Table.empty).holder? pocket ≠ some tool

theorem layers_afresh (view : View) :
    view.layers (view.reconciled Table.empty Table.empty) =
      Layers.settleAll Table.empty view.capacity (view.layers Table.empty) := by
  have nothing : (Table.empty : Overrides).filter (Override.isAdmissible view.capacity) =
      Table.empty := rfl
  unfold View.layers View.reconciled
  rw [layers_reconcile, nothing]

theorem pocketOf_afresh (view : View) (tool : ToolId) (pocket : Pocket) :
    (view.layers (view.reconciled Table.empty Table.empty)).pocketOf tool = some pocket ↔
      (view.layers Table.empty).holder? pocket = some tool := by
  rw [layers_afresh]
  exact Layers.pocketOf_settleAll_session (view.layers Table.empty) _ _ _

theorem pocketOf_afresh_eq_iff {view : View} {tool : ToolId} {accepted : Option Pocket}
    (recorded : ∀ pocket, accepted = some pocket →
      ∀ other, view.library.pocketOf other = some pocket ↔ other = tool) :
    (view.layers (view.reconciled Table.empty Table.empty)).pocketOf tool = accepted ↔
      view.Upholds tool accepted := by
  cases accepted with
  | some pocket =>
    rw [pocketOf_afresh]
    exact Layers.holder?_sessionless (recorded pocket rfl)
  | none =>
    rw [Option.eq_none_iff_forall_ne_some]
    exact forall_congr' fun pocket => not_congr (pocketOf_afresh view tool pocket)

namespace Scripted

variable {store : Scripted} {job : Job}

/-- No call is going to fail, and programs are renumbered. -/
def Serves (store : Scripted) : Prop := store.script = [] ∧ store.documents.settings.enabled = true

theorem robust_serves : Robust Serves where
  next store serves := by
    rw [next_of_spent serves.1]
    exact serves
  revised _ _ revised serves := by cases revised <;> exact serves

theorem start_run (serves : store.Serves) (job : Job) :
    (job.start : StateM Scripted _).run store =
      (if (Program.changes job.program).isEmpty then .finished .unchanged
        else .waiting (store.view.round job (store.view.reconciled Table.empty Table.empty)), store) := by
  have look := look_of_spent serves.1
  have enabled : store.view.settings.enabled = true := serves.2
  rw [start_of_looks look (looks_of_spent serves.1 5) look, enabled]
  simp only [Bool.not_true, Bool.false_eq_true, if_false, View.round, isEmpty_analyze]
  split <;> rfl

theorem syncStored_run_eq (spent : store.script = []) (classification : Classification) :
    (syncStored classification : StateM Scripted _).run store =
      let synced := store.view.library.sync classification
      if synced.2.count = 0 then ({ changes := synced.2 }, store)
      else ({ changes := synced.2, saved := true },
        store.put { store.documents with tools := synced.1.records }) := by
  have clear := failure?_of_spent spent
  have still := next_of_spent spent
  have read : (Store.loadTools : ExceptT StoreError (StateM Scripted) _).run.run store =
      (.ok store.documents.tools, store) := by
    have ran := call_run_of_none clear fun store => (store.documents.tools, store)
    rwa [still] at ran
  unfold ToolChanger.syncStored
  rw [run_bind read]
  simp only
  split
  · rename_i idle
    exact (if_pos idle).symm
  · rename_i busy
    have write (tools : List Tool) :
        (Store.saveTools tools : ExceptT StoreError (StateM Scripted) _).run.run store =
          (.ok (), store.put { store.documents with tools }) := by
      have ran := call_run_of_none clear fun store =>
        ((), store.put { store.documents with tools })
      rwa [still] at ran
    rw [run_bind (write _)]
    exact (if_neg busy).symm

theorem view_syncStored (spent : store.script = []) (classification : Classification) :
    let final := ((syncStored classification : StateM Scripted _).run store).2
    final.view.library = (store.view.library.sync classification).1 ∧
      final.view.settings = store.view.settings ∧ final.script = [] := by
  rw [syncStored_run_eq spent]
  simp only
  split
  · rename_i idle
    exact ⟨(Library.sync_idle idle).symm, rfl, spent⟩
  · exact ⟨rfl, rfl, spent⟩

theorem syncStored_run (serves : store.Serves) (classification : Classification) :
    ∃ report final, (syncStored classification : StateM Scripted _).run store = (report, final) ∧
      final.Serves ∧ final.view.library = (store.view.library.sync classification).1 := by
  obtain ⟨library, settings, spent⟩ := view_syncStored serves.1 classification
  exact ⟨_, _, rfl, ⟨spent, (congrArg Settings.enabled settings).trans serves.2⟩, library⟩

end Scripted

/-! ### What was accepted -/

/-- While a load goes on, the tools of the program are shown where layers put them that share no
pocket. -/
def Progress.Shows (job : Job) : Progress → Prop
  | waiting round => ∃ layers : Layers, layers.OneToolPerPocket ∧
      round.summary.classification = analyze job.program layers.library layers.overrides
  | finished (.renumbered _) => False
  | finished _ => True

namespace Scripted

variable {store : Scripted} {job : Job}

theorem shows_round (view : View) (job : Job) (incoming previous : Overrides) :
    (Progress.waiting (view.round job (view.reconciled incoming previous))).Shows job :=
  ⟨view.layers _, oneToolPerPocket_reconcile _ _ _ _ _, rfl⟩

theorem shows_start (serves : store.Serves) (job : Job) :
    ((job.start : StateM Scripted _).run store).1.Shows job := by
  rw [start_run serves]
  simp only
  split
  · trivial
  · exact shows_round _ _ _ _

theorem shows_answer (serves : store.Serves) (job : Job) (round : Round) {decision : Option Decision}
    (goesOn : decision ≠ some .map) :
    ((round.answer job decision : StateM Scripted _).run store).1.Shows job := by
  rcases decision with _ | _ | _ | _ | ⟨tool, target⟩ | ⟨session⟩
  · trivial
  · trivial
  · trivial
  · exact absurd rfl goesOn
  · rcases moved : (moveStored tool target round.summary.capacity round.summary.session :
      StateM Scripted _).run store with ⟨session, now⟩
    have kept := robust_serves.keep.move tool target round.summary.capacity round.summary.session
      store serves
    rw [moved] at kept
    unfold Round.answer
    simp only
    rw [run_bind moved, again_of_looks (looks_of_spent kept.1 7)]
    exact shows_round _ _ _ _
  · unfold Round.answer
    simp only
    rw [again_of_looks (looks_of_spent serves.1 7)]
    exact shows_round _ _ _ _

theorem goOn_renumbered {operator : Operator (StateM Scripted)} {progress : Progress}
    {result : Renumbered} (shows : progress.Shows job) (serves : store.Serves)
    (careful : operator.Edits (fun before after => before.Serves → after.Serves) (pure ()) job progress
      store)
    (renumbered : ((operator.goOn (pure ()) job progress).run store).1.outcome = .renumbered result) :
    ∃ (layers : Layers) (before : Scripted), layers.OneToolPerPocket ∧ before.Serves ∧
      result.classification = analyze job.program layers.library layers.overrides ∧
      ((operator.goOn (pure ()) job progress).run store).2 =
        ((syncStored result.classification : StateM Scripted _).run before).2 := by
  induction operator generalizing progress store with
  | gone =>
    cases progress with
    | finished outcome =>
      obtain rfl : outcome = .renumbered result := renumbered
      exact shows.elim
    | waiting round => cases renumbered
  | ready meanwhile answer next ih =>
    cases progress with
    | finished outcome =>
      obtain rfl : outcome = .renumbered result := renumbered
      exact shows.elim
    | waiting round =>
      obtain ⟨harmless, later⟩ := careful
      have noted : (pure () : StateM Scripted Unit).run store = ((), store) := rfl
      rcases waited : meanwhile.run store with ⟨⟨⟩, edited⟩
      have still : edited.Serves := by
        have after := harmless serves
        rwa [noted, waited] at after
      rw [noted, waited] at later
      unfold Operator.goOn at renumbered ⊢
      rw [run_bind noted, run_bind waited] at renumbered ⊢
      simp only at renumbered later ⊢
      by_cases mapped : answer round.summary = some .map
      · -- The records are brought up to date and nothing else happens.
        obtain ⟨layers, apart, placed⟩ := shows
        rcases synced : (syncStored round.summary.classification : StateM Scripted _).run edited with
          ⟨report, final⟩
        have went : (round.answer job (answer round.summary) : StateM Scripted _).run edited =
            (.finished (.renumbered (round.accepted job report)), final) := by
          rw [mapped, answer_map_run, synced]
        have done : ∀ operator : Operator (StateM Scripted),
            (operator.goOn (pure ()) job (.finished (.renumbered (round.accepted job report)))).run final =
              (⟨[], .renumbered (round.accepted job report)⟩, final) := fun operator => by
          cases operator <;> rfl
        rw [run_bind went, run_bind (done _)] at renumbered ⊢
        obtain rfl := Outcome.renumbered.inj renumbered
        exact ⟨layers, edited, apart, still, placed, (congrArg Prod.snd synced).symm⟩
      · -- Any other answer leads to a round that shows layers again, or to no renumbering.
        rcases went : (round.answer job (answer round.summary) : StateM Scripted _).run edited with
          ⟨progress, now⟩
        have shown := shows_answer still job round mapped
        have kept := robust_serves.keep.answer job round (answer round.summary) edited still
        rw [went] at shown kept later
        rw [run_bind went] at renumbered ⊢
        rcases visited : ((next round.summary).goOn (pure ()) job progress).run now with ⟨visit, final⟩
        have rest := ih round.summary shown kept later
        rw [visited] at rest
        rw [run_bind visited] at renumbered ⊢
        exact rest renumbered

/-! ### The whole load -/

theorem load_run {job : Job} {operator : Operator (StateM Scripted)} {progress : Progress}
    (began : (job.start : StateM Scripted _).run store = (progress, store)) :
    (load (pure ()) job operator).run store = (operator.goOn (pure ()) job progress).run store := by
  unfold load
  exact run_bind began _

theorem serves_of_renumbered {operator : Operator (StateM Scripted)} {result : Renumbered}
    (working : store.script = [])
    (renumbered : ((load (pure ()) job operator).run store).1.outcome = .renumbered result) :
    store.Serves ∧ Program.changes job.program ≠ [] := by
  have idle (began : (job.start : StateM Scripted _).run store = (.finished .unchanged, store)) :
      False := by
    rw [load_run began] at renumbered
    cases operator <;> cases renumbered
  have serves : store.Serves := by
    refine ⟨working, ?_⟩
    cases enabled : store.documents.settings.enabled with
    | true => rfl
    | false =>
      have look := look_of_spent working
      refine (idle ?_).elim
      rw [start_of_looks look (looks_of_spent working 5) look,
        show store.view.settings.enabled = false from enabled]
      rfl
  refine ⟨serves, fun noTool => idle ?_⟩
  rw [start_run serves, noTool]
  rfl

theorem load_renumbered {operator : Operator (StateM Scripted)} {result : Renumbered}
    (serves : store.Serves)
    (careful : operator.EditsLoad (fun before after => before.Serves → after.Serves) (pure ()) job store)
    (renumbered : ((load (pure ()) job operator).run store).1.outcome = .renumbered result) :
    ∃ (layers : Layers) (before : Scripted), layers.OneToolPerPocket ∧ before.Serves ∧
      result.classification = analyze job.program layers.library layers.overrides ∧
      ((load (pure ()) job operator).run store).2 =
        ((syncStored result.classification : StateM Scripted _).run before).2 := by
  have shows := shows_start serves job
  have began := start_run serves job
  unfold Operator.EditsLoad at careful
  rw [began] at shows careful
  rw [load_run began] at renumbered ⊢
  exact goOn_renumbered shows serves careful renumbered

theorem load_approving_run (serves : store.Serves) (someTool : Program.changes job.program ≠ []) :
    (load (pure ()) job .approving : StateM Scripted _).run store =
      let round := store.view.round job (store.view.reconciled Table.empty Table.empty)
      let synced := (syncStored round.summary.classification : StateM Scripted _).run store
      (⟨[⟨round.summary, (), some .map⟩], .renumbered (round.accepted job synced.1)⟩, synced.2) := by
  have began := start_run serves job
  rw [if_neg (by simpa using someTool)] at began
  rw [load_run began]
  unfold Operator.approving Operator.goOn
  have noted : (pure () : StateM Scripted Unit).run store = ((), store) := rfl
  rw [run_bind noted, run_bind noted]
  simp only
  rw [run_bind (answer_map_run job _ store)]
  rfl

theorem approving_run (serves : store.Serves) (someTool : Program.changes job.program ≠ []) :
    ∃ next, ((load (pure ()) job .approving : StateM Scripted _).run store).1.outcome = .renumbered next ∧
      next.classification = analyze job.program store.view.library
        (store.view.layers (store.view.reconciled Table.empty Table.empty)).overrides := by
  rw [load_approving_run serves someTool]
  exact ⟨_, rfl, rfl⟩

end Scripted

/-! ### Two loads -/

/-- If no call fails, a load ends in renumbering and nobody switches it off: then the same program, loaded
again and accepted at once, has each of its tools that the library knows where it was accepted, except where
a stored override speaks against it. -/
theorem load_afresh (job : Job) (operator : Operator (StateM Scripted)) (store : Scripted)
    (working : store.script = [])
    (careful : operator.EditsLoad (fun before after => after.script = before.script ∧
      after.documents.settings.enabled = before.documents.settings.enabled) (pure ()) job store)
    {result : Renumbered}
    (renumbered : ((load (pure ()) job operator).run store).1.outcome = .renumbered result) :
    let final := ((load (pure ()) job operator).run store).2
    ∃ next, ((load (pure ()) job .approving : StateM Scripted _).run final).1.outcome = .renumbered next ∧
      ∀ reference ∈ result.classification.all, final.view.library.contains reference.tool = true →
        ∃ again, next.classification.reference? reference.tool = some again ∧
          (again.pocket = reference.pocket ↔
            final.view.Upholds reference.tool reference.pocket) := by
  obtain ⟨serves, someTool⟩ := Scripted.serves_of_renumbered working renumbered
  obtain ⟨layers, before, apart, ready, placed, reached⟩ := Scripted.load_renumbered serves
    (Operator.edits_mono (fun _ _ same serves => ⟨same.1.trans serves.1, same.2.trans serves.2⟩) careful)
    renumbered
  obtain ⟨report, final, synced, still, library⟩ := Scripted.syncStored_run ready result.classification
  rw [reached, synced]
  obtain ⟨next, accepted, same⟩ := Scripted.approving_run still someTool
  refine ⟨next, accepted, fun reference listed known => ?_⟩
  have resolves : ∀ reference ∈ result.classification.all,
      reference.pocket = layers.pocketOf reference.tool := by
    intro reference listed
    rw [placed] at listed
    rw [pocket_of_mem_analyze listed, ← Layers.pocketOf_eq_effectivePocket]
  -- The records may have been edited after the classification was made: only what it accepted counts.
  have recorded (pocket : Pocket) (held : reference.pocket = some pocket) (other : ToolId) :
      final.view.library.pocketOf other = some pocket ↔ other = reference.tool := by
    rw [library, Library.contains_sync] at known
    rw [library]
    exact Library.pocketOf_sync_of_accepted resolves apart listed held known other
  rw [placed] at listed
  obtain ⟨again, found, pocket⟩ := reference?_analyze listed final.view.library
    (final.view.layers (final.view.reconciled Table.empty Table.empty)).overrides
  refine ⟨again, same ▸ found, ?_⟩
  rw [pocket, ← pocketOf_afresh_eq_iff recorded]
  exact Iff.of_eq (congrArg (· = reference.pocket) (Layers.pocketOf_eq_effectivePocket _ _).symm)

def Outcome.accepted : Outcome → List (ToolId × Option Pocket)
  | renumbered result => result.classification.all.map fun reference => (reference.tool, reference.pocket)
  | _ => []

theorem Outcome.exists_of_accepted {outcome : Outcome} (some : outcome.accepted ≠ []) :
    ∃ result, outcome = .renumbered result := by
  cases outcome with
  | renumbered result => exact ⟨result, rfl⟩
  | unchanged => exact absurd rfl some
  | aborted => exact absurd rfl some

/-- Both tools are put elsewhere for the session. Tool 2 is found there again; tool 1 is not, since a stored
override keeps it in pocket 1. -/
theorem load_afresh_partly :
    let store : Scripted := { documents := {
      tools := [{ id := 1, pocket := some 1 }, { id := 2, pocket := some 3 }]
      settings := { overrides := Table.ofList [(1, .inPocket 1)] } } }
    let job : Job := ⟨"part.nc", "M6 T1\nM6 T2"⟩
    let operator : Operator (StateM Scripted) := .ready (pure ())
      (fun _ => some (.refresh (some (Table.ofList [(1, .inPocket 2), (2, .inPocket 4)]))))
      fun _ => .approving
    ∃ result next, ((load (pure ()) job operator).run store).1.outcome = .renumbered result ∧
      ((load (pure ()) job .approving : StateM Scripted _).run
        ((load (pure ()) job operator).run store).2).1.outcome = .renumbered next ∧
      (result.classification.all.map fun reference => (reference.tool, reference.pocket)) =
        [(1, some 2), (2, some 4)] ∧
      (∃ again, next.classification.reference? 1 = some again ∧ again.pocket ≠ some 2) ∧
      ∃ again, next.classification.reference? 2 = some again ∧ again.pocket = some 4 := by
  intro store job operator
  have places : ((load (pure ()) job operator).run store).1.outcome.accepted =
      [(1, some 2), (2, some 4)] := by decide +kernel
  obtain ⟨result, outcome⟩ :
      ∃ result, ((load (pure ()) job operator).run store).1.outcome = .renumbered result :=
    Outcome.exists_of_accepted (by simp [places])
  rw [outcome, Outcome.accepted] at places
  have accepted (tool : ToolId) (pocket : Option Pocket)
      (member : (tool, pocket) ∈ [((1, some 2) : ToolId × Option Pocket), (2, some 4)]) :
      ∃ reference ∈ result.classification.all, reference.tool = tool ∧ reference.pocket = pocket := by
    rw [← places] at member
    simpa using member
  have quiet : operator.Meanwhile fun edit => ∀ state : Scripted,
      (edit.run state).2.script = state.script ∧
        (edit.run state).2.documents.settings.enabled = state.documents.settings.enabled :=
    ⟨fun _ => ⟨rfl, rfl⟩, fun _ => ⟨fun _ => ⟨rfl, rfl⟩, fun _ => trivial⟩⟩
  obtain ⟨next, again, found⟩ := load_afresh job operator store rfl
    (Operator.edits_of_meanwhile (pure ()) job quiet _ _) outcome
  have stored : ((load (pure ()) job operator).run store).2.view.settings.overrides =
      Table.ofList [(1, .inPocket 1)] := by decide +kernel
  refine ⟨result, next, outcome, again, places, ?_, ?_⟩
  · obtain ⟨reference, listed, tool, pocket⟩ := accepted 1 (some 2) (by decide)
    obtain ⟨again, same, upheld⟩ := found reference listed (by rw [tool]; decide +kernel)
    rw [tool] at same upheld
    rw [pocket] at upheld
    refine ⟨again, same, fun back => ?_⟩
    rcases upheld.mp back with placed | ⟨free, -⟩
    · rw [stored] at placed
      exact absurd placed (by decide)
    · rw [stored] at free
      exact absurd free (by decide)
  · obtain ⟨reference, listed, tool, pocket⟩ := accepted 2 (some 4) (by decide)
    obtain ⟨again, same, upheld⟩ := found reference listed (by rw [tool]; decide +kernel)
    rw [tool] at same upheld
    rw [pocket] at upheld
    refine ⟨again, same, upheld.mpr (.inr ?_)⟩
    rw [stored]
    refine ⟨by decide, fun other placed => ?_⟩
    have entry := Table.mem_of_get?_ofList placed
    simp at entry

/-- Tool 1 is accepted in pocket 2, which the session had put it in. The library says so afterwards, but a
stored override takes the tool back to pocket 1. -/
theorem load_afresh_overruled :
    let store : Scripted := { documents := {
      tools := [{ id := 1, pocket := some 1 }]
      settings := { overrides := Table.ofList [(1, .inPocket 1)] } } }
    let job : Job := ⟨"part.nc", "M6 T1"⟩
    let operator : Operator (StateM Scripted) := .ready (pure ())
      (fun _ => some (.refresh (some (Table.ofList [(1, .inPocket 2)])))) fun _ => .approving
    let first := (load (pure ()) job operator).run store
    let second := (load (pure ()) job .approving : StateM Scripted _).run first.2
    first.2.view.library.pocketOf 1 = some 2 ∧ first.1.outcome.text? job = some "M6 T2" ∧
      second.1.outcome.text? job = some "M6 T1" := by
  decide +kernel

end ToolChanger

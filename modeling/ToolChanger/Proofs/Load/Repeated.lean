import ToolChanger.Proofs.Library.Changes
import ToolChanger.Proofs.Load.Afresh

/-!
# A load that is repeated

A load that is accepted at once leaves each tool of the program where it was shown, or without a record of a
pocket. What could go wrong is the order among overrides for one pocket, in which the tools on record for it come
first: the one that it stayed with is then the only one on record, or none is and numbers decide, as before.
-/

namespace ToolChanger

open Program (Reference)

/-! ### Classifications by layers -/

theorem pocketMap_analyze (program : String) (layers : Layers) :
    (analyze program layers.library layers.overrides).pocketMap =
      Table.ofList ((Program.changes program).filterMap fun change =>
        (layers.pocketOf change.2).map (change.2, ·)) := by
  unfold Classification.pocketMap Classification.inMagazine Classification.inBucket
  rw [Layers.all_analyze, List.filterMap_filter, List.filterMap_map]
  refine congrArg Table.ofList (List.filterMap_congr fun change _ => ?_)
  cases held : layers.pocketOf change.2 <;> simp [Layers.reference, held, Reference.bucket]

namespace View

variable {view next : View} {program : String} {tool : ToolId} {pocket : Pocket}

abbrev settled (view : View) : Layers := view.layers (view.reconciled Table.empty Table.empty)

abbrev classified (view : View) (program : String) : Classification :=
  analyze program view.library view.settled.overrides

theorem oneToolPerPocket_settled (view : View) : view.settled.OneToolPerPocket :=
  oneToolPerPocket_reconcile _ _ _ _ _

theorem consistent_classified (view : View) (program : String) : (view.classified program).Consistent :=
  Classification.consistent_classify (oneToolPerPocket_analyze program view.oneToolPerPocket_settled)

theorem mem_all_classified {reference : Reference} : reference ∈ (view.classified program).all ↔
    ∃ change ∈ Program.changes program, view.settled.reference change = reference := by
  rw [← List.mem_map, ← Layers.all_analyze]
  exact Iff.rfl

theorem mem_assignments_classified {library : Library} :
    (tool, pocket) ∈ (view.classified program).assignments library ↔
      (∃ change ∈ Program.changes program, change.2 = tool) ∧ view.settled.pocketOf tool = some pocket ∧
        library.contains tool = true := by
  rw [Library.mem_assignments]
  constructor
  · rintro ⟨reference, listed, rfl, held, known⟩
    obtain ⟨change, inside, rfl⟩ := mem_all_classified.mp listed
    exact ⟨⟨change, inside, rfl⟩, held, known⟩
  · rintro ⟨⟨change, inside, rfl⟩, held, known⟩
    exact ⟨_, mem_all_classified.mpr ⟨change, inside, rfl⟩, rfl, held, known⟩

theorem mem_removals_classified : tool ∈ (view.classified program).removals ↔
    (∃ change ∈ Program.changes program, change.2 = tool) ∧ view.settled.pocketOf tool = none ∧
      view.settled.overrides.contains tool = true := by
  simp only [Classification.mem_removals, Classification.mem_manual, mem_all_classified]
  constructor
  · rintro ⟨_, ⟨⟨change, inside, rfl⟩, nowhere, -⟩, overridden, rfl⟩
    exact ⟨⟨change, inside, rfl⟩, nowhere, overridden⟩
  · rintro ⟨⟨change, inside, rfl⟩, nowhere, overridden⟩
    exact ⟨_, ⟨⟨change, inside, rfl⟩, nowhere, Or.inr overridden⟩, overridden, rfl⟩

/-! ### What is on record after the first load -/

/-- What the documents say once the classification that a load began with was accepted. -/
structure Accepts (program : String) (view next : View) : Prop where
  library : next.library = (view.library.sync (view.classified program)).1
  settings : next.settings = view.settings

namespace Accepts

theorem contains (accepts : Accepts program view next) (tool : ToolId) :
    next.library.contains tool = view.library.contains tool := by
  rw [accepts.library, Library.contains_sync]

theorem pocketOf_eq_none (accepts : Accepts program view next)
    (named : ∃ change ∈ Program.changes program, change.2 = tool)
    (nowhere : view.settled.pocketOf tool = none) : next.library.pocketOf tool = none := by
  rw [accepts.library]
  have ungiven (pocket : Pocket) : (tool, pocket) ∉ (view.classified program).assignments view.library := by
    intro given
    obtain ⟨-, held, -⟩ := mem_assignments_classified.mp given
    rw [nowhere] at held
    cases held
  cases overridden : view.settled.overrides.contains tool with
  | true => exact Library.pocketOf_sync_of_removed (mem_removals_classified.mpr ⟨named, nowhere, overridden⟩)
  | false =>
    have unrecorded : view.library.pocketOf tool = none := by
      rw [Table.contains, Layers.get?_overrides, Option.isSome_eq_false_iff, Option.isNone_iff_eq_none] at overridden
      rwa [Layers.pocketOf, overridden] at nowhere
    refine Option.eq_none_iff_forall_ne_some.mpr fun pocket held => ?_
    rcases Library.mem_or_of_pocketOf_sync held with given | before
    · exact ungiven pocket given
    · rw [unrecorded] at before
      cases before

theorem pocketOf_of_holder (accepts : Accepts program view next)
    (stays : view.settled.pocketOf tool = some pocket) (recorded : view.library.pocketOf tool = some pocket) :
    next.library.pocketOf tool = some pocket := by
  have consistent := view.consistent_classified program
  rw [accepts.library]
  by_cases given : (tool, pocket) ∈ (view.classified program).assignments view.library
  · exact Library.pocketOf_sync_of_given consistent given
  · rw [Library.pocketOf_sync_of_free consistent, recorded]
    · intro removed
      obtain ⟨-, nowhere, -⟩ := mem_removals_classified.mp removed
      rw [stays] at nowhere
      cases nowhere
    · intro place other
      obtain ⟨-, held, -⟩ := mem_assignments_classified.mp other
      obtain rfl := Option.some.inj (stays.symm.trans held)
      exact given other
    · intro place held other givenToo
      obtain rfl := Option.some.inj (recorded.symm.trans held)
      obtain ⟨-, rival, -⟩ := mem_assignments_classified.mp givenToo
      obtain rfl := view.oneToolPerPocket_settled _ _ _ stays rival
      exact given givenToo

/-! ### Where the second load finds the tools -/

theorem layers_eq (accepts : Accepts program view next) :
    next.layers Table.empty = ⟨next.library, view.settings.overrides, Table.empty⟩ := by
  unfold View.layers
  rw [accepts.settings]

theorem settled_of_some (accepts : Accepts program view next)
    (named : ∃ change ∈ Program.changes program, change.2 = tool)
    (stays : view.settled.pocketOf tool = some pocket) : next.settled.pocketOf tool = some pocket := by
  have holds := (pocketOf_afresh view tool pocket).mp stays
  rw [pocketOf_afresh, accepts.layers_eq]
  by_cases known : view.library.contains tool = true
  · refine (Layers.holder?_sessionless fun other => ?_).mpr (Layers.get?_stored_of_holder? holds)
    rw [accepts.library]
    exact Library.pocketOf_sync_eq_iff_of_given (view.consistent_classified program)
      (mem_assignments_classified.mpr ⟨named, stays, known⟩)
  · -- A tool without a record was put there by an override, before and after.
    have unknown : view.library.contains tool = false := by simpa using known
    have before := Library.pocketOf_eq_none_of_contains unknown
    have after := Library.pocketOf_eq_none_of_contains ((accepts.contains tool).trans unknown)
    have placed : view.settings.overrides.get? tool = some (.inPocket pocket) := by
      refine (Layers.get?_stored_of_holder? holds).resolve_right fun free => ?_
      have held := Layers.mem_claimants.mp (Layers.mem_claimants_of_holder? holds)
      unfold View.layers at held
      rw [Layers.pocketOf_sessionless, free.1, Option.elim, before] at held
      cases held
    refine (Layers.holder?_sessionless_of_elsewhere placed (by simp [after])).mpr fun other there => ?_
    obtain ⟨away, least⟩ :=
      (Layers.holder?_sessionless_of_elsewhere placed (by simp [before])).mp holds other there
    refine ⟨fun recorded => ?_, least⟩
    rw [accepts.library] at recorded
    rcases Library.mem_or_of_pocketOf_sync recorded with given | had
    · obtain ⟨-, rival, has⟩ := mem_assignments_classified.mp given
      obtain rfl := view.oneToolPerPocket_settled _ _ _ stays rival
      exact known has
    · exact away had

/-- A tool that was shown without a pocket has no claim that it had not before, and it lost all of those. -/
theorem settled_of_none (accepts : Accepts program view next)
    (named : ∃ change ∈ Program.changes program, change.2 = tool)
    (nowhere : view.settled.pocketOf tool = none) : next.settled.pocketOf tool = none := by
  refine Option.eq_none_iff_forall_ne_some.mpr fun pocket found => ?_
  have holds := (pocketOf_afresh next tool pocket).mp found
  rw [accepts.layers_eq] at holds
  have unrecorded := accepts.pocketOf_eq_none named nowhere
  have placed : view.settings.overrides.get? tool = some (.inPocket pocket) := by
    refine (Layers.get?_stored_of_holder? holds).resolve_right fun free => ?_
    have held := Layers.mem_claimants.mp (Layers.mem_claimants_of_holder? holds)
    rw [Layers.pocketOf_sessionless, free.1, Option.elim, unrecorded] at held
    cases held
  have first := (Layers.holder?_sessionless_of_elsewhere placed (by simp [unrecorded])).mp holds
  -- Before, the pocket stayed with another tool that an override puts there too.
  have claims : (view.layers Table.empty).pocketOf tool = some pocket := by
    unfold View.layers
    rw [Layers.pocketOf_sessionless, placed]
    rfl
  obtain ⟨winner, won⟩ := Layers.exists_holder? claims
  have stays := (pocketOf_afresh view winner pocket).mpr won
  have rival : view.settings.overrides.get? winner = some (.inPocket pocket) :=
    (Layers.get?_stored_of_holder? won).resolve_right fun free => free.2 tool placed
  obtain ⟨away, least⟩ := first winner rival
  have elsewhere : view.library.pocketOf winner ≠ some pocket :=
    fun recorded => away (accepts.pocketOf_of_holder stays recorded)
  have order := ((Layers.holder?_sessionless_of_elsewhere rival elsewhere).mp won tool placed).2
  obtain rfl : tool = winner := UInt32.le_antisymm least order
  rw [nowhere] at stays
  cases stays

theorem pocketOf_settled (accepts : Accepts program view next)
    (named : ∃ change ∈ Program.changes program, change.2 = tool) :
    next.settled.pocketOf tool = view.settled.pocketOf tool := by
  cases shown : view.settled.pocketOf tool with
  | some pocket => exact accepts.settled_of_some named shown
  | none => exact accepts.settled_of_none named shown

theorem pocketMap_classified (accepts : Accepts program view next) :
    (next.classified program).pocketMap = (view.classified program).pocketMap := by
  have first := pocketMap_analyze program view.settled
  have second := pocketMap_analyze program next.settled
  refine second.trans (Eq.trans (congrArg Table.ofList ?_) first.symm)
  exact List.filterMap_congr fun change inside => by rw [accepts.pocketOf_settled ⟨change, inside, rfl⟩]

theorem count_sync (accepts : Accepts program view next) :
    (next.library.sync (next.classified program)).2.count = 0 := by
  refine Library.count_sync_eq_zero (next.consistent_classified program)
    (fun tool pocket given other => ?_) fun tool removed => ?_
  · obtain ⟨named, held, known⟩ := mem_assignments_classified.mp given
    rw [accepts.pocketOf_settled named] at held
    rw [accepts.contains] at known
    rw [accepts.library]
    exact Library.pocketOf_sync_eq_iff_of_given (view.consistent_classified program)
      (mem_assignments_classified.mpr ⟨named, held, known⟩)
  · obtain ⟨named, nowhere, -⟩ := mem_removals_classified.mp removed
    rw [accepts.pocketOf_settled named] at nowhere
    exact accepts.pocketOf_eq_none named nowhere

end Accepts
end View

/-! ### The two loads -/

theorem Changes.eq_nothing {changes : Changes} (nothing : changes.count = 0) : changes = ⟨[], [], []⟩ := by
  obtain ⟨assigned, cleared, vacated⟩ := changes
  simp only [count, Nat.add_eq_zero_iff, List.length_eq_zero_iff] at nothing
  obtain ⟨⟨rfl, rfl⟩, rfl⟩ := nothing
  rfl

namespace Scripted

def approve (job : Job) (store : Scripted) : Visit Unit × Scripted :=
  (load (pure ()) job (.approving : Operator (StateM Scripted))).run store

theorem approve_run {job : Job} {store final : Scripted} {report : SyncReport} (serves : store.Serves)
    (someTool : Program.changes job.program ≠ [])
    (synced : (syncStored (store.view.classified job.program) : StateM Scripted _).run store = (report, final)) :
    (store.approve job).1.outcome =
        .renumbered ((store.view.round job store.view.settled.session).accepted job report) ∧
      (store.approve job).2 = final := by
  have same : (syncStored (store.view.round job store.view.settled.session).summary.classification :
      StateM Scripted _).run store = (report, final) := synced
  unfold approve
  rw [load_approving_run serves someTool]
  simp only
  exact ⟨congrArg (fun ran => Outcome.renumbered (Round.accepted job _ ran.1)) same, congrArg Prod.snd same⟩

end Scripted

/-- If no call fails and a load that is accepted at once ends in renumbering, then on the documents that it
left the same load ends in the same renumbering with the same pockets, finds nothing to record and leaves the
store as it is. -/
theorem load_repeated (job : Job) (store : Scripted) (working : store.script = []) {result : Renumbered}
    (renumbered : (store.approve job).1.outcome = .renumbered result) :
    let final := (store.approve job).2
    ∃ again, (final.approve job).1.outcome = .renumbered again ∧
      again.renumbering = result.renumbering ∧ again.pockets = result.pockets ∧
      again.sync = { changes := ⟨[], [], []⟩, saved := false, failure := none } ∧
      (final.approve job).2 = final := by
  obtain ⟨serves, someTool⟩ := Scripted.serves_of_renumbered working renumbered
  obtain ⟨library, settings, spent⟩ :=
    Scripted.view_syncStored serves.1 (store.view.classified job.program)
  rcases synced : (syncStored (store.view.classified job.program) : StateM Scripted _).run store with
    ⟨report, final⟩
  rw [synced] at library settings spent
  obtain ⟨outcome, reached⟩ := Scripted.approve_run serves someTool synced
  rw [outcome] at renumbered
  obtain rfl := Outcome.renumbered.inj renumbered
  have accepts : store.view.Accepts job.program final.view := ⟨library, settings⟩
  have still : final.Serves := ⟨spent, (congrArg Settings.enabled settings).trans serves.2⟩
  have idle : (syncStored (final.view.classified job.program) : StateM Scripted _).run final =
      ({ changes := ⟨[], [], []⟩ }, final) := by
    have ran := Scripted.syncStored_run_eq spent (final.view.classified job.program)
    simp only at ran
    rw [ran, if_pos accepts.count_sync, Changes.eq_nothing accepts.count_sync]
  obtain ⟨outcome', reached'⟩ := Scripted.approve_run still someTool idle
  have pockets := accepts.pocketMap_classified
  rw [reached]
  refine ⟨_, outcome', ?_, pockets, rfl, reached'⟩
  simp only [Round.accepted, View.round]
  rw [settings]
  exact congrArg (Renumbering.ofProgram · _ _) pockets

/-- The first load takes tool 2 out of the pocket that it shared with tool 1, and records tool 3 where an override
puts it, together with tool 9 of which there is no record. The second one finds all of it as it is. -/
theorem load_repeated_crowded :
    let store : Scripted := { documents := {
      tools := [{ id := 1, pocket := some 1 }, { id := 2, pocket := some 1 }, { id := 3, pocket := some 2 }]
      settings := { overrides := Table.ofList [(3, .inPocket 3), (9, .inPocket 3)] } } }
    let job : Job := ⟨"part.nc", "M6 T1\nM6 T2\nM6 T3\nM6 T9"⟩
    let final := (store.approve job).2
    (store.approve job).1.outcome.accepted = [(1, some 1), (2, none), (3, some 3), (9, none)] ∧
      (final.history.map fun documents => documents.tools.map (·.pocket)) = [[some 1, none, some 3]] ∧
      ∃ again, (final.approve job).1.outcome = .renumbered again ∧ again.sync.saved = false ∧
        (final.approve job).2 = final := by
  intro store job final
  obtain ⟨places, wrote⟩ : (store.approve job).1.outcome.accepted =
      [(1, some 1), (2, none), (3, some 3), (9, none)] ∧
    ((store.approve job).2.history.map fun documents => documents.tools.map (·.pocket)) =
      [[some 1, none, some 3]] := by decide +kernel
  have someTool : (store.approve job).1.outcome.accepted ≠ [] := by simp [places]
  obtain ⟨result, renumbered⟩ := Outcome.exists_of_accepted someTool
  obtain ⟨again, outcome, -, -, idle, same⟩ := load_repeated job store rfl renumbered
  simp only [final]
  exact ⟨places, wrote, again, outcome, congrArg SyncReport.saved idle, same⟩

end ToolChanger

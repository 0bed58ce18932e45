import ToolChanger.Proofs.Library.Accepted
import ToolChanger.Proofs.Load.Steady
import ToolChanger.Proofs.Remap.Settling

namespace ToolChanger

open Program (Reference)

def Outcome.OneToolPerPocket : Outcome → Prop
  | renumbered result => ∀ a b pocket,
    result.pockets.get? a = some pocket → result.pockets.get? b = some pocket → a = b
  | _ => True

def Progress.OneToolPerPocket : Progress → Prop
  | waiting round => round.summary.classification.OneToolPerPocket
  | finished outcome => outcome.OneToolPerPocket

/-! ### Classifications -/

theorem pocket_of_mem_analyze {program : String} {library : Library} {overrides : Overrides}
    {reference : Reference} (member : reference ∈ (analyze program library overrides).all) :
    reference.pocket = effectivePocket library overrides reference.tool := by
  obtain ⟨scanned, -, rfl⟩ := List.mem_map.mp member
  rfl

theorem oneToolPerPocket_analyze (program : String) {layers : Layers}
    (unshared : layers.OneToolPerPocket) :
    (analyze program layers.library layers.overrides).OneToolPerPocket := by
  intro a listedA b listedB pocket heldA heldB
  rw [pocket_of_mem_analyze listedA, ← Layers.pocketOf_eq_effectivePocket] at heldA
  rw [pocket_of_mem_analyze listedB, ← Layers.pocketOf_eq_effectivePocket] at heldB
  exact unshared _ _ pocket heldA heldB

theorem mem_of_get?_pocketMap {classification : Classification} {tool : ToolId} {pocket : Pocket}
    (found : classification.pocketMap.get? tool = some pocket) :
    ∃ reference ∈ classification.all, reference.tool = tool ∧ reference.pocket = some pocket := by
  obtain ⟨reference, listed, made⟩ := List.mem_filterMap.mp (Table.mem_of_get?_ofList found)
  obtain ⟨held, assigned, same⟩ := Option.map_eq_some_iff.mp made
  obtain ⟨rfl, rfl⟩ := Prod.mk.inj same
  exact ⟨reference, (List.mem_filter.mp listed).1, rfl, assigned⟩

theorem Classification.OneToolPerPocket.pocketMap {classification : Classification}
    (unshared : classification.OneToolPerPocket) {a b : ToolId} {pocket : Pocket}
    (heldA : classification.pocketMap.get? a = some pocket)
    (heldB : classification.pocketMap.get? b = some pocket) : a = b := by
  obtain ⟨first, listedA, rfl, pocketA⟩ := mem_of_get?_pocketMap heldA
  obtain ⟨second, listedB, rfl, pocketB⟩ := mem_of_get?_pocketMap heldB
  exact unshared first listedA second listedB pocket pocketA pocketB

/-! ### Rounds -/

variable {σ : Type} [Store (StateM σ)]

theorem roundIn_unshared (job : Job) (state : σ) (incoming previous : Overrides) :
    (Progress.waiting
      (job.roundIn state (Store.reconciledIn state incoming previous))).OneToolPerPocket :=
  oneToolPerPocket_analyze job.program (oneToolPerPocket_reconcile _ _ _ _ _)

variable [Store.Steady σ]

theorem start_unshared (job : Job) (state : σ) :
    ((job.start : StateM σ _).run state).1.OneToolPerPocket := by
  rw [start_run]
  simp only
  split
  · trivial
  · split
    · trivial
    · exact roundIn_unshared job state _ _

theorem answer_unshared (job : Job) {round : Round}
    (unshared : round.summary.classification.OneToolPerPocket) (decision : Option Decision)
    (state : σ) : ((round.answer job decision : StateM σ _).run state).1.OneToolPerPocket := by
  rcases decision with _ | _ | _ | _ | ⟨tool, target⟩ | ⟨session⟩
  · trivial
  · trivial
  · trivial
  · rw [answer_map_run]
    exact fun a b pocket heldA heldB => unshared.pocketMap heldA heldB
  · unfold Round.answer
    simp only
    rcases moved : (moveStored tool target round.summary.capacity round.summary.session :
      StateM σ _).run state with ⟨session, now⟩
    rw [run_bind moved, again_run]
    exact roundIn_unshared job now _ _
  · unfold Round.answer
    simp only
    rw [again_run]
    exact roundIn_unshared job state _ _

/-! ### Loads -/

theorem goOn_unshared {α : Type} (note : StateM σ α) (job : Job) (operator : Operator (StateM σ))
    {progress : Progress} (unshared : progress.OneToolPerPocket) (state : σ) :
    let visit := ((operator.goOn note job progress).run state).1
    (∀ shown ∈ visit.shown, shown.summary.classification.OneToolPerPocket) ∧
      visit.outcome.OneToolPerPocket := by
  induction operator generalizing progress state with
  | gone =>
    cases progress with
    | finished outcome => exact ⟨by rintro _ ⟨⟩, unshared⟩
    | waiting round =>
      unfold Operator.goOn
      rcases noted : note.run state with ⟨value, now⟩
      have waived : (round.answer job none : StateM σ _).run now = (.finished .unchanged, now) := rfl
      rw [run_bind noted, run_bind waived]
      refine ⟨?_, trivial⟩
      rintro entry listed
      obtain rfl := List.mem_singleton.mp listed
      exact unshared
  | ready meanwhile answer next ih =>
    cases progress with
    | finished outcome => exact ⟨by rintro _ ⟨⟩, unshared⟩
    | waiting round =>
      unfold Operator.goOn
      rcases noted : note.run state with ⟨value, seen⟩
      rcases waited : meanwhile.run seen with ⟨⟨⟩, edited⟩
      have answered := answer_unshared job unshared (answer round.summary) edited
      rcases went : (round.answer job (answer round.summary) : StateM σ _).run edited with ⟨progress, now⟩
      rw [went] at answered
      obtain ⟨shown, outcome⟩ := ih round.summary answered now
      rw [run_bind noted, run_bind waited]
      simp only
      rw [run_bind went, StateT.run_bind]
      refine ⟨?_, outcome⟩
      rintro entry listed
      rcases List.mem_cons.mp listed with rfl | later
      · exact unshared
      · exact shown entry later

/-- Whatever an operator answers to whom the documents of a steady store are shown, and whatever becomes of
them meanwhile: no summary puts two tools in one pocket, nor do the pockets that the program is renumbered
with. -/
theorem load_unshared {α : Type} (note : StateM σ α) (job : Job) (operator : Operator (StateM σ))
    (state : σ) :
    let visit := ((load note job operator).run state).1
    (∀ shown ∈ visit.shown, ∀ a ∈ shown.summary.classification.all,
      ∀ b ∈ shown.summary.classification.all, ∀ pocket,
      a.pocket = some pocket → b.pocket = some pocket → a.tool = b.tool) ∧
    ∀ result, visit.outcome = .renumbered result → ∀ a b pocket,
      result.pockets.get? a = some pocket → result.pockets.get? b = some pocket → a = b := by
  intro visit
  have sound : (∀ shown ∈ visit.shown, shown.summary.classification.OneToolPerPocket) ∧
      visit.outcome.OneToolPerPocket := by
    rcases began : (job.start : StateM σ _).run state with ⟨progress, now⟩
    have unshared := start_unshared job state
    rw [began] at unshared
    have went : visit = ((operator.goOn note job progress).run now).1 := by
      show ((load note job operator).run state).1 = _
      unfold load
      rw [run_bind began]
    rw [went]
    exact goOn_unshared note job operator unshared now
  refine ⟨sound.1, fun result renumbered => ?_⟩
  have outcome := sound.2
  rw [renumbered] at outcome
  exact outcome

omit [Store (StateM σ)] [Store.Steady σ] in
/-- Tools 12 and 5 are on record for pocket 3. A move of tool 99 into it cannot be written, then the tool
is put there for the session. -/
theorem load_unshared_crowded :
    let memory : Memory := { tools := [{ id := 12, pocket := some 3 }, { id := 5, pocket := some 3 }] }
    let job : Job := ⟨"part.nc", "M6 T12\nM6 T5\nM6 T99"⟩
    let operator : Operator (StateM Memory) := Operator.ofScript
      [(modify fun memory => { memory with failWrites := true }, some (.remap 99 (.inPocket 3))),
        (pure (), some (.refresh (some (Table.ofList [(99, .inPocket 3)])))), (pure (), some .map)]
    let visit := ((load (pure ()) job operator).run memory).1
    (visit.shown.map fun shown => shown.summary.classification.all.map (·.pocket)) =
      [[some 3, none, none], [some 3, none, none], [none, none, some 3]] ∧
    ∀ shown ∈ visit.shown, ∀ a ∈ shown.summary.classification.all,
      ∀ b ∈ shown.summary.classification.all, ∀ pocket,
      a.pocket = some pocket → b.pocket = some pocket → a.tool = b.tool := by
  intro memory job operator visit
  exact ⟨by decide +kernel, (load_unshared (pure ()) job operator memory).1⟩

end ToolChanger

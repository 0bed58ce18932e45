import ToolChanger.CommandLine.Run
import ToolChanger.Proofs.Load.Afresh
import ToolChanger.Proofs.Load.Rounds

/-!
# What a status says of a load

A status classifies a program by the documents alone. A load reconciles before it shows anything, and even where
there is no session that settles which of several tools a pocket stays with.
-/

namespace ToolChanger

open Program (Reference)
open Store (viewIn settingsIn)

/-! ### References -/

namespace Layers

variable {layers : Layers} {tool : ToolId}

/-- The pocket that a tool resolves to, if any, stays with it. -/
def KeepsPocket (layers : Layers) (tool : ToolId) : Prop :=
  ∀ pocket, layers.pocketOf tool = some pocket → layers.holder? pocket = some tool

theorem known_of_pocketOf {library : Library} {stored : Overrides} {pocket : Pocket}
    (held : (Layers.mk library stored Table.empty).pocketOf tool = some pocket) :
    (library.get? tool).isSome = true ∨ stored.contains tool = true := by
  rw [pocketOf_eq] at held
  cases decided : stored.get? tool with
  | some decision => exact .inr (Table.contains_iff.mpr ⟨decision, decided⟩)
  | none =>
    have recorded : library.pocketOf tool = some pocket := by simpa [decided] using held
    obtain ⟨record, found, -⟩ := Option.bind_eq_some_iff.mp recorded
    exact .inl (Option.isSome_iff_exists.mpr ⟨record, found⟩)

end Layers

namespace View

theorem overridden_afresh (view : View) {tool : ToolId}
    (free : (view.layers Table.empty).pocketOf tool = none) :
    (view.layers (view.reconciled Table.empty Table.empty)).overrides.contains tool =
      (view.layers Table.empty).overrides.contains tool := by
  have undecided : (view.layers (view.reconciled Table.empty Table.empty)).session.get? tool = none := by
    rw [layers_afresh]
    exact Layers.session_settleAll_of_free Table.empty view.capacity free
  rw [Table.contains, Table.contains, Layers.get?_overrides, Layers.get?_overrides, Layers.override?,
    Layers.override?, undecided]
  rfl

theorem known_afresh (view : View) {tool : ToolId} {pocket : Pocket}
    (held : (view.layers Table.empty).pocketOf tool = some pocket) :
    (view.library.get? tool).isSome = true ∨
      (view.layers (view.reconciled Table.empty Table.empty)).overrides.contains tool = true := by
  refine (Layers.known_of_pocketOf held).imp id fun stored => ?_
  obtain ⟨decided, found⟩ := Table.contains_iff.mp stored
  have stays : (view.layers (view.reconciled Table.empty Table.empty)).persisted.get? tool = some decided :=
    found
  rw [Table.contains, Layers.get?_overrides, Layers.override?, stays, Option.isSome_or]
  exact Bool.or_true _

/-- A load that begins shows a tool as the documents tell, unless its pocket stays with another one. Then the
tool is to be changed by hand. -/
theorem reference_afresh (view : View) (change : Nat × ToolId) :
    let base := view.layers Table.empty
    let told := base.reference change
    let shown := (view.layers (view.reconciled Table.empty Table.empty)).reference change
    (shown.bucket = told.bucket ∧ shown.pocket = told.pocket ↔ base.KeepsPocket change.2) ∧
      (¬ base.KeepsPocket change.2 → shown.bucket = .manual ∧ shown.pocket = none) := by
  intro base told shown
  have settled (pocket : Pocket) : shown.pocket = some pocket ↔ base.holder? pocket = some change.2 :=
    pocketOf_afresh view change.2 pocket
  have claims {pocket : Pocket} (holds : base.holder? pocket = some change.2) :
      told.pocket = some pocket :=
    Layers.mem_claimants.mp (Layers.mem_claimants_of_holder? holds)
  have entry : shown.entry = told.entry := rfl
  cases held : told.pocket with
  | none =>
    have keeps : base.KeepsPocket change.2 := fun pocket has => by cases held.symm.trans has
    have free : shown.pocket = none := Option.eq_none_iff_forall_ne_some.mpr fun pocket has => by
      cases held.symm.trans (claims ((settled pocket).mp has))
    have overridden : shown.overridden = told.overridden := overridden_afresh view held
    have bucket : shown.bucket = told.bucket := by
      rw [Reference.bucket, Reference.bucket, free, held, entry, overridden]
    exact ⟨iff_of_true ⟨bucket, free⟩ keeps, fun loses => absurd keeps loses⟩
  | some pocket =>
    by_cases holds : base.holder? pocket = some change.2
    · have keeps : base.KeepsPocket change.2 := fun place has => by
        obtain rfl := Option.some.inj (held.symm.trans has)
        exact holds
      have stays : shown.pocket = some pocket := (settled pocket).mpr holds
      have bucket : shown.bucket = told.bucket := by
        rw [Reference.bucket, Reference.bucket, stays, held]
        rfl
      exact ⟨iff_of_true ⟨bucket, stays⟩ keeps, fun loses => absurd keeps loses⟩
    · have loses : ¬ base.KeepsPocket change.2 := fun keeps => holds (keeps pocket held)
      have gone : shown.pocket = none := Option.eq_none_iff_forall_ne_some.mpr fun place has => by
        have stays := (settled place).mp has
        obtain rfl := Option.some.inj (held.symm.trans (claims stays))
        exact holds stays
      have known : shown.entry.isSome = true ∨ shown.overridden = true := known_afresh view held
      have bucket : shown.bucket = .manual := by
        rw [Reference.bucket, gone, Option.isSome_none, if_neg Bool.false_ne_true,
          if_pos (Bool.or_eq_true_iff.mpr known)]
      refine ⟨iff_of_false (fun same => ?_) loses, fun _ => ⟨bucket, gone⟩⟩
      cases gone.symm.trans same.2

end View

/-! ### Free pockets -/

theorem mem_used {classification : Classification} {pocket : Pocket} :
    pocket ∈ classification.inMagazine.filterMap (·.pocket) ↔
      ∃ reference ∈ classification.all, reference.pocket = some pocket := by
  simp only [List.mem_filterMap, Classification.mem_inMagazine]
  constructor
  · rintro ⟨reference, ⟨listed, -⟩, held⟩
    exact ⟨reference, listed, held⟩
  · rintro ⟨reference, listed, held⟩
    exact ⟨reference, ⟨listed, pocket, held⟩, held⟩

theorem freePockets_eq_iff {a b : Summary} (capacity : a.capacity = b.capacity) :
    a.freePockets = b.freePockets ↔ ∀ pocket ∈ Magazine.pockets b.capacity,
      ((∃ reference ∈ a.classification.all, reference.pocket = some pocket) ↔
        ∃ reference ∈ b.classification.all, reference.pocket = some pocket) := by
  unfold Summary.freePockets
  rw [capacity]
  constructor
  · intro same pocket inside
    have free := iff_of_eq (congrArg (pocket ∈ ·) same)
    simp only [List.mem_filter, inside, true_and, Bool.not_eq_true', List.contains_eq_mem,
      decide_eq_false_iff_not, mem_used] at free
    exact not_iff_not.mp free
  · intro same
    refine List.filter_congr fun pocket inside => ?_
    rw [Bool.eq_iff_iff]
    simp only [Bool.not_eq_true', List.contains_eq_mem, decide_eq_false_iff_not, mem_used]
    exact not_congr (same pocket inside)

/-! ### The two summaries -/

namespace View

variable (view : View) (job : Job)

theorem all_round (session : Overrides) : (view.round job session).summary.classification.all =
    (Program.changes job.program).map (view.layers session).reference :=
  Layers.all_analyze job.program (view.layers session)

theorem references_afresh :
    let base := view.layers Table.empty
    List.Forall₂ (fun told shown : Reference => shown.line = told.line ∧ shown.tool = told.tool ∧
        (shown.bucket = told.bucket ∧ shown.pocket = told.pocket ↔ base.KeepsPocket told.tool) ∧
        (¬ base.KeepsPocket told.tool → shown.bucket = .manual ∧ shown.pocket = none))
      (view.round job Table.empty).summary.classification.all
      (view.round job (view.reconciled Table.empty Table.empty)).summary.classification.all := by
  rw [all_round, all_round, List.forall₂_map_left_iff, List.forall₂_map_right_iff, List.forall₂_same]
  exact fun change _ => ⟨rfl, rfl, reference_afresh view change⟩

theorem freePockets_afresh :
    let told := (view.round job Table.empty).summary
    (view.round job (view.reconciled Table.empty Table.empty)).summary.freePockets = told.freePockets ↔
      ∀ pocket ∈ Magazine.pockets told.capacity, ∀ reference ∈ told.classification.all,
        reference.pocket = some pocket → ∃ other ∈ told.classification.all,
          (view.layers Table.empty).holder? pocket = some other.tool := by
  intro told
  have capacity : (view.round job (view.reconciled Table.empty Table.empty)).summary.capacity =
      told.capacity := rfl
  rw [freePockets_eq_iff capacity]
  refine forall₂_congr fun pocket _ => ?_
  have settled : (∃ reference ∈ (view.round job (view.reconciled Table.empty
        Table.empty)).summary.classification.all, reference.pocket = some pocket) ↔
      ∃ other ∈ told.classification.all,
        (view.layers Table.empty).holder? pocket = some other.tool := by
    rw [all_round, all_round]
    simp only [List.mem_map, exists_exists_and_eq_and]
    exact exists_congr fun change => and_congr_right fun _ => pocketOf_afresh view change.2 pocket
  rw [settled]
  constructor
  · exact fun same reference listed held => same.mpr ⟨reference, listed, held⟩
  · refine fun kept => ⟨?_, fun ⟨reference, listed, held⟩ => kept reference listed held⟩
    rintro ⟨other, listed, holds⟩
    refine ⟨other, listed, ?_⟩
    rw [all_round] at listed
    obtain ⟨change, -, rfl⟩ := List.mem_map.mp listed
    exact Layers.mem_claimants.mp (Layers.mem_claimants_of_holder? holds)

end View

variable {σ α : Type} [Store (StateM σ)] [Store.Steady σ]

theorem summarize_run (job : Job) (state : σ) :
    (CommandLine.summarize job : StateM σ _).run state =
      (((viewIn state).round job Table.empty).summary, state) := by
  unfold CommandLine.summarize
  rw [run_bind (Store.capacityOrDefault_run state),
    run_bind (analyzeStored_of_looks (Store.looks 2 state) job.program Table.empty)]
  rfl

theorem exists_first (note : StateM σ α) (job : Job) (operator : Operator (StateM σ)) {state : σ}
    (enabled : (settingsIn state).enabled = true) (changes : Program.changes job.program ≠ []) :
    ∃ first rest, ((load note job operator).run state).1.shown = first :: rest ∧
      first.summary =
        (job.roundIn state (Store.reconciledIn state Table.empty Table.empty)).summary := by
  have began : (job.start : StateM σ _).run state =
      (.waiting (job.roundIn state (Store.reconciledIn state Table.empty Table.empty)), state) := by
    have some : (Program.changes job.program).isEmpty = false := by simpa using changes
    rw [start_run, enabled]
    simp only [Bool.not_true, Bool.false_eq_true, if_false, Job.roundIn, View.round, isEmpty_analyze, some]
  unfold load
  rw [run_bind began]
  obtain ⟨decision, rest, shown⟩ := exists_shown note job operator
    (job.roundIn state (Store.reconciledIn state Table.empty Table.empty)) state
  exact ⟨_, rest, shown, rfl⟩

/-- The status of a program and the first summary of a load list the same tools. They agree on bucket and
pocket of a tool exactly if its pocket stays with it; if not, the load has it changed by hand. They agree on
the free pockets exactly if each pocket that is in use in the status stays with a tool of the program. -/
theorem load_after_status (note : StateM σ α) (job : Job) (operator : Operator (StateM σ)) (state : σ)
    (enabled : (settingsIn state).enabled = true) (changes : Program.changes job.program ≠ []) :
    let base := (viewIn state).layers Table.empty
    let status := ((CommandLine.summarize job : StateM σ _).run state).1
    ∃ first rest, ((load note job operator).run state).1.shown = first :: rest ∧
      first.summary.fileName = status.fileName ∧ first.summary.capacity = status.capacity ∧
      List.Forall₂ (fun told shown : Reference => shown.line = told.line ∧ shown.tool = told.tool ∧
          (shown.bucket = told.bucket ∧ shown.pocket = told.pocket ↔ base.KeepsPocket told.tool) ∧
          (¬ base.KeepsPocket told.tool → shown.bucket = .manual ∧ shown.pocket = none))
        status.classification.all first.summary.classification.all ∧
      (first.summary.freePockets = status.freePockets ↔
        ∀ pocket ∈ Magazine.pockets status.capacity, ∀ told ∈ status.classification.all,
          told.pocket = some pocket →
            ∃ other ∈ status.classification.all, base.holder? pocket = some other.tool) := by
  intro base status
  obtain ⟨first, rest, shown, summary⟩ := exists_first note job operator enabled changes
  have told : status = ((viewIn state).round job Table.empty).summary :=
    congrArg Prod.fst (summarize_run job state)
  have fresh : first.summary = ((viewIn state).round job
      ((viewIn state).reconciled Table.empty Table.empty)).summary := summary
  refine ⟨first, rest, shown, ?_⟩
  rw [told, fresh]
  exact ⟨rfl, rfl, (viewIn state).references_afresh job, (viewIn state).freePockets_afresh job⟩

/-- Tools 12 and 5 of the program are on record for one pocket. It stays with tool 12 and so in use. -/
theorem load_after_status_in_use :
    let memory : Memory := { tools := [{ id := 12, pocket := some 3 }, { id := 5, pocket := some 3 }] }
    let job : Job := ⟨"part.nc", "M6 T5\nM6 T12"⟩
    let status := ((CommandLine.summarize job : StateM Memory _).run memory).1
    (status.classification.all.map fun told => (told.tool, told.pocket)) = [(5, some 3), (12, some 3)] ∧
    ((viewIn memory).layers Table.empty).holder? 3 = some 12 ∧
    ∃ first rest, ((load (pure ()) job (Operator.approving : Operator (StateM Memory))).run memory).1.shown =
        first :: rest ∧
      first.summary.freePockets = status.freePockets ∧
      ∃ five twelve, first.summary.classification.all = [five, twelve] ∧ five.bucket = .manual ∧
        twelve.pocket = some 3 := by
  intro memory job status
  let base := (viewIn memory).layers Table.empty
  have told : (status.classification.all.map fun told => (told.tool, told.pocket)) =
      [(5, some 3), (12, some 3)] := by decide +kernel
  have holds : base.holder? 3 = some 12 := by decide +kernel
  have held : base.pocketOf 5 = some 3 ∧ base.pocketOf 12 = some 3 := by decide +kernel
  obtain ⟨first, rest, shown, -, -, agree, free⟩ :=
    load_after_status (pure ()) job (Operator.approving : Operator (StateM Memory)) memory
      (by decide +kernel) (by decide +kernel)
  obtain ⟨a, b, two⟩ := List.length_eq_two.mp
    (show status.classification.all.length = 2 by decide +kernel)
  rw [show ((CommandLine.summarize job : StateM Memory _).run memory).1.classification.all = [a, b]
    from two] at agree free
  obtain ⟨⟨toolA, pocketA⟩, ⟨toolB, pocketB⟩⟩ :
      (a.tool = 5 ∧ a.pocket = some 3) ∧ b.tool = 12 ∧ b.pocket = some 3 := by
    simpa [two] using told
  have inUse : first.summary.freePockets = status.freePockets := by
    refine free.mpr fun pocket _ reference listed held => ⟨b, by simp, ?_⟩
    have three : reference.pocket = some 3 := by
      rcases List.mem_pair.mp listed with rfl | rfl
      · exact pocketA
      · exact pocketB
    obtain rfl := Option.some.inj (three.symm.trans held)
    rw [toolB]
    exact holds
  refine ⟨told, holds, first, rest, shown, inUse, ?_⟩
  generalize first.summary.classification.all = listed at agree ⊢
  obtain _ | ⟨⟨-, -, -, loses⟩, _ | ⟨⟨-, -, keeps, -⟩, ⟨⟩⟩⟩ := agree
  rw [toolA] at loses
  rw [toolB, pocketB] at keeps
  have ousted : ¬ base.KeepsPocket 5 := fun keeps => by
    cases (keeps 3 held.1).symm.trans holds
  have stays : base.KeepsPocket 12 := fun pocket has => by
    obtain rfl := Option.some.inj (held.2.symm.trans has)
    exact holds
  exact ⟨_, _, rfl, (loses ousted).1, (keeps.mpr stays).2⟩

/-- Tools 1 and 2 are on record for one pocket, and the program changes to tool 2 only. The status has it in
that pocket, the load has it changed by hand. -/
theorem load_after_status_claimed :
    let memory : Memory := { tools := [{ id := 1, pocket := some 1 }, { id := 2, pocket := some 1 }] }
    let job : Job := ⟨"part.nc", "M6 T2"⟩
    let told (summary : Summary) := (summary.classification.all.map fun reference =>
      (reference.tool, reference.bucket, reference.pocket), summary.freePockets)
    told ((CommandLine.summarize job : StateM Memory _).run memory).1 =
      ([(2, .inMagazine, some 1)], [2, 3, 4, 5, 6, 7, 8]) ∧
    ((load (pure ()) job (Operator.approving : Operator (StateM Memory))).run memory).1.shown.map
        (fun shown => told shown.summary) =
      [([(2, .manual, none)], [1, 2, 3, 4, 5, 6, 7, 8])] := by
  decide +kernel

end ToolChanger

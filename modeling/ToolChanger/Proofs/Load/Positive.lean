import ToolChanger.Proofs.Load.Afresh
import ToolChanger.Proofs.Load.Yields
import ToolChanger.Proofs.Program.Changes
import ToolChanger.Proofs.Remap.Positive
import ToolChanger.Proofs.Renumbering.ToolChange
import ToolChanger.Tool.Codec

/-!
# Loads and pocket zero

`T0` unloads the spindle, so no tool's number may become zero. A load makes up no pockets, it only hands on the
ones that it found or checked.
-/

namespace ToolChanger

open Program (Reference)

/-! ### Classifications -/

structure Classification.Positive (classification : Classification) : Prop where
  tool : ∀ reference ∈ classification.all, reference.tool ≠ 0
  pocket : ∀ reference ∈ classification.all, reference.pocket ≠ some 0

theorem Library.positive_sync {library : Library} {classification : Classification}
    (positive : library.Positive) (accepted : classification.Positive) : (library.sync classification).1.Positive := by
  intro tool held
  rcases mem_or_of_pocketOf_sync held with given | before
  · obtain ⟨reference, listed, -, zero, -⟩ := mem_assignments.mp given
    exact accepted.pocket reference listed zero
  · exact positive tool before

theorem Program.ne_zero_of_toolChange {line : List Char} {tool : ToolId}
    (called : toolChange line = some tool) : tool ≠ 0 := by
  unfold toolChange at called
  simp only at called
  split at called
  · simpa using (Option.filter_eq_some_iff.mp called).2
  · cases called

theorem Program.ne_zero_of_mem_changes {program : String} {change : Nat × ToolId}
    (member : change ∈ changes program) : change.2 ≠ 0 := by
  obtain ⟨line, -, called⟩ :=
    ((firstChanges (lines program.toList)).tools change.2).mp (List.mem_map_of_mem member)
  exact ne_zero_of_toolChange called

theorem positive_analyze (program : String) {library : Library} {overrides : Overrides}
    (recorded : library.Positive) (decided : overrides.Positive) :
    (analyze program library overrides).Positive where
  tool reference listed := by
    have named := List.mem_map_of_mem (f := Reference.tool) listed
    rw [tools_analyze] at named
    obtain ⟨change, inside, same⟩ := List.mem_map.mp named
    exact same ▸ Program.ne_zero_of_mem_changes inside
  pocket reference listed := by
    rw [pocket_of_mem_analyze listed]
    exact effectivePocket_ne_zero recorded decided reference.tool

/-! ### Readings and writes -/

namespace Scripted

/-- No record and no stored override names pocket zero. -/
def Positive (store : Scripted) : Prop :=
  Library.Positive ⟨store.documents.tools⟩ ∧ store.documents.settings.overrides.Positive

section

variable {α : Type} {P : Scripted → Prop} {Q : α → Prop} (next : ∀ store, P store → P store.next)
include next

theorem yields_read {get : Documents → α} (sound : ∀ store, P store → Q (get store.documents)) :
    Yields P (Succeeds Q) (read get).run := by
  intro store kept
  have after := next store kept
  have given := sound _ after
  unfold read
  cases fails : store.failure? with
  | some error =>
    rw [call_run_of_some fails]
    exact ⟨fun _ same => (nomatch same), after⟩
  | none =>
    rw [call_run_of_none fails]
    exact ⟨fun _ same => Except.ok.inj same ▸ given, after⟩

theorem yields_write {change : Documents → Documents}
    (written : ∀ store, P store → P (store.put (change store.documents))) :
    Yields P (Succeeds fun _ => True) (write change).run :=
  fun store kept => ⟨fun _ _ => trivial, write_snd next kept fun after => written store.next after⟩

end

theorem yields_tools : Yields Positive (Succeeds fun tools => Library.Positive ⟨tools⟩)
    (Store.loadTools : ExceptT StoreError (StateM Scripted) _).run :=
  yields_read (fun _ => id) fun _ positive => positive.1

theorem yields_settings :
    Yields Positive (Succeeds fun settings : Settings => settings.overrides.Positive)
      (Store.loadSettings : ExceptT StoreError (StateM Scripted) _).run :=
  yields_read (fun _ => id) fun _ positive => positive.2

theorem yields_saveTools {tools : List Tool} (positive : Library.Positive ⟨tools⟩) :
    Yields Positive (Succeeds fun _ => True)
      (Store.saveTools tools : ExceptT StoreError (StateM Scripted) _).run :=
  yields_write (fun _ => id) fun _ kept => ⟨positive, kept.2⟩

theorem yields_saveSettings {settings : Settings} (positive : settings.overrides.Positive) :
    Yields Positive (Succeeds fun _ => True)
      (Store.saveSettings settings : ExceptT StoreError (StateM Scripted) _).run :=
  yields_write (fun _ => id) fun _ kept => ⟨kept.1, positive⟩

theorem yields_libraryOrEmpty :
    Yields Positive Library.Positive (Store.libraryOrEmpty : StateM Scripted _) :=
  (yields_tools.orElse Library.positive_empty).bind fun _ positive => yields_pure positive

theorem yields_settingsOrDefault :
    Yields Positive (fun settings : Settings => settings.overrides.Positive)
      (Store.settingsOrDefault : StateM Scripted _) :=
  yields_settings.orElse Overrides.positive_empty

theorem yields_capacityOrDefault :
    Yields Positive (fun _ => True) (Store.capacityOrDefault : StateM Scripted _) :=
  Keeps.yields (keepReading fun _ => id).capacity

/-! ### Rounds -/

theorem yields_carryOut {plan : Plan} (positive : plan.Positive) {session : Overrides}
    (before : session.Positive) :
    Yields Positive (Succeeds Overrides.Positive)
      (plan.carryOut session : ExceptT StoreError (StateM Scripted) _).run := by
  have last : Yields Positive (Succeeds Overrides.Positive)
      (pure (session.update plan.sessionUpdates) : ExceptT StoreError (StateM Scripted) _).run :=
    yields_ok (Overrides.positive_update before positive.session)
  have settings : Yields Positive (Succeeds Overrides.Positive) (do
      if plan.touchesSettings then
        let settings ← (Store.loadSettings : ExceptT StoreError (StateM Scripted) _)
        Store.saveSettings
          { settings with overrides := settings.overrides.update plan.persistedUpdates }
      return session.update plan.sessionUpdates : ExceptT StoreError (StateM Scripted) _).run := by
    cases plan.touchesSettings with
    | false => exact last
    | true =>
      refine yields_settings.bind_except fun settings stored => ?_
      refine (yields_saveSettings ?_).bind_except fun _ _ => last
      exact Overrides.positive_update stored positive.persisted
  unfold Plan.carryOut
  cases plan.touchesLibrary with
  | false => exact settings
  | true =>
    refine yields_tools.bind_except fun tools recorded => ?_
    refine (yields_saveTools ?_).bind_except fun _ _ => settings
    exact Library.positive_update recorded positive.library

theorem yields_moveStored (tool : ToolId) (target : Override) (capacity : UInt32) {session : Overrides}
    (positive : session.Positive) :
    Yields Positive Overrides.Positive (moveStored tool target capacity session : StateM Scripted _) := by
  refine yields_libraryOrEmpty.bind fun library recorded => ?_
  refine yields_settingsOrDefault.bind fun settings stored => ?_
  split
  · exact yields_pure positive
  · rename_i plan accepted
    obtain ⟨-, allowed, rfl⟩ := Layers.plan_eq_ok_iff.mp accepted
    have asked : target ≠ .inPocket 0 := by
      rintro rfl
      exact absurd (allowed 0 rfl) (by simp [Magazine.has])
    have left : (Layers.mk library settings.overrides session).pocketOf tool ≠ some 0 :=
      Layers.pocketOf_ne_zero recorded stored positive tool
    exact (yields_carryOut (Layers.positive_draft asked left) positive).orElse positive

theorem yields_syncStored {classification : Classification} (positive : classification.Positive) :
    Yields Positive (fun _ => True) (syncStored classification : StateM Scripted _) := by
  refine yields_tools.bind fun result recorded => ?_
  cases result with
  | error error => exact yields_pure trivial
  | ok tools =>
    simp only
    split
    · exact yields_pure trivial
    · refine (yields_saveTools (Library.positive_sync (recorded tools rfl) positive)).bind fun result _ => ?_
      cases result <;> exact yields_pure trivial

end Scripted

/-- What is shown and what a program is renumbered with name no pocket zero. -/
def Progress.Positive (job : Job) : Progress → Prop
  | waiting round => round.summary.classification.Positive ∧ round.summary.session.Positive
  | finished (.renumbered result) => ∃ (classification : Classification) (label : String),
      classification.Positive ∧ result.pockets = classification.pocketMap ∧
        result.renumbering = Renumbering.ofProgram result.pockets label job.program
  | finished _ => True

namespace Scripted

variable (job : Job)

theorem yields_reconcileStored (incoming previous : Overrides) :
    Yields Positive Overrides.Positive (reconcileStored incoming previous : StateM Scripted _) :=
  yields_libraryOrEmpty.bind fun _ _ => yields_settingsOrDefault.bind fun _ _ =>
    yields_capacityOrDefault.bind fun _ _ => yields_pure (positive_reconcile _ _ _ _ _)

theorem yields_analyzeStored (program : String) {session : Overrides} (positive : session.Positive) :
    Yields Positive Classification.Positive (analyzeStored program session : StateM Scripted _) :=
  yields_libraryOrEmpty.bind fun _ recorded => yields_settingsOrDefault.bind fun _ stored =>
    yields_pure (positive_analyze program recorded (Overrides.positive_overlay stored positive))

theorem yields_ask (settings : Settings) {session : Overrides} {classification : Classification}
    (decided : session.Positive) (positive : classification.Positive) :
    Yields Positive (Progress.Positive job)
      (job.ask settings session classification : StateM Scripted _) :=
  yields_capacityOrDefault.bind fun _ _ => yields_pure ⟨positive, decided⟩

theorem yields_start : Yields Positive (Progress.Positive job) (job.start : StateM Scripted _) := by
  refine yields_settingsOrDefault.bind fun settings _ => ?_
  cases settings.enabled with
  | false => exact yields_pure trivial
  | true =>
    refine (yields_reconcileStored _ _).bind fun session decided => ?_
    refine (yields_analyzeStored job.program decided).bind fun classification positive => ?_
    cases classification.isEmpty with
    | true => exact yields_pure trivial
    | false => exact yields_ask job settings decided positive

theorem yields_again (incoming previous : Overrides) :
    Yields Positive (Progress.Positive job) (job.again incoming previous : StateM Scripted _) :=
  (yields_reconcileStored incoming previous).bind fun _ decided =>
    yields_settingsOrDefault.bind fun settings _ =>
      (yields_analyzeStored job.program decided).bind fun _ positive =>
        yields_ask job settings decided positive

theorem yields_answer (round : Round) (decision : Option Decision)
    (shows : (Progress.waiting round).Positive job) :
    Yields Positive (Progress.Positive job) (round.answer job decision : StateM Scripted _) := by
  obtain ⟨positive, decided⟩ := shows
  rcases decision with _ | _ | _ | _ | ⟨tool, target⟩ | ⟨incoming⟩
  · exact yields_pure trivial
  · exact yields_pure trivial
  · exact yields_pure trivial
  · have accepting : Yields Positive (fun result => (Progress.finished (.renumbered result)).Positive job)
        (accept job.program round.settings.label round.summary.classification : StateM Scripted _) :=
      (yields_syncStored positive).bind fun _ _ => yields_pure ⟨_, _, positive, rfl, rfl⟩
    exact accepting.bind fun _ sound => yields_pure sound
  · exact (yields_moveStored tool target _ decided).bind fun session _ => yields_again job session _
  · exact yields_again job _ _

end Scripted

/-! ### The whole load -/

def Settings.Read (settings : Settings) : Prop := ∃ value, Settings.ofJson? value = some settings

theorem Settings.Read.positive {settings : Settings} (read : settings.Read) : settings.overrides.Positive := by
  obtain ⟨value, found⟩ := read
  exact Settings.positive_ofJson? found

/-- Whichever calls fail, whatever an operator answers and whoever edits the documents meanwhile: if the settings
were read and no tool is on record for pocket zero, neither in the beginning nor after an edit, then the program is
renumbered with positive pockets, and each line that changes to a tool still does, to its pocket. -/
theorem load_positive (job : Job) (operator : Operator (StateM Scripted)) (store : Scripted)
    (recorded : ∀ tool, Library.pocketOf ⟨store.documents.tools⟩ tool ≠ some 0)
    (read : store.documents.settings.Read)
    (careful : operator.EditsLoad (fun before after =>
      (after.documents.tools = before.documents.tools ∨
        ∀ tool, Library.pocketOf ⟨after.documents.tools⟩ tool ≠ some 0) ∧
      (after.documents.settings = before.documents.settings ∨ after.documents.settings.Read)) (pure ()) job store)
    {result : Renumbered}
    (renumbered : ((load (pure ()) job operator).run store).1.outcome = .renumbered result) :
    (∀ tool, result.pockets.get? tool ≠ some 0) ∧
    ∃ label, result.renumbering = Renumbering.ofProgram result.pockets label job.program ∧
      ∀ line ∈ Program.lines job.program.toList, ∀ tool, Program.toolChange line = some tool →
        Program.toolChange (Renumbering.line result.pockets label.toList line).text =
          some ((result.pockets.get? tool).getD tool) := by
  have kept : store.Positive := ⟨recorded, read.positive⟩
  have edits : operator.EditsLoad (fun before after => before.Positive → after.Positive) (pure ()) job store := by
    refine Operator.edits_mono (fun before after edited positive => ?_) careful
    constructor
    · rcases edited.1 with same | other
      · exact same ▸ positive.1
      · exact other
    · rcases edited.2 with same | other
      · exact same ▸ positive.2
      · exact other.positive
  obtain ⟨classification, label, positive, pockets, renumbering⟩ :=
    load_yields (keeps_pure ()) (Scripted.yields_start job) (Scripted.yields_answer job) edits kept renumbered
  have above (tool : ToolId) : result.pockets.get? tool ≠ some 0 := by
    intro assigned
    rw [pockets] at assigned
    obtain ⟨reference, listed, -, zero⟩ := mem_of_get?_pocketMap assigned
    exact positive.pocket reference listed zero
  have noZero : result.pockets.get? 0 = none := by
    refine Option.eq_none_iff_forall_ne_some.mpr fun pocket assigned => ?_
    rw [pockets] at assigned
    obtain ⟨reference, listed, zero, -⟩ := mem_of_get?_pocketMap assigned
    exact positive.tool reference listed zero
  refine ⟨above, label, renumbering, fun line _ tool called => ?_⟩
  have code : Program.isCommentOnly line = false := by
    rw [← Bool.not_eq_true]
    intro comment
    rw [Program.toolChange_of_allBlank (Bool.and_eq_true_iff.mp comment).2] at called
    cases called
  rw [Renumbering.toolChange_of_code label.toList noZero above code, called]
  rfl

/-- A move of tool 1 to pocket 2 is planned without the settings, where it is not known that tool 2 is in pocket 3.
Then other records are put in place of the old ones, and tool 1 is on record for a pocket outside the magazine. -/
theorem load_positive_edited :
    let settings : Settings := { overrides := Table.ofList [(2, .inPocket 3)] }
    let tools : List Tool := [{ id := 1, pocket := some 1 }, { id := 2, pocket := some 2 }]
    let store : Scripted := { documents := { tools, settings } }
    let job : Job := ⟨"part.nc", "M6 T1\nM6 T2\n(M6 T5) M6 T0"⟩
    let operator : Operator (StateM Scripted) := Operator.ofScript
      [(modify fun store => { store with script := [none, some (.notLoaded .settings)] },
          some (.remap 1 (.inPocket 2))),
        (modify fun store => { store with documents := { store.documents with
          tools := [{ id := 1, pocket := some 20 }] } }, some (.refresh none)),
        (pure (), some .map)]
    let outcome := ((load (pure ()) job operator).run store).1.outcome
    outcome.text? job = some "M6 T2\nM6 T1\n(M6 T5) M6 T0" ∧
      ∃ result, outcome = .renumbered result ∧ ∀ tool, result.pockets.get? tool ≠ some 0 := by
  intro settings tools store job operator outcome
  have unzeroed (tools : List Tool) (listed : tools.all (·.pocket ≠ some 0) = true) (tool : ToolId) :
      Library.pocketOf ⟨tools⟩ tool ≠ some 0 := by
    intro zero
    obtain ⟨record, found, held⟩ := Option.bind_eq_some_iff.mp zero
    simpa [held] using List.all_eq_true.mp listed record (List.mem_of_find?_eq_some found)
  have read : settings.Read :=
    ⟨.object [("manualToolMappings", .object [("2", Json.ofUInt32 3)])], rfl⟩
  have careful : operator.Meanwhile fun edit => ∀ before : Scripted,
      ((edit.run before).2.documents.tools = before.documents.tools ∨
        ∀ tool, Library.pocketOf ⟨(edit.run before).2.documents.tools⟩ tool ≠ some 0) ∧
      ((edit.run before).2.documents.settings = before.documents.settings ∨
        (edit.run before).2.documents.settings.Read) :=
    ⟨fun _ => ⟨.inl rfl, .inl rfl⟩, fun _ =>
      ⟨fun _ => ⟨.inr (unzeroed [{ id := 1, pocket := some 20 }] (by decide)), .inl rfl⟩,
        fun _ => ⟨fun _ => ⟨.inl rfl, .inl rfl⟩, fun _ => trivial⟩⟩⟩
  have someTool : outcome.accepted ≠ [] := by decide +kernel
  obtain ⟨result, renumbered⟩ := Outcome.exists_of_accepted someTool
  obtain ⟨positive, -⟩ := load_positive job operator store (unzeroed tools (by decide)) read
    (Operator.edits_of_meanwhile (pure ()) job careful _ _) renumbered
  exact ⟨by decide +kernel, result, renumbered, positive⟩

/-- A record may say pocket zero, and it is handed on: the tool change becomes one to no tool. -/
theorem load_positive_unloads :
    let tools : List Tool := [{ id := 1, pocket := some 0 }]
    let store : Scripted := { documents := { tools } }
    let job : Job := ⟨"part.nc", "M6 T1"⟩
    let visit := (load (pure ()) job (.approving : Operator (StateM Scripted))).run store
    Tool.listOfJson? (.array [.object [("id", Json.ofUInt32 1), ("pocketNumber", Json.ofUInt32 0)]]) =
        some tools ∧
      store.documents.settings.Read ∧
      visit.1.outcome.accepted = [(1, some 0)] ∧ visit.1.outcome.text? job = some "M6 T0" ∧
      Program.toolChange "M6 T1".toList = some 1 ∧ Program.toolChange "M6 T0".toList = none := by
  refine ⟨rfl, ⟨.object [], rfl⟩, ?_⟩
  decide +kernel

end ToolChanger

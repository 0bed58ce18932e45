import Mathlib.Data.List.Chain
import ToolChanger.Proofs.Library.Sync
import ToolChanger.Proofs.Load.Scripted
import ToolChanger.Proofs.Remap.Record

/-!
# What a load leaves alone

What a failed reading puts in place of the documents goes into plans, but a plan only says what to change. So all
that a load writes is made of the documents as they are then.
-/

namespace ToolChanger

namespace Documents

/-- What stays of the documents whatever a load writes. -/
structure Frame (before after : Documents) : Prop where
  /-- As many records in the same order, which differ in their pockets at most. -/
  records : after.tools.map Tool.unplaced = before.tools.map Tool.unplaced
  /-- A record whose number has occurred before stays as it is. -/
  repeated : ∀ (i : Nat) (tool : Tool), before.tools[i]? = some tool →
    tool.id ∈ (before.tools.take i).map (·.id) → after.tools[i]? = some tool
  settings : after.settings = { before.settings with overrides := after.settings.overrides }
  /-- A tool that gets an override is one on record. -/
  known : ∀ tool, after.settings.overrides.contains tool = true →
    before.settings.overrides.contains tool = true ∨ Library.contains ⟨before.tools⟩ tool = true
  machine : after.machine = before.machine

end Documents

/-! ### Overrides -/

theorem Overrides.contains_update {overrides : Overrides} {updates : List (ToolId × Option Override)}
    {tool : ToolId} (listed : (overrides.update updates).contains tool = true) :
    overrides.contains tool = true ∨ ∃ decided, (tool, some decided) ∈ updates := by
  induction updates generalizing overrides with
  | nil => exact .inl listed
  | cons update rest ih =>
    obtain ⟨other, decided⟩ := update
    rw [update_cons] at listed
    rcases ih listed with now | ⟨decided, later⟩
    · rw [Table.contains, get?_update_one] at now
      split at now
      · rename_i same
        obtain ⟨value, rfl⟩ := Option.isSome_iff_exists.mp now
        exact .inr ⟨value, same ▸ List.mem_cons_self⟩
      · exact .inl now
    · exact .inr ⟨decided, List.mem_cons_of_mem _ later⟩

theorem Layers.contains_of_mem_persistedUpdates {layers : Layers} {tool other : ToolId}
    {target decided : Override} (listed : (other, some decided) ∈ (layers.draft tool target).persistedUpdates) :
    layers.library.contains other = true := by
  obtain ⟨⟨moved, asked⟩, -, made⟩ := List.mem_filterMap.mp listed
  simp only [persistedUpdate?] at made
  split at made
  · rename_i known
    cases made
    exact known
  · split at made <;> cases made

/-! ### Single writes -/

namespace Documents

variable {before between after : Documents}

theorem Frame.ids (frame : before.Frame after) :
    after.tools.map (·.id) = before.tools.map (·.id) := by
  have same := congrArg (List.map (·.id)) frame.records
  rwa [List.map_map, List.map_map] at same

theorem Frame.contains (frame : before.Frame after) (tool : ToolId) :
    Library.contains ⟨after.tools⟩ tool = Library.contains ⟨before.tools⟩ tool := by
  rw [Bool.eq_iff_iff, Library.contains_iff_mem, Library.contains_iff_mem, frame.ids]

theorem Frame.trans (first : before.Frame between) (second : between.Frame after) :
    before.Frame after where
  records := second.records.trans first.records
  repeated i tool found earlier := by
    refine second.repeated i tool (first.repeated i tool found earlier) ?_
    rwa [List.map_take, first.ids, ← List.map_take]
  settings := by
    rw [second.settings, first.settings]
  known tool listed := by
    rcases second.known tool listed with had | known
    · exact first.known tool had
    · exact .inr ((first.contains tool).symm.trans known)
  machine := second.machine.trans first.machine

theorem frame_update (documents : Documents) (updates : List (ToolId × Option Pocket)) :
    documents.Frame { documents with tools := (Library.update ⟨documents.tools⟩ updates).records } where
  records := Library.map_unplaced_update _ updates
  repeated _ _ found earlier := Library.getElem?_update ⟨documents.tools⟩ updates found earlier
  settings := rfl
  known _ := .inl
  machine := rfl

theorem Revised.frame (revised : before.Revised after) : before.Frame after := by
  cases revised with
  | records layers tool target => exact frame_update before _
  | overrides layers tool target seen =>
    exact
      { records := rfl
        repeated := fun _ _ found _ => found
        settings := rfl
        known := fun other listed => (Overrides.contains_update listed).imp id fun ⟨_, update⟩ =>
          seen other (Layers.contains_of_mem_persistedUpdates update)
        machine := rfl }
  | accepted classification =>
    obtain ⟨updates, same⟩ := Library.exists_update_sync ⟨before.tools⟩ classification
    rw [same]
    exact frame_update before updates

end Documents

/-! ### The whole load -/

namespace Scripted

/-- What has been written since some state, the last write first: each version of the documents was made
from the one before, and the last one is current. -/
def WrittenSince (origin : Scripted) (written : List Documents) (store : Scripted) : Prop :=
  store.history = written ++ origin.history ∧
    (written ++ [origin.documents]).head? = some store.documents ∧
    (written ++ [origin.documents]).IsChain fun later earlier => earlier.Revised later

theorem robust_writtenSince (origin : Scripted) :
    Robust fun store => ∃ written, origin.WrittenSince written store where
  next _ since := since
  revised store documents revised since := by
    obtain ⟨written, history, current, chain⟩ := since
    refine ⟨documents :: written, congrArg (documents :: ·) history, rfl, ?_⟩
    refine List.isChain_cons.mpr ⟨fun earlier last => ?_, chain⟩
    obtain rfl := Option.some.inj (current.symm.trans last)
    exact revised

theorem WrittenSince.frame {origin store : Scripted} {written : List Documents}
    (since : origin.WrittenSince written store) :
    ∀ documents ∈ written, origin.documents.Frame documents := by
  have transitive : IsTrans Documents fun later earlier => earlier.Frame later :=
    ⟨fun _ _ _ second first => first.trans second⟩
  have chain := (since.2.2.imp fun _ _ revised => revised.frame).pairwise
  exact fun documents listed =>
    (List.pairwise_append.mp chain).2.2 documents listed origin.documents List.mem_cons_self

end Scripted

/-- Whichever calls fail and whatever an operator answers, as long as nobody else edits the documents: each
version that a load writes is made from the stored one before, leaves alone what `Frame` names, and the last
one is what remains. Without an answer that accepts or moves a tool nothing is written. -/
theorem load_frame (job : Job) (operator : Operator (StateM Scripted)) (store : Scripted)
    (silent : operator.EditsLoad (fun before after => after.documents = before.documents ∧
      after.history = before.history) (pure ()) job store) :
    let visit := (load (pure ()) job operator).run store
    ∃ written, visit.2.history = written ++ store.history ∧
      (written ++ [store.documents]).head? = some visit.2.documents ∧
      (written ++ [store.documents]).IsChain (fun later earlier => earlier.Revised later) ∧
      (∀ documents ∈ written, store.documents.Frame documents) ∧
      ((∀ shown ∈ visit.1.shown, shown.decision ≠ some .map ∧
        ∀ tool target, shown.decision ≠ some (.remap tool target)) → written = []) := by
  intro visit
  have started : ∃ written, store.WrittenSince written store := ⟨[], rfl, rfl, .singleton _⟩
  obtain ⟨written, since⟩ : ∃ written, store.WrittenSince written visit.2 := by
    refine (Scripted.robust_writtenSince store).keep.load (keeps_pure ()) job ?_ started
    refine Operator.edits_mono (fun before after same since => ?_) silent
    obtain ⟨documents, history⟩ := same
    unfold Scripted.WrittenSince
    rw [documents, history]
    exact since
  refine ⟨written, since.1, since.2.1, since.2.2, since.frame, fun reading => ?_⟩
  have unwritten : visit.2.history = store.history := by
    refine Store.KeepReading.load (P := fun now : Scripted => now.history = store.history) (keeps_pure ()) job
      (Scripted.keepReading fun _ same => same) ?_ reading rfl
    exact Operator.edits_mono (fun before after same kept => same.2.trans kept) silent
  have same : written ++ store.history = [] ++ store.history := since.1.symm.trans unwritten
  exact List.append_cancel_right same

/-- Tool 2 is moved when the library cannot be read, so its override is dropped. Then tool 1 is moved, and the
settings cannot be read after the library has been written. What is accepted at last puts tool 9, which has no
record, over tool 1. -/
theorem load_frame_failing :
    let tools : List Tool := [{ id := 1, pocket := some 1 }, { id := 2, pocket := some 2 },
      { id := 1, pocket := some 5, name := "spare" }]
    let settings : Settings := { label := "Haas", overrides := Table.ofList [(2, .inPocket 3)] }
    let store : Scripted := { documents := { tools, settings } }
    let job : Job := ⟨"part.nc", "M6 T1\nM6 T2\nM6 T9"⟩
    let failing (script : List (Option StoreError)) : StateM Scripted Unit :=
      modify fun store => { store with script }
    let operator : Operator (StateM Scripted) := Operator.ofScript
      [(failing [some (.notLoaded .toolLibrary)], some (.remap 2 (.inPocket 4))),
        (failing (List.replicate 4 none ++ [some (.notLoaded .settings)]), some (.remap 1 (.inPocket 7))),
        (pure (), some (.refresh (some (Table.ofList [(2, .inPocket 6), (9, .inPocket 7)])))),
        (pure (), some .map)]
    let final := ((load (pure ()) job operator).run store).2
    (final.history.map fun documents =>
      (documents.tools.map (·.pocket), documents.settings.overrides.entries)) =
      [([none, some 6, some 5], []), ([some 7, some 2, some 5], []), ([some 1, some 2, some 5], [])] ∧
    ∀ documents ∈ final.history, store.documents.Frame documents := by
  intro tools settings store job failing operator final
  refine ⟨by decide +kernel, ?_⟩
  have silent : operator.Meanwhile fun edit => ∀ state : Scripted,
      (edit.run state).2.documents = state.documents ∧ (edit.run state).2.history = state.history :=
    ⟨fun _ => ⟨rfl, rfl⟩, fun _ => ⟨fun _ => ⟨rfl, rfl⟩, fun _ => ⟨fun _ => ⟨rfl, rfl⟩, fun _ =>
      ⟨fun _ => ⟨rfl, rfl⟩, fun _ => trivial⟩⟩⟩⟩
  obtain ⟨written, history, -, -, frame, -⟩ :=
    load_frame job operator store (Operator.edits_of_meanwhile (pure ()) job silent _ _)
  obtain rfl : written = final.history := by rw [history, List.append_nil]
  exact frame

end ToolChanger

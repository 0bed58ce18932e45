import ToolChanger.Proofs.Load.Scripted
import ToolChanger.Proofs.Remap.Record

/-!
# No pocket twice on record

What a load writes is computed from records that were read just before, though a move is planned from an earlier
look, which may have failed. A plan that was made without the records writes none.
-/

namespace ToolChanger
namespace Scripted

/-- Neither now nor after any write so far do two records of the library share a pocket. -/
def Unshared (store : Scripted) : Prop :=
  Library.OneToolPerPocket ⟨store.documents.tools⟩ ∧
    ∀ documents ∈ store.history, Library.OneToolPerPocket ⟨documents.tools⟩

theorem Unshared.put {store : Scripted} {documents : Documents} (unshared : store.Unshared)
    (apart : Library.OneToolPerPocket ⟨documents.tools⟩) : (store.put documents).Unshared :=
  ⟨apart, List.forall_mem_cons.mpr ⟨apart, unshared.2⟩⟩

theorem robust_unshared : Robust Unshared where
  next _ unshared := unshared
  revised store documents revised unshared := by
    cases revised with
    | records layers tool target seen =>
      exact unshared.put (Layers.oneToolPerPocket_update_draft unshared.1 seen tool target)
    | overrides => exact unshared.put unshared.1
    | accepted classification =>
      exact unshared.put (Library.oneToolPerPocket_sync unshared.1 classification)

end Scripted

/-! ### The whole load -/

/-- Whichever calls fail, whatever an operator answers, and whatever the settings and the session say: if no
two records of the library share a pocket when a load begins, and nobody else makes two share one, then
after no write of the load do they. -/
theorem load_history_unshared (job : Job) (operator : Operator (StateM Scripted)) (store : Scripted)
    (fresh : store.history = []) (unshared : Library.OneToolPerPocket ⟨store.documents.tools⟩)
    (careful : operator.EditsLoad (fun before after => after.history = before.history ∧
      (Library.OneToolPerPocket ⟨before.documents.tools⟩ →
        Library.OneToolPerPocket ⟨after.documents.tools⟩)) (pure ()) job store) :
    ∀ documents ∈ ((load (pure ()) job operator).run store).2.history,
      Library.OneToolPerPocket ⟨documents.tools⟩ := by
  have start : store.Unshared := ⟨unshared, by simp [fresh]⟩
  refine (Scripted.robust_unshared.keep.load (keeps_pure ()) job ?_ start).2
  refine Operator.edits_mono (fun before after harmless unshared => ?_) careful
  obtain ⟨sameHistory, apart⟩ := harmless
  refine ⟨apart unshared.1, ?_⟩
  rw [sameHistory]
  exact unshared.2

/-- Tool 1 moves into the pocket that the record of tool 2 names behind an override; the library is written,
the settings are not. Then tool 3 is put over the record of tool 4 for the session, and that is accepted. -/
theorem load_history_unshared_failing :
    let tools : List Tool := [{ id := 1, pocket := some 1 }, { id := 2, pocket := some 2 },
      { id := 1, pocket := some 2 }, { id := 3 }, { id := 4, pocket := some 4 }]
    let settings : Settings := { overrides := Table.ofList [(2, .inPocket 5), (4, .outOfMagazine)] }
    let store : Scripted := { documents := { tools, settings } }
    let job : Job := ⟨"part.nc", "M6 T1\nM6 T2\nM6 T3"⟩
    let failing : StateM Scripted Unit := modify fun store => { store with
      script := [none, none, none, none, none, some (.notSaved .settings)] }
    let operator : Operator (StateM Scripted) := .ready failing (fun _ => some (.remap 1 (.inPocket 2)))
      fun _ => .ready (pure ()) (fun _ => some (.refresh (some (Table.ofList [(3, .inPocket 4)]))))
      fun _ => .approving
    let final := ((load (pure ()) job operator).run store).2
    (final.history.map fun documents => documents.tools.map (·.pocket)) =
      [[some 2, some 5, some 2, some 4, none], [some 2, none, some 2, none, some 4]] ∧
    ∀ documents ∈ final.history, Library.OneToolPerPocket ⟨documents.tools⟩ := by
  intro tools settings store job failing operator final
  refine ⟨by decide +kernel, load_history_unshared job operator store rfl (by decide +kernel) ?_⟩
  refine Operator.edits_of_meanwhile (pure ()) job ?_ _ _
  exact ⟨fun store => ⟨rfl, id⟩, fun _ => ⟨fun store => ⟨rfl, id⟩, fun _ =>
    ⟨fun store => ⟨rfl, id⟩, fun _ => trivial⟩⟩⟩

end ToolChanger

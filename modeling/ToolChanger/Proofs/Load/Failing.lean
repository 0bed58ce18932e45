import Mathlib.Logic.Function.Iterate
import ToolChanger.Proofs.Load.Scripted

namespace ToolChanger

open Store (Looks)

namespace Scripted

variable {α β : Type} {store : Scripted} {error : StoreError} {n k : Nat}

/-- A number of calls succeed, the next one fails, and all later ones succeed. -/
def FailsAfter (store : Scripted) (n : Nat) (error : StoreError) : Prop :=
  store.script = List.replicate n none ++ [some error]

theorem FailsAfter.failure?_zero (fails : store.FailsAfter 0 error) : store.failure? = some error := by
  rw [failure?, fails]
  rfl

theorem FailsAfter.failure?_succ (fails : store.FailsAfter (n + 1) error) : store.failure? = none := by
  rw [failure?, fails]
  rfl

theorem FailsAfter.next_zero (fails : store.FailsAfter 0 error) : store.next.script = [] := by
  rw [next, fails]
  rfl

theorem FailsAfter.next_succ (fails : store.FailsAfter (n + 1) error) : store.next.FailsAfter n error := by
  rw [FailsAfter, next, fails]
  rfl

/-! ### Looks -/

theorem FailsAfter.looks (fails : store.FailsAfter (n + k) error) :
    Looks store.view n store (next^[n] store) ∧ (next^[n] store).FailsAfter k error ∧
      (next^[n] store).documents = store.documents := by
  induction n generalizing store with
  | zero =>
    rw [Nat.zero_add] at fails
    exact ⟨.none store, fails, rfl⟩
  | succ n ih =>
    rw [Nat.add_right_comm] at fails
    obtain ⟨later, left, same⟩ := ih fails.next_succ
    exact ⟨.more (look fails.failure?_succ) later, left, same⟩

/-- An action that only looks, a number of times, whether or not a look fails. -/
def Advances (n : Nat) (action : StateM Scripted α) : Prop :=
  ∀ store, (action.run store).2 = next^[n] store

theorem advances_pure (value : α) : Advances 0 (pure value : StateM Scripted α) := fun _ => rfl

theorem Advances.bind {action : StateM Scripted α} {later : α → StateM Scripted β}
    (first : Advances n action) (second : ∀ value, Advances k (later value)) :
    Advances (k + n) (action >>= later) := by
  intro store
  rcases ran : action.run store with ⟨value, final⟩
  have between := first store
  rw [ran] at between
  rw [run_bind ran, second value final, show final = _ from between, Function.iterate_add_apply]

theorem advances_library : Advances 1 (Store.libraryOrEmpty : StateM Scripted _) := fun store => by
  rw [libraryOrEmpty_run]
  rfl

theorem advances_settings : Advances 1 (Store.settingsOrDefault : StateM Scripted _) := fun store => by
  rw [settingsOrDefault_run]
  rfl

theorem advances_capacity : Advances 1 (Store.capacityOrDefault : StateM Scripted _) := fun store => by
  rw [capacityOrDefault_run]
  rfl

theorem advances_reconcileStored (incoming previous : Overrides) :
    Advances 3 (reconcileStored incoming previous : StateM Scripted _) :=
  advances_library.bind fun _ => advances_settings.bind fun _ => advances_capacity.bind fun _ =>
    advances_pure _

theorem advances_analyzeStored (program : String) (session : Overrides) :
    Advances 2 (analyzeStored program session : StateM Scripted _) :=
  advances_library.bind fun _ => advances_settings.bind fun _ => advances_pure _

theorem advances_ask (job : Job) (settings : Settings) (session : Overrides)
    (classification : Classification) :
    Advances 1 (job.ask settings session classification : StateM Scripted _) :=
  advances_capacity.bind fun _ => advances_pure _

theorem advances_again (job : Job) (incoming previous : Overrides) :
    Advances 7 (job.again incoming previous : StateM Scripted _) :=
  (advances_reconcileStored incoming previous).bind fun session =>
    advances_settings.bind fun settings =>
      (advances_analyzeStored job.program session).bind fun classification =>
        advances_ask job settings session classification

theorem advances_start (job : Job) {round : Round}
    (waits : ((job.start : StateM Scripted _).run store).1 = .waiting round) :
    ((job.start : StateM Scripted _).run store).2 = next^[7] store := by
  unfold Job.start at waits ⊢
  rcases read : (Store.settingsOrDefault : StateM Scripted _).run store with ⟨settings, first⟩
  have firstly : first = store.next := by
    have looked := advances_settings store
    rw [read] at looked
    exact looked
  rw [run_bind read] at waits ⊢
  cases enabled : settings.enabled with
  | false =>
    rw [enabled] at waits
    cases waits
  | true =>
    rw [enabled] at waits
    simp only [Bool.not_true, Bool.false_eq_true, if_false] at waits ⊢
    rcases reconciled : (reconcileStored Table.empty Table.empty : StateM Scripted _).run first with
      ⟨session, second⟩
    have secondly : second = next^[4] store := by
      have looked := advances_reconcileStored Table.empty Table.empty first
      rw [reconciled, firstly] at looked
      exact looked
    rw [run_bind reconciled] at waits ⊢
    rcases analyzed : (analyzeStored job.program session : StateM Scripted _).run second with
      ⟨classification, third⟩
    have thirdly : third = next^[6] store := by
      have looked := advances_analyzeStored job.program session second
      rw [analyzed, secondly] at looked
      exact looked
    rw [run_bind analyzed] at waits ⊢
    cases someTool : classification.isEmpty with
    | true =>
      rw [someTool] at waits
      cases waits
    | false =>
      simp only [Bool.false_eq_true, if_false]
      rw [advances_ask, thirdly]
      rfl

theorem script_iterate (store : Scripted) (n : Nat) : (next^[n] store).script = store.script.drop n := by
  induction n with
  | zero => rfl
  | succ n ih => rw [Function.iterate_succ_apply', next, ih, List.tail_drop]

theorem FailsAfter.spent (fails : store.FailsAfter n error) (few : n < k) :
    (next^[k] store).script = [] := by
  rw [script_iterate, fails]
  refine List.drop_eq_nil_of_le ?_
  rw [List.length_append, List.length_replicate, List.length_singleton]
  omega

theorem spent_iterate (spent : store.script = []) (n : Nat) : (next^[n] store).script = [] := by
  rw [script_iterate, spent, List.drop_nil]

/-! ### Writers -/

theorem revise_run_failing (fails : store.FailsAfter k error) (few : k < 2) (get : Documents → α)
    (change : α → Documents → Documents) :
    ∃ final, (revise get change).run.run store = (.error error, final) ∧ final.script = [] ∧
      final.documents = store.documents := by
  rw [revise_run]
  match k, few with
  | 0, _ =>
    rw [fails.failure?_zero]
    exact ⟨store.next, rfl, fails.next_zero, rfl⟩
  | 1, _ =>
    rw [fails.failure?_succ, fails.next_succ.failure?_zero]
    exact ⟨store.next.next, rfl, fails.next_succ.next_zero, rfl⟩

theorem revise_run_clear (fails : store.FailsAfter (k + 2) error) (get : Documents → α)
    (change : α → Documents → Documents) :
    ∃ final, (revise get change).run.run store = (.ok (), final) ∧ final.FailsAfter k error ∧
      final.documents = change (get store.documents) store.documents := by
  rw [revise_run, fails.failure?_succ, fails.next_succ.failure?_succ]
  exact ⟨_, rfl, fails.next_succ.next_succ, rfl⟩

end Scripted

/-- The calls that carry out a plan: each document that it touches is read and written. -/
def Plan.calls (plan : Plan) : Nat :=
  (if plan.touchesLibrary then 2 else 0) + (if plan.touchesSettings then 2 else 0)

namespace Scripted

variable {store : Scripted} {error : StoreError} {n k : Nat} {plan : Plan}

/-- A move that fails has written the library where it failed behind that, and nothing else. -/
theorem carryOut_run_failing (fails : store.FailsAfter k error) (inside : k < plan.calls)
    (session : Overrides) :
    ∃ final, (plan.carryOut session : ExceptT StoreError (StateM Scripted) _).run.run store =
        (.error error, final) ∧ final.script = [] ∧
      final.documents = if 2 ≤ k then plan.onTools store.documents else store.documents := by
  have overrides {now : Scripted} {k : Nat} (fails : now.FailsAfter k error) (few : k < 2)
      (touched : plan.touchesSettings = true) :
      ∃ final, (plan.recordOverrides : ExceptT StoreError (StateM Scripted) _).run.run now =
          (.error error, final) ∧ final.script = [] ∧ final.documents = now.documents := by
    rw [Plan.recordOverrides_scripted, if_pos touched]
    exact revise_run_failing fails few _ _
  have touched (late : (if plan.touchesLibrary then 2 else 0) ≤ k) : plan.touchesSettings = true := by
    unfold Plan.calls at inside
    cases settings : plan.touchesSettings with
    | true => rfl
    | false =>
      simp only [settings, Bool.false_eq_true, if_false] at inside
      omega
  have few : k < (if plan.touchesLibrary then 2 else 0) + 2 := by
    unfold Plan.calls at inside
    cases settings : plan.touchesSettings <;> simp only [settings] at inside <;> grind
  rw [Plan.carryOut_eq]
  cases records : plan.touchesLibrary with
  | false =>
    have idle : (plan.recordTools : ExceptT StoreError (StateM Scripted) _).run.run store =
        (.ok (), store) := by
      rw [Plan.recordTools_scripted, records]
      rfl
    simp only [records, Bool.false_eq_true, if_false] at touched few
    obtain ⟨final, failed, spent, same⟩ := overrides fails (by omega) (touched (Nat.zero_le k))
    rw [run_bind_ok idle, run_bind_error failed, if_neg (by omega)]
    exact ⟨final, rfl, spent, same⟩
  | true =>
    simp only [records, if_true] at touched few
    have records_eq : (plan.recordTools : ExceptT StoreError (StateM Scripted) _) =
        revise (·.tools) fun tools documents =>
          { documents with tools := (Library.update ⟨tools⟩ plan.libraryUpdates).records } := by
      rw [Plan.recordTools_scripted, if_pos records]
    by_cases early : k < 2
    · obtain ⟨final, failed, spent, same⟩ := revise_run_failing fails early (·.tools) fun tools documents =>
        { documents with tools := (Library.update ⟨tools⟩ plan.libraryUpdates).records }
      rw [records_eq, run_bind_error failed, if_neg (by omega)]
      exact ⟨final, rfl, spent, same⟩
    · obtain ⟨k, rfl⟩ : ∃ later, k = later + 2 := ⟨k - 2, by omega⟩
      obtain ⟨written, wrote, left, changed⟩ := revise_run_clear fails (·.tools) fun tools documents =>
        { documents with tools := (Library.update ⟨tools⟩ plan.libraryUpdates).records }
      obtain ⟨final, failed, spent, same⟩ := overrides left (by omega) (touched (by omega))
      rw [records_eq, run_bind_ok wrote, run_bind_error failed, if_pos (by omega)]
      exact ⟨final, rfl, spent, same.trans changed⟩

theorem moveStored_run_failing {tool : ToolId} {target : Override} {capacity : UInt32}
    {session : Overrides} (fails : store.FailsAfter (2 + k) error)
    (accepted : (store.view.layers session).plan capacity tool target = .ok plan)
    (inside : k < plan.calls) :
    ∃ final, (moveStored tool target capacity session : StateM Scripted _).run store = (session, final) ∧
      final.script = [] ∧
      final.documents = if 2 ≤ k then plan.onTools store.documents else store.documents := by
  obtain ⟨_ | ⟨first, _ | ⟨second, ⟨⟩⟩⟩, left, same⟩ := fails.looks
  obtain ⟨final, failed, spent, changed⟩ := carryOut_run_failing left inside session
  rw [same] at changed
  refine ⟨final, ?_, spent, changed⟩
  unfold moveStored
  have planned : Layers.plan ⟨store.view.library, store.view.settings.overrides, session⟩ capacity tool
      target = .ok plan := accepted
  rw [run_bind first.library, run_bind second.settings, planned]
  unfold Store.orElse
  exact run_bind failed _

end Scripted
end ToolChanger

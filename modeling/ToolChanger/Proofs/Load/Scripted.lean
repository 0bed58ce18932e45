import ToolChanger.Proofs.Load.Keeps
import ToolChanger.Proofs.Remap.Swap
import ToolChanger.Store.Scripted

/-!
# Calls that fail

A call that fails leaves the documents alone and ends a move. So of all that a load does, a property of a scripted
store has to outlast single calls and the writes of `Documents.Revised` (`Robust.keep`).
-/

namespace ToolChanger

namespace Scripted

variable {α : Type} {store : Scripted} {error : StoreError}

/-! ### Single calls -/

theorem call_run (store : Scripted) (work : Scripted → α × Scripted) :
    (call work).run.run store =
      match store.failure? with
      | some error => (Except.error error, store.next)
      | none => (work store.next).map Except.ok id := rfl

theorem call_run_of_some (fails : store.failure? = some error) (work : Scripted → α × Scripted) :
    (call work).run.run store = (.error error, store.next) := by
  rw [call_run, fails]

theorem call_run_of_none (clear : store.failure? = none) (work : Scripted → α × Scripted) :
    (call work).run.run store = (work store.next).map .ok id := by
  rw [call_run, clear]

theorem orElse_read_run (store : Scripted) (get : Documents → α) (substitute : α) :
    (Store.orElse (read get) substitute).run store =
      (if store.failure?.isSome then substitute else get store.documents, store.next) := by
  unfold Store.orElse read
  cases fails : store.failure? with
  | some error =>
    rw [run_bind (call_run_of_some fails _)]
    rfl
  | none =>
    rw [run_bind (call_run_of_none fails _)]
    rfl

theorem libraryOrEmpty_run (store : Scripted) :
    (Store.libraryOrEmpty : StateM Scripted _).run store =
      (⟨if store.failure?.isSome then [] else store.documents.tools⟩, store.next) :=
  run_bind (orElse_read_run store (·.tools) []) _

theorem settingsOrDefault_run (store : Scripted) :
    (Store.settingsOrDefault : StateM Scripted _).run store =
      (if store.failure?.isSome then {} else store.documents.settings, store.next) :=
  orElse_read_run store _ _

theorem capacityOrDefault_run (store : Scripted) :
    (Store.capacityOrDefault : StateM Scripted _).run store =
      ((if store.failure?.isSome then {} else store.documents.machine).capacity, store.next) :=
  run_bind (orElse_read_run store (·.machine) {}) _

/-! ### Looks -/

def view (store : Scripted) : View :=
  ⟨⟨store.documents.tools⟩, store.documents.settings, store.documents.machine.capacity⟩

theorem look (clear : store.failure? = none) : Store.Look store.view store store.next where
  library := by
    rw [libraryOrEmpty_run, clear]
    rfl
  settings := by
    rw [settingsOrDefault_run, clear]
    rfl
  capacity := by
    rw [capacityOrDefault_run, clear]
    rfl

theorem next_of_spent (spent : store.script = []) : store.next = store := by
  obtain ⟨documents, script, history⟩ := store
  obtain rfl : script = [] := spent
  rfl

theorem failure?_of_spent (spent : store.script = []) : store.failure? = none := by
  rw [failure?, spent]
  rfl

theorem look_of_spent (spent : store.script = []) : Store.Look store.view store store := by
  have clear := look (failure?_of_spent spent)
  rwa [next_of_spent spent] at clear

theorem looks_of_spent (spent : store.script = []) (n : Nat) : Store.Looks store.view n store store := by
  induction n with
  | zero => exact .none store
  | succ n ih => exact .more (look_of_spent spent) ih

end Scripted

def Shown.layers (shown : Shown Scripted) : Layers := shown.noted.view.layers shown.summary.session

namespace Scripted

variable {α : Type} {store : Scripted} {error : StoreError}

/-! ### Writers -/

def revise (get : Documents → α) (change : α → Documents → Documents) :
    ExceptT StoreError (StateM Scripted) Unit := do
  write (change (← read get))

theorem revise_run (store : Scripted) (get : Documents → α) (change : α → Documents → Documents) :
    (revise get change).run.run store =
      match store.failure?, store.next.failure? with
      | some error, _ => (.error error, store.next)
      | none, some error => (.error error, store.next.next)
      | none, none => (.ok (), store.next.next.put (change (get store.documents) store.documents)) := by
  unfold revise read write
  cases reading : store.failure? with
  | some error => rw [run_bind_error (call_run_of_some reading _)]
  | none =>
    rw [run_bind_ok (call_run_of_none reading _)]
    cases writing : store.next.failure? with
    | some error => exact call_run_of_some writing _
    | none => exact call_run_of_none writing _

end Scripted

namespace Plan

section

variable {m : Type → Type} [Monad m] [Store m]

def recordTools (plan : Plan) : ExceptT StoreError m Unit := do
  if plan.touchesLibrary then
    let tools ← (Store.loadTools : ExceptT StoreError m _)
    Store.saveTools (Library.update ⟨tools⟩ plan.libraryUpdates).records

def recordOverrides (plan : Plan) : ExceptT StoreError m Unit := do
  if plan.touchesSettings then
    let settings ← (Store.loadSettings : ExceptT StoreError m _)
    Store.saveSettings
      { settings with overrides := settings.overrides.update plan.persistedUpdates }

theorem carryOut_eq [LawfulMonad m] (plan : Plan) (session : Overrides) :
    (plan.carryOut session : ExceptT StoreError m _) = (do
      plan.recordTools
      plan.recordOverrides
      return session.update plan.sessionUpdates) := by
  unfold carryOut recordTools recordOverrides
  cases plan.touchesLibrary <;> cases plan.touchesSettings <;>
    simp only [Bool.false_eq_true, if_true, if_false, bind_assoc, pure_bind]

end

open Scripted (revise)

def onTools (plan : Plan) (documents : Documents) : Documents :=
  { documents with tools := (Library.update ⟨documents.tools⟩ plan.libraryUpdates).records }

def onSettings (plan : Plan) (documents : Documents) : Documents :=
  { documents with settings := { documents.settings with
      overrides := documents.settings.overrides.update plan.persistedUpdates } }

theorem recordTools_scripted (plan : Plan) :
    (plan.recordTools : ExceptT StoreError (StateM Scripted) Unit) =
      if plan.touchesLibrary then
        revise (·.tools) fun tools documents =>
          { documents with tools := (Library.update ⟨tools⟩ plan.libraryUpdates).records }
      else return () := rfl

theorem recordOverrides_scripted (plan : Plan) :
    (plan.recordOverrides : ExceptT StoreError (StateM Scripted) Unit) =
      if plan.touchesSettings then
        revise (·.settings) fun settings documents => { documents with
          settings := { settings with overrides := settings.overrides.update plan.persistedUpdates } }
      else return () := rfl

end Plan

/-- What a load may make of the documents by one write: the records of a plan, though it may have been made
where no library could be read, the overrides of a plan, or the records of accepted pockets. -/
inductive Documents.Revised (documents : Documents) : Documents → Prop
  | records (layers : Layers) (tool : ToolId) (target : Override)
    (seen : layers.library = ⟨documents.tools⟩ ∨ layers.library = .empty) :
    documents.Revised ((layers.draft tool target).onTools documents)
  | overrides (layers : Layers) (tool : ToolId) (target : Override)
    (seen : ∀ known, layers.library.contains known = true →
      Library.contains ⟨documents.tools⟩ known = true) :
    documents.Revised ((layers.draft tool target).onSettings documents)
  | accepted (classification : Classification) :
    documents.Revised { documents with
      tools := (Library.sync ⟨documents.tools⟩ classification).1.records }

/-! ### What a load keeps -/

namespace Scripted

section

variable {α : Type} {P : Scripted → Prop} {store : Scripted}
  (next : ∀ store, P store → P store.next)
include next

theorem write_snd {change : Documents → Documents} (holds : P store)
    (written : P store.next → P (store.next.put (change store.documents))) :
    P ((write change).run.run store).2 := by
  have once := next store holds
  unfold write
  cases writing : store.failure? with
  | some error =>
    rw [call_run_of_some writing]
    exact once
  | none =>
    rw [call_run_of_none writing]
    exact written once

theorem revise_snd {get : Documents → α} {change : α → Documents → Documents} (holds : P store)
    (written : P store.next.next →
      P (store.next.next.put (change (get store.documents) store.documents))) :
    P ((revise get change).run.run store).2 := by
  have once := next store holds
  have twice := next store.next once
  rw [revise_run]
  split
  · exact once
  · exact twice
  · exact written twice

theorem keepReading : Store.KeepReading P where
  library store holds := by
    rw [libraryOrEmpty_run]
    exact next store holds
  settings store holds := by
    rw [settingsOrDefault_run]
    exact next store holds
  capacity store holds := by
    rw [capacityOrDefault_run]
    exact next store holds

end

/-- What outlasts every call and every write that a load may make. -/
structure Robust (P : Scripted → Prop) : Prop where
  next : ∀ store, P store → P store.next
  revised : ∀ store documents, store.documents.Revised documents → P store → P (store.put documents)

namespace Robust

variable {P : Scripted → Prop} {store : Scripted} (robust : Robust P)
include robust

theorem carryOut {layers : Layers} (seen : layers.library = ⟨store.documents.tools⟩ ∨ layers.library = .empty)
    (holds : P store) (tool : ToolId) (target : Override) (session : Overrides) :
    P (((layers.draft tool target).carryOut session : ExceptT StoreError (StateM Scripted) _).run.run
      store).2 := by
  -- Between the two writes the records are no longer the ones seen, but the tools are the same.
  let Known (now : Scripted) : Prop := P now ∧ ∀ known, layers.library.contains known = true →
    Library.contains ⟨now.documents.tools⟩ known = true
  have next (now : Scripted) (known : Known now) : Known now.next := ⟨robust.next now known.1, known.2⟩
  have start : Known store := by
    refine ⟨holds, fun known inside => ?_⟩
    rcases seen with same | unread
    · exact same ▸ inside
    · rw [unread] at inside
      cases inside
  have first : Known
      (((layers.draft tool target).recordTools : ExceptT StoreError (StateM Scripted) _).run.run store).2 := by
    rw [Plan.recordTools_scripted]
    split
    · refine revise_snd next start fun known => ⟨robust.revised _ _ (.records layers tool target seen) known.1, ?_⟩
      exact fun tool inside => (Library.contains_update _ _ _).trans (known.2 tool inside)
    · exact start
  have second (now : Scripted) (known : Known now) :
      P (((layers.draft tool target).recordOverrides : ExceptT StoreError (StateM Scripted) _).run.run now).2 := by
    rw [Plan.recordOverrides_scripted]
    split
    · exact revise_snd robust.next known.1 (robust.revised _ _ (.overrides layers tool target known.2))
    · exact known.1
  rw [Plan.carryOut_eq]
  rcases ran : ((layers.draft tool target).recordTools :
    ExceptT StoreError (StateM Scripted) _).run.run store with ⟨result, now⟩
  rw [ran] at first
  cases result with
  | error error =>
    rw [run_bind_error ran]
    exact first.1
  | ok =>
    rw [run_bind_ok ran]
    exact run_bind_except_snd (second now first) fun _ => keeps_pure _

theorem moveStored (tool : ToolId) (target : Override) (capacity : UInt32) (session : Overrides) :
    Keeps P (moveStored tool target capacity session : StateM Scripted _) := by
  intro store holds
  have seen := robust.next _ (robust.next _ holds)
  unfold ToolChanger.moveStored
  rw [run_bind (libraryOrEmpty_run store), run_bind (settingsOrDefault_run store.next)]
  split
  · exact seen
  · rename_i plan accepted
    rw [Store.orElse_run_snd]
    obtain ⟨-, -, rfl⟩ := Layers.plan_eq_ok_iff.mp accepted
    refine robust.carryOut ?_ seen tool target session
    cases store.failure?.isSome with
    | true => exact .inr rfl
    | false => exact .inl rfl

theorem syncStored (classification : Classification) :
    Keeps P (syncStored classification : StateM Scripted _) := by
  intro store holds
  have once := robust.next _ holds
  unfold ToolChanger.syncStored
  cases reading : store.failure? with
  | some error =>
    have read : (Store.loadTools : ExceptT StoreError (StateM Scripted) _).run.run store =
        (.error error, store.next) := call_run_of_some reading _
    rw [run_bind read]
    exact once
  | none =>
    have read : (Store.loadTools : ExceptT StoreError (StateM Scripted) _).run.run store =
        (.ok store.documents.tools, store.next) := call_run_of_none reading _
    rw [run_bind read]
    simp only
    split
    · exact once
    have write : P ((Store.saveTools (Library.sync ⟨store.documents.tools⟩ classification).1.records :
        ExceptT StoreError (StateM Scripted) _).run.run store.next).2 :=
      write_snd robust.next once (robust.revised store.next.next _ (.accepted classification))
    refine run_bind_snd write fun result => ?_
    cases result <;> exact keeps_pure _

theorem keep : Store.Keep P where
  toKeepReading := keepReading robust.next
  move := robust.moveStored
  sync := robust.syncStored

end Robust
end Scripted
end ToolChanger

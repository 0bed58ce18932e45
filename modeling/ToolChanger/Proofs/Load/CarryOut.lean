import ToolChanger.Proofs.Remap.Record
import ToolChanger.Proofs.Store.Kept

/-!
# Carrying out a plan

The two parts of a plan each read a document afresh and write it with the planned changes; the first call that
fails ends it all (`Exchange.Part`).
-/

namespace ToolChanger

open Store (Register Registers Request Reply heldAfter)

variable {σ : Type}

/-! ### A run of calls -/

/-- Calls that all went through, or of which the last one failed. -/
structure Exchange.EndIn {α : Type} (exchanges : List (Exchange σ)) (result : Except StoreError α) : Prop where
  passed : ∀ value, result = .ok value → ∀ exchange ∈ exchanges, exchange.reply.failure? = none
  failed : ∀ error, result = .error error → ∃ earlier failing, exchanges = earlier ++ [failing] ∧
    failing.reply.failure? = some error ∧ ∀ exchange ∈ earlier, exchange.reply.failure? = none

/-- What a part of a plan comes to that is about one document. -/
structure Exchange.Part (document : Document) (exchanges : List (Exchange σ)) (result : Except StoreError Unit) :
    Prop extends Exchange.EndIn exchanges result where
  about : ∀ exchange ∈ exchanges, exchange.request.document = document
  saving : (exchanges.filterMap (·.request.saving?)).Sublist [document]

namespace Exchange.Part

variable {document : Document} {loading saving : Exchange σ}

theorem of_load {error : StoreError} (about : loading.request.document = document)
    (reads : loading.request.saving? = none) (failed : loading.reply.failure? = some error) :
    Part document [loading] (.error error) where
  passed _ := nofun
  failed _ := by
    rintro ⟨⟩
    exact ⟨[], loading, rfl, failed, nofun⟩
  about := by simpa using about
  saving := by simp [reads]

theorem of_save {result : Except StoreError Unit} (about : loading.request.document = document)
    (reads : loading.request.saving? = none) (loaded : loading.reply.failure? = none)
    (alsoAbout : saving.request.document = document) (writes : saving.request.saving? = some document)
    (outcome : saving.reply = .saved result) : Part document [loading, saving] result where
  passed _ := by
    rintro rfl
    have saved : saving.reply.failure? = none := by rw [outcome]; rfl
    simp [loaded, saved]
  failed error := by
    rintro rfl
    exact ⟨[loading], saving, rfl, by rw [outcome]; rfl, by simp [loaded]⟩
  about := by simp [about, alsoAbout]
  saving := by simp [reads, writes]

theorem idle (document : Document) : Part document ([] : List (Exchange σ)) (.ok ()) where
  passed _ _ := nofun
  failed _ := nofun
  about := nofun
  saving := List.nil_sublist _

end Exchange.Part

namespace Recorded

variable {α Held : Type} {Sound : σ → Prop} {held : σ → Held} {load : ExceptT StoreError (StateM σ) α}
  {save : α → ExceptT StoreError (StateM σ) Unit}

theorem revise_run (register : Register Sound held load save) (change : α → α) (recorded : Recorded σ)
    (sound : Sound recorded.state) {document : Document} {loads : Request} {saves : α → Request}
    {reply : Except StoreError α → Reply}
    (loadsIt : loads.document = document ∧ loads.saving? = none)
    (savesIt : ∀ value, (saves value).document = document ∧ (saves value).saving? = some document)
    (replyOk : ∀ value, (reply (.ok value)).failure? = none)
    (replyError : ∀ error, (reply (.error error)).failure? = some error) :
    ∃ result final made, (do
        let value ← call loads reply load
        call (saves (change value)) .saved (save (change value)) :
          ExceptT StoreError (StateM (Recorded σ)) Unit).run.run recorded =
        (result, ⟨final, recorded.exchanges ++ made⟩) ∧
      Exchange.Part document made result ∧ Sound final ∧
      (∀ error, result = .error error → held final = held recorded.state) ∧
      (result = .ok () → register.Revised true change (held recorded.state) (held final)) := by
  rcases loaded : load.run.run recorded.state with ⟨read, between⟩
  obtain ⟨soundBetween, same, tells⟩ := register.load_run sound loaded
  have first := call_run recorded loaded loads reply
  cases read with
  | error error =>
    let loading : Exchange σ := ⟨recorded.state, loads, reply (.error error), between⟩
    have part : Exchange.Part document [loading] (.error error) :=
      .of_load loadsIt.1 loadsIt.2 (replyError error)
    exact ⟨_, between, _, run_bind_error first _, part, soundBetween, fun _ _ => same, nofun⟩
  | ok value =>
    -- the load has left what is held as it was, so the save changes what was there at first
    rcases saved : (save (change value)).run.run between with ⟨result, final⟩
    obtain ⟨soundFinal, left⟩ := register.save_run soundBetween saved
    let loading : Exchange σ := ⟨recorded.state, loads, reply (.ok value), between⟩
    let saving : Exchange σ := ⟨between, saves (change value), .saved result, final⟩
    have second := call_run ⟨between, recorded.exchanges ++ [loading]⟩ saved
      (saves (change value)) .saved
    have part : Exchange.Part document [loading, saving] result :=
      .of_save loadsIt.1 loadsIt.2 (replyOk value) (savesIt _).1 (savesIt _).2 rfl
    refine ⟨result, final, [loading, saving], (run_bind_ok first _).trans (second.trans ?_), part, soundFinal,
      ?_, ?_⟩
    · rw [List.append_assoc]
      rfl
    · rintro error rfl
      exact left.trans same
    · rintro rfl
      refine ⟨value, tells value rfl, ?_⟩
      rw [← same]
      exact left

end Recorded

/-! ### The two parts of a plan -/

namespace Plan

variable [Store (StateM σ)] (registers : Registers σ) (plan : Plan) (recorded : Recorded σ)
  (sound : registers.Sound recorded.state)
include sound

theorem recordTools_run : ∃ result final made,
    (plan.recordTools : ExceptT StoreError (StateM (Recorded σ)) Unit).run.run recorded =
      (result, ⟨final, recorded.exchanges ++ made⟩) ∧
    Exchange.Part .toolLibrary made result ∧ registers.Sound final ∧
    (∀ error, result = .error error → registers.held final = registers.held recorded.state) ∧
    (result = .ok () → registers.tools.Revised plan.touchesLibrary
      (fun tools => (Library.update ⟨tools⟩ plan.libraryUpdates).records)
      (registers.held recorded.state) (registers.held final)) := by
  unfold recordTools
  cases plan.touchesLibrary with
  | false =>
    exact ⟨.ok (), recorded.state, [], by rw [List.append_nil]; rfl, .idle _, sound, nofun, fun _ => rfl⟩
  | true =>
    exact Recorded.revise_run registers.tools _ recorded sound ⟨rfl, rfl⟩ (fun _ => ⟨rfl, rfl⟩)
      (fun _ => rfl) fun _ => rfl

theorem recordOverrides_run : ∃ result final made,
    (plan.recordOverrides : ExceptT StoreError (StateM (Recorded σ)) Unit).run.run recorded =
      (result, ⟨final, recorded.exchanges ++ made⟩) ∧
    Exchange.Part .settings made result ∧ registers.Sound final ∧
    (∀ error, result = .error error → registers.held final = registers.held recorded.state) ∧
    (result = .ok () → registers.settings.Revised plan.touchesSettings
      (fun settings => { settings with overrides := settings.overrides.update plan.persistedUpdates })
      (registers.held recorded.state) (registers.held final)) := by
  unfold recordOverrides
  cases plan.touchesSettings with
  | false =>
    exact ⟨.ok (), recorded.state, [], by rw [List.append_nil]; rfl, .idle _, sound, nofun, fun _ => rfl⟩
  | true =>
    exact Recorded.revise_run registers.settings _ recorded sound ⟨rfl, rfl⟩ (fun _ => ⟨rfl, rfl⟩) (fun _ => rfl)
      fun _ => rfl

end Plan

namespace Exchange.EndIn

variable {α β : Type} {exchanges first later : List (Exchange σ)} {result : Except StoreError α}

theorem append (passed : EndIn first (.ok ())) (ends : EndIn later result) : EndIn (first ++ later) result where
  passed value ok := List.forall_mem_append.mpr ⟨passed.passed () rfl, ends.passed value ok⟩
  failed error failed := by
    obtain ⟨earlier, failing, rfl, why, fine⟩ := ends.failed error failed
    exact ⟨first ++ earlier, failing, (List.append_assoc ..).symm, why,
      List.forall_mem_append.mpr ⟨passed.passed () rfl, fine⟩⟩

theorem map (ends : EndIn exchanges result) (f : α → β) : EndIn exchanges (result.map f) := by
  cases result with
  | error error =>
    refine ⟨nofun, ?_⟩
    rintro _ ⟨⟩
    exact ends.failed error rfl
  | ok value => exact ⟨fun _ _ => ends.passed value rfl, nofun⟩

end Exchange.EndIn

namespace Recorded

variable [Store (StateM σ)]

theorem follows_carryOut (plan : Plan) (session : Overrides) :
    Follows (plan.carryOut session : ExceptT StoreError (StateM (Recorded σ)) _) (plan.carryOut session) := by
  have records : Follows (plan.recordTools : ExceptT StoreError (StateM (Recorded σ)) _) plan.recordTools := by
    unfold Plan.recordTools
    cases plan.touchesLibrary with
    | false => exact follows_pure ()
    | true => exact (follows_call _ _ _).bind fun _ => follows_call _ _ _
  have overrides : Follows (plan.recordOverrides : ExceptT StoreError (StateM (Recorded σ)) _)
      plan.recordOverrides := by
    unfold Plan.recordOverrides
    cases plan.touchesSettings with
    | false => exact follows_pure ()
    | true => exact (follows_call _ _ _).bind fun _ => follows_call _ _ _
  rw [Plan.carryOut_eq, Plan.carryOut_eq]
  exact records.bind fun _ => overrides.bind fun _ => follows_pure _

end Recorded

/-! ### The plan as a whole -/

namespace Plan

variable [Store (StateM σ)]

/-- Where a plan stops, and what is held then. -/
theorem carryOut_run (registers : Registers σ) (plan : Plan) {state : σ} (sound : registers.Sound state)
    (session : Overrides) :
    let between := registers.tools.Revised plan.touchesLibrary
      (fun tools => (Library.update ⟨tools⟩ plan.libraryUpdates).records) (registers.held state)
    ∃ result final made, (plan.carryOut session : ExceptT StoreError (StateM (Recorded σ)) _).run.run ⟨state, []⟩ =
        (result, ⟨final, made⟩) ∧
      Exchange.EndIn made result ∧
      (made.filterMap (·.request.saving?)).Sublist [.toolLibrary, .settings] ∧
      ((∃ error, result = .error error ∧ (∀ exchange ∈ made, exchange.request.document = .toolLibrary) ∧
          registers.held final = registers.held state) ∨
        (∃ error, result = .error error ∧
          (∃ exchange, made.getLast? = some exchange ∧ exchange.request.document = .settings) ∧
          between (registers.held final)) ∨
        (result = .ok (session.update plan.sessionUpdates) ∧ ∃ held, between held ∧
          registers.settings.Revised plan.touchesSettings
            (fun settings => { settings with overrides := settings.overrides.update plan.persistedUpdates })
            held (registers.held final))) := by
  intro between
  rw [carryOut_eq]
  obtain ⟨result, now, made, ran, part, soundNow, kept, wrote⟩ :=
    plan.recordTools_run registers ⟨state, []⟩ sound
  rw [List.nil_append] at ran
  rcases result with error | ⟨⟩
  · exact ⟨.error error, now, made, run_bind_error ran _, part.toEndIn.map fun _ => session,
      part.saving.trans (List.sublist_append_left [Document.toolLibrary] [Document.settings]),
      .inl ⟨error, rfl, part.about, kept error rfl⟩⟩
  -- the overrides are written on top of what the records have become, and fail without touching them
  · obtain ⟨result, final, later, ranLater, partLater, -, keptLater, wroteLater⟩ :=
      plan.recordOverrides_run registers ⟨now, made⟩ soundNow
    have ends := (part.toEndIn.append partLater.toEndIn).map fun _ => session.update plan.sessionUpdates
    have saving : ((made ++ later).filterMap (·.request.saving?)).Sublist [.toolLibrary, .settings] := by
      rw [List.filterMap_append]
      exact part.saving.append partLater.saving
    rcases result with error | ⟨⟩
    · obtain ⟨earlier, failing, rfl, -, -⟩ := partLater.failed error rfl
      have last : (made ++ (earlier ++ [failing])).getLast? = some failing := by simp
      have about := partLater.about failing (by simp)
      refine ⟨.error error, final, _, (run_bind_ok ran _).trans (run_bind_error ranLater _), ends, saving,
        .inr (.inl ⟨error, rfl, ⟨failing, last, about⟩, ?_⟩)⟩
      rw [keptLater error rfl]
      exact wrote rfl
    · exact ⟨.ok (session.update plan.sessionUpdates), final, _,
        (run_bind_ok ran _).trans ((run_bind_ok ranLater _).trans rfl), ends, saving,
        .inr (.inr ⟨rfl, registers.held now, wrote rfl, wroteLater rfl⟩)⟩

omit [Store (StateM σ)] in
theorem carryOut_perm {plan other : Plan} (onceRecorded : (plan.libraryUpdates.map (·.1)).Nodup)
    (onceStored : (plan.persistedUpdates.map (·.1)).Nodup) (onceHeld : (plan.sessionUpdates.map (·.1)).Nodup)
    (library : other.libraryUpdates.Perm plan.libraryUpdates)
    (persisted : other.persistedUpdates.Perm plan.persistedUpdates)
    (sessions : other.sessionUpdates.Perm plan.sessionUpdates) {m : Type → Type} [Monad m] [Store m]
    (session : Overrides) :
    (other.carryOut session : ExceptT StoreError m _) = plan.carryOut session := by
  have touchesLibrary : other.touchesLibrary = plan.touchesLibrary := by
    rw [Plan.touchesLibrary, library.isEmpty_eq]
    rfl
  have touchesSettings : other.touchesSettings = plan.touchesSettings := by
    rw [Plan.touchesSettings, persisted.isEmpty_eq]
    rfl
  unfold carryOut
  simp only [touchesLibrary, touchesSettings, Library.update_perm onceRecorded library,
    Overrides.update_perm onceStored persisted, Overrides.update_perm onceHeld sessions]

/-- An accepted plan is carried out on documents as they are by then, however they have changed since it was
made. At most the library and then the settings are saved, each once. If all goes well, what the library told
is stored with the planned pockets, what the settings told with the planned overrides, and the session has the
planned ones too. If a call fails it is the last one, the session and the settings are as they were, and so are
the records, unless the call was about the settings: then the records have all the planned pockets. No layer is
updated twice for one tool, so the order of a layer's updates is of no account. -/
theorem carryOut_outcome (registers : Registers σ) {layers : Layers} {capacity : UInt32} {tool : ToolId}
    {target : Override} {plan : Plan} (accepted : layers.plan capacity tool target = .ok plan) {state : σ}
    (sound : registers.Sound state) (session : Overrides) :
    let ran := (plan.carryOut session : ExceptT StoreError (StateM (Recorded σ)) _).run.run ⟨state, []⟩
    let before := registers.held state
    let after := registers.held ran.2.state
    let recorded := registers.tools.Revised plan.touchesLibrary
      (fun tools => (Library.updateAtOnce ⟨tools⟩ plan.libraryUpdates).records) before
    (plan.carryOut session : ExceptT StoreError (StateM σ) _).run.run state = (ran.1, ran.2.state) ∧
    (ran.2.exchanges.filterMap (·.request.saving?)).Sublist [.toolLibrary, .settings] ∧
    (∀ now, ran.1 = .ok now →
      (∀ exchange ∈ ran.2.exchanges, exchange.reply.failure? = none) ∧
      (∃ between, recorded between ∧ registers.settings.Revised plan.touchesSettings
        (fun settings => { settings with overrides := settings.overrides.update plan.persistedUpdates })
        between after) ∧
      ∀ other, now.get? other = (plan.sessionUpdates.lookup other).getD (session.get? other)) ∧
    (∀ error, ran.1 = .error error →
      ((Store.orElse (plan.carryOut session) session : StateM σ _).run state).1 = session ∧
      registers.settings.told? after = registers.settings.told? before ∧
      ∃ earlier failing, ran.2.exchanges = earlier ++ [failing] ∧ failing.reply.failure? = some error ∧
        (∀ exchange ∈ earlier, exchange.reply.failure? = none) ∧
        ((failing.request.document = .toolLibrary ∧ after = before) ∨
          (failing.request.document = .settings ∧ recorded after))) ∧
    (plan.libraryUpdates.map (·.1)).Nodup ∧ (plan.persistedUpdates.map (·.1)).Nodup ∧
    (plan.sessionUpdates.map (·.1)).Nodup ∧
    (∀ (overrides : Overrides) (other : ToolId), (overrides.update plan.persistedUpdates).get? other =
      (plan.persistedUpdates.lookup other).getD (overrides.get? other)) ∧
    ∀ other : Plan, other.libraryUpdates.Perm plan.libraryUpdates →
      other.persistedUpdates.Perm plan.persistedUpdates → other.sessionUpdates.Perm plan.sessionUpdates →
      ∀ (m : Type → Type) [Monad m] [Store m],
        (other.carryOut session : ExceptT StoreError m _) = plan.carryOut session := by
  obtain ⟨-, -, drafted⟩ := Layers.plan_eq_ok_iff.mp accepted
  have onceRecorded : (plan.libraryUpdates.map (·.1)).Nodup :=
    drafted ▸ Layers.nodup_libraryUpdates layers tool target
  have onceStored : (plan.persistedUpdates.map (·.1)).Nodup :=
    drafted ▸ Layers.nodup_persistedUpdates layers tool target
  have onceHeld : (plan.sessionUpdates.map (·.1)).Nodup :=
    drafted ▸ Layers.nodup_sessionUpdates layers tool target
  obtain ⟨result, final, made, ran, ends, saving, outcome⟩ := carryOut_run registers plan sound session
  have plain := Recorded.follows_carryOut plan session ⟨state, []⟩
  simp only [Library.update_eq_updateAtOnce _ onceRecorded] at outcome
  rw [ran] at plain ⊢
  refine ⟨plain, saving, ?_, ?_, onceRecorded, onceStored, onceHeld,
    fun overrides => Overrides.get?_update overrides onceStored,
    fun other library persisted sessions m _ _ =>
      carryOut_perm onceRecorded onceStored onceHeld library persisted sessions session⟩
  · rintro now rfl
    obtain ⟨_, ⟨⟩, -⟩ | ⟨_, ⟨⟩, -⟩ | ⟨same, reached⟩ := outcome
    obtain rfl := Except.ok.inj same
    exact ⟨ends.passed _ rfl, reached, Overrides.get?_update session onceHeld⟩
  · rintro error rfl
    obtain ⟨earlier, failing, rfl, why, fine⟩ := ends.failed error rfl
    refine ⟨?_, ?_, earlier, failing, rfl, why, fine, ?_⟩
    · unfold Store.orElse
      rw [run_bind plain]
      rfl
    · obtain ⟨_, -, -, same⟩ | ⟨_, -, -, reached⟩ | ⟨⟨⟩, -⟩ := outcome
      · exact congrArg registers.settings.told? same
      · exact Registers.told?_settings_of_revised reached
    · obtain ⟨_, -, about, same⟩ | ⟨_, -, ⟨exchange, last, about⟩, reached⟩ | ⟨⟨⟩, -⟩ := outcome
      · exact .inl ⟨about failing (by simp), same⟩
      · obtain rfl : failing = exchange := by simpa using last
        exact .inr ⟨about, reached⟩

omit [Store (StateM σ)] in
/-- Tool 1 was to go to pocket 2. By now it is no longer in the library, where tool 3 is new, and the settings
have got an override of tool 3. The settings cannot be saved: tool 2 has pocket 1 on record all the same. -/
theorem carryOut_outcome_refused :
    let library : Library := ⟨[{ id := 1, pocket := some 1 }, { id := 2, pocket := some 2 }]⟩
    let layers : Layers := ⟨library, Table.empty, Table.empty⟩
    let stored : Settings := { overrides := Table.ofList [(3, .inPocket 7)] }
    let store : Scripted := {
      documents := { tools := [{ id := 3, pocket := some 3 }, { id := 2, pocket := some 2 }], settings := stored }
      script := [none, none, none, some .refused] }
    let session : Overrides := Table.ofList [(60, .inPocket 4)]
    ∃ plan, layers.plan 8 1 (.inPocket 2) = .ok plan ∧
      let ran := (plan.carryOut session : ExceptT StoreError (StateM (Recorded Scripted)) _).run.run ⟨store, []⟩
      ran.1 = .error .refused ∧
      (ran.2.exchanges.filterMap (·.request.saving?)) = [.toolLibrary, .settings] ∧
      ran.2.state.documents.tools.map (fun tool => (tool.id, tool.pocket)) = [(3, some 3), (2, some 1)] ∧
      some ran.2.state.documents.settings = some stored ∧
      ((Store.orElse (plan.carryOut session) session : StateM Scripted _).run store).1 = session := by
  intro library layers stored store session
  have accepted : layers.plan 8 1 (.inPocket 2) = .ok (layers.draft 1 (.inPocket 2)) :=
    Layers.plan_eq_ok_iff.mpr ⟨by decide, fun pocket same => by cases same; decide, rfl⟩
  refine ⟨_, accepted, ?_⟩
  intro ran
  have sound : Scripted.registers.Sound store := trivial
  obtain ⟨-, -, -, failed, -⟩ := carryOut_outcome Scripted.registers accepted sound session
  have refused : ran.1 = .error .refused := by rfl
  obtain ⟨kept, settings, -⟩ := failed _ refused
  exact ⟨refused, by decide +kernel, by decide +kernel, settings, kept⟩

end Plan
end ToolChanger

import Mathlib
import ToolChanger.Proofs.Load.CarryOut
import ToolChanger.Proofs.Store.Disk
import ToolChanger.Proofs.Store.Faulty

/-!
# Documents as registers

However the file system fails, a folder answers a sequence of requests as one register for each document would.
What a single request does is said once (`Contents.Step`), what a sequence does follows (`told_before`).
-/

namespace ToolChanger

open Store (Request Reply)

/-- Whether what a request saves can be stored, and printing it loses nothing. -/
def Store.Request.Storable : Request → Prop
  | saveTools tools =>
    (∀ tool ∈ tools, tool.Storable) ∧ Document.toolLibrary.Lossless (Tool.listToJson tools)
  | saveSettings settings => settings.Storable ∧ Document.settings.Lossless settings.toJson
  | _ => True

namespace Folder

variable {σ : Type} [FileSystem (StateM σ)]

def exchange (folder : Folder) (request : Request) (state : σ) : Exchange σ :=
  let answered := ((Store.answer request : In (StateM σ) Reply).run folder).run state
  ⟨state, request, answered.1, answered.2⟩

def exchanges (folder : Folder) : List Request → σ → List (Exchange σ)
  | [], _ => []
  | request :: rest, state =>
    let first := folder.exchange request state
    first :: folder.exchanges rest first.after

end Folder

/-! ### A single request -/

/-- What a request does to the documents, whatever its reply: a load tells what the document says, and a save
has succeeded or has left everything as it was. -/
inductive Contents.Step (contents : Contents) : Request → Reply → Contents → Prop
  | loadTools : Step contents .loadTools (.tools contents.tools) contents
  | loadSettings : Step contents .loadSettings (.settings contents.settings) contents
  | loadMachine : Step contents .loadMachine (.machine contents.machine) contents
  | saveTools (tools : List Tool) :
    Step contents (.saveTools tools) (.saved (.ok ())) (contents.put .toolLibrary (Tool.listToJson tools))
  | keepTools (tools : List Tool) (error : StoreError) :
    Step contents (.saveTools tools) (.saved (.error error)) contents
  | saveSettings (settings : Settings) (valid : settings.isValid = true) :
    Step contents (.saveSettings settings) (.saved (.ok ())) (contents.put .settings settings.toJson)
  | keepSettings (settings : Settings) (error : StoreError) :
    Step contents (.saveSettings settings) (.saved (.error error)) contents

namespace Folder

variable {σ : Type} [FileSystem (StateM σ)] {folder : Folder} {Sound : σ → Prop} {contents : Contents}
  {state : σ}

omit [FileSystem (StateM σ)] in
theorem run_inFolder {α : Type} {action : Folder → ExceptT StoreError (StateM σ) α}
    {result : Except StoreError α} {final : σ} (ran : (action folder).run.run state = (result, final))
    (reply : Except StoreError α → Reply) :
    ((do return reply (← (inFolder action).run) : In (StateM σ) Reply).run folder).run state =
      (reply result, final) := by
  change ((action folder).run >>= fun result => pure (reply result)).run state = _
  rw [run_bind ran]
  rfl

theorem step_of_answer {request : Request} {reply : Reply} {next : Contents} {final : σ}
    (answers : ((Store.answer request : In (StateM σ) Reply).run folder).run state = (reply, final))
    (step : contents.Step request reply next) (holdsFinal : folder.Holds Sound next final) :
    ∃ next, contents.Step request (folder.exchange request state).reply next ∧
      folder.Holds Sound next (folder.exchange request state).after := by
  rw [exchange, answers]
  exact ⟨next, step, holdsFinal⟩

theorem loadSettings_run (lawful : folder.Lawful Sound) (holds : folder.Holds Sound contents state) :
    ∃ final, (do
        let settings ← folder.load .settings {} Settings.ofJson?
        settings.validate
        return settings : ExceptT StoreError (StateM σ) Settings).run.run state = (contents.settings, final) ∧
      folder.Holds Sound contents final := by
  obtain ⟨final, ran, holdsFinal⟩ := lawful.load_run .settings {} Settings.ofJson? holds
  refine ⟨final, ?_, holdsFinal⟩
  rw [ExceptT.run_bind, run_bind ran]
  rcases given : contents.read .settings {} Settings.ofJson? with error | settings
  · rw [given, Contents.settings, given]
    rfl
  · rw [given, Contents.settings_of_read given]
    refine (run_validate settings (pure settings) final).trans ?_
    cases settings.isValid <;> rfl

theorem exchange_step (lawful : folder.Lawful Sound) (request : Request)
    (holds : folder.Holds Sound contents state) :
    ∃ next, contents.Step request (folder.exchange request state).reply next ∧
      folder.Holds Sound next (folder.exchange request state).after := by
  cases request with
  | loadTools =>
    obtain ⟨final, ran, holdsFinal⟩ := lawful.load_run .toolLibrary [] Tool.listOfJson? holds
    exact step_of_answer (run_inFolder ran .tools) .loadTools holdsFinal
  | loadSettings =>
    obtain ⟨final, ran, holdsFinal⟩ := loadSettings_run lawful holds
    exact step_of_answer (run_inFolder ran .settings) .loadSettings holdsFinal
  | loadMachine =>
    obtain ⟨final, ran, holdsFinal⟩ := lawful.load_run .machine {} Machine.ofJson? holds
    exact step_of_answer (run_inFolder ran .machine) .loadMachine holdsFinal
  | saveTools tools =>
    rcases ran : (folder.save .toolLibrary (Tool.listToJson tools) :
      ExceptT StoreError (StateM σ) _).run.run state with ⟨outcome, final⟩
    have holdsFinal := lawful.save_run _ _ holds ran
    rcases outcome with error | ⟨⟩
    · exact step_of_answer (run_inFolder ran .saved) (.keepTools tools error) holdsFinal
    · exact step_of_answer (run_inFolder ran .saved) (.saveTools tools) holdsFinal
  | saveSettings settings =>
    have validated := run_validate settings (folder.save .settings settings.toJson) state
    rcases ran : (folder.save .settings settings.toJson :
      ExceptT StoreError (StateM σ) _).run.run state with ⟨outcome, final⟩
    have holdsFinal := lawful.save_run _ _ holds ran
    rw [ran] at validated
    split at validated
    · rename_i valid
      rcases outcome with error | ⟨⟩
      · exact step_of_answer (run_inFolder validated .saved) (.keepSettings settings error) holdsFinal
      · exact step_of_answer (run_inFolder validated .saved) (.saveSettings settings valid) holdsFinal
    · exact step_of_answer (run_inFolder validated .saved) (.keepSettings settings .blankLabel) holds

end Folder

namespace Contents.Step

theorem of_loadTools {contents next : Contents} {reply : Reply} (step : contents.Step .loadTools reply next) :
    reply = .tools contents.tools := by
  cases step
  rfl

theorem of_loadSettings {contents next : Contents} {reply : Reply}
    (step : contents.Step .loadSettings reply next) : reply = .settings contents.settings := by
  cases step
  rfl

theorem of_loadMachine {contents next : Contents} {reply : Reply}
    (step : contents.Step .loadMachine reply next) : reply = .machine contents.machine := by
  cases step
  rfl

variable {σ : Type} {contents next : Contents} {exchange : Exchange σ}
  (step : contents.Step exchange.request exchange.reply next)
include step

theorem untouched (document : Document) (stays : exchange.replaced? ≠ some document) :
    next document = contents document := by
  obtain ⟨before, request, reply, after⟩ := exchange
  cases step with
  | saveTools tools => exact put_of_ne fun same => stays (same ▸ rfl)
  | saveSettings settings valid => exact put_of_ne fun same => stays (same ▸ rfl)
  | _ => rfl

theorem tools (storable : exchange.request.Storable) :
    next.tools = exchange.savedTools?.elim contents.tools .ok := by
  have stays := step.untouched .toolLibrary
  obtain ⟨before, request, reply, after⟩ := exchange
  cases step with
  | saveTools tools => exact tools_put storable.1 storable.2
  | _ => exact read_congr (stays nofun) _ _

theorem settings (storable : exchange.request.Storable) :
    next.settings = exchange.savedSettings?.elim contents.settings .ok := by
  have stays := step.untouched .settings
  obtain ⟨before, request, reply, after⟩ := exchange
  cases step with
  | saveSettings settings valid => exact settings_put storable.1 valid storable.2
  | _ => exact settings_congr (stays nofun)

theorem machine : next.machine = contents.machine := by
  have stays := step.untouched .machine
  obtain ⟨before, request, reply, after⟩ := exchange
  cases step <;> exact read_congr (stays nofun) _ _

end Contents.Step

/-! ### A sequence of requests -/

namespace Folder

open Exchange (last?)

variable {σ : Type} [FileSystem (StateM σ)] {folder : Folder} {Sound : σ → Prop} {state : σ}
  {requests : List Request}

theorem step_of_mem_exchanges (lawful : folder.Lawful Sound) (sound : Sound state) {exchange : Exchange σ}
    (listed : exchange ∈ folder.exchanges requests state) : exchange.request ∈ requests ∧
      (folder.contents exchange.before).Step exchange.request exchange.reply (folder.contents exchange.after) := by
  induction requests generalizing state with
  | nil => cases listed
  | cons request rest ih =>
    obtain ⟨next, step, holds⟩ := exchange_step lawful request (holds_contents sound)
    rw [← holds.same] at step
    rcases List.mem_cons.mp listed with rfl | later
    · exact ⟨List.mem_cons_self, step⟩
    · obtain ⟨asked, stepLater⟩ := ih holds.sound later
      exact ⟨List.mem_cons_of_mem _ asked, stepLater⟩

theorem told_before {α β : Type} (told : σ → β) {pick : Exchange σ → Option α} {tell : α → β}
    (effect : ∀ exchange ∈ folder.exchanges requests state,
      told exchange.after = (pick exchange).elim (told exchange.before) tell)
    {earlier later : List (Exchange σ)} {exchange : Exchange σ}
    (split : folder.exchanges requests state = earlier ++ exchange :: later) :
    told exchange.before = (last? pick earlier).elim (told state) tell := by
  -- the picks of the later exchanges count first, and those are answered from the state after the first one
  induction requests generalizing state earlier with
  | nil => cases earlier <;> cases split
  | cons request rest ih =>
    cases earlier with
    | nil =>
      obtain rfl := (List.cons.inj split).1
      rfl
    | cons first earlier =>
      obtain ⟨rfl, splitRest⟩ := List.cons.inj split
      have begins := effect _ List.mem_cons_self
      have goesOn := ih (fun other listed => effect other (List.mem_cons_of_mem _ listed)) splitRest
      rw [goesOn, begins, Exchange.last?_cons]
      cases last? pick earlier <;> rfl

/-- A folder is a register for each of its documents. Whatever fails while a sequence of requests is answered, a
load tells what was last saved with success, and what the file said at first if nothing was, a default if it was
missing or blank. The file of a document stays as it is, byte by byte, unless that document is saved with
success. -/
theorem exchanges_atomic (lawful : folder.Lawful Sound) (sound : Sound state)
    (storable : ∀ request ∈ requests, request.Storable) {earlier later : List (Exchange σ)}
    {exchange : Exchange σ} (split : folder.exchanges requests state = earlier ++ exchange :: later) :
    let first := folder.contents state
    (exchange.request = .loadTools →
      exchange.reply = .tools ((last? Exchange.savedTools? earlier).elim first.tools .ok)) ∧
    (exchange.request = .loadSettings →
      exchange.reply = .settings ((last? Exchange.savedSettings? earlier).elim first.settings .ok)) ∧
    (exchange.request = .loadMachine → exchange.reply = .machine first.machine) ∧
    (first.Vacant .toolLibrary → first.tools = .ok []) ∧
    (first.Vacant .settings → first.settings = .ok {}) ∧
    (first.Vacant .machine → first.machine = .ok {}) ∧
    ∀ document, exchange.replaced? ≠ some document →
      folder.contents exchange.after document = folder.contents exchange.before document := by
  have steps (other : Exchange σ) (listed : other ∈ folder.exchanges requests state) :=
    step_of_mem_exchanges lawful sound listed
  have step := (steps exchange (split ▸ List.mem_append_right _ List.mem_cons_self)).2
  have tools : (folder.contents exchange.before).tools =
      (last? Exchange.savedTools? earlier).elim (folder.contents state).tools .ok := by
    refine told_before (fun state => (folder.contents state).tools) (fun other listed => ?_) split
    obtain ⟨asked, stepOther⟩ := steps other listed
    exact stepOther.tools (storable other.request asked)
  have settings : (folder.contents exchange.before).settings =
      (last? Exchange.savedSettings? earlier).elim (folder.contents state).settings .ok := by
    refine told_before (fun state => (folder.contents state).settings) (fun other listed => ?_) split
    obtain ⟨asked, stepOther⟩ := steps other listed
    exact stepOther.settings (storable other.request asked)
  have machine : (folder.contents exchange.before).machine = (folder.contents state).machine := by
    have constant (other : Exchange σ) (listed : other ∈ folder.exchanges requests state) :
        (folder.contents other.after).machine =
          (none : Option Machine).elim (folder.contents other.before).machine .ok :=
      (steps other listed).2.machine
    have kept := told_before (fun state => (folder.contents state).machine) constant split
    rwa [Exchange.last?_none] at kept
  refine ⟨fun asked => ?_, fun asked => ?_, fun asked => ?_, fun vacant => Contents.read_of_vacant vacant _ _,
    Contents.settings_of_vacant, fun vacant => Contents.read_of_vacant vacant _ _,
    step.untouched⟩
  all_goals rw [asked] at step
  · rw [step.of_loadTools, tools]
  · rw [step.of_loadSettings, settings]
  · rw [step.of_loadMachine, machine]

/-- Settings are saved, other settings are written only in part, and the first ones are read again. -/
theorem exchanges_atomic_torn :
    let folder : Folder := ⟨"data"⟩
    let overruled : Settings := { overrides := Table.empty.insert 5 .outOfMagazine }
    let state : Faulty Disk := ⟨{}, [none, none, none, none, some ⟨#[0x7b]⟩]⟩
    let first := folder.exchange (.saveSettings overruled) state
    let second := folder.exchange (.saveSettings {}) first.after
    let third := folder.exchange .loadSettings second.after
    first.saves = true ∧ second.saves = false ∧ third.reply = .settings (.ok overruled) := by
  intro folder overruled state first second third
  have descend : Path.Downward (Path.parts folder.path) := by
    unfold Path.Downward
    decide
  have storable : ∀ request ∈ [Request.saveSettings overruled, .saveSettings {}, .loadSettings],
      request.Storable := by
    have overrides : overruled.overrides.Storable := Overrides.storable_empty.insert (by decide) nofun
    have losslessFirst : Document.settings.Lossless overruled.toJson := by cbv
    have losslessSecond : Document.settings.Lossless ({} : Settings).toJson := by cbv
    simp only [List.forall_mem_cons]
    exact ⟨⟨⟨overrides, Settings.storable_default.extra⟩, losslessFirst⟩,
      ⟨Settings.storable_default, losslessSecond⟩, trivial, List.forall_mem_nil _⟩
  have saves : first.saves = true := by decide +kernel
  have fails : second.saves = false := by decide +kernel
  have split : folder.exchanges [.saveSettings overruled, .saveSettings {}, .loadSettings] state =
      [first, second] ++ third :: [] := rfl
  have last : last? Exchange.savedSettings? [first, second] = some overruled := by
    have picked : first.savedSettings? = some overruled := if_pos saves
    have passed : second.savedSettings? = none := if_neg (by rw [fails]; exact Bool.false_ne_true)
    rw [Exchange.last?_cons, Exchange.last?_cons, picked, passed]
    rfl
  have told := (exchanges_atomic (Faulty.lawful (Disk.lawful descend)) Disk.sound_empty storable split).2.1 rfl
  rw [last] at told
  exact ⟨saves, fails, told⟩

/-! ### A folder as a store of its own -/

@[reducible] def store (folder : Folder) : Store (StateM σ) where
  loadTools := ExceptT.mk ((Store.loadTools : ExceptT StoreError (In (StateM σ)) _).run.run folder)
  saveTools tools := ExceptT.mk ((Store.saveTools tools : ExceptT StoreError (In (StateM σ)) _).run.run folder)
  loadSettings := ExceptT.mk ((Store.loadSettings : ExceptT StoreError (In (StateM σ)) _).run.run folder)
  saveSettings settings :=
    ExceptT.mk ((Store.saveSettings settings : ExceptT StoreError (In (StateM σ)) _).run.run folder)
  loadMachine := ExceptT.mk ((Store.loadMachine : ExceptT StoreError (In (StateM σ)) _).run.run folder)

def registers (lawful : folder.Lawful Sound) : @Store.Registers σ folder.store :=
  letI := folder.store (σ := σ)
  { Held := Contents
    held := folder.contents
    Sound := Sound
    tools := {
      told? := fun contents => contents.tools.toOption
      put := fun tools contents => contents.put .toolLibrary (Tool.listToJson tools)
      load_run := by
        intro state final result sound ran
        obtain ⟨next, loads, holds⟩ := lawful.load_run .toolLibrary [] Tool.listOfJson? (holds_contents sound)
        obtain ⟨rfl, rfl⟩ := Prod.mk.inj (loads.symm.trans ran)
        exact ⟨holds.sound, holds.same, fun value told => by rw [Contents.tools, told]; rfl⟩
      save_run := by
        intro state final tools result sound ran
        have holds := lawful.save_run .toolLibrary (Tool.listToJson tools) (holds_contents sound) ran
        refine ⟨holds.sound, ?_⟩
        cases result <;> exact holds.same }
    settings := {
      told? := fun contents => contents.settings.toOption
      put := fun settings contents => contents.put .settings settings.toJson
      load_run := by
        intro state final result sound ran
        obtain ⟨next, loads, holds⟩ := loadSettings_run lawful (holds_contents sound)
        obtain ⟨rfl, rfl⟩ := Prod.mk.inj (loads.symm.trans ran)
        exact ⟨holds.sound, holds.same, fun value told => by rw [told]; rfl⟩
      save_run := by
        intro state final settings result sound ran
        have validated := (run_validate settings (folder.save .settings settings.toJson) state).symm.trans ran
        split at validated
        · have holds := lawful.save_run .settings settings.toJson (holds_contents sound) validated
          refine ⟨holds.sound, ?_⟩
          cases result <;> exact holds.same
        · obtain ⟨rfl, rfl⟩ := Prod.mk.inj validated
          exact ⟨sound, rfl⟩ }
    settings_putTools := fun tools contents =>
      congrArg Except.toOption (contents.settings_putTools tools)
    tools_putSettings := fun settings contents =>
      congrArg Except.toOption (contents.tools_putSettings settings) }

end Folder

end ToolChanger

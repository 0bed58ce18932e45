import ToolChanger.Proofs.Load.Scripted
import ToolChanger.Proofs.Store.Exchange

/-!
# What a store keeps

The library and the settings of a store are registers if a load leaves what is held as it is, and a save that does
not put the document in place does so too. What counts as held is up to the store.
-/

namespace ToolChanger

namespace Store

/-- What is held after a save that came to an outcome: what was to be put there, or what was there before. -/
def heldAfter {Held : Type} (outcome : Except StoreError Unit) (before put : Held) : Held :=
  match outcome with
  | .ok _ => put
  | .error _ => before

/-- One document that is read and replaced as a whole. The laws hold as long as the state is sound. -/
structure Register {σ α Held : Type} (Sound : σ → Prop) (held : σ → Held)
    (load : ExceptT StoreError (StateM σ) α) (save : α → ExceptT StoreError (StateM σ) Unit) where
  /-- What a load tells that does not fail. -/
  told? : Held → Option α
  put : α → Held → Held
  load_run {state final : σ} {result : Except StoreError α} (sound : Sound state)
    (ran : load.run.run state = (result, final)) :
    Sound final ∧ held final = held state ∧ ∀ value, result = .ok value → told? (held state) = some value
  save_run {state final : σ} {value : α} {result : Except StoreError Unit} (sound : Sound state)
    (ran : (save value).run.run state = (result, final)) :
    Sound final ∧ held final = heldAfter result (held state) (put value (held state))

/-- The two documents of a store that are written. Replacing one leaves the other one alone. -/
structure Registers (σ : Type) [Store (StateM σ)] where
  Held : Type
  held : σ → Held
  Sound : σ → Prop
  tools : Register Sound held Store.loadTools Store.saveTools
  settings : Register Sound held Store.loadSettings Store.saveSettings
  settings_putTools (value : List Tool) (now : Held) : settings.told? (tools.put value now) = settings.told? now
  tools_putSettings (value : Settings) (now : Held) : tools.told? (settings.put value now) = tools.told? now

namespace Register

variable {σ α Held : Type} {Sound : σ → Prop} {held : σ → Held} {load : ExceptT StoreError (StateM σ) α}
  {save : α → ExceptT StoreError (StateM σ) Unit}

/-- What is held before and after a document was read and written with a change, if it was to be changed. -/
def Revised (register : Register Sound held load save) (touched : Bool) (change : α → α)
    (before after : Held) : Prop :=
  if touched then ∃ value, register.told? before = some value ∧ after = register.put (change value) before
  else after = before

end Register

theorem Registers.told?_settings_of_revised {σ : Type} [Store (StateM σ)] {registers : Registers σ}
    {touched : Bool} {change : List Tool → List Tool} {before after : registers.Held}
    (revised : registers.tools.Revised touched change before after) :
    registers.settings.told? after = registers.settings.told? before := by
  unfold Register.Revised at revised
  split at revised
  · obtain ⟨tools, -, rfl⟩ := revised
    exact registers.settings_putTools _ _
  · rw [revised]

end Store

/-! ### Documents behind a script -/

namespace Scripted

open Store (Register Registers)

variable {α : Type}

def register (get : Documents → α) (put : α → Documents → Documents) :
    Register (fun _ => True) Scripted.documents (read get) fun value => write (put value) where
  told? documents := some (get documents)
  put := put
  load_run {store final result} _ ran := by
    rw [read, call_run] at ran
    cases fails : store.failure? with
    | some error =>
      rw [fails] at ran
      obtain ⟨rfl, rfl⟩ := Prod.mk.inj ran
      exact ⟨trivial, rfl, nofun⟩
    | none =>
      rw [fails] at ran
      obtain ⟨rfl, rfl⟩ := Prod.mk.inj ran
      exact ⟨trivial, rfl, fun value told => congrArg some (Except.ok.inj told)⟩
  save_run {store final value result} _ ran := by
    rw [write, call_run] at ran
    cases fails : store.failure? with
    | some error =>
      rw [fails] at ran
      obtain ⟨rfl, rfl⟩ := Prod.mk.inj ran
      exact ⟨trivial, rfl⟩
    | none =>
      rw [fails] at ran
      obtain ⟨rfl, rfl⟩ := Prod.mk.inj ran
      exact ⟨trivial, rfl⟩

def registers : Registers Scripted where
  Held := Documents
  held := documents
  Sound _ := True
  tools := register (·.tools) fun tools documents => { documents with tools }
  settings := register (·.settings) fun settings documents => { documents with settings }
  settings_putTools _ _ := rfl
  tools_putSettings _ _ := rfl

end Scripted

/-! ### Documents in memory -/

namespace Memory

open Store (Register Registers)

def documents (memory : Memory) : Documents := ⟨memory.tools, memory.settings, memory.machine⟩

theorem load_law {α : Type} (document : Document) (tell : Documents → α) {memory final : Memory}
    {result : Except StoreError α} (ran : (read document (tell ·.documents)).run.run memory = (result, final)) :
    True ∧ final.documents = memory.documents ∧
      ∀ value, result = .ok value → some (tell memory.documents) = some value := by
  obtain ⟨tools, settings, machine, failReads, others⟩ := memory
  cases failReads with
  | true =>
    obtain ⟨rfl, rfl⟩ := Prod.mk.inj ran
    exact ⟨trivial, rfl, nofun⟩
  | false =>
    obtain ⟨rfl, rfl⟩ := Prod.mk.inj ran
    exact ⟨trivial, rfl, fun value told => congrArg some (Except.ok.inj told)⟩

theorem save_law (document : Document) (put : Memory → Memory) {memory final : Memory}
    {result : Except StoreError Unit} (ran : (write document put).run.run memory = (result, final)) :
    True ∧ final.documents = Store.heldAfter result memory.documents (put memory).documents := by
  obtain ⟨tools, settings, machine, failReads, failWrites, others⟩ := memory
  cases failWrites with
  | true =>
    obtain ⟨rfl, rfl⟩ := Prod.mk.inj ran
    exact ⟨trivial, rfl⟩
  | false =>
    obtain ⟨rfl, rfl⟩ := Prod.mk.inj ran
    exact ⟨trivial, rfl⟩

def registers : Registers Memory where
  Held := Documents
  held := documents
  Sound _ := True
  tools := {
    told? := fun documents => some documents.tools
    put := fun tools documents => { documents with tools }
    load_run := fun _ ran => load_law .toolLibrary Documents.tools ran
    save_run := fun _ ran => save_law .toolLibrary _ ran }
  settings := {
    told? := fun documents => some documents.settings
    put := fun settings documents => { documents with settings }
    load_run := fun _ ran => load_law .settings Documents.settings ran
    save_run := by
      intro memory final settings result _ ran
      -- Settings that are not valid are refused before anything is written.
      change ((settings.validate >>= fun _ => write .settings _) :
        ExceptT StoreError (StateM Memory) Unit).run.run memory = _ at ran
      rw [Settings.validate] at ran
      cases valid : settings.isValid with
      | true =>
        rw [valid] at ran
        exact save_law .settings _ ran
      | false =>
        rw [valid] at ran
        obtain ⟨rfl, rfl⟩ := Prod.mk.inj ran
        exact ⟨trivial, rfl⟩ }
  settings_putTools _ _ := rfl
  tools_putSettings _ _ := rfl

end Memory

end ToolChanger

import ToolChanger.Proofs.Load.Look

namespace ToolChanger

namespace Store

inductive Request where
  | loadTools
  | saveTools (tools : List Tool)
  | loadSettings
  | saveSettings (settings : Settings)
  | loadMachine

inductive Reply where
  | tools (said : Except StoreError (List Tool))
  | settings (said : Except StoreError Settings)
  | machine (said : Except StoreError Machine)
  | saved (outcome : Except StoreError Unit)

def Request.document : Request → Document
  | loadTools | saveTools _ => .toolLibrary
  | loadSettings | saveSettings _ => .settings
  | loadMachine => .machine

def Request.saving? : Request → Option Document
  | saveTools _ => some .toolLibrary
  | saveSettings _ => some .settings
  | _ => none

def Reply.failure? : Reply → Option StoreError
  | tools (.error error) | settings (.error error) | machine (.error error) | saved (.error error) => some error
  | _ => none

variable {m : Type → Type} [Monad m] [Store m]

def answer : Request → m Reply
  | .loadTools => do return .tools (← loadTools.run)
  | .saveTools tools => do return .saved (← (saveTools tools).run)
  | .loadSettings => do return .settings (← loadSettings.run)
  | .saveSettings settings => do return .saved (← (saveSettings settings).run)
  | .loadMachine => do return .machine (← loadMachine.run)

end Store

open Store (Request Reply)

structure Exchange (σ : Type) where
  before : σ
  request : Request
  reply : Reply
  after : σ

namespace Exchange

variable {σ : Type}

def saves (exchange : Exchange σ) : Bool :=
  match exchange.reply with
  | .saved (.ok _) => true
  | _ => false

def savedTools? (exchange : Exchange σ) : Option (List Tool) :=
  match exchange.request with
  | .saveTools tools => if exchange.saves then some tools else none
  | _ => none

def savedSettings? (exchange : Exchange σ) : Option Settings :=
  match exchange.request with
  | .saveSettings settings => if exchange.saves then some settings else none
  | _ => none

def replaced? (exchange : Exchange σ) : Option Document :=
  match exchange.request with
  | .saveTools _ => if exchange.saves then some .toolLibrary else none
  | .saveSettings _ => if exchange.saves then some .settings else none
  | _ => none

/-- What has been picked from the last exchange that something can be picked from. -/
def last? {α : Type} (pick : Exchange σ → Option α) (exchanges : List (Exchange σ)) : Option α :=
  exchanges.reverse.findSome? pick

theorem last?_cons {α : Type} (pick : Exchange σ → Option α) (first : Exchange σ) (rest : List (Exchange σ)) :
    last? pick (first :: rest) = (last? pick rest).or (pick first) := by
  rw [last?, List.reverse_cons, List.findSome?_append, List.findSome?_singleton]
  rfl

theorem last?_none {α : Type} (exchanges : List (Exchange σ)) :
    last? (fun _ => (none : Option α)) exchanges = none :=
  List.findSome?_eq_none_iff.mpr fun _ _ => rfl

end Exchange

/-! ### Exchanges on record -/

/-- A store with all exchanges so far, in order. -/
structure Recorded (σ : Type) where
  state : σ
  exchanges : List (Exchange σ) := []

namespace Recorded

variable {σ ε α β : Type}

def call (request : Request) (reply : Except StoreError α → Reply) (action : ExceptT StoreError (StateM σ) α) :
    ExceptT StoreError (StateM (Recorded σ)) α :=
  ExceptT.mk <| modifyGet fun recorded =>
    let answered := action.run.run recorded.state
    (answered.1, ⟨answered.2,
      recorded.exchanges ++ [⟨recorded.state, request, reply answered.1, answered.2⟩]⟩)

instance [Store (StateM σ)] : Store (StateM (Recorded σ)) where
  loadTools := call .loadTools .tools Store.loadTools
  saveTools tools := call (.saveTools tools) .saved (Store.saveTools tools)
  loadSettings := call .loadSettings .settings Store.loadSettings
  saveSettings settings := call (.saveSettings settings) .saved (Store.saveSettings settings)
  loadMachine := call .loadMachine .machine Store.loadMachine

theorem call_run (recorded : Recorded σ) {action : ExceptT StoreError (StateM σ) α}
    {result : Except StoreError α} {final : σ} (ran : action.run.run recorded.state = (result, final))
    (request : Request) (reply : Except StoreError α → Reply) :
    (call request reply action).run.run recorded =
      (result, ⟨final, recorded.exchanges ++ [⟨recorded.state, request, reply result, final⟩]⟩) := by
  change (let answered := action.run.run recorded.state; (answered.1, Recorded.mk answered.2
    (recorded.exchanges ++ [⟨recorded.state, request, reply answered.1, answered.2⟩]))) = _
  rw [ran]

/-! ### Nothing else is different -/

/-- What is done on record comes to the same as off it. -/
def Follows (action : ExceptT ε (StateM (Recorded σ)) α) (plain : ExceptT ε (StateM σ) α) : Prop :=
  ∀ recorded, plain.run.run recorded.state =
    ((action.run.run recorded).1, (action.run.run recorded).2.state)

theorem follows_pure (value : α) : Follows (pure value : ExceptT ε (StateM (Recorded σ)) α) (pure value) :=
  fun _ => rfl

theorem follows_call (request : Request) (reply : Except StoreError α → Reply)
    (action : ExceptT StoreError (StateM σ) α) : Follows (call request reply action) action := fun _ => rfl

theorem Follows.bind {action : ExceptT ε (StateM (Recorded σ)) α} {plain : ExceptT ε (StateM σ) α}
    {next : α → ExceptT ε (StateM (Recorded σ)) β} {plainNext : α → ExceptT ε (StateM σ) β}
    (first : Follows action plain) (later : ∀ value, Follows (next value) (plainNext value)) :
    Follows (action >>= next) (plain >>= plainNext) := by
  intro recorded
  have same := first recorded
  rcases ran : action.run.run recorded with ⟨result, final⟩
  rw [ran] at same
  cases result with
  | error error => rw [run_bind_error ran, run_bind_error same]
  | ok value =>
    rw [run_bind_ok ran, run_bind_ok same]
    exact later value final

end Recorded

end ToolChanger

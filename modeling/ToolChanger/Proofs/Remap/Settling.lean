import Mathlib.Logic.Relation
import ToolChanger.Remap.Reconcile

/-!
# Settling pass by pass

`reconcile` makes one pass over the pockets. It comes to the same as looking for the lowest contested pocket,
settling it and looking again, until there is none (`passes_settleAll`).
-/

namespace ToolChanger
namespace Layers

/-- No two tools resolve to one pocket. -/
def OneToolPerPocket (layers : Layers) : Prop :=
  ∀ a b pocket, layers.pocketOf a = some pocket → layers.pocketOf b = some pocket → a = b

/-- Settles the lowest contested pocket, if there is one. -/
def settleLowest? (previous : Overrides) (capacity : UInt32) (layers : Layers) : Option Layers :=
  layers.contested.head?.map (layers.settle previous capacity)

def Pass (previous : Overrides) (capacity : UInt32) (layers next : Layers) : Prop :=
  layers.settleLowest? previous capacity = some next

variable {previous : Overrides} {capacity : UInt32} {layers next : Layers} {pocket : Pocket}

theorem oneToolPerPocket_iff : layers.OneToolPerPocket ↔ layers.contested = [] := by
  rw [List.eq_nil_iff_forall_not_mem]
  constructor
  · intro apart pocket disputed
    obtain ⟨a, b, different, heldA, heldB⟩ := mem_contested.mp disputed
    exact different (apart a b pocket heldA heldB)
  · intro clear a b pocket heldA heldB
    by_cases same : a = b
    · exact same
    · exact absurd (mem_contested.mpr ⟨a, b, same, heldA, heldB⟩) (clear pocket)

/-! ### One pass -/

theorem pass_iff : Pass previous capacity layers next ↔
    ∃ lowest others, layers.contested = lowest :: others ∧
      next = layers.settle previous capacity lowest := by
  unfold Pass settleLowest?
  cases disputes : layers.contested with
  | nil => simp
  | cons lowest others =>
    simp only [List.head?_cons, Option.map_some, Option.some.injEq, List.cons.injEq]
    constructor
    · intro same
      exact ⟨lowest, others, ⟨rfl, rfl⟩, same.symm⟩
    · rintro ⟨_, _, ⟨rfl, rfl⟩, same⟩
      exact same.symm

theorem not_pass_iff : (∀ next, ¬ Pass previous capacity layers next) ↔ layers.OneToolPerPocket := by
  rw [oneToolPerPocket_iff]
  unfold Pass settleLowest?
  cases layers.contested <;> simp

theorem length_contested_lt_of_pass (pass : Pass previous capacity layers next) :
    next.contested.length < layers.contested.length := by
  obtain ⟨lowest, others, disputes, rfl⟩ := pass_iff.mp pass
  exact length_contested_settle_lt previous capacity (disputes ▸ List.mem_cons_self)

theorem pocketOf_of_pass {holder tool : ToolId} (pass : Pass previous capacity layers next)
    (taken : layers.pocketOf holder = some pocket) (held : next.pocketOf tool = some pocket) :
    layers.pocketOf tool = some pocket := by
  obtain ⟨lowest, others, disputes, rfl⟩ := pass_iff.mp pass
  have disputed : lowest ∈ layers.contested := disputes ▸ List.mem_cons_self
  obtain ⟨_, _, -, outcome⟩ := pocketOf_settle previous capacity disputed
  rcases outcome tool pocket held with ⟨kept, -⟩ | ⟨-, -, free⟩
  · exact kept
  · exact absurd taken (free holder)

theorem wellFounded_pass (previous : Overrides) (capacity : UInt32) :
    WellFounded fun next layers => Pass previous capacity layers next :=
  Subrelation.wf (fun pass => length_contested_lt_of_pass pass)
    (measure fun layers : Layers => layers.contested.length).wf

/-! ### All passes -/

theorem passes_settleAll (previous : Overrides) (capacity : UInt32) (layers : Layers) :
    Relation.ReflTransGen (Pass previous capacity) layers (settleAll previous capacity layers) := by
  induction layers using (wellFounded_pass previous capacity).induction with
  | _ layers ih =>
    cases disputes : layers.contested with
    | nil =>
      rw [settleAll_of_contested_eq_nil previous capacity disputes]
    | cons lowest others =>
      have pass : Pass previous capacity layers (layers.settle previous capacity lowest) :=
        pass_iff.mpr ⟨lowest, others, disputes, rfl⟩
      rw [settleAll_of_contested previous capacity disputes]
      exact .head pass (ih _ pass)

theorem oneToolPerPocket_settleAll (previous : Overrides) (capacity : UInt32) (layers : Layers) :
    (settleAll previous capacity layers).OneToolPerPocket :=
  oneToolPerPocket_iff.mpr (contested_settleAll previous capacity layers)

theorem settleAll_of_unshared (unshared : layers.OneToolPerPocket) (previous : Overrides) :
    settleAll previous capacity layers = layers :=
  settleAll_of_contested_eq_nil previous capacity (oneToolPerPocket_iff.mp unshared)

/-! ### What settling leaves alone -/

theorem settle_induction {P : Layers → Prop} (start : P layers)
    (evict : ∀ layers tool, P layers → P (layers.evict tool))
    (assign : ∀ layers tool pocket, Magazine.has capacity pocket = true → P layers →
      P (layers.assign tool (.inPocket pocket))) :
    P (layers.settle previous capacity pocket) := by
  have evictions (tools : List ToolId) {layers : Layers} (kept : P layers) :
      P (tools.foldl Layers.evict layers) := by
    induction tools generalizing layers with
    | nil => exact kept
    | cons tool rest ih => exact ih (evict layers tool kept)
  unfold settle
  split
  · exact start
  · rename_i winner _
    cases (layers.claimants pocket).filter (· ≠ winner) with
    | nil => exact start
    | cons first rest =>
      unfold evictAll
      cases given : layers.handoff previous capacity pocket winner with
      | none => exact evictions rest (evict layers first start)
      | some old =>
        have tested := (Option.filter_eq_some_iff.mp given).2
        simp only [Bool.and_eq_true] at tested
        exact evictions rest (assign layers first old tested.1.2 start)

theorem settleAll_induction {P : Layers → Prop} (start : P layers)
    (evict : ∀ layers tool, P layers → P (layers.evict tool))
    (assign : ∀ layers tool pocket, Magazine.has capacity pocket = true → P layers →
      P (layers.assign tool (.inPocket pocket))) :
    P (settleAll previous capacity layers) := by
  unfold settleAll settleEach
  generalize layers.namedPockets = pockets
  induction pockets generalizing layers with
  | nil => exact start
  | cons pocket rest ih => exact ih (settle_induction start evict assign)

theorem library_evict (layers : Layers) (tool : ToolId) :
    (layers.evict tool).library = layers.library := by
  unfold evict
  split <;> rfl

theorem persisted_evict (layers : Layers) (tool : ToolId) :
    (layers.evict tool).persisted = layers.persisted := by
  unfold evict
  split <;> rfl

theorem settleAll_eq (previous : Overrides) (capacity : UInt32) (layers : Layers) :
    settleAll previous capacity layers =
      { layers with session := (settleAll previous capacity layers).session } := by
  have kept : (settleAll previous capacity layers).library = layers.library ∧
      (settleAll previous capacity layers).persisted = layers.persisted := by
    refine settleAll_induction (P := fun now =>
      now.library = layers.library ∧ now.persisted = layers.persisted) ⟨rfl, rfl⟩ ?_ ?_
    · intro now tool same
      rw [library_evict, persisted_evict]
      exact same
    · intro now tool pocket _ same
      exact same
  rw [← kept.1, ← kept.2]

/-! ### Pockets within the magazine -/

/-- The session puts tools in pockets of the magazine only. -/
def SessionWithin (capacity : UInt32) (layers : Layers) : Prop :=
  ∀ tool pocket, layers.session.get? tool = some (.inPocket pocket) → Magazine.has capacity pocket = true

theorem sessionWithin_assign {tool : ToolId} {decided : Override} (within : layers.SessionWithin capacity)
    (inside : ∀ pocket, decided.pocket? = some pocket → Magazine.has capacity pocket = true) :
    (layers.assign tool decided).SessionWithin capacity := by
  intro other pocket placed
  simp only [assign, Table.get?_insert] at placed
  split at placed
  · obtain rfl := Option.some.inj placed
    exact inside pocket rfl
  · exact within other pocket placed

theorem sessionWithin_evict (within : layers.SessionWithin capacity) (tool : ToolId) :
    (layers.evict tool).SessionWithin capacity := by
  unfold evict
  split
  · exact sessionWithin_assign within (by simp [Override.pocket?])
  · intro other pocket placed
    simp only [Table.get?_erase] at placed
    split at placed
    · simp at placed
    · exact within other pocket placed

theorem sessionWithin_settleAll (within : layers.SessionWithin capacity) :
    (settleAll previous capacity layers).SessionWithin capacity :=
  settleAll_induction within (fun _ tool kept => sessionWithin_evict kept tool)
    fun _ tool old inside kept => sessionWithin_assign kept fun pocket same => by
      obtain rfl := Option.some.inj same
      exact inside

/-- Every tool that has a pocket resolves to one of the magazine. -/
def Within (capacity : UInt32) (layers : Layers) : Prop :=
  ∀ tool pocket, layers.pocketOf tool = some pocket → Magazine.has capacity pocket = true

theorem Within.session (within : layers.Within capacity) : layers.SessionWithin capacity := by
  intro tool pocket placed
  refine within tool pocket ?_
  rw [pocketOf_eq, placed]
  rfl

theorem get?_filter_admissible (within : layers.SessionWithin capacity) {tool : ToolId} (isTool : tool ≠ 0) :
    (layers.session.filter (Override.isAdmissible capacity)).get? tool = layers.session.get? tool := by
  rw [Table.get?_filter]
  cases found : layers.session.get? tool with
  | none => rfl
  | some decided =>
    rw [Option.filter_some, if_pos]
    simp only [Override.isAdmissible, ne_eq, isTool, not_false_eq_true, decide_true, Bool.true_and]
    cases decided with
    | outOfMagazine => rfl
    | inPocket pocket => exact within tool pocket found

theorem get?_zero_filter_admissible (overrides : Overrides) (capacity : UInt32) :
    (overrides.filter (Override.isAdmissible capacity)).get? 0 = none := by
  simp [Override.isAdmissible]

theorem filter_admissible (within : layers.SessionWithin capacity) (noTool : layers.session.get? 0 = none) :
    layers.session.filter (Override.isAdmissible capacity) = layers.session := by
  refine Table.ext_get? fun tool => ?_
  by_cases isTool : tool = 0
  · rw [isTool, get?_zero_filter_admissible, noTool]
  · exact get?_filter_admissible within isTool

theorem sessionWithin_admissible (incoming : Overrides) (capacity : UInt32) (library : Library)
    (persisted : Overrides) :
    (Layers.mk library persisted (incoming.filter (Override.isAdmissible capacity))).SessionWithin
      capacity := by
  intro tool pocket placed
  simp only [Table.get?_filter] at placed
  obtain ⟨-, admitted⟩ := Option.filter_eq_some_iff.mp placed
  simp only [Override.isAdmissible, Override.pocket?, Option.all_some, Bool.and_eq_true] at admitted
  exact admitted.2

end Layers

/-! ### The reconciled session -/

open Layers

variable (incoming previous : Overrides) (library : Library) (persisted : Overrides) (capacity : UInt32)

theorem layers_reconcile :
    Layers.mk library persisted (reconcile incoming previous library persisted capacity) =
      settleAll previous capacity
        ⟨library, persisted, incoming.filter (Override.isAdmissible capacity)⟩ := by
  rw [settleAll_eq]
  rfl

theorem oneToolPerPocket_reconcile :
    (Layers.mk library persisted
      (reconcile incoming previous library persisted capacity)).OneToolPerPocket := by
  rw [layers_reconcile]
  exact oneToolPerPocket_settleAll _ _ _

theorem sessionWithin_reconcile : (Layers.mk library persisted
    (reconcile incoming previous library persisted capacity)).SessionWithin capacity := by
  rw [layers_reconcile]
  exact sessionWithin_settleAll (sessionWithin_admissible incoming capacity library persisted)

variable {incoming library persisted capacity} in
theorem reconcile_of_settled (noTool : incoming.get? 0 = none)
    (within : (Layers.mk library persisted incoming).SessionWithin capacity)
    (unshared : (Layers.mk library persisted incoming).OneToolPerPocket) :
    reconcile incoming previous library persisted capacity = incoming := by
  have admitted : incoming.filter (Override.isAdmissible capacity) = incoming :=
    filter_admissible within noTool
  unfold reconcile
  rw [admitted, settleAll_of_unshared unshared]

/-- Reconciling looks for disputes and settles them one by one. Every pass leaves fewer of them and gives
nobody a pocket that is taken, so from any layers the search ends. It ends in the reconciled session, in
which no pocket is shared and all are pockets of the magazine. -/
theorem reconcile_settles :
    let start : Layers := ⟨library, persisted, incoming.filter (Override.isAdmissible capacity)⟩
    let session := reconcile incoming previous library persisted capacity
    let settled : Layers := ⟨library, persisted, session⟩
    (∀ layers next, Pass previous capacity layers next →
      next.contested.length < layers.contested.length ∧
      ∀ pocket holder tool, layers.pocketOf holder = some pocket → next.pocketOf tool = some pocket →
        layers.pocketOf tool = some pocket) ∧
    (WellFounded fun next layers => Pass previous capacity layers next) ∧
    Relation.ReflTransGen (Pass previous capacity) start settled ∧
    (∀ next, ¬ Pass previous capacity settled next) ∧
    settled.OneToolPerPocket ∧
    ∀ tool pocket, session.get? tool = some (.inPocket pocket) → 1 ≤ pocket ∧ pocket ≤ capacity := by
  intro start session settled
  have reached : settled = settleAll previous capacity start := layers_reconcile _ _ _ _ _
  have apart : settled.OneToolPerPocket := oneToolPerPocket_reconcile _ _ _ _ _
  refine ⟨?_, wellFounded_pass previous capacity, ?_, not_pass_iff.mpr apart, apart, ?_⟩
  · intro layers next pass
    exact ⟨length_contested_lt_of_pass pass, fun _ _ _ => pocketOf_of_pass pass⟩
  · rw [reached]
    exact passes_settleAll previous capacity start
  · intro tool pocket placed
    have within : settled.SessionWithin capacity :=
      reached ▸ sessionWithin_settleAll (sessionWithin_admissible incoming capacity library persisted)
    have inside := within tool pocket placed
    simp only [Magazine.has, ne_eq, decide_not, Bool.and_eq_true, Bool.not_eq_eq_eq_not, Bool.not_true,
      decide_eq_false_iff_not, decide_eq_true_eq] at inside
    refine ⟨?_, inside.2⟩
    have positive : pocket.toNat ≠ 0 := fun zero => inside.1 (UInt32.toNat_inj.mp zero)
    rw [UInt32.le_iff_toNat_le, UInt32.toNat_one]
    omega

end ToolChanger

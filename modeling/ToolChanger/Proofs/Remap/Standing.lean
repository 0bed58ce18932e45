import Mathlib.Tactic.ByContra
import ToolChanger.Proofs.Remap.Settling

/-!
# Settling a session that stands

Where nothing in a session is new nobody held another pocket before and nothing is handed over. So where every tool
ends up can be read off the layers as they were (`pocketOf_settleAll_session`).
-/

namespace ToolChanger
namespace Layers

variable {base now layers : Layers} {previous : Overrides} {capacity : UInt32} {tool other : ToolId}
  {pocket : Pocket}

/-- The tool that a pocket stays with: the one with the highest claim, of several the first. -/
def holder? (layers : Layers) (pocket : Pocket) : Option ToolId :=
  (layers.claimants pocket).minOn? (layers.rank layers.session)

theorem mem_claimants_of_holder? (holds : layers.holder? pocket = some tool) :
    tool ∈ layers.claimants pocket := List.minOn?_mem holds

theorem exists_holder? (claims : layers.pocketOf tool = some pocket) :
    ∃ winner, layers.holder? pocket = some winner :=
  Option.isSome_iff_exists.mp (List.isSome_minOn?_of_mem (mem_claimants.mpr claims))

theorem holder?_of_claimants_eq (alone : layers.claimants pocket = [tool]) :
    layers.holder? pocket = some tool := by
  rw [holder?, alone, List.minOn?_singleton]

theorem rank_le_of_holder? (holds : layers.holder? pocket = some tool)
    (claims : layers.pocketOf other = some pocket) :
    layers.rank layers.session tool ≤ layers.rank layers.session other := by
  have least := List.apply_get_minOn?_le_of_mem (f := layers.rank layers.session)
    (mem_claimants.mpr claims)
  rw [holder?] at holds
  simpa only [holds, Option.get_some] using least

/-! ### The first of the least -/

theorem minOn?_eq_some_of_lt {f : ToolId → Nat} {tools : List ToolId} (member : tool ∈ tools)
    (above : ∀ other ∈ tools, other ≠ tool → f tool < f other) : tools.minOn? f = some tool := by
  obtain ⟨least, chosen⟩ := Option.isSome_iff_exists.mp (List.isSome_minOn?_of_mem (f := f) member)
  rw [chosen]
  by_contra different
  have below := above least (List.minOn?_mem chosen) fun same => different (same ▸ rfl)
  have least := List.apply_get_minOn?_le_of_mem (f := f) member
  simp only [chosen, Option.get_some] at least
  omega

theorem minOn?_cons_of_le {f : ToolId → Nat} {rest : List ToolId}
    (least : ∀ other ∈ rest, f tool ≤ f other) : (tool :: rest).minOn? f = some tool := by
  rw [List.minOn?_cons]
  cases chosen : rest.minOn? f with
  | none => rfl
  | some winner =>
    have above := least winner (List.minOn?_mem chosen)
    simp [minOn, above]

theorem minOn?_append_eq_some_iff {f : ToolId → Nat} {first later : List ToolId} (absent : tool ∉ first) :
    (first ++ later).minOn? f = some tool ↔
      (∀ other ∈ first, f tool < f other) ∧ later.minOn? f = some tool := by
  induction first with
  | nil => simp
  | cons head rest ih =>
    rw [List.mem_cons, not_or] at absent
    rw [List.cons_append, List.minOn?_cons, List.forall_mem_cons, and_assoc, ← ih absent.2]
    cases chosen : (rest ++ later).minOn? f with
    | none => simp [Ne.symm absent.1]
    | some winner =>
      simp only [Option.elim, minOn, Option.some.injEq]
      split
      · rename_i higher
        constructor
        · intro same
          exact absurd same.symm absent.1
        · rintro ⟨lower, rfl⟩
          omega
      · rename_i lower
        constructor
        · rintro rfl
          exact ⟨by omega, rfl⟩
        · exact And.right

theorem minOn?_of_sorted {f : ToolId → Nat} {tools : List ToolId} (sorted : tools.Pairwise (· < ·))
    (level : ∀ a ∈ tools, ∀ b ∈ tools, f a = f b) :
    tools.minOn? f = some tool ↔ tool ∈ tools ∧ ∀ other ∈ tools, tool ≤ other := by
  cases tools with
  | nil => simp
  | cons head rest =>
    have above := (List.pairwise_cons.mp sorted).1
    rw [minOn?_cons_of_le fun other later =>
      Nat.le_of_eq (level head List.mem_cons_self other (List.mem_cons_of_mem _ later)), Option.some.injEq]
    constructor
    · rintro rfl
      refine ⟨List.mem_cons_self, fun other member => ?_⟩
      rcases List.mem_cons.mp member with rfl | later
      · exact UInt32.le_refl _
      · exact UInt32.le_of_lt (above other later)
    · rintro ⟨member, least⟩
      rcases List.mem_cons.mp member with rfl | later
      · rfl
      · exact absurd (above tool later) (UInt32.not_lt.mpr (least head List.mem_cons_self))

theorem minOn?_congr {f g : ToolId → Nat} {tools : List ToolId} (same : ∀ tool ∈ tools, f tool = g tool) :
    tools.minOn? f = tools.minOn? g := by
  induction tools with
  | nil => rfl
  | cons head rest ih =>
    obtain ⟨first, later⟩ := List.forall_mem_cons.mp same
    rw [List.minOn?_cons, List.minOn?_cons, ih later]
    cases chosen : rest.minOn? g with
    | none => rfl
    | some winner =>
      have second := later winner (List.minOn?_mem chosen)
      simp only [Option.elim, minOn, first, second]

/-! ### The holder of a pocket -/

theorem holder?_of_rank_lt (claims : layers.pocketOf tool = some pocket)
    (above : ∀ other, layers.pocketOf other = some pocket → other ≠ tool →
      layers.rank layers.session tool < layers.rank layers.session other) :
    layers.holder? pocket = some tool :=
  minOn?_eq_some_of_lt (mem_claimants.mpr claims) fun other member => above other (mem_claimants.mp member)

theorem holder?_of_head {rest : List ToolId} (first : layers.claimants pocket = tool :: rest)
    (least : ∀ other ∈ rest, layers.rank layers.session tool ≤ layers.rank layers.session other) :
    layers.holder? pocket = some tool := by
  rw [holder?, first, minOn?_cons_of_le least]

/-! ### Claimants after an eviction -/

theorem sorted_placedIn (layers : Layers) (pocket : Pocket) :
    (layers.placedIn pocket).Pairwise (· < ·) :=
  List.pairwise_map.mpr (Table.sorted _)

theorem session_evict_of_ne (layers : Layers) (different : other ≠ tool) :
    (layers.evict tool).session.get? other = layers.session.get? other := by
  unfold evict
  split
  · simp [assign, different]
  · simp [different]

theorem placedIn_evict (layers : Layers) (tool : ToolId) (pocket : Pocket) :
    ((layers.evict tool).placedIn pocket).filter (· ≠ tool) =
      (layers.placedIn pocket).filter (· ≠ tool) := by
  have ids_filter (table : Overrides) : table.ids.filter (· ≠ tool) =
      (table.filter fun id _ => id ≠ tool).ids := List.filter_map
  unfold placedIn
  rw [ids_filter, ids_filter]
  congr 1
  refine Table.ext_get? fun id => ?_
  rw [Table.get?_filter, Table.get?_filter]
  by_cases same : id = tool
  · simp [same]
  · simp only [Table.get?_overlay, Table.get?_filter, persisted_evict, session_evict_of_ne layers same]

theorem claimants_evict (layers : Layers) (tool : ToolId) (pocket : Pocket) :
    (layers.evict tool).claimants pocket = (layers.claimants pocket).filter (· ≠ tool) := by
  have stays (id : ToolId) : decide ((layers.evict tool).pocketOf id = some pocket) =
      (decide (layers.pocketOf id = some pocket) && decide (id ≠ tool)) := by
    rw [pocketOf_evict]
    by_cases same : id = tool <;> simp [same]
  have others (tools : List ToolId) (keep test : ToolId → Bool) :
      ((tools.filter keep).filter test).filter (· ≠ tool) =
        ((tools.filter (· ≠ tool)).filter keep).filter test := by
    simp only [List.filter_filter]
    refine List.filter_congr fun id _ => ?_
    cases keep id <;> cases test id <;> simp
  unfold claimants
  simp only [library_evict, stays, ← List.filter_filter]
  rw [List.filter_append, List.filter_append, List.filter_append, List.filter_append]
  congr 1
  · simp only [List.filter_filter, Bool.and_comm]
  · have swap (tools : List ToolId) (test : ToolId → Bool) :
        (tools.filter (· ≠ tool)).filter test = (tools.filter test).filter (· ≠ tool) := by
      simp only [List.filter_filter, Bool.and_comm]
    rw [swap, others, placedIn_evict, ← others]

variable {tools : List ToolId}

theorem library_foldl_evict : (tools.foldl evict layers).library = layers.library := by
  induction tools generalizing layers with
  | nil => rfl
  | cons first rest ih => exact ih.trans (library_evict layers first)

theorem persisted_foldl_evict : (tools.foldl evict layers).persisted = layers.persisted := by
  induction tools generalizing layers with
  | nil => rfl
  | cons first rest ih => exact ih.trans (persisted_evict layers first)

theorem session_foldl_evict (stays : tool ∉ tools) :
    (tools.foldl evict layers).session.get? tool = layers.session.get? tool := by
  induction tools generalizing layers with
  | nil => rfl
  | cons first rest ih =>
    rw [List.mem_cons, not_or] at stays
    exact (ih stays.2).trans (session_evict_of_ne layers stays.1)

theorem claimants_foldl_evict : (tools.foldl evict layers).claimants pocket =
    (layers.claimants pocket).filter (· ∉ tools) := by
  induction tools generalizing layers with
  | nil =>
    refine (List.filter_eq_self.mpr fun id _ => ?_).symm
    simp
  | cons first rest ih =>
    rw [List.foldl_cons, ih, claimants_evict, List.filter_filter]
    refine List.filter_congr fun id _ => ?_
    simp [Bool.and_comm]

/-! ### One pass -/

theorem settle_of_free (previous : Overrides) (capacity : UInt32) (free : layers.pocketOf tool = none)
    (pocket : Pocket) :
    (layers.settle previous capacity pocket).session.get? tool = layers.session.get? tool ∧
      (layers.settle previous capacity pocket).pocketOf tool = none := by
  unfold settle
  split
  · exact ⟨rfl, free⟩
  · rename_i winner _
    have nodup := (nodup_claimants layers pocket).filter (· ≠ winner)
    have stays : tool ∉ (layers.claimants pocket).filter (· ≠ winner) := fun loses => by
      have held := mem_claimants.mp (List.mem_filter.mp loses).1
      simp [free] at held
    cases losers : (layers.claimants pocket).filter (· ≠ winner) with
    | nil => exact ⟨rfl, free⟩
    | cons first rest =>
      rw [losers, List.mem_cons, not_or] at stays
      rw [losers] at nodup
      rw [pocketOf_evictAll _ _ _ _ _ nodup, if_neg stays.1, if_neg stays.2]
      refine ⟨?_, free⟩
      unfold evictAll
      rw [session_foldl_evict stays.2]
      cases layers.handoff previous capacity pocket winner with
      | none => exact session_evict_of_ne layers stays.1
      | some old => simp [assign, stays.1]

/-- Some pockets of the layers in the beginning are settled: each stays with its holder, all else is as it
was, and decisions are on tools without a pocket only. -/
structure Narrowed (base now : Layers) : Prop where
  library : now.library = base.library
  persisted : now.persisted = base.persisted
  session : ∀ tool, now.session.get? tool = base.session.get? tool ∨ now.pocketOf tool = none
  claimants : ∀ pocket, now.claimants pocket = base.claimants pocket ∨
    now.claimants pocket = (base.holder? pocket).toList

namespace Narrowed

theorem refl (base : Layers) : Narrowed base base :=
  ⟨rfl, rfl, fun _ => .inl rfl, fun _ => .inl rfl⟩

theorem rank (narrowed : Narrowed base now) (held : now.pocketOf tool = some pocket) :
    now.rank base.session tool = base.rank base.session tool := by
  have session : now.session.get? tool = base.session.get? tool := by
    rcases narrowed.session tool with same | evicted
    · exact same
    · rw [held] at evicted
      cases evicted
  unfold Layers.rank
  rw [session, narrowed.persisted]

theorem claimants_of_contested (narrowed : Narrowed base now) (taken : pocket ∈ now.contested) :
    now.claimants pocket = base.claimants pocket := by
  rcases narrowed.claimants pocket with same | settled
  · exact same
  · have crowd := mem_contested_iff_length.mp taken
    rw [settled] at crowd
    cases held : base.holder? pocket <;> simp [held] at crowd

theorem exists_holder? (narrowed : Narrowed base now) (taken : pocket ∈ now.contested) :
    ∃ winner, base.holder? pocket = some winner := by
  have crowd := mem_contested_iff_length.mp taken
  rw [narrowed.claimants_of_contested taken] at crowd
  have someone : base.claimants pocket ≠ [] := by
    intro nobody
    simp [nobody] at crowd
  exact Option.isSome_iff_exists.mp (List.isSome_minOn?_iff.mpr someone)

/-- Settling a contested pocket evicts all but its holder: the holder had this very pocket before, so there
is none to hand over. -/
theorem settle_eq (narrowed : Narrowed base now) (taken : pocket ∈ now.contested) {winner : ToolId}
    (holds : base.holder? pocket = some winner) :
    now.settle base.session capacity pocket =
      ((base.claimants pocket).filter (· ≠ winner)).foldl evict now := by
  have same := narrowed.claimants_of_contested taken
  have chosen : (now.claimants pocket).minOn? (now.rank base.session) = some winner := by
    rw [← holds, holder?, ← same]
    exact minOn?_congr fun tool member => narrowed.rank (mem_claimants.mp member)
  have before : ({ now with session := base.session } : Layers).pocketOf winner = some pocket := by
    have held := mem_claimants.mp (mem_claimants_of_holder? holds)
    rw [pocketOf_eq] at held ⊢
    rw [narrowed.library, narrowed.persisted]
    exact held
  have nothing : now.handoff base.session capacity pocket winner = none := by
    unfold handoff
    rw [before]
    simp
  unfold Layers.settle
  rw [chosen]
  simp only [nothing]
  rw [same]
  cases (base.claimants pocket).filter (· ≠ winner) <;> rfl

theorem settle (narrowed : Narrowed base now) (pocket : Pocket) :
    Narrowed base (now.settle base.session capacity pocket) := by
  by_cases taken : pocket ∈ now.contested
  · obtain ⟨winner, holds⟩ := narrowed.exists_holder? taken
    have same := narrowed.claimants_of_contested taken
    rw [narrowed.settle_eq taken holds]
    refine ⟨library_foldl_evict.trans narrowed.library, persisted_foldl_evict.trans narrowed.persisted,
      fun tool => ?_, fun place => ?_⟩
    · by_cases loses : tool ∈ (base.claimants pocket).filter (· ≠ winner)
      · right
        rw [pocketOf_foldl_evict, if_pos loses]
      · rw [session_foldl_evict loses, pocketOf_foldl_evict, if_neg loses]
        exact narrowed.session tool
    · rw [claimants_foldl_evict]
      by_cases here : place = pocket
      · subst here
        right
        rw [same, holds]
        have kept : (base.claimants place).filter
            (fun id => decide (id ∉ (base.claimants place).filter (· ≠ winner))) =
            (base.claimants place).filter (· == winner) := by
          refine List.filter_congr fun id member => ?_
          by_cases isWinner : id = winner <;> simp [member, isWinner]
        rw [kept, List.filter_beq, (nodup_claimants base place).count,
          if_pos (mem_claimants_of_holder? holds)]
        rfl
      · have apart : (now.claimants place).filter
            (fun id => decide (id ∉ (base.claimants pocket).filter (· ≠ winner))) =
            now.claimants place := by
          refine List.filter_eq_self.mpr fun id member => ?_
          have elsewhere : id ∉ base.claimants pocket := by
            intro claims
            rw [← same] at claims
            have held := (mem_claimants.mp member).symm.trans (mem_claimants.mp claims)
            exact here (Option.some.inj held)
          simp [elsewhere]
        rw [apart]
        exact narrowed.claimants place
  · rw [settle_of_not_contested base.session capacity taken]
    exact narrowed

theorem settleEach (narrowed : Narrowed base now) (pockets : List Pocket) :
    Narrowed base (Layers.settleEach base.session capacity now pockets) := by
  induction pockets generalizing now with
  | nil => exact narrowed
  | cons pocket rest ih => exact ih (narrowed.settle pocket)

end Narrowed

/-! ### All passes -/

theorem session_settleAll_of_free (previous : Overrides) (capacity : UInt32)
    (free : layers.pocketOf tool = none) :
    (settleAll previous capacity layers).session.get? tool = layers.session.get? tool := by
  unfold settleAll settleEach
  generalize layers.namedPockets = pockets
  induction pockets generalizing layers with
  | nil => rfl
  | cons pocket rest ih =>
    obtain ⟨same, stillFree⟩ := settle_of_free previous capacity free pocket
    exact (ih stillFree).trans same

/-- A tool ends up in a pocket exactly when the pocket stays with it. -/
theorem pocketOf_settleAll_session (layers : Layers) (capacity : UInt32) (tool : ToolId)
    (pocket : Pocket) :
    (settleAll layers.session capacity layers).pocketOf tool = some pocket ↔
      layers.holder? pocket = some tool := by
  have narrowed : Narrowed layers (settleAll layers.session capacity layers) :=
    (Narrowed.refl layers).settleEach _
  have few : ¬ 1 < ((settleAll layers.session capacity layers).claimants pocket).length := by
    rw [← mem_contested_iff_length, contested_settleAll]
    exact List.not_mem_nil
  rw [← mem_claimants]
  rcases narrowed.claimants pocket with same | settled
  · -- Nothing is contested in the end, so a pocket that was never settled has one claimant at most.
    rw [same] at few ⊢
    constructor
    · intro member
      match listed : layers.claimants pocket with
      | [] => simp [listed] at member
      | [only] =>
        obtain rfl : tool = only := by simpa [listed] using member
        exact holder?_of_claimants_eq listed
      | _ :: _ :: _ => simp [listed] at few
    · exact mem_claimants_of_holder?
  · rw [settled, Option.mem_toList]

end Layers
end ToolChanger

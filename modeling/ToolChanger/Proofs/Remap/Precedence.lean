import Mathlib.Data.List.Nodup
import ToolChanger.Proofs.Remap.Standing

/-!
# Who wins a pocket

The tools that claim a pocket are heard in a fixed order (`Precedes`): those on record for it first, in the order
of the records, then the others by number. `Wins` and `LosesFirst` describe the outcome without a search.
-/

namespace ToolChanger
namespace Layers

variable {base now layers : Layers} {previous : Overrides} {capacity : UInt32}
  {tool other winner : ToolId} {pocket old : Pocket}

/-- One tool is heard before another about a pocket that both claim. -/
def Precedes (layers : Layers) (pocket : Pocket) (tool other : ToolId) : Prop :=
  if layers.library.pocketOf other = some pocket then
    layers.library.pocketOf tool = some pocket ∧
      layers.library.ids.idxOf tool < layers.library.ids.idxOf other
  else layers.library.pocketOf tool = some pocket ∨ tool < other

/-- A tool claims a pocket, and no other claim is higher, or as high and heard before. -/
structure Wins (layers : Layers) (previous : Overrides) (pocket : Pocket) (winner : ToolId) : Prop where
  claims : layers.pocketOf winner = some pocket
  highest : ∀ other, layers.pocketOf other = some pocket → other ≠ winner →
    layers.rank previous winner < layers.rank previous other ∨
      layers.rank previous winner = layers.rank previous other ∧ layers.Precedes pocket winner other

/-- A tool claims a pocket that another one wins. -/
def Loses (layers : Layers) (previous : Overrides) (pocket : Pocket) (tool : ToolId) : Prop :=
  layers.pocketOf tool = some pocket ∧ ¬ layers.Wins previous pocket tool

/-- Of the tools that lose a pocket this one is heard first, however high the claims of the others are. -/
structure LosesFirst (layers : Layers) (previous : Overrides) (pocket : Pocket) (tool : ToolId) : Prop where
  loses : layers.Loses previous pocket tool
  first : ∀ other, layers.Loses previous pocket other → other ≠ tool → layers.Precedes pocket tool other

/-! ### The order in which claims are heard -/

theorem Precedes.asymm (before : layers.Precedes pocket tool other) :
    ¬ layers.Precedes pocket other tool := by
  unfold Precedes at before ⊢
  by_cases recorded : layers.library.pocketOf other = some pocket
  · rw [if_pos recorded] at before
    rw [if_pos before.1]
    omega
  · rw [if_neg recorded] at before
    intro after
    split at after
    · exact recorded after.1
    · rename_i unrecorded
      rcases before with there | less
      · exact unrecorded there
      · rcases after with there | more
        · exact recorded there
        · exact UInt32.lt_asymm less more

theorem pairwise_idxOf {tools : List ToolId} (nodup : tools.Nodup) :
    tools.Pairwise fun a b => tools.idxOf a < tools.idxOf b := by
  rw [List.pairwise_iff_getElem]
  intro i j inI inJ less
  rw [nodup.idxOf_getElem, nodup.idxOf_getElem]
  exact less

theorem pairwise_claimants (layers : Layers) (pocket : Pocket) :
    (layers.claimants pocket).Pairwise (layers.Precedes pocket) := by
  refine List.Pairwise.filter _ (List.pairwise_append.mpr ⟨?_, ?_, ?_⟩)
  · have ordered : (layers.library.occupants pocket).Pairwise fun a b =>
        layers.library.ids.idxOf a < layers.library.ids.idxOf b := by
      rw [Library.occupants_eq]
      exact (pairwise_idxOf layers.library.nodup_ids).sublist (List.filter_sublist.map _)
    refine ordered.imp_of_mem fun {a b} inA inB earlier => ?_
    rw [Precedes, if_pos (Library.mem_occupants_iff.mp inB)]
    exact ⟨Library.mem_occupants_iff.mp inA, earlier⟩
  · refine ((sorted_placedIn layers pocket).filter _).imp_of_mem fun {a b} inA inB less => ?_
    have unrecorded := (List.mem_filter.mp inB).2
    simp only [List.contains_eq_mem, Library.mem_occupants_iff, Bool.not_eq_true',
      decide_eq_false_iff_not] at unrecorded
    rw [Precedes, if_neg unrecorded]
    exact .inr less
  · intro a inA b inB
    have unrecorded := (List.mem_filter.mp inB).2
    simp only [List.contains_eq_mem, Library.mem_occupants_iff, Bool.not_eq_true',
      decide_eq_false_iff_not] at unrecorded
    rw [Precedes, if_neg unrecorded]
    exact .inl (Library.mem_occupants_iff.mp inA)

/-! ### Winners -/

theorem minOn?_of_pairwise {f : ToolId → Nat} {before : ToolId → ToolId → Prop} {tools : List ToolId}
    (ordered : tools.Pairwise before) (least : tools.minOn? f = some tool) (member : other ∈ tools)
    (different : other ≠ tool) : f tool < f other ∨ f tool = f other ∧ before tool other := by
  induction tools generalizing tool other with
  | nil => cases member
  | cons head rest ih =>
    obtain ⟨above, tail⟩ := List.pairwise_cons.mp ordered
    rw [List.minOn?_cons] at least
    cases chosen : rest.minOn? f with
    | none =>
      obtain rfl : rest = [] := by
        by_contra nonempty
        have found : (rest.minOn? f).isSome = true := List.isSome_minOn?_iff.mpr nonempty
        simp [chosen] at found
      rw [chosen] at least
      obtain rfl := Option.some.inj least
      exact absurd (List.mem_singleton.mp member) different
    | some second =>
      have inRest := List.minOn?_mem chosen
      rw [chosen] at least
      simp only [Option.elim, minOn, Option.some.injEq] at least
      split at least
      · -- The head is as low as the least of the rest, so it comes before all that are as low.
        rename_i low
        subst least
        have later := (List.mem_cons.mp member).resolve_left different
        by_cases isSecond : other = second
        · subst isSecond
          rcases Nat.lt_or_eq_of_le low with less | same
          · exact .inl less
          · exact .inr ⟨same, above other later⟩
        · rcases ih tail chosen later isSecond with less | ⟨same, -⟩
          · exact .inl (Nat.lt_of_le_of_lt low less)
          · rcases Nat.lt_or_eq_of_le (same ▸ low : f head ≤ f other) with less | level
            · exact .inl less
            · exact .inr ⟨level, above other later⟩
      · rename_i high
        subst least
        rcases List.mem_cons.mp member with rfl | later
        · exact .inl (Nat.lt_of_not_le high)
        · exact ih tail chosen later different

theorem wins_of_minOn? (least : (layers.claimants pocket).minOn? (layers.rank previous) = some winner) :
    layers.Wins previous pocket winner :=
  ⟨mem_claimants.mp (List.minOn?_mem least), fun _ claims =>
    minOn?_of_pairwise (layers.pairwise_claimants pocket) least (mem_claimants.mpr claims)⟩

theorem Wins.unique (wins : layers.Wins previous pocket winner) (alike : layers.Wins previous pocket other) :
    other = winner := by
  by_contra different
  rcases wins.highest other alike.claims different with less | ⟨same, before⟩
  · rcases alike.highest winner wins.claims (Ne.symm different) with more | ⟨level, -⟩
    · omega
    · omega
  · rcases alike.highest winner wins.claims (Ne.symm different) with more | ⟨-, after⟩
    · omega
    · exact before.asymm after

theorem exists_wins (previous : Overrides) (claims : layers.pocketOf tool = some pocket) :
    ∃ winner, layers.Wins previous pocket winner := by
  obtain ⟨winner, least⟩ := Option.isSome_iff_exists.mp
    (List.isSome_minOn?_of_mem (f := layers.rank previous) (mem_claimants.mpr claims))
  exact ⟨winner, wins_of_minOn? least⟩

theorem minOn?_claimants_eq_some_iff :
    (layers.claimants pocket).minOn? (layers.rank previous) = some winner ↔
      layers.Wins previous pocket winner := by
  refine ⟨wins_of_minOn?, fun wins => ?_⟩
  obtain ⟨least, chosen⟩ := Option.isSome_iff_exists.mp
    (List.isSome_minOn?_of_mem (f := layers.rank previous) (mem_claimants.mpr wins.claims))
  rw [chosen, wins.unique (wins_of_minOn? chosen)]

/-! ### Losers -/

theorem Wins.mem_losers_iff (wins : layers.Wins previous pocket winner) :
    tool ∈ (layers.claimants pocket).filter (· ≠ winner) ↔ layers.Loses previous pocket tool := by
  rw [List.mem_filter, mem_claimants, decide_eq_true_eq]
  constructor
  · rintro ⟨claims, different⟩
    exact ⟨claims, fun alike => different (wins.unique alike)⟩
  · rintro ⟨claims, loses⟩
    exact ⟨claims, fun same => loses (same ▸ wins)⟩

theorem LosesFirst.unique (first : layers.LosesFirst previous pocket tool)
    (alike : layers.LosesFirst previous pocket other) : other = tool := by
  by_contra different
  exact (first.first other alike.loses different).asymm (alike.first tool first.loses (Ne.symm different))

theorem Wins.losesFirst_head (wins : layers.Wins previous pocket winner) {rest : List ToolId}
    (losers : (layers.claimants pocket).filter (· ≠ winner) = tool :: rest) :
    layers.LosesFirst previous pocket tool := by
  have ordered := (layers.pairwise_claimants pocket).filter (· ≠ winner)
  rw [losers] at ordered
  refine ⟨wins.mem_losers_iff.mp (losers ▸ List.mem_cons_self), fun other loses different => ?_⟩
  have member := wins.mem_losers_iff.mpr loses
  rw [losers] at member
  exact (List.pairwise_cons.mp ordered).1 other ((List.mem_cons.mp member).resolve_left different)

theorem Wins.exists_losesFirst (wins : layers.Wins previous pocket winner)
    (loses : layers.Loses previous pocket tool) : ∃ first, layers.LosesFirst previous pocket first := by
  have member := wins.mem_losers_iff.mpr loses
  cases losers : (layers.claimants pocket).filter (· ≠ winner) with
  | nil =>
    rw [losers] at member
    cases member
  | cons first rest => exact ⟨first, wins.losesFirst_head losers⟩

theorem wins_congr (library : now.library = base.library)
    (claims : ∀ tool, now.pocketOf tool = some pocket ↔ base.pocketOf tool = some pocket)
    (rank : ∀ tool, base.pocketOf tool = some pocket → now.rank previous tool = base.rank previous tool)
    (tool : ToolId) : now.Wins previous pocket tool ↔ base.Wins previous pocket tool := by
  have precedes (a b : ToolId) : now.Precedes pocket a b ↔ base.Precedes pocket a b := by
    rw [Precedes, Precedes, library]
  constructor
  · intro wins
    have held := (claims tool).mp wins.claims
    refine ⟨held, fun other claimed different => ?_⟩
    rw [← rank tool held, ← rank other claimed, ← precedes]
    exact wins.highest other ((claims other).mpr claimed) different
  · intro wins
    refine ⟨(claims tool).mpr wins.claims, fun other claimed different => ?_⟩
    have held := (claims other).mp claimed
    rw [rank tool wins.claims, rank other held, precedes]
    exact wins.highest other held different

/-! ### Settling one pocket -/

theorem settle_of_wins (wins : layers.Wins previous pocket winner) :
    layers.settle previous capacity pocket =
      layers.evictAll (layers.handoff previous capacity pocket winner)
        ((layers.claimants pocket).filter (· ≠ winner)) := by
  unfold settle
  rw [minOn?_claimants_eq_some_iff.mpr wins]

theorem session_evictAll {handoff : Option Pocket} {tools : List ToolId} (stays : tool ∉ tools) :
    (layers.evictAll handoff tools).session.get? tool = layers.session.get? tool := by
  cases tools with
  | nil => rfl
  | cons first rest =>
    rw [List.mem_cons, not_or] at stays
    unfold evictAll
    rw [session_foldl_evict stays.2]
    cases handoff with
    | none => exact session_evict_of_ne layers stays.1
    | some old => simp [assign, stays.1]

theorem session_settle (stays : ¬ layers.Loses previous pocket tool) :
    (layers.settle previous capacity pocket).session.get? tool = layers.session.get? tool := by
  by_cases claimed : ∃ holder, layers.pocketOf holder = some pocket
  · obtain ⟨holder, claims⟩ := claimed
    obtain ⟨winner, wins⟩ := exists_wins previous claims
    rw [settle_of_wins wins]
    exact session_evictAll fun loses => stays (wins.mem_losers_iff.mp loses)
  · rw [settle_of_not_contested]
    intro disputed
    obtain ⟨a, _, _, held, _⟩ := mem_contested.mp disputed
    exact claimed ⟨a, held⟩

/-- Of the tools that lose a pocket the first one gets what is handed over, the others nothing. -/
theorem pocketOf_settle_of_loses (wins : layers.Wins previous pocket winner)
    (loses : layers.Loses previous pocket tool) :
    (layers.settle previous capacity pocket).pocketOf tool = some old ↔
      layers.LosesFirst previous pocket tool ∧
        layers.handoff previous capacity pocket winner = some old := by
  have member := wins.mem_losers_iff.mpr loses
  rw [settle_of_wins wins]
  cases losers : (layers.claimants pocket).filter (· ≠ winner) with
  | nil =>
    rw [losers] at member
    cases member
  | cons first rest =>
    have nodup : (first :: rest).Nodup := losers ▸ (nodup_claimants layers pocket).filter _
    have heard := wins.losesFirst_head losers
    rw [pocketOf_evictAll _ _ _ _ _ nodup]
    by_cases isFirst : tool = first
    · rw [if_pos isFirst, isFirst]
      exact ⟨fun given => ⟨heard, given⟩, fun both => both.2⟩
    · rw [losers] at member
      rw [if_neg isFirst, if_pos ((List.mem_cons.mp member).resolve_left isFirst)]
      constructor
      · intro never
        cases never
      · rintro ⟨alike, -⟩
        exact absurd (heard.unique alike) isFirst

theorem handoff_eq_some_iff :
    layers.handoff previous capacity pocket winner = some old ↔
      ({ layers with session := previous } : Layers).pocketOf winner = some old ∧ old ≠ pocket ∧
        Magazine.has capacity old = true ∧ ∀ tool, layers.pocketOf tool ≠ some old := by
  unfold handoff
  rw [Option.filter_eq_some_iff]
  simp only [Bool.and_eq_true, decide_eq_true_eq, List.isEmpty_iff, List.eq_nil_iff_forall_not_mem,
    mem_claimants, and_assoc, ne_eq]

theorem library_settle (previous : Overrides) (capacity : UInt32) (layers : Layers) (pocket : Pocket) :
    (layers.settle previous capacity pocket).library = layers.library :=
  settle_induction (P := fun now => now.library = layers.library) rfl
    (fun now tool same => (library_evict now tool).trans same) fun _ _ _ _ same => same

theorem persisted_settle (previous : Overrides) (capacity : UInt32) (layers : Layers) (pocket : Pocket) :
    (layers.settle previous capacity pocket).persisted = layers.persisted :=
  settle_induction (P := fun now => now.persisted = layers.persisted) rfl
    (fun now tool same => (persisted_evict now tool).trans same) fun _ _ _ _ same => same

theorem pocketOf_congr (library : now.library = base.library) (persisted : now.persisted = base.persisted)
    (session : now.session.get? tool = base.session.get? tool) : now.pocketOf tool = base.pocketOf tool := by
  rw [pocketOf_eq, pocketOf_eq, library, persisted, session]

theorem rank_congr (persisted : now.persisted = base.persisted)
    (session : now.session.get? tool = base.session.get? tool) :
    now.rank previous tool = base.rank previous tool := by
  rw [rank, rank, persisted, session]

end Layers
end ToolChanger

import ToolChanger.Proofs.Remap.HalfMove

/-!
# Reconciling a move

After a planned move there is nothing to settle (`reconcile_after`). A tool can also be moved by a session override
alone: being new it has the highest claim, and whoever held the pocket gets the one that the tool had before.
-/

namespace ToolChanger
namespace Layers

variable {layers : Layers} {capacity : UInt32} {tool other first : ToolId} {target : Override}
  {pocket : Pocket}

theorem counterpart?_of_sits (unshared : layers.OneToolPerPocket) (asked : target.pocket? = some pocket)
    (sits : layers.pocketOf other = some pocket) (different : other ≠ tool) :
    layers.counterpart? tool target = some other := by
  have sitter := mem_sitters.mpr ⟨different, sits⟩
  cases met : layers.counterpart? tool target with
  | none =>
    rw [counterpart?, asked, Option.bind_some, ← head?_sitters, List.head?_eq_none_iff] at met
    rw [met] at sitter
    cases sitter
  | some first =>
    obtain ⟨place, asked', held, -⟩ := counterpart?_eq_some met
    obtain rfl := Option.some.inj (asked.symm.trans asked')
    rw [unshared _ _ pocket held sits]

theorem swapped_of_unshared (unshared : layers.OneToolPerPocket) (tool : ToolId) (target : Override)
    (other : ToolId) :
    layers.swapped tool target other =
      if other = tool then target.pocket?
      else if layers.pocketOf other ≠ none ∧ layers.pocketOf other = target.pocket? then
        layers.pocketOf tool
      else layers.pocketOf other := by
  by_cases moved : other = tool
  · rw [if_pos moved, swapped, if_pos moved]
  rw [if_neg moved]
  split
  · rename_i inWay
    obtain ⟨pocket, held⟩ := Option.ne_none_iff_exists'.mp inWay.1
    have met := counterpart?_of_sits unshared (inWay.2.symm.trans held) held moved
    rw [swapped_of_counterpart unshared met, if_neg moved, if_pos rfl]
  · rename_i apart
    cases met : layers.counterpart? tool target with
    | none => exact swapped_of_alone met moved
    | some first =>
      obtain ⟨pocket, asked, held, -⟩ := counterpart?_eq_some met
      have unlike : other ≠ first := by
        rintro rfl
        exact apart ⟨by simp [held], held.trans asked.symm⟩
      rw [swapped_of_counterpart unshared met, if_neg moved, if_neg unlike]

/-! ### After a planned move -/

section

variable (unshared : layers.OneToolPerPocket)
include unshared

theorem oneToolPerPocket_after (tool : ToolId) (target : Override) :
    (layers.after tool target).OneToolPerPocket := by
  intro a b pocket heldA heldB
  rw [pocketOf_after] at heldA heldB
  exact eq_of_swapped_of_swapped unshared heldA heldB

theorem within_after (within : layers.Within capacity)
    (allowed : ∀ pocket, target.pocket? = some pocket → Magazine.has capacity pocket = true) :
    (layers.after tool target).Within capacity := by
  intro other pocket held
  rw [pocketOf_after, swapped_of_unshared unshared] at held
  split at held
  · exact allowed pocket held
  · split at held
    · exact within tool pocket held
    · exact within other pocket held

/-- A tool zero that nothing puts anywhere is in nobody's way, so a move does not name it. -/
theorem get?_session_after_zero (noTool : layers.override? 0 = none) (isTool : tool ≠ 0)
    (target : Override) : (layers.after tool target).session.get? 0 = none := by
  by_cases moved : 0 ∈ (layers.moves tool target).map (·.1)
  · obtain ⟨⟨_, decided⟩, member, rfl⟩ := List.mem_map.mp moved
    rw [get?_session_after member]
    cases known : layers.library.contains 0 with
    | true => rfl
    | false =>
      have nowhere : layers.pocketOf 0 = none := by
        rw [pocketOf, noTool]
        exact Library.pocketOf_eq_none_of_contains known
      have lands := pocketOf_after_of_mem member
      rw [pocketOf_after, swapped_of_unshared unshared, if_neg isTool.symm,
        if_neg fun inWay => inWay.1 nowhere, nowhere] at lands
      simp [isTool.symm, ← lands]
  · rw [get?_session_after_of_notMem moved]
    exact (Option.or_eq_none_iff.mp noTool).1

theorem reconcile_after (within : layers.Within capacity) (noTool : layers.override? 0 = none)
    (isTool : tool ≠ 0)
    (allowed : ∀ pocket, target.pocket? = some pocket → Magazine.has capacity pocket = true)
    (previous : Overrides) :
    let after := layers.after tool target
    reconcile after.session previous after.library after.persisted capacity = after.session := by
  intro after
  exact reconcile_of_settled previous (get?_session_after_zero unshared noTool isTool target)
    (within_after unshared within allowed).session (oneToolPerPocket_after unshared tool target)

end

/-! ### A tool put in another one's pocket -/

section

variable (unshared : layers.OneToolPerPocket) (asked : target.pocket? = some pocket)
  (sits : layers.pocketOf first = some pocket) (different : first ≠ tool)
include unshared asked sits different

theorem pocketOf_assign_eq_pocket :
    (layers.assign tool target).pocketOf other = some pocket ↔ other = tool ∨ other = first := by
  rw [pocketOf_assign]
  split
  · rename_i moved
    simp [asked, moved]
  · rename_i stays
    constructor
    · intro held
      exact .inr (unshared _ _ pocket held sits)
    · rintro (moved | rfl)
      · exact absurd moved stays
      · exact sits

theorem contested_assign : (layers.assign tool target).contested = [pocket] := by
  refine List.perm_singleton.mp ((List.perm_ext_iff_of_nodup (nodup_contested _)
    (List.pairwise_singleton _ pocket)).mpr fun place => ?_)
  rw [mem_contested, List.mem_singleton]
  constructor
  · rintro ⟨a, b, unlike, heldA, heldB⟩
    rw [pocketOf_assign] at heldA heldB
    split at heldA
    · exact (Option.some.inj (asked.symm.trans heldA)).symm
    · split at heldB
      · exact (Option.some.inj (asked.symm.trans heldB)).symm
      · exact absurd (unshared a b place heldA heldB) unlike
  · rintro rfl
    exact ⟨tool, first, different.symm,
      (pocketOf_assign_eq_pocket unshared asked sits different).mpr (.inl rfl),
      (pocketOf_assign_eq_pocket unshared asked sits different).mpr (.inr rfl)⟩

theorem winner_assign : ((layers.assign tool target).claimants pocket).minOn?
    ((layers.assign tool target).rank layers.session) = some tool := by
  have claims : (layers.assign tool target).pocketOf tool = some pocket :=
    (pocketOf_assign_eq_pocket unshared asked sits different).mpr (.inl rfl)
  refine minOn?_eq_some_of_lt (mem_claimants.mpr claims) fun other member unlike => ?_
  have isNew : layers.session.get? tool ≠ some target := by
    intro old
    refine different (unshared _ _ pocket sits ?_)
    rw [pocketOf_eq, old]
    exact asked
  have newest : (layers.assign tool target).rank layers.session tool = 0 := by
    simp [rank, assign, isNew]
  have older : 0 < (layers.assign tool target).rank layers.session other := by
    simp only [rank, assign, Table.get?_insert, if_neg unlike]
    cases layers.session.get? other with
    | some decided => simp
    | none => by_cases stored : layers.persisted.contains other = true <;> simp [stored]
  omega

theorem losers_assign :
    ((layers.assign tool target).claimants pocket).filter (· ≠ tool) = [first] := by
  refine List.perm_singleton.mp ((List.perm_ext_iff_of_nodup ((nodup_claimants _ _).filter _)
    (List.pairwise_singleton _ first)).mpr fun other => ?_)
  rw [List.mem_filter, mem_claimants, pocketOf_assign_eq_pocket unshared asked sits different,
    List.mem_singleton]
  constructor
  · rintro ⟨moved | same, unlike⟩
    · simp [moved] at unlike
    · exact same
  · rintro rfl
    exact ⟨.inr rfl, by simpa using different⟩

theorem handoff_assign (within : layers.Within capacity) :
    (layers.assign tool target).handoff layers.session capacity pocket tool = layers.pocketOf tool := by
  have before : ({ layers.assign tool target with session := layers.session } : Layers) = layers := rfl
  unfold handoff
  rw [before]
  cases held : layers.pocketOf tool with
  | none => rfl
  | some old =>
    have apart : old ≠ pocket := fun same => different (unshared _ _ pocket sits (same ▸ held))
    have free : (layers.assign tool target).claimants old = [] := by
      refine List.eq_nil_iff_forall_not_mem.mpr fun other claims => ?_
      have claimed := mem_claimants.mp claims
      rw [pocketOf_assign] at claimed
      split at claimed
      · exact apart (Option.some.inj (asked.symm.trans claimed)).symm
      · rename_i stays
        exact stays (unshared _ _ old claimed held)
    rw [Option.filter_some, if_pos]
    simp [apart, free, within tool old held]

theorem pocketOf_settleAll_assign (within : layers.Within capacity) (other : ToolId) :
    (settleAll layers.session capacity (layers.assign tool target)).pocketOf other =
      if other = first then layers.pocketOf tool else (layers.assign tool target).pocketOf other := by
  have disputes := contested_assign unshared asked sits different
  have settled : ((layers.assign tool target).settle layers.session capacity pocket).contested = [] := by
    refine List.eq_nil_iff_forall_not_mem.mpr fun place still => ?_
    obtain ⟨elsewhere, before⟩ := contested_settle still
    rw [disputes, List.mem_singleton] at before
    exact elsewhere before
  rw [settleAll_of_contested _ _ disputes, settleAll_of_contested_eq_nil _ _ settled, settle,
    winner_assign unshared asked sits different]
  simp only [losers_assign unshared asked sits different,
    handoff_assign unshared asked sits different within]
  rw [pocketOf_evictAll _ _ _ _ _ (List.pairwise_singleton _ first), if_neg List.not_mem_nil]

end

/-! ### The same swap -/

theorem pocketOf_settleAll_assign_eq_swapped (unshared : layers.OneToolPerPocket)
    (within : layers.Within capacity) (tool : ToolId) (target : Override) (other : ToolId) :
    (settleAll layers.session capacity (layers.assign tool target)).pocketOf other =
      layers.swapped tool target other := by
  cases met : layers.counterpart? tool target with
  | none =>
    have alone {other : ToolId} (stays : other ≠ tool) {pocket : Pocket}
        (asked : target.pocket? = some pocket) : layers.pocketOf other ≠ some pocket := by
      intro held
      rw [counterpart?_of_sits unshared asked held stays] at met
      cases met
    have apart : (layers.assign tool target).OneToolPerPocket := by
      intro a b pocket heldA heldB
      rw [pocketOf_assign] at heldA heldB
      split at heldA
      · rename_i isToolA
        split at heldB
        · rename_i isToolB
          exact isToolA.trans isToolB.symm
        · rename_i stays
          exact absurd heldB (alone stays heldA)
      · rename_i stays
        split at heldB
        · exact absurd heldA (alone stays heldB)
        · exact unshared a b pocket heldA heldB
    rw [settleAll_of_unshared apart, pocketOf_assign]
    split
    · rename_i moved
      rw [swapped, if_pos moved]
    · rename_i stays
      exact (swapped_of_alone met stays).symm
  | some first =>
    obtain ⟨pocket, asked, sits, different⟩ := counterpart?_eq_some met
    rw [pocketOf_settleAll_assign unshared asked sits different within, pocketOf_assign,
      swapped_of_counterpart unshared met]
    by_cases isFirst : other = first
    · rw [if_pos isFirst, if_neg (isFirst ▸ different), if_pos isFirst]
    · rw [if_neg isFirst, if_neg isFirst]

/-- Where no pocket is shared and all are pockets of the magazine, a move that is allowed comes to the same
for every tool, whether it is planned over all layers or put into the session, to be settled there. -/
theorem pocketOf_apply_plan_eq_reconcile (unshared : layers.OneToolPerPocket)
    (within : layers.Within capacity) (noTool : layers.session.get? 0 = none) (isTool : tool ≠ 0)
    (allowed : ∀ pocket, target.pocket? = some pocket → Magazine.has capacity pocket = true) :
    ∃ plan, layers.plan capacity tool target = .ok plan ∧ ∀ other,
      (plan.apply layers).pocketOf other =
        (Layers.mk layers.library layers.persisted (reconcile (layers.session.insert tool target)
          layers.session layers.library layers.persisted capacity)).pocketOf other := by
  have admitted : (layers.session.insert tool target).filter (Override.isAdmissible capacity) =
      (layers.assign tool target).session := by
    have stranger : (layers.assign tool target).session.get? 0 = none := by
      simpa [assign, isTool.symm] using noTool
    exact filter_admissible (sessionWithin_assign within.session allowed) stranger
  refine ⟨layers.draft tool target, plan_eq_ok_iff.mpr ⟨isTool, allowed, rfl⟩, fun other => ?_⟩
  rw [layers_reconcile, admitted]
  exact (pocketOf_after layers tool target other).trans
    (pocketOf_settleAll_assign_eq_swapped unshared within tool target other).symm

/-- Tool 60, which only the session knows, trades pockets with tool 2, whose record is overruled by a stored
override. -/
theorem pocketOf_apply_plan_eq_reconcile_stranger :
    let library : Library := ⟨[{ id := 1, pocket := some 1 }, { id := 2, pocket := some 7 }]⟩
    let layers : Layers := ⟨library, Table.ofList [(2, .inPocket 2)], Table.ofList [(60, .inPocket 4)]⟩
    let session := reconcile (layers.session.insert 60 (.inPocket 2)) layers.session library
      layers.persisted 8
    [1, 2, 60].map (Layers.mk library layers.persisted session).pocketOf = [some 1, some 4, some 2] ∧
    ∃ plan, layers.plan 8 60 (.inPocket 2) = .ok plan ∧ ∀ other,
      (plan.apply layers).pocketOf other = (Layers.mk library layers.persisted session).pocketOf other := by
  intro library layers session
  have unshared : layers.OneToolPerPocket := oneToolPerPocket_iff.mpr (by decide)
  have named : layers.namedPockets.all (Magazine.has 8) = true := by decide
  have within : layers.Within 8 := fun _ pocket held =>
    List.all_eq_true.mp named pocket (mem_namedPockets held)
  exact ⟨by decide, pocketOf_apply_plan_eq_reconcile unshared within (by decide) (by decide)
    fun pocket asked => by cases asked; decide⟩

end Layers
end ToolChanger

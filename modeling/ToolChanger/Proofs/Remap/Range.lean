import ToolChanger.Proofs.Remap.HalfMove
import ToolChanger.Proofs.Settings.Codec

/-!
# Pockets outside the magazine

The pocket that a moved tool leaves is not looked at: it may be on record from a time when the magazine was larger,
or be pocket zero, and the first tool in the way gets it all the same. Reconciling does look at it.
-/

namespace ToolChanger
namespace Layers

variable {layers : Layers} {capacity : UInt32} {tool other first : ToolId} {target decided : Override}
  {pocket : Pocket} {plan : Plan}

/-! ### The pocket handed over -/

theorem handedOver?_eq_some_iff : layers.handedOver? tool target = some pocket ↔
    ∃ first, layers.counterpart? tool target = some first ∧
      ∃ place, target.pocket? = some place ∧ layers.vacated tool place = some pocket := by
  unfold handedOver? counterpart?
  cases target.pocket? with
  | none => simp
  | some place => simp [Option.bind_eq_some_iff]

theorem eq_or_handedOver_of_mem_moves (member : (other, decided) ∈ layers.moves tool target)
    (gets : decided.pocket? = some pocket) :
    (other = tool ∧ target.pocket? = some pocket) ∨
      (layers.counterpart? tool target = some other ∧ layers.handedOver? tool target = some pocket) := by
  refine (traced_of_mem_moves member gets).imp id ?_
  rintro ⟨place, asked, found, left⟩
  have met : layers.counterpart? tool target = some other := by
    rw [counterpart?, asked]
    exact found
  exact ⟨met, handedOver?_eq_some_iff.mpr ⟨other, met, place, asked, left⟩⟩

theorem mem_moves_of_handedOver (met : layers.counterpart? tool target = some first)
    (handed : layers.handedOver? tool target = some pocket) :
    (first, Override.inPocket pocket) ∈ layers.moves tool target := by
  obtain ⟨_, -, place, asked, left⟩ := handedOver?_eq_some_iff.mp handed
  rw [counterpart?, asked, Option.bind_some, ← head?_sitters] at met
  obtain ⟨rest, taken⟩ := List.head?_eq_some_iff.mp met
  rw [moves_of_pocket asked taken, left]
  exact List.mem_cons_of_mem _ List.mem_cons_self

theorem pocketOf_after_of_handedOver (met : layers.counterpart? tool target = some first)
    (handed : layers.handedOver? tool target = some pocket) :
    (layers.after tool target).pocketOf first = some pocket :=
  pocketOf_after_of_mem (mem_moves_of_handedOver met handed)

/-! ### Tools that move outside -/

theorem given_of_moved (held : (layers.after tool target).pocketOf other = some pocket)
    (new : layers.pocketOf other ≠ some pocket) : pocket ∈ layers.given tool target := by
  by_cases moved : other ∈ (layers.moves tool target).map (·.1)
  · obtain ⟨⟨_, decided⟩, member, rfl⟩ := List.mem_map.mp moved
    rw [pocketOf_after_of_mem member] at held
    exact mem_given_of_mem_moves member held
  · rw [pocketOf_after_of_notMem moved] at held
    exact absurd held new

theorem moved_within_iff
    (allowed : ∀ pocket, target.pocket? = some pocket → Magazine.has capacity pocket = true) :
    (∀ other pocket, (layers.after tool target).pocketOf other = some pocket →
        layers.pocketOf other ≠ some pocket → Magazine.has capacity pocket = true) ↔
      ∀ pocket, layers.handedOver? tool target = some pocket → Magazine.has capacity pocket = true := by
  constructor
  · intro inside pocket handed
    obtain ⟨first, met, place, asked, left⟩ := handedOver?_eq_some_iff.mp handed
    refine inside first pocket (pocketOf_after_of_handedOver met handed) fun before => ?_
    obtain ⟨place', asked', sits, -⟩ := counterpart?_eq_some met
    obtain rfl := Option.some.inj (asked.symm.trans asked')
    exact (vacated_eq_some left).2 (Option.some.inj (before.symm.trans sits))
  · intro inside other pocket held new
    exact (mem_given.mp (given_of_moved held new)).elim (allowed pocket) (inside pocket)

/-! ### Overrides that can be read again -/

theorem get?_persisted_after_eq_some : (layers.after tool target).persisted.get? other = some decided ↔
    ((other, decided) ∈ layers.moves tool target ∧ layers.library.contains other = true) ∨
      (other ∉ (layers.moves tool target).map (·.1) ∧ layers.persisted.get? other = some decided) := by
  by_cases moved : other ∈ (layers.moves tool target).map (·.1)
  · obtain ⟨⟨_, decision⟩, member, rfl⟩ := List.mem_map.mp moved
    rw [get?_persisted_after member]
    constructor
    · intro found
      split at found
      · rename_i known
        exact .inl ⟨Option.some.inj found ▸ member, known⟩
      · cases found
    · rintro (⟨member', known⟩ | ⟨absent, -⟩)
      · have same := List.inj_on_of_nodup_map (nodup_moves layers tool target) member member' rfl
        rw [if_pos known, (Prod.mk.inj same).2]
      · exact absurd moved absent
  · rw [get?_persisted_after_of_notMem moved]
    have undecided : (other, decided) ∉ layers.moves tool target :=
      fun member => moved (List.mem_map_of_mem member)
    simp [moved, undecided]

theorem storable_persisted_after_iff (storable : layers.persisted.Storable) (isTool : tool ≠ 0)
    (asked : target.pocket? ≠ some 0) :
    (layers.after tool target).persisted.Storable ↔
      (layers.handedOver? tool target = some 0 →
        ∀ first, layers.counterpart? tool target = some first → layers.library.contains first = false) ∧
      (layers.library.contains 0 = true → 0 ∉ (layers.displaced tool target).map (·.1)) := by
  have tools : (layers.moves tool target).map (·.1) = tool :: (layers.displaced tool target).map (·.1) := by
    simp [moves]
  constructor
  · rintro ⟨noTool, positive⟩
    constructor
    · intro handed first met
      by_contra known
      rw [Bool.not_eq_false] at known
      exact positive first
        (get?_persisted_after_eq_some.mpr (.inl ⟨mem_moves_of_handedOver met handed, known⟩))
    · intro known leaves
      have moved : 0 ∈ (layers.moves tool target).map (·.1) := tools ▸ List.mem_cons_of_mem tool leaves
      obtain ⟨⟨_, decided⟩, member, zero⟩ := List.mem_map.mp moved
      obtain rfl := zero
      have found := get?_persisted_after_eq_some.mpr (.inl ⟨member, known⟩)
      rw [noTool] at found
      cases found
  · rintro ⟨apart, stays⟩
    -- zero is no pocket to ask for and not the tool to move, so it can only be handed over or be in the way
    constructor
    · refine Option.eq_none_iff_forall_ne_some.mpr fun decided found => ?_
      rcases get?_persisted_after_eq_some.mp found with ⟨member, known⟩ | ⟨-, before⟩
      · have moved := List.mem_map_of_mem (f := (·.1)) member
        rw [tools] at moved
        exact (List.mem_cons.mp moved).elim (fun same => isTool same.symm) (stays known)
      · rw [storable.tool] at before
        cases before
    · intro other found
      rcases get?_persisted_after_eq_some.mp found with ⟨member, known⟩ | ⟨-, before⟩
      · rcases eq_or_handedOver_of_mem_moves member rfl with ⟨-, zero⟩ | ⟨met, handed⟩
        · exact asked zero
        · rw [apart handed other met] at known
          cases known
      · exact storable.pocket other before

/-! ### Accepted moves -/

/-- What an accepted move gives away is the pocket that was asked for, which is one of the magazine, and the
one that the first tool in the way gets from the moved tool. Whether the plan names pockets of the magazine
only, and whether it moves tools into such pockets only, depends on the latter alone. The overrides that it
writes are read again as they were written, unless that pocket is zero and goes to a tool of the library, or a
tool zero of the library is in the way. -/
theorem plan_within_iff (accepted : layers.plan capacity tool target = .ok plan) :
    (∀ pocket, pocket ∈ plan.pockets ↔
      target.pocket? = some pocket ∨ layers.handedOver? tool target = some pocket) ∧
    (∀ pocket, target.pocket? = some pocket → 1 ≤ pocket ∧ pocket ≤ capacity) ∧
    ((∀ pocket ∈ plan.pockets, Magazine.has capacity pocket = true) ↔
      ∀ pocket, layers.handedOver? tool target = some pocket → Magazine.has capacity pocket = true) ∧
    ((∀ other pocket, (plan.apply layers).pocketOf other = some pocket →
        layers.pocketOf other ≠ some pocket → Magazine.has capacity pocket = true) ↔
      ∀ pocket, layers.handedOver? tool target = some pocket → Magazine.has capacity pocket = true) ∧
    (layers.persisted.Storable →
      (Overrides.ofJson? (plan.apply layers).persisted.toJson = some (plan.apply layers).persisted ↔
        (layers.handedOver? tool target = some 0 →
          ∀ first, layers.counterpart? tool target = some first → layers.library.contains first = false) ∧
        (layers.library.contains 0 = true → 0 ∉ plan.displaced.map (·.1)))) := by
  obtain ⟨isTool, allowed, rfl⟩ := plan_eq_ok_iff.mp accepted
  have named (pocket : Pocket) : pocket ∈ (layers.draft tool target).pockets ↔
      target.pocket? = some pocket ∨ layers.handedOver? tool target = some pocket :=
    mem_pockets_draft.trans mem_given
  refine ⟨named, fun pocket asked => Magazine.has_eq_true_iff.mp (allowed pocket asked), ?_,
    moved_within_iff allowed, fun storable => ?_⟩
  · simp only [named]
    exact ⟨fun inside pocket handed => inside pocket (.inr handed),
      fun inside pocket gives => gives.elim (allowed pocket) (inside pocket)⟩
  · have positive : target.pocket? ≠ some 0 := fun zero => by
      have inside := allowed 0 zero
      simp [Magazine.has] at inside
    exact Iff.trans ⟨Overrides.storable_ofJson?, Overrides.ofJson?_toJson⟩
      (storable_persisted_after_iff storable isTool positive)

/-- Tool 1 is on record for pocket zero and moves to where tool 2 is, which gets the pocket; the override that
says so is refused when it is read. -/
theorem plan_within_iff_zero :
    let library : Library := ⟨[{ id := 1, pocket := some 0 }, { id := 2, pocket := some 1 }]⟩
    let layers : Layers := ⟨library, Table.empty, Table.empty⟩
    ∃ plan, layers.plan 8 1 (.inPocket 1) = .ok plan ∧ 0 ∈ plan.pockets ∧
      plan.persistedUpdates = [(1, some (.inPocket 1)), (2, some (.inPocket 0))] ∧
      Overrides.ofJson? (plan.apply layers).persisted.toJson ≠ some (plan.apply layers).persisted := by
  intro library layers
  have accepted : layers.plan 8 1 (.inPocket 1) = .ok (layers.draft 1 (.inPocket 1)) :=
    plan_eq_ok_iff.mpr ⟨by decide, fun pocket same => by cases same; decide, rfl⟩
  obtain ⟨named, -, -, -, read⟩ := plan_within_iff accepted
  refine ⟨_, accepted, (named 0).mpr (.inr (by decide)), by decide, fun same => ?_⟩
  have unknown := ((read Overrides.storable_empty).mp same).1 (by decide) 2 (by decide)
  exact absurd unknown (by decide)

/-- Tool 1 is on record for pocket 12, of a magazine that has 8 by now. Moving it to where tool 2 is sends tool 2
to pocket 12. Settling the same move in the session leaves tool 2 without a pocket. -/
theorem plan_within_shrunk :
    let library : Library := ⟨[{ id := 1, pocket := some 12 }, { id := 2, pocket := some 1 }]⟩
    let layers : Layers := ⟨library, Table.empty, Table.empty⟩
    let session := reconcile (layers.session.insert 1 (.inPocket 1)) layers.session library layers.persisted 8
    Magazine.has 8 12 = false ∧ (Layers.mk library layers.persisted session).pocketOf 2 = none ∧
    ¬ ∀ plan, layers.plan 8 1 (.inPocket 1) = .ok plan →
      ∀ pocket ∈ plan.pockets, Magazine.has 8 pocket = true := by
  intro library layers session
  have accepted : layers.plan 8 1 (.inPocket 1) = .ok (layers.draft 1 (.inPocket 1)) :=
    plan_eq_ok_iff.mpr ⟨by decide, fun pocket same => by cases same; decide, rfl⟩
  refine ⟨by decide, by decide, fun inside => ?_⟩
  have named : 12 ∈ (layers.draft 1 (.inPocket 1)).pockets := by decide
  exact absurd (inside _ accepted 12 named) (by decide)

end Layers
end ToolChanger

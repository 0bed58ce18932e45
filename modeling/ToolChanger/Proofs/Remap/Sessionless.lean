import ToolChanger.Proofs.Remap.Standing

namespace ToolChanger
namespace Layers

variable {library : Library} {stored : Overrides} {tool : ToolId} {pocket : Pocket}

theorem pocketOf_sessionless (library : Library) (stored : Overrides) (tool : ToolId) :
    (Layers.mk library stored Table.empty).pocketOf tool =
      (stored.get? tool).elim (library.pocketOf tool) Override.pocket? := by simp [pocketOf_eq]

theorem rank_sessionless (library : Library) (stored : Overrides) (tool : ToolId) :
    (Layers.mk library stored Table.empty).rank Table.empty tool =
      if stored.contains tool then 2 else 3 := rfl

theorem get?_stored_of_pocketOf {decided : Override} (stands : stored.get? tool = some decided)
    (held : (Layers.mk library stored Table.empty).pocketOf tool = some pocket) :
    decided = .inPocket pocket := by
  rw [pocketOf_sessionless, stands] at held
  cases decided with
  | inPocket place => exact congrArg Override.inPocket (Option.some.inj held)
  | outOfMagazine => cases held

theorem get?_stored_of_holder?
    (holds : (Layers.mk library stored Table.empty).holder? pocket = some tool) :
    stored.get? tool = some (.inPocket pocket) ∨
      stored.get? tool = none ∧ ∀ other, stored.get? other ≠ some (.inPocket pocket) := by
  have claims := mem_claimants.mp (mem_claimants_of_holder? holds)
  cases decided : stored.get? tool with
  | some decision =>
    exact .inl (congrArg some (get?_stored_of_pocketOf decided claims))
  | none =>
    refine .inr ⟨rfl, fun other placed => ?_⟩
    have rival : (Layers.mk library stored Table.empty).pocketOf other = some pocket := by
      rw [pocketOf_sessionless, placed]
      rfl
    have least := rank_le_of_holder? holds rival
    simp [rank_sessionless, Table.contains, decided, placed] at least

/-- Where one tool alone is on record for a pocket, it keeps it exactly when the stored overrides put it
there, or say nothing of it and put nobody else there. -/
theorem holder?_sessionless (alone : ∀ other, library.pocketOf other = some pocket ↔ other = tool) :
    (Layers.mk library stored Table.empty).holder? pocket = some tool ↔
      stored.get? tool = some (.inPocket pocket) ∨
        stored.get? tool = none ∧ ∀ other, stored.get? other ≠ some (.inPocket pocket) := by
  constructor
  · exact get?_stored_of_holder?
  · rintro (placed | ⟨free, nobody⟩)
    · have recorded : library.occupants pocket = [tool] :=
        List.perm_singleton.mp ((List.perm_ext_iff_of_nodup (library.nodup_occupants pocket)
          (List.pairwise_singleton _ tool)).mpr fun other => by
            rw [Library.mem_occupants_iff, alone, List.mem_singleton])
      have claims : (Layers.mk library stored Table.empty).pocketOf tool = some pocket := by
        rw [pocketOf_sessionless, placed]
        rfl
      obtain ⟨rest, first⟩ :
          ∃ rest, (Layers.mk library stored Table.empty).claimants pocket = tool :: rest := by
        unfold claimants
        simp only [recorded, List.cons_append, List.nil_append]
        exact ⟨_, List.filter_cons_of_pos (by simpa using claims)⟩
      refine holder?_of_head first fun other _ => ?_
      show (Layers.mk library stored Table.empty).rank Table.empty tool ≤
        (Layers.mk library stored Table.empty).rank Table.empty other
      rw [rank_sessionless, rank_sessionless, if_pos (by simp [Table.contains, placed])]
      split <;> omega
    · refine holder?_of_rank_lt (by rw [pocketOf_sessionless, free]; exact (alone tool).mpr rfl) ?_
      intro other claims different
      cases decided : stored.get? other with
      | none =>
        rw [pocketOf_sessionless, decided] at claims
        exact absurd ((alone other).mp claims) different
      | some decision =>
        obtain rfl := get?_stored_of_pocketOf decided claims
        exact absurd decided (nobody other)

theorem mem_placedIn_sessionless : tool ∈ (Layers.mk library stored Table.empty).placedIn pocket ↔
    stored.get? tool = some (.inPocket pocket) := by
  unfold placedIn
  rw [Table.mem_ids, Table.contains_iff]
  simp only [Table.get?_overlay, Table.get?_filter, Table.get?_empty]
  cases decided : stored.get? tool with
  | none => simp
  | some decision => cases decision <;> simp [Override.pocket?]

/-- A tool that a stored override puts in a pocket without a record of it there keeps it exactly when whoever
else is put there comes later and has no record of it either. -/
theorem holder?_sessionless_of_elsewhere (placed : stored.get? tool = some (.inPocket pocket))
    (elsewhere : library.pocketOf tool ≠ some pocket) :
    (Layers.mk library stored Table.empty).holder? pocket = some tool ↔
      ∀ other, stored.get? other = some (.inPocket pocket) →
        library.pocketOf other ≠ some pocket ∧ tool ≤ other := by
  have claims {other : ToolId} (there : stored.get? other = some (.inPocket pocket)) :
      (Layers.mk library stored Table.empty).pocketOf other = some pocket := by
    rw [pocketOf_sessionless, there]
    rfl
  have rank_placed {other : ToolId} (there : stored.get? other = some (.inPocket pocket)) :
      (Layers.mk library stored Table.empty).rank Table.empty other = 2 := by
    rw [rank_sessionless, if_pos (by simp [Table.contains, there])]
  unfold holder? claimants
  simp only [List.filter_append]
  rw [minOn?_append_eq_some_iff (by simp [Library.mem_occupants_iff, elsewhere]),
    minOn?_of_sorted ((sorted_placedIn _ _).filter _ |>.filter _)]
  · simp only [List.mem_filter, mem_placedIn_sessionless, Library.mem_occupants_iff, List.contains_eq_mem,
      decide_eq_true_eq, Bool.not_eq_true', decide_eq_false_iff_not]
    constructor
    · rintro ⟨above, -, least⟩ other there
      have away : library.pocketOf other ≠ some pocket := by
        intro recorded
        have lower := above other ⟨recorded, claims there⟩
        rw [rank_placed placed, rank_placed there] at lower
        omega
      exact ⟨away, least other ⟨⟨there, away⟩, claims there⟩⟩
    · intro later
      refine ⟨?_, ⟨⟨placed, elsewhere⟩, claims placed⟩, fun other inside => (later other inside.1.1).2⟩
      rintro other ⟨recorded, held⟩
      rw [rank_placed placed, rank_sessionless, if_neg]
      · omega
      · intro stands
        obtain ⟨decided, found⟩ := Table.contains_iff.mp stands
        obtain rfl := get?_stored_of_pocketOf found held
        exact (later other found).1 recorded
  · intro a insideA b insideB
    simp only [List.mem_filter, mem_placedIn_sessionless] at insideA insideB
    exact (rank_placed insideA.1.1).trans (rank_placed insideB.1.1).symm

end Layers
end ToolChanger

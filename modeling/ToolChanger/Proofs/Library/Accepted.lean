import ToolChanger.Proofs.Library.Sync

namespace ToolChanger

open Program (Reference)

namespace Classification

variable {classification : Classification} {library : Library} {reference : Reference} {tool other : ToolId}
  {pocket place : Pocket}

/-- No pocket is given to two tools. -/
def OneToolPerPocket (classification : Classification) : Prop :=
  ∀ a ∈ classification.all, ∀ b ∈ classification.all, ∀ pocket,
    a.pocket = some pocket → b.pocket = some pocket → a.tool = b.tool

theorem OneToolPerPocket.of_nodup {classification : Classification}
    (nodup : (classification.inMagazine.filterMap (·.pocket)).Nodup) : classification.OneToolPerPocket := by
  rw [List.Nodup, List.pairwise_filterMap] at nodup
  have symmetric : Std.Symm fun x y : Reference =>
      ∀ p, x.pocket = some p → ∀ q, y.pocket = some q → p ≠ q :=
    ⟨fun x y separate p inY q inX => (separate q inX p inY).symm⟩
  intro a listedA b listedB pocket heldA heldB
  by_contra different
  exact nodup.forall (mem_inMagazine.mpr ⟨listedA, pocket, heldA⟩) (mem_inMagazine.mpr ⟨listedB, pocket, heldB⟩)
    (fun same => different (congrArg Reference.tool same)) pocket heldA pocket heldB rfl

structure Consistent (classification : Classification) : Prop where
  place : ∀ a ∈ classification.all, ∀ b ∈ classification.all, a.tool = b.tool → a.pocket = b.pocket
  apart : classification.OneToolPerPocket

theorem consistent_classify {references : List Reference} {library : Library} {overrides : Overrides}
    (apart : (classify references library overrides).OneToolPerPocket) :
    (classify references library overrides).Consistent where
  apart := apart
  place a listedA b listedB same := by
    obtain ⟨scannedA, -, rfl⟩ := List.mem_map.mp listedA
    obtain ⟨scannedB, -, rfl⟩ := List.mem_map.mp listedB
    exact congrArg (effectivePocket library overrides) same

namespace Consistent

theorem place_eq (consistent : classification.Consistent)
    (given : (tool, pocket) ∈ classification.assignments library)
    (too : (tool, place) ∈ classification.assignments library) : pocket = place := by
  obtain ⟨a, listedA, rfl, heldA, -⟩ := Library.mem_assignments.mp given
  obtain ⟨b, listedB, same, heldB, -⟩ := Library.mem_assignments.mp too
  have agree := consistent.place b listedB a listedA same
  rw [heldA, heldB] at agree
  exact (Option.some.inj agree).symm

theorem owner_eq (consistent : classification.Consistent)
    (given : (tool, pocket) ∈ classification.assignments library)
    (too : (other, pocket) ∈ classification.assignments library) : tool = other := by
  obtain ⟨a, listedA, rfl, heldA, -⟩ := Library.mem_assignments.mp given
  obtain ⟨b, listedB, rfl, heldB, -⟩ := Library.mem_assignments.mp too
  exact consistent.apart a listedA b listedB pocket heldA heldB

theorem notMem_removals (consistent : classification.Consistent)
    (given : (tool, pocket) ∈ classification.assignments library) : tool ∉ classification.removals := by
  intro removed
  obtain ⟨a, listedA, rfl, heldA, -⟩ := Library.mem_assignments.mp given
  obtain ⟨b, listedB, same, nowhere⟩ := Library.exists_of_mem_removals removed
  have agree := consistent.place b listedB a listedA same
  rw [heldA, nowhere] at agree
  cases agree

theorem ownerOf_eq_some_iff (consistent : classification.Consistent) :
    ownerOf (classification.assignments library) pocket = some tool ↔
      (tool, pocket) ∈ classification.assignments library := by
  constructor
  · exact Library.mem_of_ownerOf
  · intro given
    obtain ⟨owner, owned⟩ := Library.exists_ownerOf given
    rw [owned, consistent.owner_eq (Library.mem_of_ownerOf owned) given]

theorem pairwise_assignments (consistent : classification.Consistent) :
    (classification.assignments library).Pairwise fun first later => first.1 = later.1 → first = later := by
  refine List.pairwise_of_forall_mem_list ?_
  rintro ⟨tool, pocket⟩ given ⟨_, place⟩ too rfl
  exact congrArg (tool, ·) (consistent.place_eq given too)

end Consistent
end Classification

namespace Library

variable {library : Library} {classification : Classification} {tool other : ToolId} {pocket : Pocket}

/-! ### Where every tool is in the end -/

theorem pocketOf_update_of_ungiven {assignments : List (ToolId × Pocket)}
    (ungiven : ∀ pocket, (tool, pocket) ∉ assignments) :
    (library.update (assignments.map fun (tool, pocket) => (tool, some pocket))).pocketOf tool =
      library.pocketOf tool := by
  refine pocketOf_update_of_notMem fun listed => ?_
  rw [List.map_map] at listed
  obtain ⟨⟨_, pocket⟩, given, rfl⟩ := List.mem_map.mp listed
  exact ungiven pocket given

theorem pocketOf_recorded_of_given (consistent : classification.Consistent)
    (given : (tool, pocket) ∈ classification.assignments library) :
    (library.recorded classification).pocketOf tool = some pocket := by
  unfold recorded
  rw [pocketOf_update_none, if_neg (consistent.notMem_removals given)]
  obtain ⟨-, -, -, -, known⟩ := mem_assignments.mp given
  refine pocketOf_update_of_agree known (List.mem_map.mpr ⟨_, given, rfl⟩) fun value member => ?_
  obtain ⟨⟨_, place⟩, too, same⟩ := List.mem_map.mp member
  obtain ⟨rfl, rfl⟩ := Prod.mk.inj same
  exact congrArg some (consistent.place_eq too given)

theorem pocketOf_recorded_of_removed (removed : tool ∈ classification.removals) :
    (library.recorded classification).pocketOf tool = none := by
  unfold recorded
  rw [pocketOf_update_none, if_pos removed]

theorem pocketOf_recorded_of_other (stays : tool ∉ classification.removals)
    (ungiven : ∀ pocket, (tool, pocket) ∉ classification.assignments library) :
    (library.recorded classification).pocketOf tool = library.pocketOf tool := by
  unfold recorded
  rw [pocketOf_update_none, if_neg stays, pocketOf_update_of_ungiven ungiven]

theorem mem_ousted_recorded (consistent : classification.Consistent) :
    tool ∈ (library.recorded classification).ousted (classification.assignments library) ↔
      tool ∉ classification.removals ∧ (∀ pocket, (tool, pocket) ∉ classification.assignments library) ∧
      ∃ pocket owner, library.pocketOf tool = some pocket ∧
        (owner, pocket) ∈ classification.assignments library := by
  simp only [mem_ousted, consistent.ownerOf_eq_some_iff]
  constructor
  · rintro ⟨pocket, owner, held, given, different⟩
    have stays : tool ∉ classification.removals := by
      intro removed
      rw [pocketOf_recorded_of_removed removed] at held
      cases held
    have ungiven : ∀ place, (tool, place) ∉ classification.assignments library := by
      intro place too
      rw [pocketOf_recorded_of_given consistent too] at held
      obtain rfl := Option.some.inj held
      exact different (consistent.owner_eq given too)
    rw [pocketOf_recorded_of_other stays ungiven] at held
    exact ⟨stays, ungiven, pocket, owner, held, given⟩
  · rintro ⟨stays, ungiven, pocket, owner, held, given⟩
    refine ⟨pocket, owner, (pocketOf_recorded_of_other stays ungiven).trans held, given, ?_⟩
    rintro rfl
    exact ungiven pocket given

theorem pocketOf_sync_of_given (consistent : classification.Consistent)
    (given : (tool, pocket) ∈ classification.assignments library) :
    (library.sync classification).1.pocketOf tool = some pocket := by
  rw [pocketOf_sync, if_neg, pocketOf_recorded_of_given consistent given]
  intro ousted
  exact ((mem_ousted_recorded consistent).mp ousted).2.1 pocket given

theorem pocketOf_sync_of_removed (removed : tool ∈ classification.removals) :
    (library.sync classification).1.pocketOf tool = none := by
  rw [pocketOf_sync, pocketOf_recorded_of_removed removed, ite_self]

theorem pocketOf_sync_of_taken (consistent : classification.Consistent)
    (ungiven : ∀ pocket, (tool, pocket) ∉ classification.assignments library)
    (held : library.pocketOf tool = some pocket)
    (given : (other, pocket) ∈ classification.assignments library) :
    (library.sync classification).1.pocketOf tool = none := by
  by_cases removed : tool ∈ classification.removals
  · exact pocketOf_sync_of_removed removed
  · rw [pocketOf_sync, if_pos]
    exact (mem_ousted_recorded consistent).mpr ⟨removed, ungiven, pocket, other, held, given⟩

theorem pocketOf_sync_of_free (consistent : classification.Consistent)
    (stays : tool ∉ classification.removals)
    (ungiven : ∀ pocket, (tool, pocket) ∉ classification.assignments library)
    (free : ∀ pocket, library.pocketOf tool = some pocket →
      ∀ other, (other, pocket) ∉ classification.assignments library) :
    (library.sync classification).1.pocketOf tool = library.pocketOf tool := by
  rw [pocketOf_sync, if_neg, pocketOf_recorded_of_other stays ungiven]
  intro ousted
  obtain ⟨-, -, pocket, owner, held, given⟩ := (mem_ousted_recorded consistent).mp ousted
  exact free pocket held owner given

theorem pocketOf_sync_eq_iff_of_given (consistent : classification.Consistent)
    (given : (tool, pocket) ∈ classification.assignments library) :
    (library.sync classification).1.pocketOf other = some pocket ↔ other = tool := by
  constructor
  · intro held
    exact (eq_of_pocketOf_sync held (consistent.ownerOf_eq_some_iff.mpr given)).symm
  · rintro rfl
    exact pocketOf_sync_of_given consistent given

/-- If a classification gives each tool one pocket and each pocket to one tool, then the tool that was
accepted in a pocket is the only one on record for it. -/
theorem pocketOf_sync_of_accepted {place : ToolId → Option Pocket}
    (placed : ∀ reference ∈ classification.all, reference.pocket = place reference.tool)
    (apart : ∀ a b pocket, place a = some pocket → place b = some pocket → a = b)
    {reference : Reference} (listed : reference ∈ classification.all)
    (held : reference.pocket = some pocket) (known : library.contains reference.tool = true)
    (other : ToolId) :
    (library.sync classification).1.pocketOf other = some pocket ↔ other = reference.tool :=
  pocketOf_sync_eq_iff_of_given
    { place := fun a listedA b listedB same => by rw [placed a listedA, placed b listedB, same]
      apart := fun a listedA b listedB pocket heldA heldB =>
        apart _ _ pocket ((placed a listedA).symm.trans heldA) ((placed b listedB).symm.trans heldB) }
    (mem_assignments.mpr ⟨reference, listed, rfl, held, known⟩)

end Library
end ToolChanger

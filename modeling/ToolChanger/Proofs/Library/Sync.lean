import Mathlib.Data.List.Pairwise
import ToolChanger.Proofs.Classification.Buckets
import ToolChanger.Proofs.Remap.Update
import ToolChanger.Sync

/-!
# What accepting leaves on record

Bringing the library up to date is three runs of updates: assign, clear, vacate. A record that names a pocket after
them was either given it or kept it, and whoever is in the way of a tool that was given one is vacated.
-/

namespace ToolChanger

open Program (Reference)

namespace Classification

variable {classification : Classification}

theorem mem_removals {tool : ToolId} : tool ∈ classification.removals ↔
    ∃ reference ∈ classification.manual, reference.overridden = true ∧ reference.tool = tool := by
  simp [removals, and_assoc]

end Classification

namespace Library

variable {library : Library} {tool : ToolId} {pocket : Pocket}

/-- The pockets on record are pairwise different. Records that do not count are not looked at. -/
def OneToolPerPocket (library : Library) : Prop := (library.indexed.filterMap (·.pocket)).Nodup

instance (library : Library) : Decidable library.OneToolPerPocket :=
  inferInstanceAs (Decidable (List.Nodup _))

theorem oneToolPerPocket_iff : library.OneToolPerPocket ↔
    ∀ a b pocket, library.pocketOf a = some pocket → library.pocketOf b = some pocket → a = b := by
  unfold OneToolPerPocket
  rw [List.Nodup, List.pairwise_filterMap]
  constructor
  · intro apart a b pocket heldA heldB
    obtain ⟨first, foundA, pocketA⟩ := Option.bind_eq_some_iff.mp heldA
    obtain ⟨second, foundB, pocketB⟩ := Option.bind_eq_some_iff.mp heldB
    rw [← id_eq_of_get? foundA, ← id_eq_of_get? foundB]
    by_contra different
    have symmetric : Std.Symm fun x y : Tool =>
        ∀ p, x.pocket = some p → ∀ q, y.pocket = some q → p ≠ q :=
      ⟨fun x y separate p inY q inX => (separate q inX p inY).symm⟩
    exact apart.forall (mem_indexed_of_get? foundA) (mem_indexed_of_get? foundB)
      (fun same => different (congrArg Tool.id same)) pocket pocketA pocket pocketB rfl
  · intro apart
    have distinct : library.indexed.Nodup := List.Nodup.of_map _ (nodup_ids library)
    refine distinct.pairwise_of_forall_ne fun first listedA second listedB different p inA q inB => ?_
    rintro rfl
    have foundA := mem_indexed_iff.mp listedA
    have foundB := mem_indexed_iff.mp listedB
    have same : first.id = second.id :=
      apart _ _ p (Option.bind_eq_some_iff.mpr ⟨first, foundA, inA⟩)
        (Option.bind_eq_some_iff.mpr ⟨second, foundB, inB⟩)
    rw [← same, foundA] at foundB
    exact different (Option.some.inj foundB)

/-! ### Runs of updates -/

theorem pocketOf_eq_none_of_contains (unknown : library.contains tool = false) :
    library.pocketOf tool = none := by
  rw [contains, Option.isSome_eq_false_iff, Option.isNone_iff_eq_none] at unknown
  rw [pocketOf, unknown]
  rfl

theorem setPocket_pocketOf (library : Library) (tool : ToolId) :
    library.setPocket tool (library.pocketOf tool) = library := by
  obtain ⟨records⟩ := library
  have kept : ∀ records : List Tool,
      setFirst tool (Library.mk records |>.pocketOf tool) records = records := by
    intro records
    induction records with
    | nil => rfl
    | cons head rest ih =>
      unfold setFirst
      by_cases first : head.id = tool
      · subst first
        simp [pocketOf, get?]
      · have behind : (Library.mk (head :: rest)).pocketOf tool = (Library.mk rest).pocketOf tool := by
          simp [pocketOf, get?, first]
        rw [if_neg first, behind, ih]
  exact congrArg Library.mk (kept records)

theorem assignAll_fst (library : Library) (assignments : List (ToolId × Pocket)) :
    (library.assignAll assignments).1 =
      library.update (assignments.map fun (tool, pocket) => (tool, some pocket)) := by
  induction assignments generalizing library with
  | nil => rfl
  | cons assignment rest ih =>
    obtain ⟨tool, pocket⟩ := assignment
    rw [assignAll, List.map_cons, update_cons]
    split
    · rename_i recorded
      have idle : library.setPocket tool (some pocket) = library :=
        recorded ▸ setPocket_pocketOf library tool
      rw [ih, idle]
    · exact ih _

theorem clearAll_fst (library : Library) (tools : List ToolId) :
    (library.clearAll tools).1 = library.update (tools.map (·, none)) := by
  induction tools generalizing library with
  | nil => rfl
  | cons tool rest ih =>
    rw [clearAll, List.map_cons, update_cons]
    split
    · rename_i idle
      have recorded : library.pocketOf tool = none := by simpa using idle
      have idle : library.setPocket tool none = library := recorded ▸ setPocket_pocketOf library tool
      rw [ih, idle]
    · exact ih _

theorem mem_or_of_pocketOf_update {updates : List (ToolId × Option Pocket)}
    (held : (library.update updates).pocketOf tool = some pocket) :
    (tool, some pocket) ∈ updates ∨ library.pocketOf tool = some pocket := by
  induction updates generalizing library with
  | nil => exact .inr held
  | cons update rest ih =>
    rcases ih held with later | now
    · exact .inl (List.mem_cons_of_mem _ later)
    · rw [pocketOf_setPocket] at now
      split at now
      · rename_i written
        refine .inl (List.mem_cons.mpr (.inl ?_))
        exact Prod.ext written.1 now.symm
      · exact .inr now

theorem pocketOf_setPocket_none (library : Library) (tool other : ToolId) :
    (library.setPocket tool none).pocketOf other = if other = tool then none else library.pocketOf other := by
  rw [pocketOf_setPocket]
  by_cases same : other = tool
  · subst same
    cases known : library.contains other with
    | true => simp
    | false => simp [pocketOf_eq_none_of_contains known]
  · simp [same]

theorem pocketOf_update_none (library : Library) (tools : List ToolId) (tool : ToolId) :
    (library.update (tools.map (·, none))).pocketOf tool =
      if tool ∈ tools then none else library.pocketOf tool := by
  induction tools generalizing library with
  | nil => simp [update]
  | cons first rest ih =>
    rw [List.map_cons, update_cons, ih, pocketOf_setPocket_none]
    by_cases later : tool ∈ rest <;> simp [later]

/-! ### Bringing the library up to date -/

theorem mem_of_ownerOf {assignments : List (ToolId × Pocket)}
    (owned : ownerOf assignments pocket = some tool) : (tool, pocket) ∈ assignments := by
  obtain ⟨⟨owner, place⟩, found, rfl⟩ := Option.map_eq_some_iff.mp owned
  have same : place = pocket := by simpa using List.find?_some found
  exact same ▸ List.mem_reverse.mp (List.mem_of_find?_eq_some found)

theorem exists_ownerOf {assignments : List (ToolId × Pocket)}
    (given : (tool, pocket) ∈ assignments) : ∃ owner, ownerOf assignments pocket = some owner := by
  unfold ownerOf
  cases found : assignments.reverse.find? (·.2 = pocket) with
  | some assignment => exact ⟨assignment.1, rfl⟩
  | none =>
    have nobody := List.find?_eq_none.mp found (tool, pocket) (List.mem_reverse.mpr given)
    simp at nobody

theorem mem_ousted {assignments : List (ToolId × Pocket)} :
    tool ∈ library.ousted assignments ↔ ∃ pocket owner, library.pocketOf tool = some pocket ∧
      ownerOf assignments pocket = some owner ∧ owner ≠ tool := by
  simp only [ousted, List.mem_map, List.mem_filter, Option.any_eq_true, decide_eq_true_eq]
  constructor
  · rintro ⟨record, ⟨listed, owner, owned, different⟩, rfl⟩
    obtain ⟨pocket, held, owned⟩ := Option.bind_eq_some_iff.mp owned
    have placed : library.pocketOf record.id = some pocket := by
      rw [pocketOf, mem_indexed_iff.mp listed]
      exact held
    exact ⟨pocket, owner, placed, owned, different⟩
  · rintro ⟨pocket, owner, placed, owned, different⟩
    obtain ⟨record, found, held⟩ := Option.bind_eq_some_iff.mp placed
    obtain rfl := id_eq_of_get? found
    exact ⟨record, ⟨mem_indexed_of_get? found, owner, by rw [held]; exact owned, different⟩, rfl⟩

/-- The library once the accepted pockets are assigned and the removed tools cleared. -/
def recorded (library : Library) (classification : Classification) : Library :=
  (library.update ((classification.assignments library).map fun (tool, pocket) => (tool, some pocket))).update
    (classification.removals.map (·, none))

theorem pocketOf_sync (library : Library) (classification : Classification) (tool : ToolId) :
    (library.sync classification).1.pocketOf tool =
      if tool ∈ (library.recorded classification).ousted (classification.assignments library) then none
      else (library.recorded classification).pocketOf tool := by
  unfold sync recorded
  simp only [assignAll_fst, clearAll_fst, pocketOf_update_none]

theorem mem_or_of_pocketOf_sync {classification : Classification}
    (held : (library.sync classification).1.pocketOf tool = some pocket) :
    (tool, pocket) ∈ classification.assignments library ∨ library.pocketOf tool = some pocket := by
  rw [pocketOf_sync] at held
  split at held
  · cases held
  rw [recorded, pocketOf_update_none] at held
  split at held
  · cases held
  rcases mem_or_of_pocketOf_update held with written | before
  · obtain ⟨assignment, listed, same⟩ := List.mem_map.mp written
    obtain ⟨rfl, rfl⟩ := Prod.mk.inj same |>.imp id Option.some.inj
    exact .inl listed
  · exact .inr before

theorem eq_of_pocketOf_sync {classification : Classification} {owner : ToolId}
    (held : (library.sync classification).1.pocketOf tool = some pocket)
    (owned : ownerOf (classification.assignments library) pocket = some owner) : owner = tool := by
  rw [pocketOf_sync] at held
  split at held
  · cases held
  rename_i stays
  by_contra different
  exact stays (mem_ousted.mpr ⟨pocket, owner, held, owned, different⟩)

/-- Two records for one pocket would both be its owner, or both have been there before. -/
theorem oneToolPerPocket_sync (unshared : library.OneToolPerPocket) (classification : Classification) :
    (library.sync classification).1.OneToolPerPocket := by
  rw [oneToolPerPocket_iff] at unshared ⊢
  intro a b pocket heldA heldB
  cases owned : ownerOf (classification.assignments library) pocket with
  | some owner => exact (eq_of_pocketOf_sync heldA owned).symm.trans (eq_of_pocketOf_sync heldB owned)
  | none =>
    have nobody (tool : ToolId) : (tool, pocket) ∉ classification.assignments library := by
      intro given
      obtain ⟨owner, found⟩ := exists_ownerOf given
      rw [owned] at found
      cases found
    exact unshared a b pocket ((mem_or_of_pocketOf_sync heldA).resolve_left (nobody a))
      ((mem_or_of_pocketOf_sync heldB).resolve_left (nobody b))

/-! ### What was accepted -/

theorem assignAll_idle {assignments : List (ToolId × Pocket)}
    (idle : (library.assignAll assignments).2 = []) : (library.assignAll assignments).1 = library := by
  induction assignments with
  | nil => rfl
  | cons assignment rest ih =>
    obtain ⟨tool, pocket⟩ := assignment
    rw [assignAll] at idle ⊢
    split at idle
    · rename_i recorded
      rw [if_pos recorded]
      exact ih idle
    · cases idle

theorem clearAll_idle {tools : List ToolId} (idle : (library.clearAll tools).2 = []) :
    (library.clearAll tools).1 = library := by
  induction tools with
  | nil => rfl
  | cons tool rest ih =>
    rw [clearAll] at idle ⊢
    split at idle
    · rename_i cleared
      rw [if_pos cleared]
      exact ih idle
    · cases idle

theorem sync_idle {classification : Classification}
    (idle : (library.sync classification).2.count = 0) : (library.sync classification).1 = library := by
  unfold sync Changes.count at idle
  simp only [Nat.add_eq_zero_iff, List.length_eq_zero_iff] at idle
  obtain ⟨⟨assigned, cleared⟩, vacated⟩ := idle
  unfold sync
  simp only
  rw [clearAll_idle vacated, clearAll_idle cleared, assignAll_idle assigned]

theorem exists_update_sync (library : Library) (classification : Classification) :
    ∃ updates, (library.sync classification).1 = library.update updates := by
  simp only [sync, assignAll_fst, clearAll_fst, ← update_append]
  exact ⟨_, rfl⟩

theorem contains_sync (library : Library) (classification : Classification) (tool : ToolId) :
    (library.sync classification).1.contains tool = library.contains tool := by
  unfold sync
  simp only [assignAll_fst, clearAll_fst, contains_update]

variable {classification : Classification}

theorem mem_assignments_inMagazine : (tool, pocket) ∈ classification.assignments library ↔
    ∃ reference ∈ classification.inMagazine, reference.tool = tool ∧ reference.pocket = some pocket ∧
      library.contains tool = true := by
  unfold Classification.assignments
  rw [List.mem_filterMap]
  refine exists_congr fun reference => and_congr_right fun _ => ?_
  constructor
  · intro made
    split at made
    · rename_i known
      obtain ⟨held, assigned, same⟩ := Option.map_eq_some_iff.mp made
      obtain ⟨rfl, rfl⟩ := Prod.mk.inj same
      exact ⟨rfl, assigned, known⟩
    · cases made
  · rintro ⟨rfl, assigned, known⟩
    simp [known, assigned]

theorem mem_assignments : (tool, pocket) ∈ classification.assignments library ↔
    ∃ reference ∈ classification.all, reference.tool = tool ∧ reference.pocket = some pocket ∧
      library.contains tool = true := by
  rw [mem_assignments_inMagazine]
  constructor
  · rintro ⟨reference, listed, named, held, known⟩
    exact ⟨reference, (Classification.mem_inMagazine.mp listed).1, named, held, known⟩
  · rintro ⟨reference, listed, named, held, known⟩
    exact ⟨reference, Classification.mem_inMagazine.mpr ⟨listed, pocket, held⟩, named, held, known⟩

theorem exists_of_mem_removals (removed : tool ∈ classification.removals) :
    ∃ reference ∈ classification.all, reference.tool = tool ∧ reference.pocket = none := by
  obtain ⟨reference, byHand, -, named⟩ := Classification.mem_removals.mp removed
  obtain ⟨listed, nowhere, -⟩ := Classification.mem_manual.mp byHand
  exact ⟨reference, listed, named, nowhere⟩

end Library
end ToolChanger
